import MatterRsServer.Controller.StoredJson
import MatterRsServer.Lib.Result
import MatterRsServer.Migrate.Jsdb

/-!
# Tagged values of matter.js

`crates/migrate/src/decode.rs`: a string that looks like a tagged document is parsed as one,
and an unknown tag is an error.
-/
namespace MatterRsServer.Migrate
open Lib Wire Controller

inductive DecodeError where
  | unknownTag (tag : String)
  | malformed (reason : String)
  | wrongType (expected got : String)

namespace DecodeError

def display : DecodeError → String
  | .unknownTag tag => s!"unknown __object__ tag {tag.quote}"
  | .malformed reason => s!"malformed tagged value: {reason}"
  | .wrongType expected got => s!"expected {expected}, got {got}"

end DecodeError

/-- `TAG_PREFIX`. -/
def tagPrefix : String := "\x7b\"__object__\":\""

def bigintTags : List String := ["BigInt", "EventNumber", "FabricId", "NodeId"]

def numberTags : List String :=
  ["AttributeId", "CaseAuthenticatedTag", "ClusterId", "CommandId", "DataVersion",
    "DeviceTypeId", "EndpointNumber", "EntryIndex", "EventId", "FabricIndex",
    "FieldId", "GroupId", "VendorId"]

inductive Tagged where
  | u64 (n : UInt64)
  | bytes (bytes : Bytes)
  | mapEntries (entries : List (Json × Json))
  | undefined

/-- What the parser of the store and the printer of values are. -/
structure Texts where
  fromStr : String → Except String Json
  toText : Json → String

/-- Why `str::parse::<u64>` refuses the digits of a text, reading from the left. -/
def parseU64Digits (n : Nat) : List Char → String
  | [] => "number too large to fit in target type"
  | c :: rest =>
    if c.isDigit then
      if 10 * n + (c.toNat - '0'.toNat) < 2 ^ 64 then
        parseU64Digits (10 * n + (c.toNat - '0'.toNat)) rest
      else "number too large to fit in target type"
    else "invalid digit found in string"

/-- `str::parse::<u64>`. -/
def parseU64 (s : String) : Except String UInt64 :=
  match Text.parseUnsigned (2 ^ 64) s.toList with
  | some n => .ok (UInt64.ofNat n)
  | none =>
    if s.isEmpty then .error "cannot parse integer from empty string"
    else if s = "+" then .error "invalid digit found in string"
    else .error (parseU64Digits 0 (Text.dropPlus s.toList))

/-- `hex::decode` of one byte of text. -/
def hexNibble (c : UInt8) (index : Nat) : Except String UInt8 :=
  if 0x30 ≤ c ∧ c ≤ 0x39 then .ok (c - 0x30)
  else if 0x41 ≤ c ∧ c ≤ 0x46 then .ok (c - 0x41 + 10)
  else if 0x61 ≤ c ∧ c ≤ 0x66 then .ok (c - 0x61 + 10)
  else .error s!"Invalid character {(Char.ofNat c.toNat).quote} at position {index}"

def hexPairs (index : Nat) : List UInt8 → Except String Bytes
  | high :: low :: rest => do
    let h ← hexNibble high index
    let l ← hexNibble low (index + 1)
    return (h <<< 4 ||| l) :: (← hexPairs (index + 2) rest)
  | _ => .ok []

/-- `hex::decode`. -/
def hexDecode (s : String) : Except String Bytes :=
  if s.utf8ByteSize % 2 ≠ 0 then .error "Odd number of digits"
  else hexPairs 0 s.toUTF8.data.toList

/-- `hex::encode`. -/
def hexEncode (bytes : Bytes) : String :=
  .ofList (bytes.flatMap fun b => [Nat.digitChar (b.toNat / 16), Nat.digitChar (b.toNat % 16)])

/-- One `[key, value]` pair. -/
def entryOf : Json → Except DecodeError (Json × Json)
  | .arr [k, v] => .ok (k, v)
  | _ => .error (.malformed "Map entry is not a [key, value] pair")

/-- `entries_from_array`. -/
def entriesFromArray : Json → Except DecodeError (List (Json × Json))
  | .arr items => items.mapM entryOf
  | _ => .error (.malformed "Map __value__ is not an array")

/-- A parser's error as a malformed value. -/
def malformedBy {α : Type} (what : String) : Except String α → Except DecodeError α
  | .ok a => .ok a
  | .error e => .error (.malformed s!"{what}{e}")

/-- The payload, or the reason why it is missing. -/
def payload {α : Type} (reason : String) : Option α → Except DecodeError α
  | some a => .ok a
  | none => .error (.malformed reason)

/-- `parse_tagged_inner`. -/
def parseTaggedInner (texts : Texts) (s : String) : Except DecodeError Tagged := do
  let doc ← malformedBy "" (texts.fromStr s)
  let tag ← payload "__object__ is not a string" ((doc.get "__object__").bind Json.asStr)
  let value := doc.get "__value__"
  if tag = "Undefined" then return .undefined
  else if tag ∈ bigintTags then
    let text ← payload s!"{tag} without a string __value__" (value.bind Json.asStr)
    return .u64 (← malformedBy s!"{tag} {text.quote}: " (parseU64 text))
  else if tag ∈ numberTags then
    let n ← payload s!"{tag} without a u64 __value__" (value.bind readU64)
    return .u64 n
  else if tag = "Uint8Array" then
    let text ← payload "Uint8Array without a string __value__" (value.bind Json.asStr)
    return .bytes (← malformedBy "Uint8Array hex: " (hexDecode text))
  else if tag = "Map" then
    let text ← payload "Map without a string __value__" (value.bind Json.asStr)
    let inner ← malformedBy "Map: " (texts.fromStr text)
    return .mapEntries (← entriesFromArray inner)
  else throw (.unknownTag tag)

/-- `parse_tagged`: `none` for an ordinary value. -/
def parseTagged (texts : Texts) (v : Json) : Option (Except DecodeError Tagged) :=
  match v.asStr with
  | some s =>
    if tagPrefix.toList.isPrefixOf s.toList && s.toList.getLast? = some '\x7d' then
      some (parseTaggedInner texts s)
    else none
  | none => none

/-- `short_debug`. -/
def shortDebug (texts : Texts) (v : Json) : String :=
  let s := (texts.toText v).toList
  if s.length > 80 then .ofList (s.take 80 ++ ['…']) else .ofList s

def wrongType (texts : Texts) (expected : String) (v : Json) : DecodeError :=
  .wrongType expected (shortDebug texts v)

def asU64 (texts : Texts) (v : Json) : Except DecodeError UInt64 :=
  match parseTagged texts v with
  | some (.ok (.u64 n)) => .ok n
  | some (.ok _) => .error (wrongType texts "u64" v)
  | some (.error e) => .error e
  | none =>
    match readU64 v with
    | some n => .ok n
    | none => .error (wrongType texts "u64" v)

def asBytes (texts : Texts) (v : Json) : Except DecodeError Bytes :=
  match parseTagged texts v with
  | some (.ok (.bytes b)) => .ok b
  | some (.ok _) => .error (wrongType texts "Uint8Array" v)
  | some (.error e) => .error e
  | none => .error (wrongType texts "Uint8Array" v)

def asStr (texts : Texts) (v : Json) : Except DecodeError String :=
  match parseTagged texts v with
  | some (.ok _) => .error (wrongType texts "plain string" v)
  | some (.error e) => .error e
  | none =>
    match v.asStr with
    | some s => .ok s
    | none => .error (wrongType texts "plain string" v)

/-- `as_map_entries`: a `Map`, or an array of pairs. -/
def asMapEntries (texts : Texts) (v : Json) : Except DecodeError (List (Json × Json)) :=
  match parseTagged texts v with
  | some (.ok (.mapEntries e)) => .ok e
  | some (.ok _) => .error (wrongType texts "Map" v)
  | some (.error e) => .error e
  | none =>
    match v with
    | .arr _ => entriesFromArray v
    | _ => .error (wrongType texts "Map" v)

end MatterRsServer.Migrate
