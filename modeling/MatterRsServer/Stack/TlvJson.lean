import MatterRsServer.Gen.Tables
import MatterRsServer.Stack.Tlv

/-!
# TLV to JSON and back

`crates/stack/src/tlv_json.rs`. Every error of the source is `InvalidData`, so a failed
conversion is `none`. The reader recurses over the element, the writer over the JSON
value; what the writer returns is the element that `write_json` puts under its tag.
-/
namespace MatterRsServer.Stack
open Lib Wire Gen

def matterEpochOffsetS : Nat := 946684800
def matterEpochOffsetUs : Nat := 946684800000000

def maxDepth : Nat := 32

/-- What `gen` knows about the slot that a JSON value is written into. -/
structure TypeHint where
  ty : String
  isList : Bool
  cluster : Option Cluster

inductive Base where
  | bool
  | unsigned (bytes : Nat)
  | signed (bytes : Nat)
  | single
  | double
  | utf8
  | octets
  | epochS
  | epochUs
deriving DecidableEq

def baseTypes : List (String × Base) :=
  [("boolean", .bool), ("single", .single), ("double", .double),
   ("char_string", .utf8), ("long_char_string", .utf8),
   ("octet_string", .octets), ("long_octet_string", .octets),
   ("epoch_s", .epochS), ("epoch_us", .epochUs),
   ("int8u", .unsigned 1), ("enum8", .unsigned 1), ("bitmap8", .unsigned 1),
   ("percent", .unsigned 1), ("fabric_idx", .unsigned 1),
   ("action_id", .unsigned 1), ("priority", .unsigned 1), ("status", .unsigned 1),
   ("int16u", .unsigned 2), ("enum16", .unsigned 2), ("bitmap16", .unsigned 2),
   ("percent100ths", .unsigned 2), ("group_id", .unsigned 2),
   ("endpoint_no", .unsigned 2), ("vendor_id", .unsigned 2), ("entry_idx", .unsigned 2),
   ("int24u", .unsigned 3),
   ("int32u", .unsigned 4), ("bitmap32", .unsigned 4), ("cluster_id", .unsigned 4),
   ("attrib_id", .unsigned 4), ("field_id", .unsigned 4), ("command_id", .unsigned 4),
   ("event_id", .unsigned 4), ("devtype_id", .unsigned 4), ("trans_id", .unsigned 4),
   ("data_ver", .unsigned 4), ("elapsed_s", .unsigned 4),
   ("int40u", .unsigned 5), ("int48u", .unsigned 6), ("int56u", .unsigned 7),
   ("int64u", .unsigned 8), ("bitmap64", .unsigned 8), ("node_id", .unsigned 8),
   ("fabric_id", .unsigned 8), ("subject_id", .unsigned 8), ("event_no", .unsigned 8),
   ("systime_us", .unsigned 8), ("systime_ms", .unsigned 8), ("posix_ms", .unsigned 8),
   ("money", .unsigned 8),
   ("int8s", .signed 1), ("int16s", .signed 2), ("temperature", .signed 2),
   ("int24s", .signed 3), ("int32s", .signed 4),
   ("int40s", .signed 5), ("int48s", .signed 6), ("int56s", .signed 7),
   ("int64s", .signed 8), ("amperage_ma", .signed 8), ("voltage_mv", .signed 8),
   ("power_mw", .signed 8), ("power_mva", .signed 8), ("power_mvar", .signed 8),
   ("energy_mwh", .signed 8), ("energy_mvah", .signed 8), ("energy_mvarh", .signed 8)]

/-- `base_type`: only this lookup folds case. -/
def baseType (ty : String) : Option Base :=
  (baseTypes.find? fun e => Text.eqIgnoreAsciiCase e.1 ty).map Prod.snd

mutual
/-- `tlv_to_json_at`. -/
def tlvToJsonAt (elem : Tlv) (depth : Nat) : Option Json :=
  if depth > maxDepth then none
  else
    match elem with
    | .utf8 bytes => some (.str (Text.fromUtf8Lossy bytes))
    | .sint i => some (jsonOfI64 i)
    | .uint n => some (.ofU64 n)
    | .bool b => some (.bool b)
    | .f32 bits => some (jsonOfF64 (Float32.ofBits bits).toFloat)
    | .f64 bits => some (jsonOfF64 (Float.ofBits bits))
    | .octets bytes => some (.str (base64Encode bytes))
    | .null => some .null
    | .struct members => (membersToJson members (depth + 1)).map Json.ofMembers
    | .array items => (itemsToJson items (depth + 1)).map Json.arr
    | .list items => (itemsToJson items (depth + 1)).map Json.arr
    | .malformed => none

/-- The loop over a struct: members without a context tag are skipped. -/
def membersToJson (members : List (Tag × Tlv)) (depth : Nat) : Option (List (String × Json)) :=
  match members with
  | [] => some []
  | (.context n, child) :: rest =>
    match tlvToJsonAt child depth, membersToJson rest depth with
    | some v, some vs => some ((n.toNat.repr, v) :: vs)
    | _, _ => none
  | (.other, _) :: rest => membersToJson rest depth
  | (.malformed, _) :: _ => none

/-- The loop over an array or a list. -/
def itemsToJson (items : List Tlv) (depth : Nat) : Option (List Json) :=
  match items with
  | [] => some []
  | child :: rest =>
    match tlvToJsonAt child depth, itemsToJson rest depth with
    | some v, some vs => some (v :: vs)
    | _, _ => none
end

def tlvToJson (elem : Tlv) : Option Json := tlvToJsonAt elem 0

/-- `Value::from(m + offset)` of a checked addition. -/
def checkedAdd (m offset : Nat) : Option Json :=
  if h : m + offset < 2 ^ 64 then some (.num (.posInt (m + offset) h)) else none

/-- `apply_epoch`: what is not an unsigned number passes through. -/
def applyEpoch (ty : String) (v : Json) : Option Json :=
  match baseType ty with
  | some .epochS =>
    match v.asU64 with
    | some m => checkedAdd m matterEpochOffsetS
    | none => some v
  | some .epochUs =>
    match v.asU64 with
    | some m => checkedAdd m matterEpochOffsetUs
    | none => some v
  | _ => some v

/-- `attr_value_to_json`: the epoch shift is the only step that looks at the type. -/
def attrValueToJson (gen : Tables) (cluster attr : UInt32) (elem : Tlv) : Option Json :=
  let ty := (((gen.cluster cluster).bind fun c => c.attr attr).map Attr.ty).getD ""
  (tlvToJson elem).bind (applyEpoch ty)

/-- `lossy_utf8`. -/
def lossyUtf8 : Tlv → Option Json
  | .utf8 bytes => some (.str (Text.fromUtf8Lossy bytes))
  | _ => none

mutual
/-- `tlv_to_json_named_at`. -/
def tlvToJsonNamedAt (elem : Tlv) (fields : List Field) (cluster : Cluster) (depth : Nat) :
    Option Json :=
  if depth > maxDepth then none
  else
    match elem with
    | .struct members =>
      (namedMembersToJson members fields cluster (depth + 1)).map Json.ofMembers
    | _ => tlvToJsonAt elem depth
termination_by (sizeOf elem, 1)

/-- The loop over a struct whose fields are known. -/
def namedMembersToJson (members : List (Tag × Tlv)) (fields : List Field) (cluster : Cluster)
    (depth : Nat) : Option (List (String × Json)) :=
  match members with
  | [] => some []
  | (.context n, child) :: rest =>
    let member := match fields.find? fun f => f.code = n.toUInt32 with
      | some f => (namedFieldToJson child f cluster depth).map fun v => (f.name, v)
      | none => (tlvToJsonAt child depth).map fun v => (n.toNat.repr, v)
    match member, namedMembersToJson rest fields cluster depth with
    | some m, some ms => some (m :: ms)
    | _, _ => none
  | (.other, _) :: rest => namedMembersToJson rest fields cluster depth
  | (.malformed, _) :: _ => none
termination_by (sizeOf members, 0)

/-- `named_field_to_json`. -/
def namedFieldToJson (elem : Tlv) (f : Field) (cluster : Cluster) (depth : Nat) : Option Json :=
  match lossyUtf8 elem with
  | some s => some s
  | none =>
    match cluster.findStruct f.ty with
    | none => (tlvToJsonAt elem depth).bind (applyEpoch f.ty)
    | some nested =>
      match elem with
      | .struct members => tlvToJsonNamedAt (.struct members) nested.fields cluster depth
      | .array items => (namedItemsToJson items nested.fields cluster (depth + 1)).map Json.arr
      | .list items => (namedItemsToJson items nested.fields cluster (depth + 1)).map Json.arr
      | _ => tlvToJsonAt elem depth
termination_by (sizeOf elem, 2)

/-- The loop over a list of structs. -/
def namedItemsToJson (items : List Tlv) (fields : List Field) (cluster : Cluster) (depth : Nat) :
    Option (List Json) :=
  match items with
  | [] => some []
  | child :: rest =>
    match tlvToJsonNamedAt child fields cluster depth,
      namedItemsToJson rest fields cluster depth with
    | some v, some vs => some (v :: vs)
    | _, _ => none
termination_by (sizeOf items, 0)
end

def tlvToJsonNamed (elem : Tlv) (fields : List Field) (cluster : Cluster) : Option Json :=
  tlvToJsonNamedAt elem fields cluster 0

/-- `to_matter_epoch`. -/
def toMatterEpoch (v : Json) (offset : Nat) : Option Nat :=
  match v.asU64 with
  | some n => if offset ≤ n then some (n - offset) else none
  | none => none

/-- `as_f64`. -/
def asF64 : Json → Option Float
  | .num (.posInt n _) => some (UInt64.ofNat n).toFloat
  | .num (.negInt m _ _) => some (Int64.ofInt (-m)).toFloat
  | .num (.float bits) => some (Float.ofBits bits)
  | _ => none

def writeUnsigned (v : Json) (bytes : Nat) : Option Tlv :=
  match v.asU64 with
  | none => none
  | some n =>
    match bytes with
    | 1 | 2 | 4 => if n < 2 ^ (8 * bytes) then some (.uint (UInt64.ofNat n)) else none
    | 3 | 5 | 6 | 7 => if n ≥ 2 ^ (bytes * 8) then none else some (.uint (UInt64.ofNat n))
    | _ => some (.uint (UInt64.ofNat n))

def writeSigned (v : Json) (bytes : Nat) : Option Tlv :=
  match v.asI64 with
  | none => none
  | some n =>
    match bytes with
    | 1 | 2 | 4 =>
      if -2 ^ (8 * bytes - 1) ≤ n ∧ n < 2 ^ (8 * bytes - 1) then some (.sint (Int64.ofInt n))
      else none
    | 3 | 5 | 6 | 7 =>
      if ¬ (-2 ^ (bytes * 8 - 1) ≤ n ∧ n < 2 ^ (bytes * 8 - 1)) then none
      else some (.sint (Int64.ofInt n))
    | _ => some (.sint (Int64.ofInt n))

def writeBase (v : Json) : Base → Option Tlv
  | .bool => v.asBool.map Tlv.bool
  | .single =>
    match asF64 v with
    | some n => if n.toFloat32.isFinite then some (.f32 n.toFloat32.toBits) else none
    | none => none
  | .double => (asF64 v).map fun n => .f64 n.toBits
  | .utf8 => v.asStr.map fun s => .utf8 s.toUTF8
  | .octets => (v.asStr.bind base64Decode).map Tlv.octets
  | .epochS =>
    match toMatterEpoch v matterEpochOffsetS with
    | some matter => if matter < 2 ^ 32 then some (.uint (UInt64.ofNat matter)) else none
    | none => none
  | .epochUs => (toMatterEpoch v matterEpochOffsetUs).map fun matter => .uint (UInt64.ofNat matter)
  | .unsigned bytes => writeUnsigned v bytes
  | .signed bytes => writeSigned v bytes

/-- The `BTreeMap` of `emit_struct`: a tag that two keys resolve to is an error. -/
def sortMembers (written : List (UInt8 × Tlv)) : Option (List (UInt8 × Tlv)) :=
  written.foldlM (fun sorted m =>
    if (Entries.get? m.1 sorted).isSome then none else some (Entries.insert m.1 m.2 sorted)) []

/-- What a member key resolves to: its context tag and what `gen` knows about the slot. -/
abbrev Resolve := String → Option (UInt8 × Option TypeHint)

def Field.hint (f : Field) (cluster : Cluster) : TypeHint := ⟨f.ty, f.isList, some cluster⟩

/-- The closure of `write_json_named`: field names ignore case. -/
def resolveNamed (fields : List Field) (cluster : Cluster) : Resolve := fun key =>
  match fields.find? fun f => Text.eqIgnoreAsciiCase f.name key with
  | some f =>
    if f.code.toNat < 256 then some (UInt8.ofNat f.code.toNat, some (Field.hint f cluster)) else none
  | none => none

/-- The closure of `write_tag_based_struct`. -/
def resolveTag (nested : Option (List Field × Cluster)) : Resolve := fun key =>
  (parseU8 key).map fun ctx =>
    (ctx, nested.bind fun n =>
      (n.1.find? fun f => f.code = ctx.toUInt32).map fun f => Field.hint f n.2)

mutual
/-- `write_json`. -/
def writeJson (v : Json) (hint : Option TypeHint) : Option Tlv :=
  match hint with
  | some h =>
    if h.isList then
      match v with
      | .null => some .null
      | .arr items => (writeItems items (some { h with isList := false })).map Tlv.array
      | _ => none
    else writeHinted v h
  | none => writeHeuristic v
termination_by (sizeOf v, 4)

/-- The loop over an array. -/
def writeItems (items : List Json) (hint : Option TypeHint) : Option (List Tlv) :=
  match items with
  | [] => some []
  | item :: rest =>
    match writeJson item hint, writeItems rest hint with
    | some t, some ts => some (t :: ts)
    | _, _ => none
termination_by (sizeOf items, 0)

/-- `write_hinted`. -/
def writeHinted (v : Json) (h : TypeHint) : Option Tlv :=
  if v.isNull then some .null
  else
    match baseType h.ty with
    | some base => writeBase v base
    | none =>
      match h.cluster.bind fun c => (c.findStruct h.ty).map fun nested => (nested, c) with
      | some (nested, cluster) => writeHintedStruct v nested cluster
      | none => writeHeuristic v
termination_by (sizeOf v, 3)

/-- `write_hinted_struct`: tag-based when every key is a decimal tag, else name-based. -/
def writeHintedStruct (v : Json) (nested : Struct) (cluster : Cluster) : Option Tlv :=
  match v with
  | .obj members =>
    if members.all fun m => (parseU8 m.1).isSome then
      writeTagBasedStruct members (some (nested.fields, cluster))
    else writeJsonNamed members nested.fields cluster
  | _ => none
termination_by (sizeOf v, 2)

/-- `write_heuristic`. -/
def writeHeuristic (v : Json) : Option Tlv :=
  match v with
  | .null => some .null
  | .bool b => some (.bool b)
  | .num n =>
    match (Json.num n).asU64, (Json.num n).asI64 with
    | some u, _ => some (.uint (UInt64.ofNat u))
    | none, some i => some (.sint (Int64.ofInt i))
    | _, _ => (asF64 (.num n)).map fun f => .f64 f.toBits
  | .str s => some (.utf8 s.toUTF8)
  | .arr items => (writeItems items none).map Tlv.array
  | .obj members => writeTagBasedStruct members none
termination_by (sizeOf v, 2)

/-- `write_json_named`. -/
def writeJsonNamed (members : List (String × Json)) (fields : List Field) (cluster : Cluster) :
    Option Tlv :=
  emitStruct members (resolveNamed fields cluster)
termination_by (sizeOf members, 2)

/-- `write_tag_based_struct`. -/
def writeTagBasedStruct (members : List (String × Json))
    (nested : Option (List Field × Cluster)) : Option Tlv :=
  emitStruct members (resolveTag nested)
termination_by (sizeOf members, 2)

/-- `emit_struct`. The source looks for duplicate tags before it writes any member; a failure
discards what was written, so the order of the two does not show. -/
def emitStruct (members : List (String × Json)) (resolve : Resolve) : Option Tlv :=
  match writeMembers members resolve with
  | some written =>
    (sortMembers written).map fun sorted => .struct (sorted.map fun m => (.context m.1, m.2))
  | none => none
termination_by (sizeOf members, 1)

/-- The members of a struct, each under the tag that its key resolves to. -/
def writeMembers (members : List (String × Json)) (resolve : Resolve) :
    Option (List (UInt8 × Tlv)) :=
  match members with
  | [] => some []
  | (key, v) :: rest =>
    match resolve key with
    | some (ctx, hint) =>
      match writeJson v hint, writeMembers rest resolve with
      | some t, some ts => some ((ctx, t) :: ts)
      | _, _ => none
    | none => none
termination_by (sizeOf members, 0)
end

end MatterRsServer.Stack
