import MatterRsServer.Lib.Text
import MatterRsServer.Wire.Json

/-!
# The reader of a matter.js store

`crates/migrate/src/jsdb.rs`: one namespace directory is a driver file, at most two
snapshots and the segments of a write-ahead log. Paths are relative to the directory.
Decompression and JSON parsing are parameters.
-/
namespace MatterRsServer.Migrate
open Lib Wire

/-- Context name to field map. -/
abbrev Data := OrdMap String (OrdMap String Json)

inductive JsdbError where
  | io (path reason : String)
  | notWalKv (path found : String)
  | badSnapshot (path reason : String)
  | badWalLine (path : String) (lineNumber : Nat) (reason : String)

/-- `CommitId`, ordered by segment, then by offset. -/
structure CommitId where
  segment : Nat
  offset : Nat
deriving DecidableEq

namespace CommitId

instance : LE CommitId :=
  ⟨fun a b => a.segment < b.segment ∨ (a.segment = b.segment ∧ a.offset ≤ b.offset)⟩

theorem le_def {a b : CommitId} :
    a ≤ b ↔ a.segment < b.segment ∨ (a.segment = b.segment ∧ a.offset ≤ b.offset) := Iff.rfl

instance (a b : CommitId) : Decidable (a ≤ b) := inferInstanceAs (Decidable (_ ∨ _))

end CommitId

/-- `flate2`, and the `serde_json` parsers of a line, of a file and of a snapshot. -/
structure Decoders where
  gunzip : ByteArray → Except String String
  fromStr : String → Except String Json
  fromSlice : ByteArray → Except String Json
  snapshot : String → Except String (CommitId × Data)

/-- `char::is_whitespace`. -/
def isWhitespace (c : Char) : Bool :=
  (0x09 ≤ c.toNat && c.toNat ≤ 0x0D) || (0x2000 ≤ c.toNat && c.toNat ≤ 0x200A) ||
    [0x20, 0x85, 0xA0, 0x1680, 0x2028, 0x2029, 0x202F, 0x205F, 0x3000].contains c.toNat

/-- `str::trim`. -/
def trim (s : List Char) : List Char :=
  ((s.dropWhile isWhitespace).reverse.dropWhile isWhitespace).reverse

/-- `text.split('\n')`: always at least one line. -/
def splitLines : List Char → List (List Char)
  | [] => [[]]
  | c :: rest =>
    if c = '\n' then [] :: splitLines rest
    else
      match splitLines rest with
      | line :: lines => (c :: line) :: lines
      | [] => [[c]]

structure StoredFile where
  bytes : ByteArray
  modified : Option Nat

structure WalFile where
  name : String
  bytes : ByteArray

/-- What a namespace directory holds; `wal` lists its entries in directory order. -/
structure NamespaceDir where
  driver : Option ByteArray
  snapshotGz : Option StoredFile
  snapshotPlain : Option StoredFile
  wal : Option (List WalFile)

/-- `gunzip_to_string`, or the bytes as text. -/
def readText (dec : Decoders) (path : String) (bytes : ByteArray) (isGz : Bool) :
    Except JsdbError String :=
  if isGz then
    match dec.gunzip bytes with
    | .ok text => .ok text
    | .error e => .error (.io path e)
  else .ok (Text.fromUtf8Lossy bytes)

/-- The newer of two snapshots, ties going to the compressed one. -/
def chooseSnapshot (dir : NamespaceDir) : Option (String × StoredFile × Bool) :=
  match dir.snapshotGz, dir.snapshotPlain with
  | some gz, some plain =>
    match plain.modified, gz.modified with
    | some plainTime, some gzTime =>
      if plainTime > gzTime then some ("snapshot.json", plain, false)
      else some ("snapshot.json.gz", gz, true)
    | _, _ => some ("snapshot.json.gz", gz, true)
  | some gz, none => some ("snapshot.json.gz", gz, true)
  | none, some plain => some ("snapshot.json", plain, false)
  | none, none => none

/-- `load_snapshot`. -/
def loadSnapshot (dec : Decoders) (dir : NamespaceDir) :
    Except JsdbError (Data × Option CommitId) :=
  match chooseSnapshot dir with
  | none => .ok (∅, none)
  | some (path, file, isGz) => do
    let text ← readText dec path file.bytes isGz
    match dec.snapshot text with
    | .ok (commitId, data) => .ok (data, some commitId)
    | .error e => .error (.badSnapshot path e)

def lowercase (name : String) : List Char := name.toList.map Char.toLower

def stripSuffix (suffix s : List Char) : Option (List Char) :=
  if suffix.isSuffixOf s then some (s.take (s.length - suffix.length)) else none

def isHexDigit (c : Char) : Bool := c.isDigit || ('a' ≤ c && c ≤ 'f')

def hexValue (c : Char) : Nat :=
  if c.isDigit then c.toNat - '0'.toNat else c.toNat - 'a'.toNat + 10

/-- `parse_segment_filename`. -/
def parseSegmentFilename (name : String) : Option Nat :=
  let lower := lowercase name
  match (stripSuffix ".jsonl.gz".toList lower).or (stripSuffix ".jsonl".toList lower) with
  | none => none
  | some hexPart =>
    if hexPart.length ≠ 8 ∨ ¬ hexPart.all isHexDigit then none
    else some (hexPart.foldl (fun n c => 16 * n + hexValue c) 0)

/-- A segment's name ends in `.gz` exactly when that is its extension. -/
def WalFile.isGz (file : WalFile) : Bool := ".gz".toList.isSuffixOf (lowercase file.name)

/-- `list_wal_segments`: the compressed file of a segment wins over a plain twin. -/
def listWalSegments (wal : Option (List WalFile)) : OrdMap Nat WalFile :=
  (wal.getD []).foldl (fun segments file =>
    match parseSegmentFilename file.name with
    | none => segments
    | some segment =>
      if file.isGz then segments.insert segment file
      else if segments.contains segment then segments
      else segments.insert segment file) ∅

/-- A file is passed over, or put under its number. -/
theorem listWalSegments_eq (files : List WalFile) : listWalSegments (some files) =
    files.foldl (fun segments file => (parseSegmentFilename file.name).elim segments fun segment =>
      if file.isGz then segments.insert segment file
      else if segments.contains segment then segments
      else segments.insert segment file) ∅ := by
  unfold listWalSegments
  congr 1
  funext segments file
  cases parseSegmentFilename file.name with
  | none => rfl
  | some segment => rfl

/-- `upd`: the fields are inserted into the context, which is created when it is missing. -/
def updateContext (data : Data) (key : String) (values : List (String × Json)) : Data :=
  data.insert key (values.foldl (fun ctx m => ctx.insert m.1 m.2) ((data.get? key).getD ∅))

/-- `del` with values: the fields of one context. -/
def deleteFields (data : Data) (key : String) (fields : List String) : Data :=
  data.modify key fun ctx => fields.foldl OrdMap.erase ctx

/-- `del` without values: everything, or a context and those whose names continue it with a dot. -/
def deleteSubtree (data : Data) (key : String) : Data :=
  if key = "" then ∅
  else (data.erase key).filter fun k => !(key ++ ".").toList.isPrefixOf k.toList

/-- An update touches one context only. -/
theorem get?_updateContext_of_ne (data : Data) {key k : String} (h : k ≠ key)
    (values : List (String × Json)) : (updateContext data key values).get? k = data.get? k :=
  OrdMap.get?_insert_of_ne _ h _

theorem get?_deleteFields (data : Data) (key k : String) (fields : List String) :
    (deleteFields data key fields).get? k =
      if k = key then (data.get? key).map fun ctx => fields.foldl OrdMap.erase ctx
      else data.get? k := OrdMap.get?_modify _ _ _ _

/-- A context goes with exactly those below it. -/
theorem get?_deleteSubtree (data : Data) (key k : String) :
    (deleteSubtree data key).get? k =
      if key = "" ∨ k = key ∨ (key ++ ".").toList <+: k.toList then none else data.get? k := by
  unfold deleteSubtree
  by_cases hkey : key = ""
  · rw [if_pos hkey, if_pos (Or.inl hkey)]
    rfl
  · rw [if_neg hkey, OrdMap.get?_filter, OrdMap.get?_erase]
    generalize (key ++ ".").toList = below
    by_cases hstarts : below <+: k.toList
    · simp [hstarts, List.isPrefixOf_iff_prefix.mpr hstarts]
    · have hbelow : below.isPrefixOf k.toList = false := by
        rw [← Bool.not_eq_true, List.isPrefixOf_iff_prefix]
        exact hstarts
      simp [hkey, hstarts, hbelow]

/-- `apply_op`; an error is the reason that `BadWalLine` gets. -/
def applyOp (op : Json) (data : Data) : Except String Data :=
  match op with
  | .obj obj =>
    match (Entries.get? "op" obj).bind Json.asStr with
    | none => .error "op missing \"op\" kind"
    | some kind =>
      match (Entries.get? "key" obj).bind Json.asStr with
      | none => .error "op missing \"key\""
      | some key =>
        if kind = "upd" then
          match Entries.get? "values" obj with
          | some (.obj values) => .ok (updateContext data key values)
          | _ => .error "upd op's \"values\" is not an object"
        else if kind = "del" then
          match Entries.get? "values" obj with
          | some (.arr fields) =>
            match fields.mapM Json.asStr with
            | some fieldNames => .ok (deleteFields data key fieldNames)
            | none => .error "del op's \"values\" is not an array of strings"
          | some _ => .error "del op's \"values\" is not an array of strings"
          | none => .ok (deleteSubtree data key)
        else .error "unknown op kind"
  | _ => .error "op is not an object"

/-- The ops of a commit, in both of its shapes. -/
def commitOps (value : Json) : Except String (List Json) :=
  match value with
  | .arr ops => .ok ops
  | .obj obj =>
    match Entries.get? "ops" obj with
    | some (.arr ops) => .ok ops
    | _ => .error "commit object missing an \"ops\" array"
  | _ => .error "WAL line is neither an array nor an object"

/-- `apply_line`, without the place that its errors name. -/
def applyLine (dec : Decoders) (line : String) (data : Data) : Except String Data := do
  let value ← dec.fromStr line
  let ops ← commitOps value
  ops.foldlM (fun data op => applyOp op data) data

def isBlank (line : List Char) : Bool := (trim line).isEmpty

/-- `commit_id <= after`, when there is a boundary. -/
def isCovered (after : Option CommitId) (id : CommitId) : Bool :=
  match after with
  | some a => decide (id ≤ a)
  | none => false

/-- One round of the loop in `replay_segment`. -/
def replayLine (dec : Decoders) (path : String) (segment : Nat) (after : Option CommitId)
    (data : Data) (entry : List Char × Nat) : Except JsdbError Data :=
  if isBlank entry.1 then .ok data
  else if isCovered after ⟨segment, entry.2⟩ then .ok data
  else
    match applyLine dec (.ofList entry.1) data with
    | .ok data => .ok data
    | .error reason => .error (.badWalLine path (entry.2 + 1) reason)

/-- `replay_segment`. -/
def replaySegment (dec : Decoders) (segment : Nat) (file : WalFile) (data : Data)
    (after : Option CommitId) : Except JsdbError Data := do
  let text ← readText dec ("wal/" ++ file.name) file.bytes file.isGz
  (splitLines text.toList).zipIdx.foldlM (replayLine dec ("wal/" ++ file.name) segment after) data

/-- `replay_wal`. -/
def replayWal (dec : Decoders) (segments : OrdMap Nat WalFile) (data : Data)
    (after : Option CommitId) : Except JsdbError Data :=
  segments.entries.foldlM (fun data e =>
    if after.any fun a => e.1 < a.segment then .ok data
    else replaySegment dec e.1 e.2 data after) data

/-- `open_namespace`. -/
def openNamespace (dec : Decoders) (dir : NamespaceDir) : Except JsdbError Data :=
  match dir.driver with
  | none => .error (.io "driver.json" "not found")
  | some bytes =>
    match dec.fromSlice bytes with
    | .error e => .error (.notWalKv "driver.json" ("<unparseable: " ++ e ++ ">"))
    | .ok driver =>
      let kind := ((driver.get "kind").bind Json.asStr).getD ""
      let storeType := ((driver.get "type").bind Json.asStr).getD ""
      if kind ≠ "wal" ∨ storeType ≠ "kv" then
        .error (.notWalKv "driver.json" (.ofList (trim (Text.fromUtf8Lossy bytes).toList)))
      else do
        let (data, after) ← loadSnapshot dec dir
        replayWal dec (listWalSegments dir.wal) data after

end MatterRsServer.Migrate
