import MatterRsServer.Lib.Faults
import MatterRsServer.Lib.Text
import MatterRsServer.Controller.StoredJson
import Mathlib.Data.List.Sort

/-!
# The storage directory

`Storage` of `crates/controller/src/storage.rs` as operations on one directory, each of
which may fail. A write goes to a temporary file that is renamed, so a failed one leaves
every stored file as it was.
-/
namespace MatterRsServer.Controller
open Lib Wire
open Lib.Text (splitOnce rsplitOnce)

/-- A file, as the value that `serde_json` makes of its text; `none` when it makes none. -/
abbrev FileText := Option Json

inductive StoredPath where
  | server | config
  | node (name : String)

/-- `nodes` by file name. The temporary files of this process are kept by their sequence
number: their names end in it, so no reader takes them for anything. -/
structure StorageDir where
  present : Bool
  nodesDir : Bool
  sessionsDir : Bool
  server : Option FileText
  config : Option FileText
  nodes : OrdMap String FileText
  temps : OrdMap Nat FileText

/-- The directory, and the counter `TMP_SEQ` of the process. -/
structure Disk where
  dir : StorageDir
  tmpSeq : Nat

namespace StorageDir

def put (dir : StorageDir) (text : FileText) : StoredPath → StorageDir
  | .server => { dir with server := some text }
  | .config => { dir with config := some text }
  | .node name => { dir with nodes := dir.nodes.insert name text }

def writeTemp (dir : StorageDir) (seq : Nat) (text : FileText) : StorageDir :=
  { dir with temps := dir.temps.insert seq text }

def removeTemp (dir : StorageDir) (seq : Nat) : StorageDir :=
  { dir with temps := dir.temps.erase seq }

def rename (dir : StorageDir) (seq : Nat) (path : StoredPath) : StorageDir :=
  match dir.temps.get? seq with
  | some text => (dir.removeTemp seq).put text path
  | none => dir

/-- `Path::extension` is `json`. -/
def hasJsonExtension (name : String) : Bool :=
  match rsplitOnce '.' name.toList with
  | some (stem, extension) => stem ≠ [] && extension = "json".toList
  | none => false

/-- The records of the node files, `readable` saying which reads succeed: that of the
directory first, then those of its files. -/
def readNodes (dir : StorageDir) (readable : Nat → Bool) : List NodeRecord :=
  if readable 0 then
    ((dir.nodes.entries.filter fun e => hasJsonExtension e.1).zipIdx 1).filterMap fun e =>
      if readable e.2 then e.1.2.bind NodeRecord.fromJson else none
  else []

/-- `Storage::load_nodes`. -/
def loadNodes (dir : StorageDir) (readable : Nat → Bool) : List NodeRecord :=
  (dir.readNodes readable).insertionSort fun a b => a.nodeId ≤ b.nodeId

/-- `Storage::load_identity`. -/
def loadIdentity (dir : StorageDir) : Except String (Option ServerIdentity) :=
  match dir.server with
  | none => .ok none
  | some text =>
    match text.bind ServerIdentity.fromJson with
    | some id => .ok (some id)
    | none => .error "server.json"

theorem loadIdentity_of_none {dir : StorageDir} (h : dir.server = none) :
    dir.loadIdentity = .ok none := by
  rw [loadIdentity, h]

/-- `Storage::load_config`. -/
def loadConfig (dir : StorageDir) : ConfigData :=
  ((dir.config.bind id).bind ConfigData.fromJson).getD .default

end StorageDir

def nodeFileName (nodeId : NodeId) : String := nodeId.toNat.repr ++ ".json"

theorem nodeFileName_injective {a b : NodeId} (h : nodeFileName a = nodeFileName b) : a = b := by
  have hrepr := String.toList_inj.mpr h
  simp only [nodeFileName, String.toList_append, List.append_cancel_right_eq] at hrepr
  exact UInt64.toNat_inj.mp (Text.repr_injective (String.toList_inj.mp hrepr))

/-- A node's own file is one that `load_nodes` reads. -/
theorem hasJsonExtension_nodeFileName (nodeId : NodeId) :
    StorageDir.hasJsonExtension (nodeFileName nodeId) = true := by
  have hreverse : (nodeFileName nodeId).toList.reverse =
      'n' :: 'o' :: 's' :: 'j' :: '.' :: nodeId.toNat.repr.toList.reverse := by
    simp [nodeFileName]
  simp [StorageDir.hasJsonExtension, rsplitOnce, hreverse, splitOnce]

namespace Disk

abbrev FileOp := Attempt Disk String Unit

/-- One file operation in the directory. -/
def fileOp (f : StorageDir → StorageDir) : FileOp := Attempt.operation fun d => { d with dir := f d.dir }

/-- `Storage::open`. -/
def openStorage : FileOp := do
  fileOp fun dir => { dir with present := true, nodesDir := true }
  fileOp fun dir => { dir with present := true, sessionsDir := true }

/-- `write_tmp_then_rename`: create, write, sync, restrict when it is a secret, rename. -/
def writeTmpThenRename (seq : Nat) (path : StoredPath) (value : Json) (secret : Bool) : FileOp := do
  fileOp fun dir => dir.writeTemp seq none
  fileOp fun dir => dir.writeTemp seq (some value)
  fileOp id
  if secret then do
    fileOp id
    fileOp fun dir => dir.rename seq path
  else fileOp fun dir => dir.rename seq path

/-- `write_json_atomic`. -/
def writeJsonAtomic (path : StoredPath) (value : Json) (secret : Bool) : FileOp := fun s =>
  let seq := s.state.tmpSeq
  Attempt.cleaning (writeTmpThenRename seq path value secret)
    (fileOp fun dir => dir.removeTemp seq) { s with state := { s.state with tmpSeq := seq + 1 } }

/-- `Storage::load_identity`, where the read itself may fail. -/
def loadIdentity : Attempt Disk String (Option ServerIdentity) := do
  fileOp id
  fun s => (s.state.dir.loadIdentity, s)

/-- `Storage::save_identity`. -/
def saveIdentity (id : ServerIdentity) : FileOp := writeJsonAtomic .server id.toJson true

/-- `Storage::create_identity`. -/
def createIdentity (id : ServerIdentity) : FileOp := do
  fileOp fun dir => dir
  let s ← get
  if s.state.dir.server.isSome then
    throw "refusing to overwrite existing server.json with a freshly generated identity"
  else writeJsonAtomic .server id.toJson true

/-- `Storage::save_config`. -/
def saveConfig (cfg : ConfigData) : FileOp := writeJsonAtomic .config cfg.toJson true

/-- `Storage::save_node`. -/
def saveNode (record : NodeRecord) : FileOp :=
  writeJsonAtomic (.node (nodeFileName record.nodeId)) record.toJson false

/-- `Storage::load_nodes`, where a read that fails is passed over. -/
def loadNodes {ε : Type} : Attempt Disk ε (List NodeRecord) := fun s =>
  let readable := fun i => (s.faults (s.performed + i)).isNone
  let files := s.state.dir.nodes.entries.filter fun e => StorageDir.hasJsonExtension e.1
  (.ok (s.state.dir.loadNodes readable), { s with performed := s.performed + 1 + files.length })

/-- What a write does when all of its operations succeed. -/
def wrote (d : Disk) (path : StoredPath) (value : Json) : Disk where
  dir := (d.dir.removeTemp d.tmpSeq).put (some value) path
  tmpSeq := d.tmpSeq + 1

/-- The stored files, temporary ones apart. -/
structure SameFiles (d t : Disk) : Prop where
  server : t.dir.server = d.dir.server
  config : t.dir.config = d.dir.config
  nodes : t.dir.nodes = d.dir.nodes

theorem SameFiles.trans {d t u : Disk} (h : d.SameFiles t) (h' : t.SameFiles u) : d.SameFiles u :=
  ⟨h'.server.trans h.server, h'.config.trans h.config, h'.nodes.trans h.nodes⟩

theorem SameFiles.loadIdentity {d t : Disk} (h : d.SameFiles t) :
    t.dir.loadIdentity = d.dir.loadIdentity := by
  simp only [StorageDir.loadIdentity, h.server]

/-- An identity that was written is read back as it was. -/
theorem loadIdentity_wrote (d : Disk) (id : ServerIdentity) :
    (d.wrote .server id.toJson).dir.loadIdentity = .ok (some id) := by
  simp [wrote, StorageDir.put, StorageDir.loadIdentity, ServerIdentity.fromJson_toJson]

/-- How many operations a write takes. -/
def writeCost (secret : Bool) : Nat := if secret then 5 else 4

theorem performs_fileOp (f : StorageDir → StorageDir) :
    Attempt.Performs (fun _ => True) (fileOp f) 1 (fun d => { d with dir := f d.dir }) SameFiles :=
  (Attempt.Performs.operation _ _).mono (fun _ h => h) fun _ _ _ heq => heq ▸ ⟨rfl, rfl, rfl⟩

/-- An operation on temporary files, with whatever comes after it. -/
theorem performs_temp {f : StorageDir → StorageDir} {m : FileOp} {n : Nat} {g : Disk → Disk}
    (hf : ∀ d : Disk, d.SameFiles { d with dir := f d.dir })
    (hm : Attempt.Performs (fun _ => True) m n g SameFiles) :
    Attempt.Performs (fun _ => True) (fileOp f >>= fun _ => m) (1 + n)
      (g ∘ fun d => { d with dir := f d.dir }) SameFiles :=
  (performs_fileOp f).seq hm (fun _ h => h) fun d _ _ h => (hf d).trans h

theorem rename_written (dir : StorageDir) (seq : Nat) (path : StoredPath) (value : Json) :
    ((dir.writeTemp seq none).writeTemp seq (some value)).rename seq path =
      (dir.removeTemp seq).put (some value) path := by
  simp [StorageDir.rename, StorageDir.writeTemp, StorageDir.removeTemp, OrdMap.insert_insert,
    OrdMap.erase_insert]

theorem performs_writeTmpThenRename (seq : Nat) (path : StoredPath) (value : Json) (secret : Bool) :
    Attempt.Performs (fun _ => True) (writeTmpThenRename seq path value secret) (writeCost secret)
      (fun d => { d with dir := (d.dir.removeTemp seq).put (some value) path }) SameFiles := by
  have htemp := fun (text : FileText) {m : FileOp} {n : Nat} {g : Disk → Disk} =>
    performs_temp (m := m) (n := n) (g := g) (f := fun dir => dir.writeTemp seq text)
      fun _ => ⟨rfl, rfl, rfl⟩
  have hsame := fun {m : FileOp} {n : Nat} {g : Disk → Disk} =>
    performs_temp (m := m) (n := n) (g := g) (f := id) fun _ => ⟨rfl, rfl, rfl⟩
  have hrename := performs_fileOp fun dir => dir.rename seq path
  have hwritten := funext fun d : Disk =>
    congrArg (fun dir => { d with dir := dir }) (rename_written d.dir seq path value)
  cases secret with
  | false =>
    have h := htemp none (htemp (some value) (hsame hrename))
    rw [← hwritten]
    exact h
  | true =>
    have h := htemp none (htemp (some value) (hsame (hsame hrename)))
    rw [← hwritten]
    exact h

/-- A write happens as a whole, or leaves the stored files as they were. -/
theorem performs_writeJsonAtomic (path : StoredPath) (value : Json) (secret : Bool) :
    Attempt.Performs (fun _ => True) (writeJsonAtomic path value secret) (writeCost secret)
      (fun d => d.wrote path value) SameFiles := by
  have hclean : ∀ (seq : Nat) (s : Disk) (t : Faulty Disk), s.SameFiles t.state →
      s.SameFiles (fileOp (fun dir => dir.removeTemp seq) t).2.state := by
    intro seq s t h
    simp only [fileOp, Attempt.operation]
    cases t.faults t.performed with
    | some reason => exact h
    | none => exact h.trans ⟨rfl, rfl, rfl⟩
  have hwrite := fun seq => (performs_writeTmpThenRename seq path value secret).cleaning (hclean seq)
  constructor
  · intro s _ hclear
    exact (hwrite s.state.tmpSeq).done { s with state := { s.state with tmpSeq := s.state.tmpSeq + 1 } }
      trivial hclear
  · intro s _ hclear
    obtain ⟨e, s', hrun, hsame⟩ := (hwrite s.state.tmpSeq).failed
      { s with state := { s.state with tmpSeq := s.state.tmpSeq + 1 } } trivial hclear
    exact ⟨e, s', hrun, hsame.server, hsame.config, hsame.nodes⟩

theorem performs_openStorage :
    Attempt.Performs (fun _ => True) openStorage 2
      (fun d => { d with dir := { d.dir with present := true, nodesDir := true, sessionsDir := true } })
      SameFiles :=
  performs_temp (fun _ => ⟨rfl, rfl, rfl⟩) (performs_fileOp _)

/-- Where there is no `server.json` yet, the identity is written. -/
theorem performs_createIdentity (id : ServerIdentity) :
    Attempt.Performs (fun d : Disk => d.dir.server = none) (createIdentity id) 6
      (fun d => d.wrote .server id.toJson) SameFiles := by
  have hcheck := (Attempt.Performs.operation (fun d : Disk => d) fun d => d.dir.server = none)
  have hwrite := (performs_writeJsonAtomic .server id.toJson true).mono (Q := fun d => d.dir.server = none)
    (fun _ _ => trivial) fun _ _ _ h => h
  have hthen : Attempt.Performs (fun d : Disk => d.dir.server = none) (do
      let s ← get
      if s.state.dir.server.isSome then
        throw "refusing to overwrite existing server.json with a freshly generated identity"
      else writeJsonAtomic .server id.toJson true : FileOp) 5 (fun d => d.wrote .server id.toJson)
      SameFiles := by
    apply hwrite.congr
    intro s hs
    change (if s.state.dir.server.isSome then _ else _ : FileOp) s = _
    simp [hs]
  exact (hcheck.mono (fun _ h => h) fun _ _ _ heq => heq ▸ ⟨rfl, rfl, rfl⟩).seq hthen (fun _ h => h)
    fun _ _ _ h => h

end Disk

end MatterRsServer.Controller
