import MatterRsServer.Lib.FileSystem
import MatterRsServer.Lib.Transition
import MatterRsServer.Controller.Storage

/-!
# Atomic writes

The calls of `write_json_atomic` that one process makes, as file-system operations of any
number of calls in any order: a temporary file is made, written piece by piece, synced,
restricted when it is a secret, and renamed; after a failure it is removed. Every state of a
run is also one in which the process may have stopped.
-/
namespace MatterRsServer.Controller
open Lib Wire
open Lib.Text (rsplitOnce_append)

/-- The directories of the storage that hold files. -/
inductive Directory where
  | root | nodes
  deriving DecidableEq

structure FilePath where
  directory : Directory
  name : String
  deriving DecidableEq

/-- Not a dot file. -/
def FilePath.Visible (p : FilePath) : Prop := p.name.toList.head? ≠ some '.'

def StoredPath.filePath : StoredPath → FilePath
  | .server => ⟨.root, "server.json"⟩
  | .config => ⟨.root, "config.json"⟩
  | .node name => ⟨.nodes, name⟩

/-- The arguments of a call. No file that the storage writes is a hidden one. -/
structure WriteCall where
  path : StoredPath
  visible : path.filePath.Visible
  value : Json
  secret : Bool

namespace WriteCall

/-- `Storage::create_identity` and `Storage::save_identity`. -/
def ofIdentity (id : ServerIdentity) : WriteCall :=
  ⟨.server, by simp [FilePath.Visible, StoredPath.filePath], id.toJson, true⟩

/-- `Storage::save_config`. -/
def ofConfig (cfg : ConfigData) : WriteCall :=
  ⟨.config, by simp [FilePath.Visible, StoredPath.filePath], cfg.toJson, true⟩

/-- `Storage::save_node`. -/
def ofNode (record : NodeRecord) : WriteCall where
  path := .node (nodeFileName record.nodeId)
  visible h := by
    have hhead : (nodeFileName record.nodeId).toList.head? = some '.' := h
    rw [nodeFileName, String.toList_append] at hhead
    cases hdigits : record.nodeId.toNat.repr.toList with
    | nil =>
      rw [Nat.toList_repr] at hdigits
      exact Nat.toDigits_ne_nil hdigits
    | cons c rest =>
      rw [hdigits] at hhead
      obtain rfl : c = '.' := by simpa using hhead
      have hdigit : Char.isDigit '.' = true := Text.isDigit_of_mem_repr (by rw [hdigits]; simp)
      exact absurd hdigit (by decide)
  value := record.toJson
  secret := false

end WriteCall

/-- The process, and how `serde_json::to_writer_pretty` spells a value. -/
structure Process where
  pid : Nat
  umask : Nat
  pretty : Json → List UInt8

namespace Process

/-- The name of the temporary file that replaces `name`. -/
def tempName (proc : Process) (name : String) (seq : Nat) : String :=
  "." ++ name ++ ".tmp-" ++ proc.pid.repr ++ "-" ++ seq.repr

def tempPath (proc : Process) (path : StoredPath) (seq : Nat) : FilePath :=
  { path.filePath with name := proc.tempName path.filePath.name seq }

/-- The mode of a file that `OpenOptions::open` creates. -/
def createMode (proc : Process) (secret : Bool) : Nat :=
  (if secret then 0o600 else 0o666) &&& (0o777 ^^^ proc.umask)

theorem toList_tempName (proc : Process) (name : String) (seq : Nat) :
    (proc.tempName name seq).toList = '.' :: name.toList ++
      (".tmp-".toList ++ proc.pid.repr.toList ++ '-' :: seq.repr.toList) := by
  simp [tempName]

theorem not_mem_repr {n : Nat} {c : Char} (hc : c.isDigit = false) : c ∉ n.repr.toList := by
  intro hmem
  rw [Text.isDigit_of_mem_repr hmem] at hc
  cases hc

/-- The number of a temporary file is what follows the last `-` of its name. -/
theorem tempName_seq {proc : Process} {name other : String} {seq seq' : Nat}
    (h : proc.tempName name seq = proc.tempName other seq') : seq = seq' := by
  have hreverse := congrArg List.reverse (congrArg String.toList h)
  simp only [toList_tempName, List.reverse_append, List.reverse_cons, List.append_assoc,
    List.singleton_append] at hreverse
  have hdash : ∀ n : Nat, '-' ∉ n.repr.toList.reverse :=
    fun n hmem => not_mem_repr (by decide) (List.mem_reverse.mp hmem)
  have hdigits := (Text.append_cons_inj (hdash seq) (hdash seq') hreverse).1
  exact Text.repr_injective (String.toList_inj.mp (List.reverse_inj.mp hdigits))

theorem tempPath_ne {proc : Process} {path other : StoredPath} {seq seq' : Nat} (h : seq ≠ seq') :
    proc.tempPath path seq ≠ proc.tempPath other seq' :=
  fun heq => h (tempName_seq (congrArg FilePath.name heq))

/-- A temporary file is hidden. -/
theorem ne_tempPath (proc : Process) (path : StoredPath) (seq : Nat) {p : FilePath} (h : p.Visible) :
    p ≠ proc.tempPath path seq := by
  rintro rfl
  apply h
  simp [tempPath, toList_tempName]

/-- `load_nodes` passes over every temporary file. -/
theorem hasJsonExtension_tempName (proc : Process) (name : String) (seq : Nat) :
    StorageDir.hasJsonExtension (proc.tempName name seq) = false := by
  have hname : (proc.tempName name seq).toList = ('.' :: name.toList) ++
      '.' :: ("tmp-".toList ++ proc.pid.repr.toList ++ '-' :: seq.repr.toList) := by
    simp [tempName]
  have hdot : '.' ∉ "tmp-".toList ++ proc.pid.repr.toList ++ '-' :: seq.repr.toList := by
    simp only [List.mem_append, List.mem_cons, not_or]
    exact ⟨⟨by decide, not_mem_repr (by decide)⟩, by decide, not_mem_repr (by decide)⟩
  rw [StorageDir.hasJsonExtension, hname, rsplitOnce_append hdot]
  simp

end Process

/-- What `load_nodes` returns does not depend on temporary files, whoever left them. -/
theorem StorageDir.loadNodes_congr {dir dir' : StorageDir}
    (h : ∀ name, (∀ proc stem seq, name ≠ Process.tempName proc stem seq) →
      dir.nodes.get? name = dir'.nodes.get? name) (readable : Nat → Bool) :
    dir.loadNodes readable = dir'.loadNodes readable := by
  have hjson : dir.nodes.filter hasJsonExtension = dir'.nodes.filter hasJsonExtension := by
    apply OrdMap.ext
    intro name
    simp only [OrdMap.get?_filter]
    split
    · rename_i hname
      apply h
      rintro proc stem seq rfl
      rw [Process.hasJsonExtension_tempName] at hname
      cases hname
    · rfl
  have hentries : (dir.nodes.entries.filter fun e => hasJsonExtension e.1) =
      dir'.nodes.entries.filter fun e => hasJsonExtension e.1 := congrArg OrdMap.entries hjson
  rw [loadNodes, loadNodes, readNodes, readNodes, hentries]

inductive WriteResult where
  | ok
  | err (removed : Bool)

/-- Where a call is, with the number of its temporary file and, while that is open, the file
and how much of the text is in it. -/
inductive TempStage where
  | called
  | opening (seq : Nat)
  | writing (seq file written : Nat)
  | restricting (seq : Nat)
  | moving (seq : Nat)
  | removing (seq : Nat)
  | returned (seq : Nat) (result : WriteResult)

def TempStage.seq : TempStage → Option Nat
  | .called => none
  | .opening seq | .writing seq _ _ | .restricting seq | .moving seq | .removing seq
  | .returned seq _ => some seq

/-- `fail` is the failure of whichever operation is next, or of the serialization. -/
inductive TempStep where
  | number | create | write (size : Nat) | sync | restrict | rename | fail | remove | failRemove

/-- The file system, the counter `TMP_SEQ`, and the calls. -/
structure Writers (ι : Type) where
  fs : FileSystem FilePath
  tmpSeq : Nat
  stage : ι → TempStage

/-- One operation of a call of `write_json_atomic` on the file system. -/
def WriteCall.advance (call : WriteCall) (proc : Process) (fs : FileSystem FilePath) :
    TempStage → TempStep → Option (FileSystem FilePath × TempStage)
  | .opening seq, .create =>
    let tmp := proc.tempPath call.path seq
    let opened := fs.openTruncate tmp (proc.createMode call.secret)
    (opened.entry tmp).map fun file => (opened, .writing seq file 0)
  | .writing seq file written, .write size =>
    let chunk := ((proc.pretty call.value).drop written).take size
    some (fs.edit file fun f => f.writeAt written chunk, .writing seq file (written + chunk.length))
  | .writing seq _ written, .sync =>
    if written = (proc.pretty call.value).length then
      some (fs, if call.secret then .restricting seq else .moving seq)
    else none
  | .restricting seq, .restrict =>
    (fs.entry (proc.tempPath call.path seq)).map fun file =>
      (fs.edit file fun f => { f with mode := 0o600 }, .moving seq)
  | .moving seq, .rename =>
    (fs.entry (proc.tempPath call.path seq)).map fun _ =>
      (fs.rename (proc.tempPath call.path seq) call.path.filePath, .returned seq .ok)
  | .opening seq, .fail | .writing seq _ _, .fail | .restricting seq, .fail
  | .moving seq, .fail => some (fs, .removing seq)
  | .removing seq, .remove =>
    some (fs.remove (proc.tempPath call.path seq), .returned seq (.err true))
  | .removing seq, .failRemove => some (fs, .returned seq (.err false))
  | _, _ => none

namespace WriteCall

/-- The file holds the whole value of the call, and nobody else reads a secret. -/
structure Written (call : WriteCall) (proc : Process) (f : File) : Prop where
  bytes : f.bytes = proc.pretty call.value
  mode : call.secret = true → f.mode = 0o600

/-- What is in the temporary file of a call. -/
def Progress (call : WriteCall) (proc : Process) (fs : FileSystem FilePath) : TempStage → Prop
  | .called | .opening _ | .removing _ => True
  | .writing seq file written => fs.entry (proc.tempPath call.path seq) = some file ∧
      written ≤ (proc.pretty call.value).length ∧
      ∃ f, fs.read (proc.tempPath call.path seq) = some f ∧
        f.bytes = (proc.pretty call.value).take written
  | .restricting seq => ∃ f, fs.read (proc.tempPath call.path seq) = some f ∧
      f.bytes = proc.pretty call.value
  | .moving seq => ∃ f, fs.read (proc.tempPath call.path seq) = some f ∧ call.Written proc f
  | .returned seq result => result = .err true → fs.entry (proc.tempPath call.path seq) = none

/-- What an operation of a call does, `seq` being the number of its temporary file. -/
structure Advanced (call : WriteCall) (proc : Process) (fs : FileSystem FilePath)
    (stage : TempStage) (fs' : FileSystem FilePath) (stage' : TempStage) (seq : Nat) : Prop where
  before : stage.seq = some seq
  after : stage'.seq = some seq
  progress : call.Progress proc fs' stage'
  others : ∀ p, p ≠ proc.tempPath call.path seq → p ≠ call.path.filePath → fs.SameAt fs' p
  target : fs.SameAt fs' call.path.filePath ∨ stage' = .returned seq .ok ∧
    ∃ f, fs'.read call.path.filePath = some f ∧ call.Written proc f

variable {call : WriteCall} {proc : Process} {fs fs' : FileSystem FilePath}
  {stage stage' : TempStage}

/-- Progress is about the call's own temporary file. -/
theorem Progress.congr (h : call.Progress proc fs stage)
    (hsame : ∀ seq, stage.seq = some seq → fs.SameAt fs' (proc.tempPath call.path seq)) :
    call.Progress proc fs' stage := by
  cases stage with
  | called => trivial
  | opening seq => trivial
  | removing seq => trivial
  | writing seq file written =>
    have hfile := hsame seq rfl
    exact ⟨hfile.entry.trans h.1, h.2.1, by rw [hfile.read]; exact h.2.2⟩
  | restricting seq =>
    simp only [Progress, (hsame seq rfl).read]
    exact h
  | moving seq =>
    simp only [Progress, (hsame seq rfl).read]
    exact h
  | returned seq result => exact fun herr => (hsame seq rfl).entry.trans (h herr)

/-- An operation on the temporary file only. -/
theorem Advanced.of_temp {seq : Nat} (hbefore : stage.seq = some seq) (hafter : stage'.seq = some seq)
    (hprogress : call.Progress proc fs' stage')
    (hsame : ∀ p, p ≠ proc.tempPath call.path seq → fs.SameAt fs' p) :
    call.Advanced proc fs stage fs' stage' seq where
  before := hbefore
  after := hafter
  progress := hprogress
  others p hp _ := hsame p hp
  target := .inl (hsame _ (proc.ne_tempPath _ _ call.visible))

/-- A failure, or what follows it when the removal fails as well. -/
theorem Advanced.of_same {seq : Nat} (hbefore : stage.seq = some seq) (hafter : stage'.seq = some seq)
    (hprogress : call.Progress proc fs stage') : call.Advanced proc fs stage fs stage' seq :=
  .of_temp hbefore hafter hprogress fun p _ => .refl fs p

theorem advanced_create {seq : Nat}
    (h : call.advance proc fs (.opening seq) .create = some (fs', stage')) :
    call.Advanced proc fs (.opening seq) fs' stage' seq := by
  obtain ⟨file, f, hentry, hread, hempty⟩ :=
    fs.openTruncate_opened (proc.tempPath call.path seq) (proc.createMode call.secret)
  simp only [advance, hentry, Option.map_some, Option.some.injEq, Prod.mk.injEq] at h
  obtain ⟨rfl, rfl⟩ := h
  exact .of_temp rfl rfl ⟨hentry, Nat.zero_le _, f, hread, hempty⟩
    fun p hp => fs.sameAt_openTruncate _ hp

theorem advanced_write {seq file written size : Nat}
    (hprogress : call.Progress proc fs (.writing seq file written))
    (h : call.advance proc fs (.writing seq file written) (.write size) = some (fs', stage')) :
    call.Advanced proc fs (.writing seq file written) fs' stage' seq := by
  obtain ⟨hentry, hlength, f, hread, hbytes⟩ := hprogress
  simp only [advance, Option.some.injEq, Prod.mk.injEq] at h
  obtain ⟨rfl, rfl⟩ := h
  have hsame := fun p hp => fs.sameAt_edit
    (fun f => f.writeAt written (((proc.pretty call.value).drop written).take size)) hentry (q := p) hp
  refine .of_temp rfl rfl ⟨hentry, ?_, _, (fs.read_edit _ hentry).trans (by rw [hread]; rfl), ?_⟩ hsame
  · simp only [List.length_take, List.length_drop]
    omega
  · have hoffset : written = f.bytes.length := by
      rw [hbytes, List.length_take, Nat.min_eq_left hlength]
    have hend : (f.writeAt written (((proc.pretty call.value).drop written).take size)).bytes =
        f.bytes ++ ((proc.pretty call.value).drop written).take size := by
      conv_lhs => rw [hoffset]
      rw [File.bytes_writeAt_length, ← hoffset]
    rw [hend, hbytes, List.length_take, List.length_drop, List.take_add]
    congr 1
    rw [List.take_eq_take_iff, List.length_drop, Nat.min_assoc, Nat.min_self]

theorem advanced_sync {seq file written : Nat}
    (hprogress : call.Progress proc fs (.writing seq file written))
    (h : call.advance proc fs (.writing seq file written) .sync = some (fs', stage')) :
    call.Advanced proc fs (.writing seq file written) fs' stage' seq := by
  obtain ⟨hentry, -, f, hread, hbytes⟩ := hprogress
  simp only [advance] at h
  split at h
  next hall =>
    rw [hall, List.take_length] at hbytes
    cases hsecret : call.secret with
    | true =>
      simp only [hsecret, if_true, Option.some.injEq, Prod.mk.injEq] at h
      obtain ⟨rfl, rfl⟩ := h
      exact .of_same rfl rfl ⟨f, hread, hbytes⟩
    | false =>
      simp only [hsecret, Bool.false_eq_true, if_false, Option.some.injEq, Prod.mk.injEq] at h
      obtain ⟨rfl, rfl⟩ := h
      exact .of_same rfl rfl ⟨f, hread, hbytes, by simp [hsecret]⟩
  next => cases h

theorem advanced_restrict {seq : Nat} (hprogress : call.Progress proc fs (.restricting seq))
    (h : call.advance proc fs (.restricting seq) .restrict = some (fs', stage')) :
    call.Advanced proc fs (.restricting seq) fs' stage' seq := by
  obtain ⟨f, hread, hbytes⟩ := hprogress
  obtain ⟨file, hentry, heq⟩ := Option.map_eq_some_iff.mp h
  obtain ⟨rfl, rfl⟩ := Prod.mk.inj heq
  have hrestricted : (fs.edit file fun f => { f with mode := 0o600 }).read
      (proc.tempPath call.path seq) = some { f with mode := 0o600 } := by
    rw [fs.read_edit _ hentry, hread]
    rfl
  exact .of_temp rfl rfl ⟨_, hrestricted, hbytes, fun _ => rfl⟩ fun p hp => fs.sameAt_edit _ hentry hp

theorem advanced_rename {seq : Nat} (hprogress : call.Progress proc fs (.moving seq))
    (h : call.advance proc fs (.moving seq) .rename = some (fs', stage')) :
    call.Advanced proc fs (.moving seq) fs' stage' seq := by
  obtain ⟨f, hread, hwritten⟩ := hprogress
  obtain ⟨file, hentry, heq⟩ := Option.map_eq_some_iff.mp h
  obtain ⟨rfl, rfl⟩ := Prod.mk.inj heq
  exact ⟨rfl, rfl, nofun, fun p htmp hpath => fs.sameAt_rename htmp hpath,
    .inr ⟨rfl, f, fs.read_rename _ hread, hwritten⟩⟩

theorem advanced_of_advance {a : TempStep} (hprogress : call.Progress proc fs stage)
    (h : call.advance proc fs stage a = some (fs', stage')) :
    ∃ seq, call.Advanced proc fs stage fs' stage' seq := by
  cases stage with
  | called => cases a <;> cases h
  | returned seq result => cases a <;> cases h
  | opening seq =>
    cases a with
    | create => exact ⟨seq, advanced_create h⟩
    | fail =>
      cases h
      exact ⟨seq, .of_same rfl rfl trivial⟩
    | _ => cases h
  | writing seq file written =>
    cases a with
    | write size => exact ⟨seq, advanced_write hprogress h⟩
    | sync => exact ⟨seq, advanced_sync hprogress h⟩
    | fail =>
      cases h
      exact ⟨seq, .of_same rfl rfl trivial⟩
    | _ => cases h
  | restricting seq =>
    cases a with
    | restrict => exact ⟨seq, advanced_restrict hprogress h⟩
    | fail =>
      cases h
      exact ⟨seq, .of_same rfl rfl trivial⟩
    | _ => cases h
  | moving seq =>
    cases a with
    | rename => exact ⟨seq, advanced_rename hprogress h⟩
    | fail =>
      cases h
      exact ⟨seq, .of_same rfl rfl trivial⟩
    | _ => cases h
  | removing seq =>
    cases a with
    | remove =>
      cases h
      exact ⟨seq, .of_temp rfl rfl (fun _ => fs.entry_remove_self _) fun p hp => fs.sameAt_remove hp⟩
    | failRemove =>
      cases h
      exact ⟨seq, .of_same rfl rfl nofun⟩
    | _ => cases h

end WriteCall

namespace Writers

variable {ι : Type} {proc : Process} {calls : ι → WriteCall} {s0 s s' : Writers ι} {c : ι}
  {a : TempStep}

/-- No two calls have one temporary file, each has put into its own what it has written so
far, and a file that anyone reads is the original one or one that a call has finished. -/
structure Invariant (proc : Process) (calls : ι → WriteCall) (s0 s : Writers ι) : Prop where
  numbered : ∀ c seq, (s.stage c).seq = some seq → seq < s.tmpSeq
  distinct : ∀ c d seq, (s.stage c).seq = some seq → (s.stage d).seq = some seq → c = d
  progress : ∀ c, (calls c).Progress proc s.fs (s.stage c)
  visible : ∀ p : FilePath, p.Visible → s.fs.read p = s0.fs.read p ∨
    ∃ c seq f, (calls c).path.filePath = p ∧ s.stage c = .returned seq .ok ∧
      s.fs.read p = some f ∧ (calls c).Written proc f

theorem Invariant.start (h : ∀ c, s0.stage c = .called) : Invariant proc calls s0 s0 where
  numbered c seq hseq := by
    rw [h c] at hseq
    cases hseq
  distinct c d seq hseq _ := by
    rw [h c] at hseq
    cases hseq
  progress c := by
    rw [h c]
    trivial
  visible p _ := .inl rfl

variable [DecidableEq ι]

/-- The next operation of one of the calls. -/
def step (proc : Process) (calls : ι → WriteCall) (s : Writers ι) : ι × TempStep → Option (Writers ι)
  | (c, a) =>
    match s.stage c, a with
    | .called, .number =>
      some ⟨s.fs, s.tmpSeq + 1, Function.update s.stage c (.opening s.tmpSeq)⟩
    | stage, a => ((calls c).advance proc s.fs stage a).map fun moved =>
      ⟨moved.1, s.tmpSeq, Function.update s.stage c moved.2⟩

/-- A call gets its number, or performs an operation. -/
theorem step_cases (h : step proc calls s (c, a) = some s') :
    (s.stage c = .called ∧
      s' = ⟨s.fs, s.tmpSeq + 1, Function.update s.stage c (.opening s.tmpSeq)⟩) ∨
    ∃ moved, (calls c).advance proc s.fs (s.stage c) a = some moved ∧
      s' = ⟨moved.1, s.tmpSeq, Function.update s.stage c moved.2⟩ := by
  simp only [step] at h
  split at h
  next hstage =>
    cases h
    exact .inl ⟨hstage, rfl⟩
  next =>
    obtain ⟨moved, hmoved, rfl⟩ := Option.map_eq_some_iff.mp h
    exact .inr ⟨moved, hmoved, rfl⟩

/-- A call that has returned does nothing more. -/
theorem stage_of_returned {d : ι} {seq : Nat} {result : WriteResult}
    (h : step proc calls s (c, a) = some s') (hd : s.stage d = .returned seq result) :
    s'.stage d = .returned seq result := by
  have hcd : d ≠ c := by
    rintro rfl
    obtain ⟨hcalled, -⟩ | ⟨moved, hmoved, -⟩ := step_cases h
    · rw [hcalled] at hd
      cases hd
    · rw [hd] at hmoved
      cases a <;> cases hmoved
  obtain ⟨-, rfl⟩ | ⟨moved, -, rfl⟩ := step_cases h
  all_goals exact (Function.update_of_ne hcd _ _).trans hd

namespace Invariant

theorem number (hinv : Invariant proc calls s0 s) (hcalled : s.stage c = .called) :
    Invariant proc calls s0
      ⟨s.fs, s.tmpSeq + 1, Function.update s.stage c (.opening s.tmpSeq)⟩ := by
  have hstage : ∀ {d : ι} {seq : Nat},
      (Function.update s.stage c (.opening s.tmpSeq) d).seq = some seq →
        (d = c ∧ seq = s.tmpSeq) ∨ (d ≠ c ∧ (s.stage d).seq = some seq) := by
    intro d seq hseq
    by_cases hd : d = c
    · subst hd
      rw [Function.update_self] at hseq
      exact .inl ⟨rfl, (Option.some.inj hseq).symm⟩
    · rw [Function.update_of_ne hd] at hseq
      exact .inr ⟨hd, hseq⟩
  constructor
  · intro d seq hseq
    obtain ⟨-, rfl⟩ | ⟨-, hold⟩ := hstage hseq
    · exact Nat.lt_succ_self _
    · exact Nat.lt_succ_of_lt (hinv.numbered d seq hold)
  · intro d e seq hd he
    obtain ⟨rfl, rfl⟩ | ⟨-, hdold⟩ := hstage hd <;> obtain ⟨rfl, heq⟩ | ⟨-, heold⟩ := hstage he
    · rfl
    · exact absurd (hinv.numbered e _ heold) (Nat.lt_irrefl _)
    · exact absurd (hinv.numbered d _ hdold) (by omega)
    · exact hinv.distinct d e seq hdold heold
  · intro d
    by_cases hd : d = c
    · subst hd
      simp [WriteCall.Progress]
    · simp only [Function.update_of_ne hd]
      exact hinv.progress d
  · intro p hp
    obtain hsame | ⟨d, seq, f, hpath, hreturned, hread, hwritten⟩ := hinv.visible p hp
    · exact .inl hsame
    · have hd : d ≠ c := by
        rintro rfl
        rw [hcalled] at hreturned
        cases hreturned
      exact .inr ⟨d, seq, f, hpath, (Function.update_of_ne hd _ _).trans hreturned, hread, hwritten⟩

theorem advance (hinv : Invariant proc calls s0 s) {moved : FileSystem FilePath × TempStage}
    (hmoved : (calls c).advance proc s.fs (s.stage c) a = some moved) :
    Invariant proc calls s0 ⟨moved.1, s.tmpSeq, Function.update s.stage c moved.2⟩ := by
  obtain ⟨own, hadv⟩ := WriteCall.advanced_of_advance (hinv.progress c) hmoved
  have hseq : ∀ d, (Function.update s.stage c moved.2 d).seq = (s.stage d).seq := by
    intro d
    by_cases hd : d = c
    · subst hd
      rw [Function.update_self, hadv.after, hadv.before]
    · rw [Function.update_of_ne hd]
  constructor
  · intro d seq hd
    exact hinv.numbered d seq ((hseq d).symm.trans hd)
  · intro d e seq hd he
    exact hinv.distinct d e seq ((hseq d).symm.trans hd) ((hseq e).symm.trans he)
  · intro d
    by_cases hd : d = c
    · subst hd
      simp only [Function.update_self]
      exact hadv.progress
    · simp only [Function.update_of_ne hd]
      -- the temporary file of another call has another number, and is not a target
      refine (hinv.progress d).congr fun seq hdseq => hadv.others _ (Process.tempPath_ne ?_) ?_
      · rintro rfl
        exact hd (hinv.distinct d c _ hdseq hadv.before)
      · exact (proc.ne_tempPath _ _ (calls c).visible).symm
  · intro p hp
    have hkept : s.fs.SameAt moved.1 p → moved.1.read p = s0.fs.read p ∨
        ∃ d seq f, (calls d).path.filePath = p ∧
          Function.update s.stage c moved.2 d = .returned seq .ok ∧
          moved.1.read p = some f ∧ (calls d).Written proc f := by
      intro hsame
      rw [hsame.read]
      obtain horiginal | ⟨d, seq, f, hpath, hreturned, hread, hwritten⟩ := hinv.visible p hp
      · exact .inl horiginal
      · have hd : d ≠ c := by
          rintro rfl
          rw [hreturned] at hmoved
          cases a <;> cases hmoved
        exact .inr ⟨d, seq, f, hpath, (Function.update_of_ne hd _ _).trans hreturned, hread, hwritten⟩
    by_cases htarget : p = (calls c).path.filePath
    · subst htarget
      obtain hsame | ⟨hok, f, hread, hwritten⟩ := hadv.target
      · exact hkept hsame
      · exact .inr ⟨c, own, f, rfl, (Function.update_self _ _ _).trans hok, hread, hwritten⟩
    · exact hkept (hadv.others p (proc.ne_tempPath _ _ hp) htarget)

theorem step (hinv : Invariant proc calls s0 s) (h : Writers.step proc calls s (c, a) = some s') :
    Invariant proc calls s0 s' := by
  obtain ⟨hcalled, rfl⟩ | ⟨moved, hmoved, rfl⟩ := step_cases h
  · exact hinv.number hcalled
  · exact hinv.advance hmoved

end Invariant

/-- An operation of a call that has not returned `Ok` by it changes no file that anyone reads. -/
theorem read_of_step (hinv : Invariant proc calls s0 s) (h : step proc calls s (c, a) = some s')
    (hresult : ∀ seq, s'.stage c ≠ .returned seq .ok) {p : FilePath} (hp : p.Visible) :
    s'.fs.read p = s.fs.read p := by
  obtain ⟨-, rfl⟩ | ⟨moved, hmoved, rfl⟩ := step_cases h
  · rfl
  · obtain ⟨own, hadv⟩ := WriteCall.advanced_of_advance (hinv.progress c) hmoved
    by_cases htarget : p = (calls c).path.filePath
    · subst htarget
      obtain hsame | ⟨hok, -⟩ := hadv.target
      · exact hsame.read
      · exact absurd ((Function.update_self _ _ _).trans hok) (hresult own)
    · exact (hadv.others p (proc.ne_tempPath _ _ hp) htarget).read

theorem run_invariant {acts : List (ι × TempStep)} (hinv : Invariant proc calls s0 s)
    (hrun : Transition.run (step proc calls) s acts = some s') : Invariant proc calls s0 s' := by
  have hstep : ∀ (t : Writers ι) b t', Invariant proc calls s0 t → step proc calls t b = some t' →
      True → Invariant proc calls s0 t' := fun _ _ _ ht hb _ => ht.step hb
  exact Transition.run_invariant hstep hinv (.of_forall fun _ _ _ _ => trivial) hrun

theorem run_returned {acts : List (ι × TempStep)} {seq : Nat} {result : WriteResult}
    (hreturned : s.stage c = .returned seq result)
    (hrun : Transition.run (step proc calls) s acts = some s') :
    s'.stage c = .returned seq result := by
  have hstep : ∀ (t : Writers ι) b t', t.stage c = .returned seq result →
      step proc calls t b = some t' → True → t'.stage c = .returned seq result :=
    fun _ _ _ ht hb _ => stage_of_returned hb ht
  exact Transition.run_invariant hstep hreturned (.of_forall fun _ _ _ _ => trivial) hrun

/-- A call that ends in an error has changed no file that anyone reads, at any of its steps. -/
theorem along_err {acts : List (ι × TempStep)} {seq : Nat} {removed : Bool}
    (hinv : Invariant proc calls s0 s) (hrun : Transition.run (step proc calls) s acts = some s')
    (hresult : s'.stage c = .returned seq (.err removed)) :
    Transition.Along (step proc calls)
      (fun t b t' => b.1 = c → ∀ p : FilePath, p.Visible → t'.fs.read p = t.fs.read p) s acts := by
  induction acts generalizing s with
  | nil => trivial
  | cons b acts ih =>
    intro t ht
    obtain ⟨t', ht', hrest⟩ := Transition.run_cons hrun
    obtain rfl : t' = t := Option.some.inj (ht'.symm.trans ht)
    refine ⟨?_, ih (hinv.step ht) hrest⟩
    rintro rfl p hp
    refine read_of_step hinv ht (fun own hok => ?_) hp
    have hlast := run_returned hok hrest
    rw [hresult] at hlast
    cases hlast

/-- In every state of a run each file is the one that was there at first, or the whole of what
a call on it has written; a call that ends in an error has changed none of them, and leaves its
temporary file only when that could not be removed; and `load_nodes` is the same with and
without temporary files. -/
theorem writes_replace_whole (hstart : ∀ c, s0.stage c = .called) {acts : List (ι × TempStep)}
    (hrun : Transition.run (step proc calls) s0 acts = some s) :
    (∀ p : FilePath, p.Visible → s.fs.read p = s0.fs.read p ∨
      ∃ c seq f, (calls c).path.filePath = p ∧ s.stage c = .returned seq .ok ∧
        s.fs.read p = some f ∧ (calls c).Written proc f) ∧
    (∀ c seq removed, s.stage c = .returned seq (.err removed) →
      Transition.Along (step proc calls)
        (fun t b t' => b.1 = c → ∀ p : FilePath, p.Visible → t'.fs.read p = t.fs.read p) s0 acts ∧
      (removed = true → s.fs.read (proc.tempPath (calls c).path seq) = none)) ∧
    ∀ dir dir' : StorageDir, (∀ name, (∀ proc stem seq, name ≠ Process.tempName proc stem seq) →
      dir.nodes.get? name = dir'.nodes.get? name) → dir.loadNodes = dir'.loadNodes := by
  have hinv := run_invariant (.start hstart) hrun
  refine ⟨hinv.visible, fun c seq removed hresult => ⟨?_, fun hremoved => ?_⟩, ?_⟩
  · exact along_err (.start hstart) hrun hresult
  · subst hremoved
    have hprogress := hinv.progress c
    rw [hresult] at hprogress
    rw [FileSystem.read, hprogress rfl]
    rfl
  · intro dir dir' hsame
    exact funext (StorageDir.loadNodes_congr hsame)

section TwoWriters

/-- A configuration of `null` is stored, and nothing else. -/
def configOnly : FileSystem FilePath where
  entry p := if p = ⟨.root, "config.json"⟩ then some 0 else none
  file _ := ⟨[110, 117, 108, 108], 0o600⟩
  made := 1
  bounded {p i} h := by
    split at h
    · cases h
      exact Nat.one_pos
    · cases h
  unlinked {p q i} hp hq := by
    split at hp
    · split at hq
      · rename_i hpath hother
        exact hpath.trans hother.symm
      · cases hq
    · cases hp

def shortProcess : Process where
  pid := 7
  umask := 0o022
  pretty
    | .bool true => [116, 114, 117, 101]
    | .bool false => [102, 97, 108, 115, 101]
    | _ => [110, 117, 108, 108]

/-- Two calls on `config.json`. -/
def configCalls (value : Bool) : WriteCall :=
  ⟨.config, by simp [FilePath.Visible, StoredPath.filePath], .bool value, true⟩

def twoWriters : Writers Bool := ⟨configOnly, 0, fun _ => .called⟩

/-- Both have written half when the disk is full for one of them. -/
def halfFull : List (Bool × TempStep) :=
  [(true, .number), (false, .number), (true, .create), (false, .create), (true, .write 2),
    (false, .write 3), (false, .fail)]

theorem writes_replace_whole_halfFull : ∃ s,
    Transition.run (step shortProcess configCalls) twoWriters (halfFull ++ [(false, .remove),
      (true, .write 2), (true, .sync), (true, .restrict), (true, .rename)]) = some s ∧
    s.fs.read ⟨.root, "config.json"⟩ = some ⟨[116, 114, 117, 101], 0o600⟩ ∧
    s.fs.read (shortProcess.tempPath .config 1) = none := by
  obtain ⟨s, hrun, hread, hresult⟩ : ∃ s,
      Transition.run (step shortProcess configCalls) twoWriters (halfFull ++ [(false, .remove),
        (true, .write 2), (true, .sync), (true, .restrict), (true, .rename)]) = some s ∧
      s.fs.read ⟨.root, "config.json"⟩ = some ⟨[116, 114, 117, 101], 0o600⟩ ∧
      s.stage false = .returned 1 (.err true) := ⟨_, rfl, rfl, rfl⟩
  obtain ⟨-, hfailed, -⟩ := writes_replace_whole (fun _ => rfl) hrun
  exact ⟨s, hrun, hread, (hfailed false 1 true hresult).2 rfl⟩

/-- When the removal fails as well, half of the text stays behind. -/
theorem temp_left_behind : ∃ s,
    Transition.run (step shortProcess configCalls) twoWriters (halfFull ++ [(false, .failRemove)]) =
      some s ∧
    s.stage false = .returned 1 (.err false) ∧
    s.fs.read (shortProcess.tempPath .config 1) = some ⟨[102, 97, 108], 0o600⟩ :=
  ⟨_, rfl, rfl, rfl⟩

end TwoWriters

end Writers

end MatterRsServer.Controller
