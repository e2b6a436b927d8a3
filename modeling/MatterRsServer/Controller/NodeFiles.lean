import MatterRsServer.Controller.Reporting

/-!
# Node files against the registry

The `nodes/` directory (`storage.rs`: `save_node`, `delete_node`, `load_nodes`) as
a mirror of the registry. `persist`, `interview_node` and `do_commission` write a
snapshot some time after they took it and `remove_node` deletes after it removed,
with no lock over both, so a write may land after the registry has moved on. The
directory equals the registry at rest in every run where no registry change
outdates a write that another task is already committed to.
-/
namespace MatterRsServer.Controller
open Lib Wire

/-- `nodes/`, by node id; `save_node` names the file after the record's own id. -/
abbrev NodesDir := OrdMap NodeId NodeRecord

def saveNode (dir : NodesDir) (record : NodeRecord) : NodesDir := dir.insert record.nodeId record

def deleteNode (dir : NodesDir) (nodeId : NodeId) : NodesDir := dir.erase nodeId

/-- `load_nodes`: every file's record, ordered by node id. -/
def loadNodes (dir : NodesDir) : List NodeRecord := dir.entries.map Prod.snd

/-- The directory after the tasks' outputs, in order. -/
def nodesDirAfter (dir : NodesDir) (log : List Effect) : NodesDir :=
  log.foldl (fun dir e => match e with
    | .save record => saveNode dir record
    | .delete nodeId => deleteNode dir nodeId
    | _ => dir) dir

/-- Every node file holds the registry's record, and every record has its file. -/
def FilesMirror (dir : NodesDir) (registry : Registry) : Prop :=
  ∀ id, dir.get? id = registry.snapshotRecord id

def nodeFiles : Mirror NodeId NodeRecord Memory Effect where
  source s := s.registry.snapshotRecord
  act e id file := match e with
    | .save record => if id = record.nodeId then some record else file
    | .delete nodeId => if id = nodeId then none else file
    | _ => file
  overwrite e l k x := by
    cases e with
    | save record => by_cases h : k = record.nodeId <;> simp [h]
    | delete nodeId => by_cases h : k = nodeId <;> simp [h]
    | _ => rfl

theorem get?_nodesDirAfter (dir : NodesDir) (log : List Effect) (id : NodeId) :
    (nodesDirAfter dir log).get? id = nodeFiles.fold log id (dir.get? id) := by
  induction log generalizing dir with
  | nil => rfl
  | cons e log ih =>
    refine (ih _).trans (congrArg (nodeFiles.fold log id) ?_)
    cases e with
    | save record => exact OrdMap.get?_insert _ _ _ _
    | delete nodeId => exact OrdMap.get?_erase _ _ _
    | _ => rfl

namespace NodeFiles

theorem neutral_send (msg : EventMessage) : nodeFiles.Neutral (.send msg) := fun _ _ => rfl

/-- Changing a node's availability or nothing at all leaves every record as it is. -/
theorem source_setAvailable (s : Memory) (id : NodeId) (available : Bool) :
    nodeFiles.source (s.setAvailable id available).2 = nodeFiles.source s := by
  funext j
  simp only [nodeFiles, Registry.snapshotRecord, Memory.get?_setAvailable]
  split
  next h => subst h; cases s.registry.get? j <;> rfl
  · rfl

theorem upToDate_save {s : Memory} {record : NodeRecord}
    (h : s.registry.snapshotRecord record.nodeId = some record) :
    nodeFiles.UpToDate (.save record) s := by
  intro k
  by_cases hk : k = record.nodeId
  · subst hk; simp [nodeFiles, h]
  · simp [nodeFiles, hk]

theorem upToDate_delete {s : Memory} {id : NodeId} (h : s.registry.snapshotRecord id = none) :
    nodeFiles.UpToDate (.delete id) s := by
  intro k
  by_cases hk : k = id
  · subst hk; simp [nodeFiles, h]
  · simp [nodeFiles, hk]

theorem registryMirror : RegistryMirror nodeFiles where
  source_eq s s' h := by simp [nodeFiles, h]
  stack _ _ _ := rfl
  replies _ _ _ := rfl
  saveConfig _ _ _ := rfl
  nodeEvent _ _ _ := rfl

theorem settles_emitNodeUpdated {id : NodeId} {k : Task} (hquiet : nodeFiles.Quiet k)
    (hk : nodeFiles.Settles k owesNothing) :
    nodeFiles.Settles (emitNodeUpdated id k) owesNothing := by
  refine registryMirror.frame (fun _ => rfl) (fun s => ?_) fun s => ?_
  · dsimp only
    split
    · exact (neutral_send _).quiet_emit hquiet
    · exact hquiet
  · dsimp only
    split
    · exact hk
    · exact hk

/-- `persist` writes what is registered when it looks, so nothing is owed after it. -/
theorem settles_persist {id : NodeId} {k : Task} {D : NodeId → Prop} (hD : ∀ j, D j → j = id)
    (hquiet : nodeFiles.Quiet k) (hk : nodeFiles.Settles k owesNothing) :
    nodeFiles.Settles (persist id k) D := by
  intro s _
  refine ⟨owesNothing, ?_, ?_, fun _ h => absurd rfl h, ?_⟩
  · dsimp only
    split
    · exact hk
    · exact hk
  · dsimp only
    split
    next record hrec =>
      intro e he
      rcases List.mem_cons.mp he with rfl | he
      · obtain ⟨_, _, _, hid⟩ := Registry.snapshotRecord_eq_some hrec
        exact upToDate_save (by rw [hid]; exact hrec)
      · exact (hquiet e he).upToDate _
    · exact fun e he => (hquiet e he).upToDate _
  · intro j hj _
    have hjid := hD j hj
    subst hjid
    dsimp only
    split
    next record hrec =>
      obtain ⟨_, _, _, hid⟩ := Registry.snapshotRecord_eq_some hrec
      exact Or.inr ⟨.save record, by simp, fun x => by simp [nodeFiles, hid, hrec]⟩
    next hnone => exact Or.inl hnone

/-- A change of one node's record is a debt that a later `persist` pays. -/
theorem settles_modify (id : NodeId) {k : Task} {D : NodeId → Prop} {upd : Memory → Memory}
    (hD : ∀ j, D j → j = id) (hpending : ∀ s e, e ∈ k.pending → nodeFiles.UpToDate e (upd s))
    (hframe : ∀ s j, j ≠ id → (upd s).registry.get? j = s.registry.get? j)
    (hkeep : ∀ s, s.registry.get? id = none → (upd s).registry.get? id = none)
    (hset : ∀ s, (s.registry.get? id).isSome → ((upd s).registry.get? id).isSome)
    (hk : nodeFiles.Settles k (· = id)) : nodeFiles.Settles (.modify upd k) D := by
  intro s _
  refine ⟨(· = id), hk, hpending s, ?_, fun j hj hne => absurd (hD j hj) hne⟩
  intro j hj
  by_cases hjid : j = id
  · subst hjid
    refine Or.inl ⟨rfl, ?_⟩
    cases hs : s.registry.get? j with
    | none => simp [nodeFiles, Registry.snapshotRecord, hs, hkeep s hs] at hj
    | some e =>
      have hsome := hset s (by simp [hs])
      simpa [nodeFiles, Registry.snapshotRecord, Option.isSome_iff_ne_none] using hsome
  · exact absurd (by simp [nodeFiles, Registry.snapshotRecord, hframe s j hjid]) hj

theorem settles_applyChanges (id : NodeId) (changes : List (String × Json)) {k : Task}
    {D : NodeId → Prop} (hD : ∀ j, D j → j = id) (hquiet : nodeFiles.Quiet k)
    (hk : nodeFiles.Settles k owesNothing) :
    nodeFiles.Settles (applyChanges id changes (persist id k)) D := by
  induction changes generalizing D with
  | nil => exact settles_persist hD hquiet hk
  | cons change rest ih =>
    refine settles_modify id hD (fun s e he => ?_) (fun s j hj => ?_) (fun s hs => ?_) (fun s hs => ?_)
      (ih fun _ hj => hj)
    · rw [Prog.pending_emit, pending_applyChanges id rest rfl, List.mem_singleton] at he
      subst he
      exact (neutral_send _).upToDate _
    · simp [Memory.get?_setAttribute, hj]
    · simp [Memory.get?_setAttribute, hs]
    · simpa [Memory.get?_setAttribute] using hs

end NodeFiles

open NodeFiles

theorem nodeFiles_reports : Reports nodeFiles where
  toRegistryMirror := registryMirror
  availability id available k hquiet hk := by
    refine Mirror.settles_frame (fun s => source_setAvailable s id available) (fun s => ?_)
      fun s => ?_
    · dsimp only
      split
      · exact settles_emitNodeUpdated hquiet hk
      · exact hk
    · dsimp only
      split
      · simp [emitNodeUpdated]
      · exact fun e he => (hquiet e he).upToDate _
  replacement id attributes now k hquiet hk := by
    refine settles_modify id (fun _ h => h.elim) (by simp [persist]) (fun s j hj => ?_)
      (fun s hs => ?_) (fun s hs => ?_) ?_
    · simp [Memory.get?_replaceAttributes, hj]
    · simp [Memory.get?_replaceAttributes, hs]
    · simpa [Memory.get?_replaceAttributes] using hs
    · exact settles_persist (fun _ h => h) (Mirror.quiet_of_pending_nil rfl)
        (settles_emitNodeUpdated hquiet hk)
  changes id changes k hquiet hk := settles_applyChanges id changes (fun _ h => h.elim) hquiet hk
  removal id k hquiet hk := by
    intro s _
    have hnone : (s.removeNode id).registry.snapshotRecord id = none := by
      simp [Registry.snapshotRecord]
    refine ⟨owesNothing, hk, ?_, ?_, fun _ h => h.elim⟩
    · intro e he
      rcases List.mem_cons.mp he with rfl | he
      · exact upToDate_delete hnone
      · rcases List.mem_cons.mp he with rfl | he
        · exact (neutral_send _).upToDate _
        · exact (hquiet e he).upToDate _
    · intro j hj
      by_cases hjid : j = id
      · subst hjid
        exact Or.inr ⟨.delete j, by simp, by simp [nodeFiles, hnone], fun _ x => by simp [nodeFiles]⟩
      · exact absurd (by simp [nodeFiles, Registry.snapshotRecord, hjid]) hj
  registration record := by
    intro s _
    have hsome : (s.insertNode record).registry.snapshotRecord record.nodeId = some record := by
      simp [Registry.snapshotRecord]
    refine ⟨owesNothing, ?_, ?_, ?_, fun _ h => h.elim⟩
    · refine registryMirror.frame (fun _ => rfl) (fun s => ?_) fun s => ?_
      · dsimp only
        split
        · exact Mirror.quiet_of_pending_nil rfl
        · exact (neutral_send _).quiet_emit
            ((registryMirror.stack _).quiet_emit (Mirror.quiet_of_pending_nil rfl))
      · dsimp only
        split
        · exact registryMirror.settles_endCommission _
        · exact registryMirror.settles_endCommission _
    · intro e he
      rw [show e = .save record by simpa using he]
      exact upToDate_save hsome
    · intro j hj
      by_cases hjid : j = record.nodeId
      · subst hjid
        exact Or.inr ⟨.save record, by simp, by simp [nodeFiles, hsome],
          fun h => by simp [nodeFiles, hsome] at h⟩
      · exact absurd (by simp [nodeFiles, Registry.snapshotRecord, hjid]) hj

/-- Without a race the next boot registers every node with its current record. -/
theorem snapshotRecord_new_loadNodes {dir : NodesDir} {registry : Registry}
    (h : FilesMirror dir registry) (id : NodeId) :
    (Registry.new (loadNodes dir)).snapshotRecord id = registry.snapshotRecord id := by
  have hid : ∀ e ∈ dir.entries, e.2.nodeId = e.1 := by
    intro e he
    have hget : dir.get? e.1 = some e.2 := dir.sorted.get?_of_mem he
    rw [h] at hget
    obtain ⟨_, _, _, hid⟩ := Registry.snapshotRecord_eq_some hget
    exact hid
  rw [← h id]
  cases hfile : dir.get? id with
  | none =>
    have habsent : ∀ record ∈ loadNodes dir, record.nodeId ≠ id := by
      intro record hrecord hrid
      obtain ⟨e, he, rfl⟩ := List.mem_map.mp hrecord
      exact Entries.get?_eq_none.mp hfile e he ((hid e he).symm.trans hrid)
    simp [Registry.snapshotRecord, Registry.new, Registry.get?_foldl_insert_of_not_mem habsent]
  | some record =>
    have hmem : (id, record) ∈ dir.entries := Entries.mem_of_get? hfile
    have hsorted : (loadNodes dir).Pairwise fun a b => a.nodeId ≠ b.nodeId := by
      refine List.pairwise_map.mpr (dir.sorted.imp_of_mem ?_)
      intro a b ha hb hlt
      rw [hid a ha, hid b hb]
      exact ne_of_lt hlt
    have hrid : record.nodeId = id := hid _ hmem
    have hload : record ∈ loadNodes dir := List.mem_map.mpr ⟨_, hmem, rfl⟩
    rw [← hrid]
    exact Registry.snapshotRecord_foldl_insert hsorted hload _

/-- After a step of task `i`, every node file operation that another task is already
committed to still says what the registry holds. -/
def KeepsFileWrites {ι : Type} (_ : Config ι Memory Effect) (i : ι) (c' : Config ι Memory Effect) :
    Prop :=
  ∀ j, j ≠ i →
    (∀ record, .save record ∈ (c'.task j).pending →
      c'.mem.registry.snapshotRecord record.nodeId = some record) ∧
    (∀ id, .delete id ∈ (c'.task j).pending → c'.mem.registry.snapshotRecord id = none)

theorem KeepsFileWrites.keepsPending {ι : Type} {c c' : Config ι Memory Effect} {i : ι}
    (h : KeepsFileWrites c i c') : nodeFiles.KeepsPending c i c' := by
  intro j hj e he
  cases e with
  | save record => exact upToDate_save ((h j hj).1 record he)
  | delete id => exact upToDate_delete ((h j hj).2 id he)
  | send | saveConfig | stack | reply => exact fun _ => rfl

/-- Over every interleaving of the controller's tasks in which no registry change
outdates a file operation in flight, the directory mirrors the registry at rest,
and so does the registry that the next boot builds from it. -/
theorem nodeFiles_mirror_registry {ι : Type} [DecidableEq ι] {c c' : Config ι Memory Effect}
    {dir : NodesDir} {sched : List ι} (hstart : Starting c) (hdir : FilesMirror dir c.mem.registry)
    (halong : Config.Along KeepsFileWrites c sched) (hrun : c.run sched = some c')
    (hquiescent : c'.Quiescent) :
    FilesMirror (nodesDirAfter dir c'.log) c'.mem.registry ∧
      ∀ id, (Registry.new (loadNodes (nodesDirAfter dir c'.log))).snapshotRecord id =
        c'.mem.registry.snapshotRecord id := by
  have hkeeps : Config.Along nodeFiles.KeepsPending c sched :=
    halong.mono fun _ _ _ h => h.keepsPending
  obtain ⟨D, new, hlog, hmirrored⟩ :=
    (nodeFiles_reports.mirrored_start hstart).run hkeeps hrun
  have hview := hmirrored.quiescent hquiescent
  have hfiles : FilesMirror (nodesDirAfter dir c'.log) c'.mem.registry := by
    intro id
    rw [get?_nodesDirAfter, hlog, hstart.log, List.nil_append, hdir id]
    exact congrFun hview id
  exact ⟨hfiles, snapshotRecord_new_loadNodes hfiles⟩

section Race

/-- The node manager (`true`) applies a report of node 7 while a command (`false`) removes it. -/
def removalRace : Config Bool Memory Effect where
  mem := lampMemory
  log := []
  task
    | true => nodeManager [.event (.attributesChanged 7 [("1/6/0", .bool true)]) ""]
    | false => removeNode 7

/-- The node manager takes its snapshot, the removal runs to its end, then the file is written. -/
def removalRaceSchedule : List Bool :=
  [true, true, true, true, false, false, false, false, false, false, false, false, true, true]

def lampDir : NodesDir := .ofList [(7, lamp)]

theorem removalRace_starting : Starting removalRace where
  task i := match i with
    | true => .nodeManager _
    | false => .removeNode _
  log := rfl

theorem lampDir_mirrors : FilesMirror lampDir removalRace.mem.registry := by
  intro id
  by_cases h : id = 7
  · subst h; rfl
  · simp [lampDir, removalRace, lampMemory, Registry.snapshotRecord, Registry.new, lamp,
      Registry.get?_insert, h, OrdMap.ofList, OrdMap.get?, Entries.insertAll, Entries.insert,
      Entries.get?]

/-- The write that lands after the removal leaves a file of a node nobody serves. -/
theorem removedNode_fileReappears :
    Starting removalRace ∧ FilesMirror lampDir removalRace.mem.registry ∧
      ∃ c', removalRace.run removalRaceSchedule = some c' ∧ c'.Quiescent ∧
        ¬ FilesMirror (nodesDirAfter lampDir c'.log) c'.mem.registry := by
  refine ⟨removalRace_starting, lampDir_mirrors, _, rfl, ?_, ?_⟩
  · intro i
    cases i <;> rfl
  · intro h
    exact Option.some_ne_none _ (h 7)

/-- The same two tasks one after the other. -/
theorem nodeFiles_mirror_registry_serial : ∃ c',
    removalRace.run (List.replicate 6 true ++ List.replicate 8 false) = some c' ∧
      FilesMirror (nodesDirAfter lampDir c'.log) c'.mem.registry := by
  have hsolo : ∀ i (c c' : Config Bool Memory Effect), (∀ j, j ≠ i → (c'.task j).pending = []) →
      KeepsFileWrites c i c' := by
    intro i c c' h j hj
    simp [h j hj]
  have halong : Config.Along KeepsFileWrites removalRace
      (List.replicate 6 true ++ List.replicate 8 false) := by
    refine .append (Config.Along.solo (hsolo true) 6 fun j hj => ?_) fun m hm =>
      Config.Along.solo (hsolo false) 8 fun j hj => ?_
    · cases j
      · rfl
      · exact absurd rfl hj
    · cases hm
      cases j
      · exact absurd rfl hj
      · rfl
  refine ⟨_, rfl, (nodeFiles_mirror_registry removalRace_starting lampDir_mirrors halong rfl ?_).1⟩
  intro i
  cases i <;> rfl

end Race

end MatterRsServer.Controller
