import MatterRsServer.Controller.NodeIds
import MatterRsServer.Controller.Storage

/-!
# The next id of a stored directory

`allocate_node_id` of `crates/controller/src/storage.rs` in a process that has just loaded its
directory: the id it hands out is not in use, and it hands one out as long as any id is free.
-/
namespace MatterRsServer.Controller
open Lib

/-- The first id from `candidate` on that is not used, looking at `fuel` of them. -/
def firstFree (used : NodeId → Bool) : Nat → NodeId → Option NodeId
  | 0, _ => none
  | fuel + 1, candidate =>
    if used candidate then firstFree used fuel (candidate + 1) else some candidate

theorem not_used_of_firstFree {used : NodeId → Bool} {fuel : Nat} {candidate id : NodeId}
    (h : firstFree used fuel candidate = some id) : used id = false := by
  induction fuel generalizing candidate with
  | zero => cases h
  | succ fuel ih =>
    unfold firstFree at h
    split at h
    · exact ih h
    next hfree =>
      cases h
      exact Bool.eq_false_iff.mpr hfree

theorem exists_firstFree_of_add {used : NodeId → Bool} {n : Nat} {candidate : NodeId}
    (h : used (candidate + UInt64.ofNat n) = false) :
    ∃ id, firstFree used (n + 1) candidate = some id := by
  induction n generalizing candidate with
  | zero =>
    have hfree : used candidate = false := by simpa using h
    exact ⟨candidate, by simp [firstFree, hfree]⟩
  | succ n ih =>
    by_cases hused : used candidate
    · have hnext : candidate + 1 + UInt64.ofNat n = candidate + UInt64.ofNat (n + 1) := by
        rw [UInt64.ofNat_add, UInt64.add_assoc, UInt64.add_comm 1]
        rfl
      obtain ⟨id, hid⟩ := ih (hnext ▸ h)
      refine ⟨id, ?_⟩
      rw [firstFree, if_pos hused]
      exact hid
    · exact ⟨candidate, by simp [firstFree, hused]⟩

/-- The ids are cyclic, so the search meets every free one. -/
theorem exists_firstFree {used : NodeId → Bool} {id : NodeId} (h : used id = false)
    (candidate : NodeId) : ∃ fuel found, firstFree used fuel candidate = some found := by
  have hid : candidate + UInt64.ofNat (id - candidate).toNat = id := by
    rw [UInt64.ofNat_toNat, UInt64.add_comm, UInt64.sub_add_cancel]
  obtain ⟨found, hfound⟩ := exists_firstFree_of_add (n := (id - candidate).toNat) (hid ▸ h)
  exact ⟨_, found, hfound⟩

namespace Memory

/-- The memory of a process that has just loaded its directory. -/
def ofStorage (dir : StorageDir) : Memory :=
  ⟨.new (dir.loadNodes fun _ => true), dir.loadConfig, false, false, ∅, [], 0, []⟩

/-- `allocate_node_id` ends and hands out `id`. -/
def HandsOut (s : Memory) (controllerNodeId id : NodeId) : Prop :=
  ∃ fuel, ∀ k : NodeId → ConfigData → Task,
    (allocateNodeId fuel (idInUse controllerNodeId) s.config k).exec s =
      (k id { s.config with nextNodeId := id + 1 }).exec s

theorem exec_skipInUse (s : Memory) (controllerNodeId : NodeId) (k : NodeId → Task) (fuel : Nat)
    (candidate : NodeId) : (skipInUse (idInUse controllerNodeId) k fuel candidate).exec s =
      ((firstFree (s.inUse controllerNodeId) fuel candidate).map fun id => (k id).exec s).getD
        (s, []) := by
  induction fuel generalizing candidate with
  | zero => rfl
  | succ fuel ih =>
    change (if s.inUse controllerNodeId candidate then
      skipInUse (idInUse controllerNodeId) k fuel (candidate + 1) else k candidate : Task).exec s = _
    unfold firstFree
    split
    · exact ih _
    · rfl

theorem handsOut_iff {s : Memory} {controllerNodeId id : NodeId} :
    s.HandsOut controllerNodeId id ↔
      ∃ fuel, firstFree (s.inUse controllerNodeId) fuel (max s.config.nextNodeId 1) = some id := by
  unfold HandsOut allocateNodeId
  simp only [exec_skipInUse]
  refine exists_congr fun fuel => ⟨fun h => ?_, fun h k => by simp [h]⟩
  -- a continuation that shows the id it was given
  have hshown := congrArg Prod.snd (h fun id _ => .emit (.delete id) .done)
  cases hfound : firstFree (s.inUse controllerNodeId) fuel (max s.config.nextNodeId 1) with
  | none => simp [hfound, Prog.exec] at hshown
  | some found => simpa [hfound, Prog.exec] using hshown

/-- What is handed out is not in use. -/
theorem HandsOut.not_inUse {s : Memory} {controllerNodeId id : NodeId}
    (h : s.HandsOut controllerNodeId id) : s.inUse controllerNodeId id = false := by
  obtain ⟨fuel, hfound⟩ := handsOut_iff.mp h
  exact not_used_of_firstFree hfound

/-- An id is handed out as long as any is free. -/
theorem exists_handsOut {s : Memory} {controllerNodeId id : NodeId}
    (h : s.inUse controllerNodeId id = false) : ∃ found, s.HandsOut controllerNodeId found := by
  obtain ⟨fuel, found, hfound⟩ := exists_firstFree h (max s.config.nextNodeId 1)
  exact ⟨found, handsOut_iff.mpr ⟨fuel, hfound⟩⟩

end Memory

/-- A process knows the nodes it has loaded. -/
theorem Registry.contains_new {records : List NodeRecord} {id : NodeId} :
    (Registry.new records).contains id = true ↔ id ∈ records.map NodeRecord.nodeId := by
  suffices h : ∀ r : Registry, (records.foldl Registry.insert r).contains id = true ↔
      r.contains id = true ∨ id ∈ records.map NodeRecord.nodeId by
    simpa [Registry.contains_eq, Registry.new] using h Registry.empty
  induction records with
  | nil => simp
  | cons record records ih =>
    intro r
    rw [List.foldl_cons, ih]
    simp only [Registry.contains_eq, Registry.get?_insert, List.map_cons, List.mem_cons]
    split <;> simp_all

end MatterRsServer.Controller
