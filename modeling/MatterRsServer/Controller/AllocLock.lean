import MatterRsServer.Controller.Commands
import MatterRsServer.Lib.Mutex

/-!
# The `alloc_lock`

`do_commission` holds `alloc_lock` from the allocation of the id to its return, and
nothing else touches it. So two commissionings never both have a `node_added` to
send.
-/
namespace MatterRsServer.Controller
open Lib Wire

/-- The messages of `do_commission`. -/
def IsNodeAdded (e : Effect) : Prop := ∃ nd, e = .send (.nodeAdded nd)

/-- The task takes `alloc_lock` for every `node_added` it sends. -/
abbrev FollowsAllocLock (t : Task) (held : Bool) : Prop :=
  Mutex.Guarded (fun s : Memory => s.allocLocked) IsNodeAdded t held

namespace Memory

@[simp] theorem allocLocked_cancelGrace (s : Memory) (nodeId : NodeId) :
    (s.cancelGrace nodeId).allocLocked = s.allocLocked := by
  unfold cancelGrace
  split <;> rfl

@[simp] theorem allocLocked_startGrace (s : Memory) (nodeId : NodeId) :
    (s.startGrace nodeId).allocLocked = s.allocLocked := by
  unfold startGrace
  split <;> rfl

@[simp] theorem allocLocked_abortAll (s : Memory) : s.abortAll.allocLocked = s.allocLocked := by
  have hfold : ∀ (l : List (NodeId × Nat)) (m : Memory),
      (l.foldl (fun m e => m.abort e.2) m).allocLocked = m.allocLocked := by
    intro l
    induction l with
    | nil => intro m; rfl
    | cons e l ih => intro m; exact ih (m.abort e.2)
  exact hfold _ _

end Memory

namespace FollowsAllocLock

variable {held : Bool} {k : Task}

theorem reply (result : Except CommandError Json) :
    FollowsAllocLock (Controller.reply result) false :=
  ⟨(by rintro ⟨_, h⟩; cases h), rfl⟩

theorem emit {e : Effect} (he : ¬ IsNodeAdded e) (hk : FollowsAllocLock k held) :
    FollowsAllocLock (.emit e k) held := ⟨fun h => absurd h he, hk⟩

theorem emitNodeUpdated (id : NodeId) (hk : FollowsAllocLock k held) :
    FollowsAllocLock (Controller.emitNodeUpdated id k) held := by
  refine Mutex.guarded_frame (fun _ => rfl) fun s => ?_
  dsimp only
  split
  · exact emit (by rintro ⟨_, h⟩; cases h) hk
  · exact hk

theorem persist (id : NodeId) (hk : FollowsAllocLock k held) :
    FollowsAllocLock (Controller.persist id k) held := by
  refine Mutex.guarded_frame (fun _ => rfl) fun s => ?_
  dsimp only
  split
  · exact emit (by rintro ⟨_, h⟩; cases h) hk
  · exact hk

theorem applyChanges (id : NodeId) (changes : List (String × Json))
    (hk : FollowsAllocLock k held) :
    FollowsAllocLock (Controller.applyChanges id changes k) held := by
  induction changes with
  | nil => exact hk
  | cons change rest ih =>
    exact Mutex.guarded_frame (fun _ => rfl) fun _ => emit (by rintro ⟨_, h⟩; cases h) ih

theorem setAvailable (id : NodeId) (available : Bool) (hk : FollowsAllocLock k held) :
    FollowsAllocLock (.modifyGet (fun s => s.setAvailable id available) fun changed =>
      if changed = some true then Controller.emitNodeUpdated id k else k) held := by
  refine Mutex.guarded_frame (fun _ => rfl) fun s => ?_
  dsimp only
  split
  · exact emitNodeUpdated id hk
  · exact hk

theorem ifKnown (id : NodeId) {arm : Task} (harm : FollowsAllocLock arm held)
    (hk : FollowsAllocLock k held) : FollowsAllocLock (Controller.ifKnown id arm k) held := by
  refine Mutex.guarded_frame (fun _ => rfl) fun s => ?_
  dsimp only
  split
  · exact harm
  · exact hk

theorem ensureNode (id : NodeId) (hk : FollowsAllocLock k false) :
    FollowsAllocLock (Controller.ensureNode id k) false := by
  refine Mutex.guarded_frame (fun _ => rfl) fun s => ?_
  dsimp only
  split
  · exact hk
  · exact reply _

theorem replacement (id : NodeId) (attributes : Attributes) (now : String)
    (hk : FollowsAllocLock k held) :
    FollowsAllocLock (.modify (fun s => s.replaceAttributes id attributes now) <|
      Controller.persist id <| Controller.emitNodeUpdated id k) held :=
  Mutex.guarded_frame (fun _ => rfl) fun _ => persist id (emitNodeUpdated id hk)

theorem handleEvent (ev : StackEvent) (now : String) (hk : FollowsAllocLock k held) :
    FollowsAllocLock (Controller.handleEvent ev now k) held := by
  cases ev with
  | nodeState id state =>
    refine ifKnown id ?_ hk
    cases state with
    | connected maxIntervalSecs =>
      exact Mutex.guarded_frame (fun s => s.allocLocked_cancelGrace id) fun _ =>
        setAvailable id true hk
    | reconnecting =>
      refine Mutex.guarded_frame (fun _ => rfl) fun s => ?_
      dsimp only
      split
      · exact Mutex.guarded_frame (fun s => s.allocLocked_startGrace id) fun _ => hk
      · exact hk
  | primingSnapshot id attributes => exact ifKnown id (replacement id attributes now hk) hk
  | attributesChanged id changes => exact ifKnown id (applyChanges id changes (persist id hk)) hk
  | nodeEvent id event =>
    exact ifKnown id (Mutex.guarded_frame (fun _ => rfl) fun _ =>
      emit (by rintro ⟨_, h⟩; cases h) hk) hk

theorem nodeManager (inputs : List Input) :
    FollowsAllocLock (Controller.nodeManager inputs) false := by
  induction inputs with
  | nil => exact Mutex.guarded_frame (fun s => s.allocLocked_abortAll) fun _ => rfl
  | cons input rest ih =>
    cases input with
    | event ev now => exact handleEvent ev now ih
    | graceExpired id =>
      refine Mutex.guarded_frame (fun _ => rfl) fun s => ?_
      cases (s.takeGrace id).1 with
      | none => exact ih
      | some handle => exact setAvailable id false ih

theorem interviewNode (id : NodeId) (interview : Except StackError Attributes) (now : String) :
    FollowsAllocLock (Controller.interviewNode id interview now) false := by
  refine ensureNode id (emit (by rintro ⟨_, h⟩; cases h) ?_)
  cases interview with
  | error e => exact reply _
  | ok attributes => exact replacement id attributes now (reply _)

theorem removeNode (id : NodeId) : FollowsAllocLock (Controller.removeNode id) false := by
  refine ensureNode id (Mutex.guarded_frame (fun _ => rfl) fun s => ?_)
  refine emit (by rintro ⟨_, h⟩; cases h) (emit (by rintro ⟨_, h⟩; cases h) ?_)
  refine Mutex.guarded_frame (fun _ => rfl) fun _ => ?_
  exact emit (by rintro ⟨_, h⟩; cases h) (emit (by rintro ⟨_, h⟩; cases h) (reply _))

/-- The guard is dropped on every way out. -/
theorem endCommission (result : Except CommandError Json) :
    FollowsAllocLock (Controller.endCommission result) true :=
  fun _ _ => ⟨false, reply result, .release rfl⟩

theorem registerNode (record : NodeRecord) :
    FollowsAllocLock (Controller.registerNode record) true := by
  refine Mutex.guarded_frame (fun _ => rfl) fun _ => emit (by rintro ⟨_, h⟩; cases h) ?_
  refine Mutex.guarded_frame (fun _ => rfl) fun s => ?_
  dsimp only
  split
  · exact endCommission _
  · exact ⟨fun _ => rfl, emit (by rintro ⟨_, h⟩; cases h) (endCommission _)⟩

theorem commissionNode (a : CommissionAttempt) (id : NodeId) :
    FollowsAllocLock (Controller.commissionNode a id) true := by
  refine Mutex.guarded_frame (fun _ => rfl) fun s => emit (by rintro ⟨_, h⟩; cases h) ?_
  cases a.commission with
  | error e => exact endCommission _
  | ok outcome =>
    refine emit (by rintro ⟨_, h⟩; cases h) ?_
    cases a.interview with
    | error e => exact emit (by rintro ⟨_, h⟩; cases h) (endCommission _)
    | ok attributes => exact registerNode _

theorem skipInUse (controllerNodeId : NodeId) {next : NodeId → Task}
    (hnext : ∀ id, FollowsAllocLock (next id) true) (fuel : Nat) (candidate : NodeId) :
    FollowsAllocLock (Controller.skipInUse (idInUse controllerNodeId) next fuel candidate) true := by
  induction fuel generalizing candidate with
  | zero => exact fun s hready => by cases hready
  | succ fuel ih =>
    refine Mutex.guarded_frame (fun _ => rfl) fun s => ?_
    dsimp only
    split
    · exact ih _
    · exact hnext _

theorem doCommission (fuel : Nat) (controllerNodeId : NodeId) (a : CommissionAttempt) :
    FollowsAllocLock (Controller.doCommission fuel controllerNodeId a) false := by
  intro s hready
  refine ⟨true, ?_, .acquire (by simpa using hready) rfl⟩
  refine Mutex.guarded_frame (fun _ => rfl) fun _ => Mutex.guarded_frame (fun _ => rfl) fun _ => ?_
  refine skipInUse controllerNodeId (fun id => ?_) fuel _
  exact emit (by rintro ⟨_, h⟩; cases h)
    (Mutex.guarded_frame (fun _ => rfl) fun _ => commissionNode a id)

end FollowsAllocLock

end MatterRsServer.Controller
