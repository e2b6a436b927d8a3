import MatterRsServer.Controller.Grace
import MatterRsServer.Controller.Steps

/-!
# Never stuck available

The consumer loop of `NodeManager::run` one atomic step at a time: while a handler is under
way, commands change the registry and timers fire. A node that dropped out and is still shown
as available has a grace timer of its own to come, and its availability never changes without
one `node_updated`.
-/
namespace MatterRsServer.Controller
open Lib Wire

/-- The loop, its handlers in `config`. A queued signal is kept with the handle of the timer
that sent it, which the code does not see; `last` is the last NodeState event taken for a node,
also when the node was registered only later. -/
structure Consumer where
  config : Config Unit Memory Effect
  graceRx : List (NodeId × Nat)
  last : NodeId → Option NodeConnState

inductive ConsumerStep where
  | receive (ev : StackEvent) (now : String)
  | deliver
  | handle
  | fire (handle : Nat)
  | tick (seconds : Nat)
  | insert (record : NodeRecord)
  | remove (nodeId : NodeId)
  | interview (nodeId : NodeId) (attributes : Attributes) (now : String)

/-- The event is the last one of its node from now on. -/
def noteState (last : NodeId → Option NodeConnState) : StackEvent → NodeId → Option NodeConnState
  | .nodeState nodeId state => Function.update last nodeId (some state)
  | _ => last

namespace Consumer

abbrev mem (s : Consumer) : Memory := s.config.mem

/-- The loop waits at its `select!`. -/
def Idle (s : Consumer) : Prop := s.config.task () = .done

/-- `select!` serves a branch, whose handler starts. -/
def serve (s : Consumer) (handler : Task) : Option Consumer :=
  match s.config.task () with
  | .done => some { s with config := { s.config with task := fun _ => handler } }
  | _ => none

/-- Something outside the loop changes the memory. -/
def withMem (s : Consumer) (mem : Memory) : Consumer :=
  { s with config := { s.config with mem := mem } }

def step (s : Consumer) : ConsumerStep → Option Consumer
  | .receive ev now => { s with last := noteState s.last ev }.serve (handleEvent ev now .done)
  | .deliver =>
    match s.graceRx with
    | [] => none
    | (nodeId, _) :: rest => { s with graceRx := rest }.serve (handleGraceExpiry nodeId .done)
  | .handle => (s.config.step ()).map fun config => { s with config := config }
  | .fire handle =>
    match s.mem.timers[handle]? with
    | some t =>
      if t.state = .sleeping ∧ t.started + reconnectGrace ≤ s.mem.clock then
        some { s.withMem (s.mem.finish handle) with graceRx := s.graceRx ++ [(t.nodeId, handle)] }
      else none
    | none => none
  | .tick seconds => some (s.withMem { s.mem with clock := s.mem.clock + seconds })
  | .insert record => some (s.withMem (s.mem.insertNode record))
  | .remove nodeId => some (s.withMem (s.mem.removeNode nodeId))
  | .interview nodeId attributes now => some (s.withMem (s.mem.replaceAttributes nodeId attributes now))

/-- The loop at its start. -/
structure Fresh (s : Consumer) : Prop where
  idle : s.Idle
  graceTimers : ∀ nodeId, s.mem.graceTimers.get? nodeId = none
  timers : s.mem.timers = []
  graceRx : s.graceRx = []
  last : ∀ nodeId, s.last nodeId = none

end Consumer

/-- The node has an entry whose own timer is still running or whose own signal is still queued. -/
def GracePending (s : Memory) (graceRx : List (NodeId × Nat)) (nodeId : NodeId) : Prop :=
  ∃ handle timer, s.graceTimers.get? nodeId = some handle ∧ s.timers[handle]? = some timer ∧
    timer.nodeId = nodeId ∧ (timer.state = .sleeping ∨ (nodeId, handle) ∈ graceRx)

/-- The step takes a NodeState event or an expiry signal of the node. -/
def Consumer.Takes (s : Consumer) (nodeId : NodeId) : ConsumerStep → Prop
  | .receive (.nodeState j _) _ => j = nodeId
  | .deliver => ∃ handle rest, s.graceRx = (nodeId, handle) :: rest
  | _ => False

/-- The step takes nothing new and leaves the node's registration alone. -/
def ConsumerStep.Leaves (nodeId : NodeId) : ConsumerStep → Prop
  | .receive _ _ | .deliver => False
  | .insert record => record.nodeId ≠ nodeId
  | .remove j => j ≠ nodeId
  | _ => True

/-- One `node_updated` of the node with its new availability if that changed from `s` to `t`,
and no message otherwise. -/
structure FlipAnnounced (s t : Consumer) (nodeId : NodeId) : Prop where
  same : t.mem.available nodeId = s.mem.available nodeId → t.config.log = s.config.log
  flipped : t.mem.available nodeId ≠ s.mem.available nodeId → ∃ nd : MatterNodeData,
    t.config.log = s.config.log ++ [.send (.nodeUpdated nd)] ∧ nd.nodeId = nodeId ∧
      t.mem.available nodeId = some nd.available

/-- Where a handler is, as far as availability is concerned. -/
inductive HandlerStage where
  | idle
  | other
  | received (nodeId : NodeId) (state : NodeConnState)
  | starting (nodeId : NodeId)
  | signalled (nodeId : NodeId)
  | setting (nodeId : NodeId) (available : Bool)
  | changed (nodeId : NodeId)
  | announcing (nd : MatterNodeData)

namespace HandlerStage

inductive Access (s : Memory) : HandlerStage → Memory → HandlerStage → Prop where
  | pass (s' : Memory) (h : SameGrace s s') : Access s .other s' .other
  | known (id : NodeId) (state : NodeConnState) : Access s (.received id state) s (.received id state)
  | unknown (id : NodeId) (state : NodeConnState) (h : s.registry.contains id = false) :
      Access s (.received id state) s .idle
  | cancel (id : NodeId) (maxIntervalSecs : UInt16) :
      Access s (.received id (.connected maxIntervalSecs)) (s.cancelGrace id) (.setting id true)
  | offline (id : NodeId) (h : s.available id ≠ some true) :
      Access s (.received id .reconnecting) s .idle
  | online (id : NodeId) : Access s (.received id .reconnecting) s (.starting id)
  | start (id : NodeId) : Access s (.starting id) (s.startGrace id) .idle
  | stale (id : NodeId) (h : s.graceTimers.get? id = none) :
      Access s (.signalled id) (s.takeGrace id).2 .idle
  | expire (id : NodeId) : Access s (.signalled id) (s.takeGrace id).2 (.setting id false)
  | keep (id : NodeId) (b : Bool) (h : (s.setAvailable id b).1 ≠ some true) :
      Access s (.setting id b) (s.setAvailable id b).2 .idle
  | flip (id : NodeId) (b : Bool) (h : (s.setAvailable id b).1 = some true) :
      Access s (.setting id b) (s.setAvailable id b).2 (.changed id)
  | gone (id : NodeId) (h : s.registry.get? id = none) : Access s (.changed id) s .idle
  | look (id : NodeId) (nd : MatterNodeData) (h : s.registry.nodeData id = some nd) :
      Access s (.changed id) s (.announcing nd)

inductive Output : HandlerStage → Effect → HandlerStage → Prop where
  | report (e : Effect) : Output .other e .other
  | announce (nd : MatterNodeData) : Output (.announcing nd) (.send (.nodeUpdated nd)) .idle

def Left : HandlerStage → Task → Prop
  | .idle, p => p = .done
  | .other, _ => True
  | _, p => p ≠ .done

/-- What the handlers of the loop do, stage by stage. -/
def protocol : Protocol Memory Effect HandlerStage where
  left := Left
  knows _ _ := True
  access g s s' g' := Access s g s' g'
  output := Output

theorem follows_done : protocol.Follows .done .idle := rfl

theorem follows_emitNodeUpdated (id : NodeId) :
    protocol.Follows (emitNodeUpdated id .done) (.changed id) := by
  refine ⟨nofun, fun s _ _ => ?_⟩
  dsimp only [emitNodeUpdated]
  cases hdata : s.registry.nodeData id with
  | none => exact ⟨.idle, .gone id (Option.map_eq_none_iff.mp hdata), fun _ => follows_done⟩
  | some nd => exact ⟨.announcing nd, .look id nd hdata, fun _ => ⟨nofun, .idle, .announce nd, rfl⟩⟩

theorem follows_setAvailable (id : NodeId) (b : Bool) :
    protocol.Follows (.modifyGet (fun s => s.setAvailable id b) fun changed =>
      if changed = some true then emitNodeUpdated id .done else .done) (.setting id b) := by
  refine ⟨nofun, fun s _ _ => ?_⟩
  dsimp only
  split
  next hchanged => exact ⟨.changed id, .flip id b hchanged, fun _ => follows_emitNodeUpdated id⟩
  next hsame => exact ⟨.idle, .keep id b hsame, fun _ => follows_done⟩

theorem follows_handleNodeState (id : NodeId) (state : NodeConnState) :
    protocol.Follows (handleNodeState id .done state) (.received id state) := by
  cases state with
  | connected maxIntervalSecs =>
    exact ⟨nofun, fun s _ _ => ⟨_, .cancel id maxIntervalSecs, fun _ => follows_setAvailable id true⟩⟩
  | reconnecting =>
    refine ⟨nofun, fun s _ _ => ?_⟩
    dsimp only
    split
    · exact ⟨_, .online id, fun _ => ⟨nofun, fun _ _ _ => ⟨_, .start id, fun _ => follows_done⟩⟩⟩
    next hread => exact ⟨_, .offline id fun h => hread ((nodeData_available s id).mpr h),
        fun _ => follows_done⟩

theorem follows_nodeState (id : NodeId) (state : NodeConnState) (now : String) :
    protocol.Follows (handleEvent (.nodeState id state) now .done) (.received id state) := by
  refine ⟨nofun, fun s _ _ => ?_⟩
  dsimp only
  split
  · exact ⟨_, .known id state, fun _ => follows_handleNodeState id state⟩
  next hknown => exact ⟨_, .unknown id state (Bool.not_eq_true _ ▸ hknown), fun _ => follows_done⟩

theorem follows_handleGraceExpiry (id : NodeId) :
    protocol.Follows (handleGraceExpiry id .done) (.signalled id) := by
  refine ⟨nofun, fun s _ _ => ?_⟩
  dsimp only
  cases hentry : (s.takeGrace id).1 with
  | none => exact ⟨_, .stale id hentry, fun _ => follows_done⟩
  | some handle => exact ⟨_, .expire id, fun _ => follows_setAvailable id false⟩

theorem refreshes : Refreshes SameGrace fun _ => True where
  refl := .refl
  setAttribute s id path value := ⟨rfl, rfl, rfl, fun j => s.available_setAttribute id j path value⟩
  replaceAttributes s id attributes now :=
    ⟨rfl, rfl, rfl, fun j => s.available_replaceAttributes id j attributes now⟩
  pushHistory _ _ := ⟨rfl, rfl, rfl, fun _ => rfl⟩
  report _ _ := trivial

/-- Events that report no connection state bear on no availability. -/
theorem follows_other (ev : StackEvent) (hev : ∀ id state, ev ≠ .nodeState id state)
    (now : String) : protocol.Follows (handleEvent ev now .done) .other :=
  Prog.Within.follows (P := protocol) (g := .other) (fun _ _ => trivial)
    (fun _ s' h => Access.pass s' h) (fun e _ => Output.report e)
    (Within.refreshment refreshes hev now trivial)

/-- Between the Reconnecting event and its timer, and between an expiry and the flag it clears,
the node's entry does not yet answer for it. -/
def Unsettled : HandlerStage → NodeId → Prop
  | .received j .reconnecting, id | .starting j, id | .setting j false, id => j = id
  | _, _ => False

/-- The handler serves a Connected event of the node. -/
def Connects : HandlerStage → NodeId → Prop
  | .received j (.connected _), id | .setting j true, id => j = id
  | _, _ => False

end HandlerStage

/-- Every entry but that of the signal just taken answers for its node, and every node that
dropped out while it was available has one. -/
structure Watched (graceRx : List (NodeId × Nat)) (last : NodeId → Option NodeConnState)
    (stage : HandlerStage) (mem : Memory) : Prop where
  pending : ∀ id, stage ≠ .signalled id → mem.graceTimers.get? id ≠ none → GracePending mem graceRx id
  covered : ∀ id, ¬ stage.Unsettled id → mem.available id = some true →
    last id = some .reconnecting → mem.graceTimers.get? id ≠ none
  connects : ∀ id, stage.Connects id → last id ≠ some .reconnecting

theorem GracePending.of_same {graceRx : List (NodeId × Nat)} {mem mem' : Memory} {id : NodeId}
    (h : GracePending mem graceRx id)
    (hentry : mem'.graceTimers.get? id = mem.graceTimers.get? id)
    (htimers : ∀ handle, mem.graceTimers.get? id = some handle →
      mem'.timers[handle]? = mem.timers[handle]?) : GracePending mem' graceRx id := by
  obtain ⟨handle, timer, hhandle, htimer, hrest⟩ := h
  exact ⟨handle, timer, hentry.trans hhandle, (htimers handle hhandle).trans htimer, hrest⟩

theorem GracePending.nodeId_of_get? {graceRx : List (NodeId × Nat)} {mem : Memory} {id : NodeId}
    (h : GracePending mem graceRx id) {handle : Nat}
    (hentry : mem.graceTimers.get? id = some handle) :
    ∃ timer, mem.timers[handle]? = some timer ∧ timer.nodeId = id := by
  obtain ⟨handle', timer, hhandle, htimer, hid, _⟩ := h
  rw [hentry] at hhandle
  cases hhandle
  exact ⟨timer, htimer, hid⟩

/-- Two nodes with pending graces have different timers. -/
theorem GracePending.get?_ne {graceRx : List (NodeId × Nat)} {mem : Memory} {id j : NodeId}
    (h : GracePending mem graceRx id) (hj : GracePending mem graceRx j) (hne : j ≠ id)
    {handle : Nat} (hentry : mem.graceTimers.get? j = some handle) :
    mem.graceTimers.get? id ≠ some handle := by
  intro heq
  obtain ⟨timer, htimer, hid⟩ := h.nodeId_of_get? heq
  obtain ⟨timer', htimer', hid'⟩ := hj.nodeId_of_get? hentry
  rw [htimer] at htimer'
  cases htimer'
  exact hne (hid'.symm.trans hid)

namespace Watched

variable {graceRx : List (NodeId × Nat)} {last : NodeId → Option NodeConnState}
  {stage stage' : HandlerStage} {mem mem' : Memory}

/-- Timers and entries stay, and nobody becomes available. -/
theorem frame (h : Watched graceRx last stage mem) (hgrace : mem'.graceTimers = mem.graceTimers)
    (htimers : mem'.timers = mem.timers)
    (havailable : ∀ id, mem'.available id = some true → mem.available id = some true) :
    Watched graceRx last stage mem' where
  pending id hid hentry :=
    (h.pending id hid (hgrace ▸ hentry)).of_same (by rw [hgrace]) fun _ _ => by rw [htimers]
  covered id hid hav hlast := by
    rw [hgrace]
    exact h.covered id hid (havailable id hav) hlast
  connects := h.connects

/-- The handler goes on and nothing else changes. -/
theorem move (h : Watched graceRx last stage mem) (hsignal : ∀ id, stage ≠ .signalled id)
    (hsettled : ∀ id, ¬ stage'.Unsettled id → stage.Unsettled id →
      mem.available id ≠ some true)
    (hconnects : ∀ id, stage'.Connects id → stage.Connects id) :
    Watched graceRx last stage' mem where
  pending id _ hentry := h.pending id (hsignal id) hentry
  covered id hid hav hlast := by
    by_cases hstage : stage.Unsettled id
    · exact absurd hav (hsettled id hid hstage)
    · exact h.covered id hstage hav hlast
  connects id hid := h.connects id (hconnects id hid)

theorem cancel {id : NodeId} {maxIntervalSecs : UInt16}
    (h : Watched graceRx last (.received id (.connected maxIntervalSecs)) mem) :
    Watched graceRx last (.setting id true) (mem.cancelGrace id) where
  pending j _ hentry := by
    rw [Memory.get?_cancelGrace] at hentry
    split at hentry
    · exact absurd rfl hentry
    next hj =>
      have hpending := h.pending j nofun hentry
      apply hpending.of_same
      · rw [Memory.get?_cancelGrace, if_neg hj]
      · intro handle hhandle
        apply Memory.timers_cancelGrace_of_ne
        intro heq
        exact (h.pending id nofun (by simp [heq])).get?_ne hpending hj hhandle heq
  covered j _ hav hlast := by
    have hj : j ≠ id := fun heq => h.connects j heq.symm hlast
    rw [Memory.get?_cancelGrace, if_neg hj]
    rw [Memory.available_cancelGrace] at hav
    exact h.covered j (fun hf => hf) hav hlast
  connects j hj := h.connects j hj

theorem start {id : NodeId} (h : Watched graceRx last (.starting id) mem) :
    Watched graceRx last .idle (mem.startGrace id) := by
  by_cases hentry : mem.graceTimers.get? id = none
  · rw [Memory.startGrace_of_none hentry]
    refine ⟨fun j _ hj => ?_, fun j _ hav hlast => ?_, nofun⟩
    · by_cases hid : j = id
      · subst hid
        exact ⟨mem.timers.length, _, OrdMap.get?_insert_self _ _ _, List.getElem?_concat_length, rfl,
          Or.inl rfl⟩
      · have hother := OrdMap.get?_insert_of_ne mem.graceTimers hid (v := mem.timers.length)
        apply (h.pending j nofun (hother ▸ hj)).of_same hother
        intro handle hhandle
        obtain ⟨timer, htimer, _⟩ := (h.pending j nofun (hother ▸ hj)).nodeId_of_get? hhandle
        exact List.getElem?_append_left (List.getElem?_eq_some_iff.mp htimer).1
    · by_cases hid : j = id
      · simp [hid]
      · rw [OrdMap.get?_insert_of_ne _ hid]
        exact h.covered j (fun heq => hid heq.symm) hav hlast
  · rw [Memory.startGrace_of_ne_none hentry]
    refine ⟨fun j _ hj => h.pending j nofun hj, fun j _ hav hlast => ?_, nofun⟩
    by_cases hid : id = j
    · exact hid ▸ hentry
    · exact h.covered j hid hav hlast

/-- The signal's node has no entry any more; the others keep theirs. -/
theorem take {id : NodeId} (h : Watched graceRx last (.signalled id) mem)
    (hconnects : ∀ j, ¬ stage'.Connects j)
    (hsettled : mem.graceTimers.get? id = none ∨ stage'.Unsettled id) :
    Watched graceRx last stage' (mem.takeGrace id).2 := by
  have hget : ∀ j, (mem.takeGrace id).2.graceTimers.get? j =
      if j = id then none else mem.graceTimers.get? j := fun j => OrdMap.get?_erase _ _ _
  refine ⟨fun j _ hj => ?_, fun j hj hav hlast => ?_, fun j hj => absurd hj (hconnects j)⟩
  · rw [hget] at hj
    split at hj
    · exact absurd rfl hj
    next hne =>
      apply (h.pending j (fun heq => hne (HandlerStage.signalled.inj heq).symm) hj).of_same
      · rw [hget, if_neg hne]
      · exact fun _ _ => rfl
  · have hold := h.covered j (fun hf => hf) hav hlast
    have hne : j ≠ id := by
      rintro rfl
      rcases hsettled with hnone | hunsettled
      · exact hold hnone
      · exact hj hunsettled
    rw [hget, if_neg hne]
    exact hold

theorem set {id : NodeId} {b : Bool} (h : Watched graceRx last (.setting id b) mem)
    (hconnects : ∀ j, ¬ stage'.Connects j) :
    Watched graceRx last stage' (mem.setAvailable id b).2 where
  pending j _ hj := (h.pending j nofun hj).of_same rfl fun _ _ => rfl
  covered j _ hav hlast := by
    rw [Memory.available_setAvailable] at hav
    cases b with
    | true =>
      have hj : j ≠ id := fun heq => h.connects j heq.symm hlast
      rw [if_neg hj] at hav
      exact h.covered j nofun hav hlast
    | false =>
      split at hav
      · simp at hav
      next hj => exact h.covered j (fun heq => hj heq.symm) hav hlast
  connects j hj := absurd hj (hconnects j)

/-- What one access of a handler keeps. -/
theorem access (h : Watched graceRx last stage mem)
    (haccess : HandlerStage.Access mem stage mem' stage') : Watched graceRx last stage' mem' := by
  cases haccess with
  | pass s' hsame =>
    exact h.frame hsame.graceTimers hsame.timers fun id hav => hsame.available id ▸ hav
  | known id state => exact h
  | unknown id state hknown =>
    refine h.move nofun (fun j _ hj hav => ?_) nofun
    cases state with
    | connected => exact hj
    | reconnecting =>
      obtain rfl : id = j := hj
      rw [Memory.contains_of_available hav] at hknown
      cases hknown
  | cancel id maxIntervalSecs => exact h.cancel
  | offline id hoffline =>
    refine h.move nofun (fun j _ hj => ?_) nofun
    obtain rfl : id = j := hj
    exact hoffline
  | online id => exact h.move nofun (fun j hj hunsettled => absurd hunsettled hj) nofun
  | start id => exact h.start
  | stale id hnone => exact h.take nofun (Or.inl hnone)
  | expire id => exact h.take nofun (Or.inr rfl)
  | keep id b _ => exact h.set nofun
  | flip id b _ => exact h.set nofun
  | gone id _ => exact h.move nofun nofun nofun
  | look id nd _ => exact h.move nofun nofun nofun

theorem output (h : Watched graceRx last stage mem) {e : Effect}
    (houtput : HandlerStage.Output stage e stage') : Watched graceRx last stage' mem := by
  cases houtput with
  | report => exact h
  | announce nd => exact h.move nofun nofun nofun

/-- The loop takes an event while no handler is under way. -/
theorem receive (h : Watched graceRx last stage mem) (hsettled : ∀ id, ¬ stage.Unsettled id)
    (hsignal : ∀ id, stage ≠ .signalled id) (id : NodeId) (state : NodeConnState) :
    Watched graceRx (Function.update last id (some state)) (.received id state) mem where
  pending j _ hj := h.pending j (hsignal j) hj
  covered j hj hav hlast := by
    by_cases heq : j = id
    · subst heq
      rw [Function.update_self] at hlast
      cases hlast
      exact absurd rfl hj
    · rw [Function.update_of_ne heq] at hlast
      exact h.covered j (hsettled j) hav hlast
  connects j hj := by
    cases state with
    | connected maxIntervalSecs =>
      obtain rfl : id = j := hj
      simp
    | reconnecting => exact absurd hj (fun hf => hf)

theorem deliver {id : NodeId} {handle : Nat} (h : Watched ((id, handle) :: graceRx) last stage mem)
    (hsettled : ∀ j, ¬ stage.Unsettled j) (hsignal : ∀ j, stage ≠ .signalled j) :
    Watched graceRx last (.signalled id) mem where
  pending j hj hentry := by
    obtain ⟨handle', timer, hhandle, htimer, hid, hlive⟩ := h.pending j (hsignal j) hentry
    have hne : j ≠ id := fun heq => hj (heq ▸ rfl)
    exact ⟨handle', timer, hhandle, htimer, hid, hlive.imp_right fun hmem => by simpa [hne] using hmem⟩
  covered j _ hav hlast := h.covered j (hsettled j) hav hlast
  connects := nofun

/-- The timer's own signal takes its place. -/
theorem fire (h : Watched graceRx last stage mem) {handle : Nat} {timer : Timer}
    (htimer : mem.timers[handle]? = some timer) :
    Watched (graceRx ++ [(timer.nodeId, handle)]) last stage (mem.finish handle) where
  pending j hj hentry := by
    obtain ⟨handle', timer', hhandle, htimer', hid, hlive⟩ := h.pending j hj hentry
    by_cases heq : handle = handle'
    · subst heq
      rw [htimer] at htimer'
      cases htimer'
      refine ⟨handle, { timer with state := .finished }, hhandle, ?_, hid, Or.inr (by simp [hid])⟩
      simp [Memory.finish, htimer]
    · refine ⟨handle', timer', hhandle, ?_, hid, hlive.imp_right fun hmem => by simp [hmem]⟩
      simpa [Memory.finish, heq] using htimer'
  covered := h.covered
  connects := h.connects

end Watched

/-- How the taken event or signal of the node has been told so far: nothing as long as its
availability is what it was, then one message with the new value. -/
inductive Told (id : NodeId) (before : Bool) (log : List Effect) :
    HandlerStage → Memory → List Effect → Prop where
  | received (state : NodeConnState) (mem : Memory) (h : mem.available id = some before) :
      Told id before log (.received id state) mem log
  | starting (mem : Memory) (h : mem.available id = some before) :
      Told id before log (.starting id) mem log
  | signalled (mem : Memory) (h : mem.available id = some before) :
      Told id before log (.signalled id) mem log
  | setting (b : Bool) (mem : Memory) (h : mem.available id = some before) :
      Told id before log (.setting id b) mem log
  | kept (mem : Memory) (h : mem.available id = some before) : Told id before log .idle mem log
  | changed (mem : Memory) (h : mem.available id = some !before) :
      Told id before log (.changed id) mem log
  | announcing (nd : MatterNodeData) (hid : nd.nodeId = id) (hnew : nd.available = !before)
      (mem : Memory) (h : mem.available id = some !before) :
      Told id before log (.announcing nd) mem log
  | announced (nd : MatterNodeData) (hid : nd.nodeId = id) (hnew : nd.available = !before)
      (mem : Memory) (h : mem.available id = some !before) :
      Told id before log .idle mem (log ++ [.send (.nodeUpdated nd)])

namespace Told

variable {id : NodeId} {before : Bool} {log log' : List Effect} {stage stage' : HandlerStage}
  {mem mem' : Memory}

theorem frame (h : Told id before log stage mem log')
    (hsame : mem'.available id = mem.available id) : Told id before log stage mem' log' := by
  cases h with
  | received state _ h => exact .received state _ (hsame.trans h)
  | starting _ h => exact .starting _ (hsame.trans h)
  | signalled _ h => exact .signalled _ (hsame.trans h)
  | setting b _ h => exact .setting b _ (hsame.trans h)
  | kept _ h => exact .kept _ (hsame.trans h)
  | changed _ h => exact .changed _ (hsame.trans h)
  | announcing nd hid hnew _ h => exact .announcing nd hid hnew _ (hsame.trans h)
  | announced nd hid hnew _ h => exact .announced nd hid hnew _ (hsame.trans h)

theorem access (h : Told id before log stage mem log')
    (haccess : HandlerStage.Access mem stage mem' stage') : Told id before log stage' mem' log' := by
  cases h with
  | received state _ h =>
    cases haccess with
    | known => exact .received state _ h
    | unknown => exact .kept _ h
    | cancel => exact .setting true _ ((mem.available_cancelGrace id id).trans h)
    | offline => exact .kept _ h
    | online => exact .starting _ h
  | starting _ h =>
    cases haccess with
    | start => exact .kept _ ((mem.available_startGrace id id).trans h)
  | signalled _ h =>
    cases haccess with
    | stale => exact .kept _ h
    | expire => exact .setting false _ h
  | setting b _ h =>
    cases haccess with
    | keep _ _ hsame =>
      apply Told.kept
      unfold Memory.available at h ⊢
      rwa [show (mem.setAvailable id b).2.registry.get? id = mem.registry.get? id from
        Registry.setAvailable_unchanged hsame id]
    | flip _ _ hchanged =>
      obtain ⟨e, he, hold⟩ := Registry.setAvailable_changed hchanged
      apply Told.changed
      rw [Memory.available_setAvailable, if_pos rfl, h]
      simp only [Memory.available, he, Option.map_some, Option.some.injEq] at h
      simp [← h, hold]
  | kept => cases haccess
  | changed _ h =>
    cases haccess with
    | gone _ hnone => simp [Memory.available, hnone] at h
    | look _ nd hdata =>
      obtain ⟨e, he, rfl, hid⟩ := Registry.nodeData_eq_some hdata
      refine .announcing _ hid ?_ _ h
      simpa [Memory.available, he, buildNodeData] using h
  | announcing => cases haccess
  | announced => cases haccess

theorem output (h : Told id before log stage mem log') {e : Effect}
    (houtput : HandlerStage.Output stage e stage') :
    Told id before log stage' mem (log' ++ [e]) := by
  cases houtput with
  | report => cases h
  | announce nd =>
    cases h with
    | announcing _ hid hnew _ h => exact .announced nd hid hnew mem h

end Told

namespace Consumer

theorem serve_eq_some {s s' : Consumer} {handler : Task} (h : s.serve handler = some s') :
    s.Idle ∧ s' = { s with config := { s.config with task := fun _ => handler } } := by
  unfold serve at h
  split at h
  next hidle => exact ⟨hidle, (Option.some.inj h).symm⟩
  · cases h

/-- At the `select!` no handler is in the middle of anything. -/
theorem Idle.stage {s : Consumer} (h : s.Idle) {stage : HandlerStage}
    (hfollows : HandlerStage.protocol.Follows (s.config.task ()) stage) :
    stage = .idle ∨ stage = .other := by
  have hleft : stage.Left .done := h ▸ hfollows.left
  cases stage with
  | idle => exact Or.inl rfl
  | other => exact Or.inr rfl
  | received | starting | signalled | setting | changed | announcing => exact absurd rfl hleft

/-- Some stage of the handler meets the invariant. -/
def Meets (Inv : HandlerStage → Memory → List Effect → Prop) (s : Consumer) : Prop :=
  Protocol.Meets (fun _ : Unit => HandlerStage.protocol)
    (fun stage mem log => Inv (stage ()) mem log) s.config

section Meets

variable {Inv Inv' : HandlerStage → Memory → List Effect → Prop}

theorem Meets.intro {s : Consumer} {stage : HandlerStage}
    (hfollows : HandlerStage.protocol.Follows (s.config.task ()) stage)
    (h : Inv stage s.config.mem s.config.log) : s.Meets Inv := ⟨fun _ => stage, fun _ => hfollows, h⟩

theorem Meets.elim {s : Consumer} (h : s.Meets Inv) : ∃ stage,
    HandlerStage.protocol.Follows (s.config.task ()) stage ∧ Inv stage s.config.mem s.config.log := by
  obtain ⟨stage, hfollows, hinv⟩ := h
  exact ⟨stage (), hfollows (), hinv⟩

/-- A step of the handler is an access or an output of its stage. -/
theorem Meets.handle {s : Consumer} {config : Config Unit Memory Effect} (h : s.Meets Inv)
    (hstep : s.config.step () = some config)
    (haccess : ∀ stage mem log mem' stage', Inv stage mem log →
      HandlerStage.Access mem stage mem' stage' → Inv stage' mem' log)
    (houtput : ∀ stage mem log e stage', Inv stage mem log →
      HandlerStage.Output stage e stage' → Inv stage' mem (log ++ [e])) :
    { s with config := config }.Meets Inv := by
  have hkeeps : ∀ (c : Config Unit Memory Effect) (i : Unit) (c' : Config Unit Memory Effect)
      (stage stage' : Unit → HandlerStage),
      (∀ j, HandlerStage.protocol.Follows (c.task j) (stage j)) → Inv (stage ()) c.mem c.log → True →
      Protocol.Step (fun _ => HandlerStage.protocol) i stage c.mem c.log stage' c'.mem c'.log →
      Inv (stage' ()) c'.mem c'.log := by
    intro c i c' stage stage' _ hinv _ hstep'
    obtain ⟨mem', log', task'⟩ := c'
    cases hstep' with
    | access _ g' hg' =>
      have hg : HandlerStage.Access c.mem (stage ()) mem' g' := hg'
      simpa using haccess _ _ _ _ _ hinv hg
    | output e g' hg' =>
      have hg : HandlerStage.Output (stage ()) e g' := hg'
      simpa using houtput _ _ _ _ _ hinv hg
  exact Protocol.Meets.step (fun _ _ _ _ _ => trivial) hkeeps h hstep trivial

end Meets

def Watches (s : Consumer) : Prop :=
  s.Meets fun stage mem _ => Watched s.graceRx s.last stage mem

theorem Fresh.watches {s : Consumer} (h : s.Fresh) : s.Watches := by
  have hfollows : HandlerStage.protocol.Follows (s.config.task ()) .idle := by
    rw [h.idle]
    exact HandlerStage.follows_done
  exact Meets.intro hfollows ⟨fun id _ hentry => absurd (h.graceTimers id) hentry,
    fun id _ _ hlast => by simp [h.last] at hlast, nofun⟩

/-- A step from outside the loop leaves the handler at its stage. -/
theorem Watches.withMem {s : Consumer} (h : s.Watches) {mem : Memory}
    (hgrace : mem.graceTimers = s.mem.graceTimers) (htimers : mem.timers = s.mem.timers)
    (havailable : ∀ id, mem.available id = some true → s.mem.available id = some true) :
    (s.withMem mem).Watches := by
  obtain ⟨stage, hfollows, hwatched⟩ := h.elim
  exact Meets.intro hfollows (hwatched.frame hgrace htimers havailable)

theorem Watches.receive {s s' : Consumer} (h : s.Watches) {ev : StackEvent} {now : String}
    (hstep : s.step (.receive ev now) = some s') : s'.Watches := by
  obtain ⟨hidle, rfl⟩ := serve_eq_some hstep
  obtain ⟨stage, hfollows, hwatched⟩ := h.elim
  have hstage := Idle.stage (s := s) hidle hfollows
  have hsettled : ∀ id, ¬ stage.Unsettled id := by
    rcases hstage with rfl | rfl <;> exact fun _ hf => hf
  have hsignal : ∀ id, stage ≠ .signalled id := by
    rcases hstage with rfl | rfl <;> exact fun _ => nofun
  have hother : Watched s.graceRx s.last .other s.mem :=
    hwatched.move hsignal (fun id _ hid => absurd hid (hsettled id)) nofun
  cases ev with
  | nodeState id state =>
    exact Meets.intro (HandlerStage.follows_nodeState id state now)
      (hwatched.receive hsettled hsignal id state)
  | primingSnapshot id attributes =>
    exact Meets.intro (HandlerStage.follows_other (.primingSnapshot id attributes) (by simp) now) hother
  | attributesChanged id changes =>
    exact Meets.intro (HandlerStage.follows_other (.attributesChanged id changes) (by simp) now) hother
  | nodeEvent id event =>
    exact Meets.intro (HandlerStage.follows_other (.nodeEvent id event) (by simp) now) hother

theorem Watches.deliver {s s' : Consumer} (h : s.Watches) (hstep : s.step .deliver = some s') :
    s'.Watches := by
  simp only [step] at hstep
  split at hstep
  · cases hstep
  next nodeId handle rest hrx =>
    obtain ⟨hidle, rfl⟩ := serve_eq_some hstep
    obtain ⟨stage, hfollows, hwatched⟩ := h.elim
    have hstage := Idle.stage (s := s) hidle hfollows
    apply Meets.intro (HandlerStage.follows_handleGraceExpiry nodeId)
    rw [hrx] at hwatched
    apply hwatched.deliver
    · rcases hstage with rfl | rfl <;> exact fun _ hf => hf
    · rcases hstage with rfl | rfl <;> exact fun _ => nofun

theorem Watches.step {s s' : Consumer} (h : s.Watches) {a : ConsumerStep}
    (hstep : s.step a = some s') : s'.Watches := by
  cases a with
  | receive ev now => exact h.receive hstep
  | deliver => exact h.deliver hstep
  | handle =>
    obtain ⟨config, hconfig, rfl⟩ := Option.map_eq_some_iff.mp hstep
    exact Meets.handle h hconfig (fun _ _ _ _ _ hw => hw.access) fun _ _ _ _ _ hw => hw.output
  | fire handle =>
    simp only [Consumer.step] at hstep
    split at hstep
    next timer htimer =>
      split at hstep
      · cases hstep
        obtain ⟨stage, hfollows, hwatched⟩ := h.elim
        exact Meets.intro hfollows (hwatched.fire htimer)
      · cases hstep
    · cases hstep
  | tick seconds =>
    cases hstep
    exact h.withMem rfl rfl fun _ hav => hav
  | insert record =>
    cases hstep
    exact h.withMem rfl rfl fun _ => Memory.available_of_insertNode
  | remove nodeId =>
    cases hstep
    exact h.withMem rfl rfl fun _ => Memory.available_of_removeNode
  | interview nodeId attributes now =>
    cases hstep
    exact h.withMem rfl rfl fun id hav =>
      Memory.available_replaceAttributes s.mem nodeId id attributes now ▸ hav

/-- A node that dropped out and is shown as available has a grace of its own to come. -/
theorem Watches.pending {s : Consumer} (h : s.Watches) (hidle : s.Idle) {id : NodeId}
    (havailable : s.mem.available id = some true) (hlast : s.last id = some .reconnecting) :
    GracePending s.mem s.graceRx id := by
  obtain ⟨stage, hfollows, hwatched⟩ := h.elim
  have hstage := Idle.stage (s := s) hidle hfollows
  apply hwatched.pending id
  · rcases hstage with rfl | rfl <;> exact nofun
  · apply hwatched.covered id _ havailable hlast
    rcases hstage with rfl | rfl <;> exact fun hf => hf

/-- The handler under way serves an event or a signal of the node, and so far has told what
became of the availability it met. -/
def Tells (id : NodeId) (before : Bool) (log : List Effect) (s : Consumer) : Prop :=
  s.Meets (Told id before log)

theorem Takes.tells {s s' : Consumer} {id : NodeId} {a : ConsumerStep} (h : s.Takes id a)
    (hstep : s.step a = some s') {before : Bool} (hav : s.mem.available id = some before) :
    s'.Tells id before s.config.log := by
  cases a with
  | receive ev now =>
    cases ev with
    | nodeState j state =>
      obtain rfl : j = id := h
      obtain ⟨_, rfl⟩ := serve_eq_some hstep
      exact Meets.intro (HandlerStage.follows_nodeState j state now) (.received state _ hav)
    | primingSnapshot | attributesChanged | nodeEvent => exact absurd h (fun hf => hf)
  | deliver =>
    obtain ⟨handle, rest, hrx⟩ := h
    simp only [Consumer.step, hrx] at hstep
    obtain ⟨_, rfl⟩ := serve_eq_some hstep
    exact Meets.intro (HandlerStage.follows_handleGraceExpiry id) (.signalled _ hav)
  | handle | fire | tick | insert | remove | interview => exact absurd h (fun hf => hf)

theorem Tells.withMem {s : Consumer} {id : NodeId} {before : Bool} {log : List Effect}
    (h : s.Tells id before log) {mem : Memory} (hsame : mem.available id = s.mem.available id) :
    (s.withMem mem).Tells id before log := by
  obtain ⟨stage, hfollows, htold⟩ := h.elim
  exact Meets.intro hfollows (htold.frame hsame)

theorem Tells.step {s s' : Consumer} {id : NodeId} {before : Bool} {log : List Effect}
    (h : s.Tells id before log) {a : ConsumerStep} (hstep : s.step a = some s')
    (hleaves : a.Leaves id) : s'.Tells id before log := by
  cases a with
  | receive | deliver => exact absurd hleaves (fun hf => hf)
  | handle =>
    obtain ⟨config, hconfig, rfl⟩ := Option.map_eq_some_iff.mp hstep
    exact Meets.handle h hconfig (fun _ _ _ _ _ ht => ht.access) fun _ _ _ _ _ ht => ht.output
  | fire handle =>
    simp only [Consumer.step] at hstep
    split at hstep
    · split at hstep
      · cases hstep
        exact h.withMem rfl
      · cases hstep
    · cases hstep
  | tick seconds =>
    cases hstep
    exact h.withMem rfl
  | insert record =>
    cases hstep
    apply h.withMem
    rw [Memory.available_insertNode, if_neg fun heq => hleaves heq.symm]
  | remove nodeId =>
    cases hstep
    apply h.withMem
    rw [Memory.available_removeNode, if_neg fun heq => hleaves heq.symm]
  | interview nodeId attributes now =>
    cases hstep
    exact h.withMem (Memory.available_replaceAttributes s.mem nodeId id attributes now)

theorem Tells.announced {s t : Consumer} {id : NodeId} {before : Bool}
    (h : t.Tells id before s.config.log) (hidle : t.Idle)
    (hbefore : s.mem.available id = some before) : FlipAnnounced s t id := by
  obtain ⟨stage, hfollows, htold⟩ := h.elim
  have hstage := Idle.stage (s := t) hidle hfollows
  generalize hlog : t.config.log = log at htold
  generalize hmem : t.config.mem = mem at htold
  have hav : t.mem.available id = mem.available id := by rw [← hmem]
  cases htold with
  | kept _ h =>
    refine ⟨fun _ => hlog, fun hne => absurd ?_ hne⟩
    rw [hav, h, hbefore]
  | announced nd hid hnew _ h =>
    refine ⟨fun hsame => ?_, fun _ => ⟨nd, hlog, hid, by rw [hav, h, hnew]⟩⟩
    rw [hav, h, hbefore] at hsame
    simp at hsame
  | received | starting | signalled | setting | changed | announcing => simp at hstage

theorem Takes.announced {s m t : Consumer} {id : NodeId} {a : ConsumerStep} (h : s.Takes id a)
    (hstep : s.step a = some m) {mid : List ConsumerStep} (hleaves : ∀ b ∈ mid, b.Leaves id)
    (hrun : Transition.run step m mid = some t) (hidle : t.Idle)
    (hknown : s.mem.registry.contains id = true) : FlipAnnounced s t id := by
  obtain ⟨e, he⟩ := Option.isSome_iff_exists.mp hknown
  have hbefore : s.mem.available id = some e.available := by
    rw [Memory.available_eq_some]
    exact ⟨e, he, rfl⟩
  have hmid : Transition.Along step (fun _ b _ => b.Leaves id) m mid := .of_forall fun b hb _ _ =>
    hleaves b hb
  have htells : t.Tells id e.available s.config.log :=
    Transition.run_invariant (fun _ _ _ ht hs hl => Tells.step ht hs hl) (h.tells hstep hbefore) hmid
      hrun
  exact htells.announced hidle hbefore

/-- Over every run of the loop: whenever it waits, a node shown as available whose last
NodeState event is Reconnecting has a grace timer still running or its signal still queued; and
a NodeState event or a signal taken for a node that stays registered sends one `node_updated`
with the new availability if that has changed, and nothing otherwise. -/
theorem availability_never_stuck {s s' : Consumer} (hfresh : s.Fresh) {steps : List ConsumerStep}
    (hrun : Transition.run step s steps = some s') (hidle : s'.Idle) :
    (∀ id, s'.mem.available id = some true → s'.last id = some .reconnecting →
      GracePending s'.mem s'.graceRx id) ∧
    ∀ id a mid t, s'.Takes id a → (∀ b ∈ mid, b.Leaves id) →
      Transition.run step s' (a :: mid) = some t → t.Idle →
      s'.mem.registry.contains id = true → FlipAnnounced s' t id := by
  have halong : Transition.Along step (fun _ _ _ => True) s steps := .of_forall fun _ _ _ _ => trivial
  have hwatches : s'.Watches :=
    Transition.run_invariant (fun _ _ _ hw hs _ => Watches.step hw hs) hfresh.watches halong hrun
  refine ⟨fun id => hwatches.pending hidle, fun id a mid t htakes hleaves hrun' hidle' hknown => ?_⟩
  obtain ⟨m, hm, hmid⟩ := Transition.run_cons hrun'
  exact htakes.announced hm hleaves hmid hidle' hknown

end Consumer

section Outage

/-- The loop at its start, with node 7 registered. -/
def lampConsumer : Consumer := ⟨⟨lampMemory, [], fun _ => .done⟩, [], fun _ => none⟩

theorem lampConsumer_fresh : lampConsumer.Fresh := ⟨rfl, fun _ => rfl, rfl, rfl, fun _ => rfl⟩

/-- Node 7 comes and drops out, and its grace runs out. -/
def lampOutage : List ConsumerStep :=
  .receive (.nodeState 7 (.connected 60)) "" :: List.replicate 5 .handle ++
    [.receive (.nodeState 7 .reconnecting) "", .handle, .tick 1, .handle, .handle, .tick 180, .fire 0]

/-- The signal in the queue answers for node 7, and taking it is announced. -/
theorem availability_never_stuck_outage : ∃ s' t : Consumer,
    Transition.run Consumer.step lampConsumer lampOutage = some s' ∧
    GracePending s'.mem s'.graceRx 7 ∧
    Transition.run Consumer.step s' (.deliver :: List.replicate 4 .handle) = some t ∧
    t.mem.available 7 = some false ∧ FlipAnnounced s' t 7 := by
  have hrun : Transition.run Consumer.step lampConsumer lampOutage = some _ := rfl
  obtain ⟨hpending, hannounced⟩ :=
    Consumer.availability_never_stuck lampConsumer_fresh hrun rfl
  have hleaves : ∀ b ∈ List.replicate 4 ConsumerStep.handle, b.Leaves 7 := by
    intro b hb
    obtain rfl := List.eq_of_mem_replicate hb
    trivial
  exact ⟨_, _, hrun, hpending 7 rfl rfl, rfl, rfl,
    hannounced 7 .deliver _ _ ⟨0, [], rfl⟩ hleaves rfl rfl rfl⟩

end Outage

end MatterRsServer.Controller
