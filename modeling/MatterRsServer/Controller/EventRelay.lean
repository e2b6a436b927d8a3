import MatterRsServer.Lib.Outline
import MatterRsServer.Controller.EventStream
import Mathlib.Data.List.DropRight

/-!
# Device events on their way to the clients

The `NodeEvent` arm of `handle_event` in `node_manager.rs`, next to every other task of the
controller: an event of a registered node is put into the history and broadcast, one after the
other and in the order of the stack. `diagnostics` shows the history.
-/
namespace MatterRsServer.Controller
open Lib Wire

/-- The tasks of the controller other than its node manager. -/
inductive IsCommand : Task → Prop where
  | interviewNode (nodeId : NodeId) (interview : Except StackError Attributes) (now : String) :
      IsCommand (interviewNode nodeId interview now)
  | removeNode (nodeId : NodeId) : IsCommand (removeNode nodeId)
  | doCommission (fuel : Nat) (controllerNodeId : NodeId) (a : CommissionAttempt) :
      IsCommand (doCommission fuel controllerNodeId a)
  | idle : IsCommand .done

/-- The device event that an output broadcasts. -/
def Effect.deviceEvent : Effect → Option MatterNodeEvent
  | .send (.nodeEvent event) => some event
  | _ => none

/-- The device events among the broadcast messages. -/
def sentEvents (log : List Effect) : List MatterNodeEvent := log.filterMap Effect.deviceEvent

/-- The device events among the inputs of the node manager, as the clients see them. -/
def receivedEvents (inputs : List Input) : List MatterNodeEvent :=
  inputs.filterMap fun
    | .event (.nodeEvent nodeId event) _ => some (buildNodeEvent nodeId event)
    | _ => none

/-- The history that `events` leaves: the last of them. -/
def lastEvents (events : List MatterNodeEvent) : List MatterNodeEvent := events.rtake eventHistorySize

theorem pushHistory_lastEvents {s : Memory} {events : List MatterNodeEvent}
    (h : s.history = lastEvents events) (event : MatterNodeEvent) :
    (s.pushHistory event).history = lastEvents (events ++ [event]) := by
  have hlength : (lastEvents events).length = min eventHistorySize events.length := by
    simp only [lastEvents, List.rtake, List.length_drop]
    omega
  have hpushed : lastEvents (events ++ [event]) =
      events.drop (events.length + 1 - eventHistorySize) ++ [event] := by
    have hle : events.length + 1 - eventHistorySize ≤ events.length := by
      simp only [eventHistorySize]
      omega
    rw [lastEvents, List.rtake, List.length_append, List.length_singleton,
      List.drop_append_of_le_length hle]
  rw [Memory.pushHistory, h, hlength, hpushed]
  change (if min eventHistorySize events.length ≥ eventHistorySize then
    (lastEvents events).drop 1 else lastEvents events) ++ [event] = _
  congr 1
  split
  next hfull =>
    rw [lastEvents, List.rtake, List.drop_drop]
    congr 1
    omega
  next hroom =>
    rw [lastEvents, List.rtake]
    congr 1
    omega

/-- What the node manager has yet to relay, and the event that is in the history already and not
yet broadcast. -/
structure RelayStage where
  todo : List MatterNodeEvent
  sending : Option MatterNodeEvent

namespace RelayStage

/-- A task that relays nothing. -/
def idle : RelayStage := ⟨[], none⟩

inductive Access (s : Memory) : RelayStage → Memory → RelayStage → Prop where
  | pass (g : RelayStage) (s' : Memory) (h : s'.history = s.history) : Access s g s' g
  | push (event : MatterNodeEvent) (todo : List MatterNodeEvent) :
      Access s ⟨event :: todo, none⟩ (s.pushHistory event) ⟨todo, some event⟩
  | drop (event : MatterNodeEvent) (todo : List MatterNodeEvent)
      (h : s.registry.contains event.nodeId = false) :
      Access s ⟨event :: todo, none⟩ s ⟨todo, none⟩

inductive Output : RelayStage → Effect → RelayStage → Prop where
  | send (event : MatterNodeEvent) (todo : List MatterNodeEvent) :
      Output ⟨todo, some event⟩ (.send (.nodeEvent event)) ⟨todo, none⟩
  | other (g : RelayStage) (e : Effect) (h : e.deviceEvent = none) : Output g e g

/-- The tasks of the controller, as far as device events are concerned. -/
def protocol : Protocol Memory Effect RelayStage where
  left g p := p = .done → g = idle
  knows _ _ := True
  access g s s' g' := Access s g s' g'
  output := Output

variable {g : RelayStage} {k : Task}

theorem access_idle {s s' : Memory} {g' : RelayStage} (hg : g = idle) (h : Access s g s' g') :
    g' = idle ∧ s'.history = s.history := by
  cases h with
  | pass _ _ hsame => exact ⟨hg, hsame⟩
  | push | drop => cases hg

theorem output_idle {e : Effect} {g' : RelayStage} (hg : g = idle) (h : Output g e g') :
    g' = idle ∧ e.deviceEvent = none := by
  cases h with
  | other _ _ hother => exact ⟨hg, hother⟩
  | send => cases hg

theorem follows_done : protocol.Follows .done idle := fun _ => rfl

/-- An access that leaves the history alone. -/
theorem follows_pass {ready : Memory → Bool} {upd : Memory → Memory} {next : Memory → Task}
    (hupd : ∀ s, (upd s).history = s.history) (hnext : ∀ s, protocol.Follows (next s) g) :
    protocol.Follows (.access ready upd next) g :=
  ⟨(fun h => nomatch h), fun s _ _ => ⟨g, .pass g _ (hupd s), fun _ => hnext s⟩⟩

theorem follows_read {α : Type} {f : Memory → α} {next : α → Task}
    (hnext : ∀ a, protocol.Follows (next a) g) : protocol.Follows (.read f next) g :=
  follows_pass (fun _ => rfl) fun s => hnext (f s)

/-- An output that is no device event. -/
theorem follows_emit {e : Effect} (he : e.deviceEvent = none)
    (hk : protocol.Follows k g) : protocol.Follows (.emit e k) g :=
  ⟨(fun h => nomatch h), g, .other g e he, hk⟩

theorem follows_reply (result : Except CommandError Json) :
    protocol.Follows (reply result) idle :=
  follows_emit rfl follows_done

theorem follows_emitNodeUpdated (id : NodeId) (hk : protocol.Follows k g) :
    protocol.Follows (emitNodeUpdated id k) g := by
  apply follows_read
  intro nd
  cases nd with
  | none => exact hk
  | some nd => exact follows_emit rfl hk

theorem follows_persist (id : NodeId) (hk : protocol.Follows k g) :
    protocol.Follows (persist id k) g := by
  apply follows_read
  intro record
  cases record with
  | none => exact hk
  | some record => exact follows_emit rfl hk

theorem follows_applyChanges (id : NodeId) (changes : List (String × Json))
    (hk : protocol.Follows k g) : protocol.Follows (applyChanges id changes k) g := by
  induction changes with
  | nil => exact hk
  | cons change rest ih =>
    exact follows_pass (fun _ => rfl) fun _ => follows_emit rfl ih

theorem follows_ifKnown (id : NodeId) {arm : Task} (harm : protocol.Follows arm g)
    (hk : protocol.Follows k g) : protocol.Follows (ifKnown id arm k) g := by
  apply follows_read
  intro known
  cases known
  · exact hk
  · exact harm

theorem follows_setAvailable (id : NodeId) (available : Bool) (hk : protocol.Follows k g) :
    protocol.Follows (.modifyGet (fun s => s.setAvailable id available) fun changed =>
      if changed = some true then emitNodeUpdated id k else k) g := by
  refine follows_pass (fun _ => rfl) fun s => ?_
  dsimp only
  split
  · exact follows_emitNodeUpdated id hk
  · exact hk

theorem history_cancelGrace (s : Memory) (id : NodeId) : (s.cancelGrace id).history = s.history := by
  unfold Memory.cancelGrace
  split <;> rfl

theorem history_startGrace (s : Memory) (id : NodeId) : (s.startGrace id).history = s.history := by
  unfold Memory.startGrace
  split <;> rfl

theorem history_abortAll (s : Memory) : s.abortAll.history = s.history := by
  have hfold : ∀ (l : List (NodeId × Nat)) (m : Memory),
      (l.foldl (fun m e => m.abort e.2) m).history = m.history := by
    intro l
    induction l with
    | nil => exact fun _ => rfl
    | cons e l ih => exact fun m => ih (m.abort e.2)
  exact hfold _ _

theorem follows_handleNodeState (id : NodeId) (state : NodeConnState) (hk : protocol.Follows k g) :
    protocol.Follows (handleNodeState id k state) g := by
  cases state with
  | connected maxIntervalSecs =>
    exact follows_pass (fun s => history_cancelGrace s id) fun _ => follows_setAvailable id true hk
  | reconnecting =>
    refine follows_pass (fun _ => rfl) fun s => ?_
    dsimp only
    split
    · exact follows_pass (fun s => history_startGrace s id) fun _ => hk
    · exact hk

/-- An event of a registered node is pushed and then sent, one of another node is dropped. -/
theorem follows_nodeEvent (id : NodeId) (event : NodeEventData) (now : String)
    {todo : List MatterNodeEvent} (hk : protocol.Follows k ⟨todo, none⟩) :
    protocol.Follows (handleEvent (.nodeEvent id event) now k)
      ⟨buildNodeEvent id event :: todo, none⟩ := by
  refine ⟨(fun h => nomatch h), fun s _ _ => ?_⟩
  dsimp only
  cases hknown : s.registry.contains id with
  | false => exact ⟨⟨todo, none⟩, .drop _ todo hknown, fun _ => hk⟩
  | true =>
    refine ⟨_, .pass _ _ rfl, fun _ => ⟨(fun h => nomatch h), fun s _ _ => ?_⟩⟩
    exact ⟨_, .push _ todo, fun _ => ⟨(fun h => nomatch h), _, .send _ todo, hk⟩⟩

theorem follows_handleGraceExpiry (id : NodeId) (hk : protocol.Follows k g) :
    protocol.Follows (handleGraceExpiry id k) g := by
  refine follows_pass (fun _ => rfl) fun s => ?_
  cases (s.takeGrace id).1 with
  | none => exact hk
  | some handle => exact follows_setAvailable id false hk

theorem follows_nodeManager (inputs : List Input) :
    protocol.Follows (nodeManager inputs) ⟨receivedEvents inputs, none⟩ := by
  induction inputs with
  | nil => exact follows_pass history_abortAll fun _ => follows_done
  | cons input rest ih =>
    cases input with
    | graceExpired id => exact follows_handleGraceExpiry id ih
    | event ev now =>
      cases ev with
      | nodeState id state => exact follows_ifKnown id (follows_handleNodeState id state ih) ih
      | primingSnapshot id attributes =>
        have hreplaced := follows_persist id (follows_emitNodeUpdated id ih)
        exact follows_ifKnown id (follows_pass (fun _ => rfl) fun _ => hreplaced) ih
      | attributesChanged id changes =>
        exact follows_ifKnown id (follows_applyChanges id changes (follows_persist id ih)) ih
      | nodeEvent id event => exact follows_nodeEvent id event now ih

theorem follows_ensureNode (id : NodeId) (hk : protocol.Follows k idle) :
    protocol.Follows (ensureNode id k) idle := by
  apply follows_read
  intro known
  cases known
  · exact follows_reply _
  · exact hk

theorem follows_interviewNode (id : NodeId) (interview : Except StackError Attributes)
    (now : String) : protocol.Follows (interviewNode id interview now) idle := by
  apply follows_ensureNode
  apply follows_emit rfl
  cases interview with
  | error e => exact follows_reply _
  | ok attributes =>
    exact follows_pass (fun _ => rfl) fun _ =>
      follows_persist id (follows_emitNodeUpdated id (follows_reply _))

theorem follows_removeNode (id : NodeId) : protocol.Follows (removeNode id) idle := by
  apply follows_ensureNode
  apply follows_read
  intro deviceFabIdx
  apply follows_emit rfl
  apply follows_emit rfl
  refine follows_pass (fun _ => rfl) fun _ => ?_
  apply follows_emit rfl
  exact follows_emit rfl (follows_reply _)

theorem follows_endCommission (result : Except CommandError Json) :
    protocol.Follows (endCommission result) idle :=
  follows_pass (fun _ => rfl) fun _ => follows_reply result

theorem follows_commissionNode (a : CommissionAttempt) (id : NodeId) :
    protocol.Follows (commissionNode a id) idle := by
  apply follows_read
  intro fabricLabel
  apply follows_emit rfl
  cases a.commission with
  | error e => exact follows_endCommission _
  | ok outcome =>
    apply follows_emit rfl
    cases a.interview with
    | error e => exact follows_emit rfl (follows_endCommission _)
    | ok attributes =>
      refine follows_pass (fun _ => rfl) fun _ => follows_emit rfl ?_
      apply follows_read
      intro nd
      cases nd with
      | none => exact follows_endCommission _
      | some nd =>
        apply follows_emit rfl
        exact follows_emit rfl (follows_endCommission _)

theorem follows_doCommission (fuel : Nat) (controllerNodeId : NodeId) (a : CommissionAttempt) :
    protocol.Follows (doCommission fuel controllerNodeId a) idle := by
  refine follows_pass (fun _ => rfl) fun _ => follows_pass (fun _ => rfl) fun _ => ?_
  apply follows_read
  intro cfg
  have hskip : ∀ n candidate, protocol.Follows (skipInUse (idInUse controllerNodeId)
      (fun candidate => .emit (.saveConfig { cfg with nextNodeId := candidate + 1 }) <|
        .modify (fun s => { s with
          config := { cfg with nextNodeId := candidate + 1 }, configLocked := false }) <|
        commissionNode a candidate) n candidate) idle := by
    intro n
    induction n with
    | zero => exact fun _ => follows_pass (fun _ => rfl) fun _ => follows_done
    | succ n ih =>
      intro candidate
      apply follows_read
      intro known
      dsimp only
      split
      · exact ih (candidate + 1)
      · apply follows_emit rfl
        exact follows_pass (fun _ => rfl) fun _ => follows_commissionNode a candidate
  exact hskip _ _

/-- No command relays anything. -/
theorem follows_command {t : Task} (ht : IsCommand t) : protocol.Follows t idle := by
  cases ht with
  | interviewNode id interview now => exact follows_interviewNode id interview now
  | removeNode id => exact follows_removeNode id
  | doCommission fuel controllerNodeId a => exact follows_doCommission fuel controllerNodeId a
  | idle => exact follows_done

end RelayStage

/-- Where the relaying is: `received` are the events that the node manager takes in all, `kept` says
whether it may count on their nodes being registered. -/
structure Relayed (received : List MatterNodeEvent) (kept : Prop) (g : RelayStage) (mem : Memory)
    (log : List Effect) : Prop where
  history : mem.history = lastEvents (sentEvents log ++ g.sending.toList)
  inOrder : (sentEvents log ++ g.sending.toList ++ g.todo).Sublist received
  complete : kept → sentEvents log ++ g.sending.toList ++ g.todo = received

namespace Relayed

variable {received : List MatterNodeEvent} {kept : Prop} {g g' : RelayStage} {mem mem' : Memory}
  {log : List Effect}

theorem access (h : Relayed received kept g mem log) (haccess : RelayStage.Access mem g mem' g')
    (hkept : kept → ∀ event ∈ received, mem.registry.contains event.nodeId = true) :
    Relayed received kept g' mem' log := by
  cases haccess with
  | pass _ _ hsame => exact ⟨hsame.trans h.history, h.inOrder, h.complete⟩
  | push event todo =>
    have hmove : sentEvents log ++ (some event).toList ++ todo =
        sentEvents log ++ (none : Option MatterNodeEvent).toList ++ event :: todo := by simp
    refine ⟨?_, ?_, fun hk => ?_⟩
    · have hhistory := h.history
      rw [Option.toList_none, List.append_nil] at hhistory
      exact pushHistory_lastEvents hhistory event
    · rw [hmove]
      exact h.inOrder
    · rw [hmove]
      exact h.complete hk
  | drop event todo hunknown =>
    refine ⟨h.history, ?_, fun hk => ?_⟩
    · exact ((List.sublist_cons_self event todo).append_left _).trans h.inOrder
    · have hmem : event ∈ received := by
        rw [← h.complete hk]
        simp
      rw [hkept hk event hmem] at hunknown
      cases hunknown

theorem output (h : Relayed received kept g mem log) {e : Effect}
    (houtput : RelayStage.Output g e g') : Relayed received kept g' mem (log ++ [e]) := by
  have hlog : sentEvents (log ++ [e]) ++ g'.sending.toList =
      sentEvents log ++ g.sending.toList ∧ g'.todo = g.todo := by
    cases houtput with
    | send event todo =>
      exact ⟨by simp [sentEvents, Effect.deviceEvent], rfl⟩
    | other _ _ hother =>
      exact ⟨by simp [sentEvents, hother], rfl⟩
  obtain ⟨hsent, htodo⟩ := hlog
  refine ⟨?_, ?_, fun hk => ?_⟩
  · rw [hsent]
    exact h.history
  · rw [hsent, htodo]
    exact h.inOrder
  · rw [hsent, htodo]
    exact h.complete hk

end Relayed

section Relay

variable {ι : Type} [DecidableEq ι] {manager : ι} {inputs : List Input} {kept : Prop}

/-- The node manager relays, every other task is idle in that respect. -/
def Relaying (manager : ι) (received : List MatterNodeEvent) (kept : Prop) (stage : ι → RelayStage)
    (mem : Memory) (log : List Effect) : Prop :=
  (∀ j, j ≠ manager → stage j = .idle) ∧ Relayed received kept (stage manager) mem log

theorem idle_update {stage : ι → RelayStage} (h : ∀ j, j ≠ manager → stage j = .idle) (i : ι)
    {g : RelayStage} (hg : i ≠ manager → g = .idle) :
    ∀ j, j ≠ manager → Function.update stage i g j = .idle := by
  intro j hj
  by_cases hji : j = i
  · subst hji
    rw [Function.update_self]
    exact hg hj
  · rw [Function.update_of_ne hji]
    exact h j hj

theorem relaying_step {received : List MatterNodeEvent} {c c' : Config ι Memory Effect} {i : ι}
    {stage stage' : ι → RelayStage} (h : Relaying manager received kept stage c.mem c.log)
    (hkept : kept → ∀ event ∈ received, c.mem.registry.contains event.nodeId = true)
    (hstep : Protocol.Step (fun _ => RelayStage.protocol) i stage c.mem c.log stage' c'.mem c'.log) :
    Relaying manager received kept stage' c'.mem c'.log := by
  obtain ⟨hidle, hrelayed⟩ := h
  generalize c'.mem = mem' at hstep ⊢
  generalize c'.log = log' at hstep ⊢
  cases hstep with
  | access mem' g' haccess =>
    by_cases hi : i = manager
    · subst hi
      refine ⟨idle_update hidle i fun hne => absurd rfl hne, ?_⟩
      rw [Function.update_self]
      exact hrelayed.access haccess hkept
    · obtain ⟨hg', hsame⟩ := RelayStage.access_idle (hidle i hi) haccess
      refine ⟨idle_update hidle i fun _ => hg', ?_⟩
      rw [Function.update_of_ne fun heq => hi heq.symm]
      exact ⟨hsame.trans hrelayed.history, hrelayed.inOrder, hrelayed.complete⟩
  | output e g' houtput =>
    by_cases hi : i = manager
    · subst hi
      refine ⟨idle_update hidle i fun hne => absurd rfl hne, ?_⟩
      rw [Function.update_self]
      exact hrelayed.output houtput
    · obtain ⟨hg', hother⟩ := RelayStage.output_idle (hidle i hi) houtput
      refine ⟨idle_update hidle i fun _ => hg', ?_⟩
      rw [Function.update_of_ne fun heq => hi heq.symm]
      exact hrelayed.output (.other _ e hother)

/-- In every run of the node manager next to the commands, the history is the last device events
that were broadcast, with one more while that is on its way; the events come in the order of the
stack, none twice, and only those of unregistered nodes are dropped. -/
theorem device_events_relayed {c c' : Config ι Memory Effect} {sched : List ι}
    (hmanager : c.task manager = nodeManager inputs)
    (hcommand : ∀ j, j ≠ manager → IsCommand (c.task j))
    (hlog : c.log = []) (hhistory : c.mem.history = []) (hrun : c.run sched = some c') :
    ∃ (sending : Option MatterNodeEvent) (todo : List MatterNodeEvent),
      c'.mem.history = lastEvents (sentEvents c'.log ++ sending.toList) ∧
      (sentEvents c'.log ++ sending.toList ++ todo).Sublist (receivedEvents inputs) ∧
      (Config.Along (fun d _ _ => ∀ event ∈ receivedEvents inputs,
        d.mem.registry.contains event.nodeId = true) c sched →
          sentEvents c'.log ++ sending.toList ++ todo = receivedEvents inputs) ∧
      (c'.task manager = .done → sending = none ∧ todo = []) := by
  let registered := Config.Along (fun d _ _ => ∀ event ∈ receivedEvents inputs,
    d.mem.registry.contains event.nodeId = true) c sched
  have hstart : Protocol.Meets (fun _ : ι => RelayStage.protocol)
      (Relaying manager (receivedEvents inputs) registered) c := by
    refine ⟨fun j => if j = manager then ⟨receivedEvents inputs, none⟩ else .idle, fun j => ?_, ?_⟩
    · dsimp only
      by_cases hj : j = manager
      · subst hj
        rw [if_pos rfl, hmanager]
        exact RelayStage.follows_nodeManager inputs
      · rw [if_neg hj]
        exact RelayStage.follows_command (hcommand j hj)
    · refine ⟨fun j hj => if_neg hj, ?_⟩
      dsimp only
      rw [if_pos rfl]
      constructor
      · rw [hhistory, hlog]
        rfl
      · rw [hlog]
        exact List.Sublist.refl _
      · intro _
        rw [hlog]
        rfl
  have halong : Config.Along (fun d _ _ => registered → ∀ event ∈ receivedEvents inputs,
      d.mem.registry.contains event.nodeId = true) c sched := by
    by_cases hregistered : registered
    · exact Transition.Along.mono (fun _ _ _ h _ => h) hregistered
    · exact Transition.Along.of_forall fun _ _ _ _ h => absurd h hregistered
  obtain ⟨stage, hfollows, -, hrelayed⟩ := hstart.run (fun _ _ _ _ _ => trivial)
    (fun _ _ _ _ _ _ h hkept hstep => relaying_step h hkept hstep) halong hrun
  refine ⟨(stage manager).sending, (stage manager).todo, hrelayed.history, hrelayed.inOrder,
    hrelayed.complete, fun hdone => ?_⟩
  have hidle := (hfollows manager).left hdone
  rw [hidle]
  exact ⟨rfl, rfl⟩

end Relay

section RemovedMeanwhile

def switchPressed : NodeEventData := ⟨1, 59, 1, 12, 1, 0, 0, .null⟩

/-- A removal (`false`) next to the events of a registered node and of an unknown one. -/
def pressedTwice : Config Bool Memory Effect where
  mem := lampMemory
  log := []
  task
    | true => nodeManager
        [.event (.nodeEvent 7 switchPressed) "", .event (.nodeEvent 8 switchPressed) ""]
    | false => removeNode 7

/-- The removal comes between the history and the broadcast of the first event. -/
def removedMeanwhile : List Bool := [true, true] ++ List.replicate 8 false ++ [true, true, true]

theorem device_events_relayed_removedMeanwhile : ∃ c', pressedTwice.run removedMeanwhile = some c' ∧
    sentEvents c'.log = [buildNodeEvent 7 switchPressed] ∧
    c'.mem.history = [buildNodeEvent 7 switchPressed] := by
  have hcommand : ∀ j, j ≠ true → IsCommand (pressedTwice.task j) := by
    intro j hj
    obtain rfl : j = false := by simpa using hj
    exact .removeNode 7
  obtain ⟨c', hrun, hsent, htask⟩ : ∃ c', pressedTwice.run removedMeanwhile = some c' ∧
      sentEvents c'.log = [buildNodeEvent 7 switchPressed] ∧ c'.task true = .done :=
    ⟨_, rfl, rfl, rfl⟩
  obtain ⟨sending, todo, hhistory, -, -, hdone⟩ :=
    device_events_relayed rfl hcommand rfl rfl hrun
  obtain ⟨rfl, rfl⟩ := hdone htask
  refine ⟨c', hrun, hsent, hhistory.trans ?_⟩
  rw [hsent]
  rfl

end RemovedMeanwhile

end MatterRsServer.Controller
