import MatterRsServer.Controller.Commands
import MatterRsServer.Lib.Mirror

/-!
# Tasks that report what they change

The node files and the clients' copies are two mirrors of the registry, fed by
the same tasks. `Reports` lists the five places where a task changes the
registry, each with the outputs that follow it; the rest of every task neither
changes the registry nor commits to an output a mirror shows. So a mirror that
meets `Reports` is settled by every controller task.
-/
namespace MatterRsServer.Controller
open Lib Wire

variable {κ ν : Type}

/-- A task that has reported all its changes. -/
def owesNothing : κ → Prop := fun _ => False

/-- A mirror of the registry alone, which shows node messages or node files. -/
structure RegistryMirror (S : Mirror κ ν Memory Effect) : Prop where
  source_eq : ∀ s s' : Memory, s.registry = s'.registry → S.source s = S.source s'
  stack : ∀ call, S.Neutral (.stack call)
  replies : ∀ result, S.Neutral (.reply result)
  saveConfig : ∀ cfg, S.Neutral (.saveConfig cfg)
  nodeEvent : ∀ ev, S.Neutral (.send (.nodeEvent ev))

namespace RegistryMirror

variable {S : Mirror κ ν Memory Effect}

/-- Steps outside the registry change nothing a mirror could miss. -/
theorem frame (h : RegistryMirror S) {D : κ → Prop} {ready : Memory → Bool} {upd : Memory → Memory}
    {next : Memory → Task} (hregistry : ∀ s, (upd s).registry = s.registry)
    (hquiet : ∀ s, S.Quiet (next s)) (hnext : ∀ s, S.Settles (next s) D) :
    S.Settles (.access ready upd next) D :=
  Mirror.settles_frame (fun s => h.source_eq _ _ (hregistry s)) hnext
    fun s e he => (hquiet s e he).upToDate _

theorem quiet_reply (h : RegistryMirror S) (result : Except CommandError Json) :
    S.Quiet (reply result) := (h.replies result).quiet_emit (Mirror.quiet_of_pending_nil rfl)

theorem settles_done : S.Settles .done owesNothing := fun _ hD => hD

theorem settles_reply (result : Except CommandError Json) :
    S.Settles (reply result) owesNothing := settles_done (S := S)

theorem settles_endCommission (h : RegistryMirror S) (result : Except CommandError Json) :
    S.Settles (endCommission result) owesNothing :=
  h.frame (fun _ => rfl) (fun _ => h.quiet_reply result) fun _ => settles_reply result

theorem settles_ifKnown (h : RegistryMirror S) {id : NodeId} {arm k : Task} (hquiet : S.Quiet k)
    (hquietArm : S.Quiet arm) (hk : S.Settles k owesNothing) (harm : S.Settles arm owesNothing) :
    S.Settles (ifKnown id arm k) owesNothing := by
  refine h.frame (fun _ => rfl) (fun s => ?_) fun s => ?_
  · dsimp only
    split
    · exact hquietArm
    · exact hquiet
  · dsimp only
    split
    · exact harm
    · exact hk

theorem settles_ensureNode (h : RegistryMirror S) {id : NodeId} {k : Task} (hquiet : S.Quiet k)
    (hk : S.Settles k owesNothing) : S.Settles (ensureNode id k) owesNothing := by
  refine h.frame (fun _ => rfl) (fun s => ?_) fun s => ?_
  · dsimp only
    split
    · exact hquiet
    · exact h.quiet_reply _
  · dsimp only
    split
    · exact hk
    · exact settles_reply _

end RegistryMirror

/-- The five places that change the registry settle what they owe the mirror. -/
structure Reports (S : Mirror κ ν Memory Effect) : Prop extends RegistryMirror S where
  availability : ∀ id available k, S.Quiet k → S.Settles k owesNothing →
    S.Settles (.modifyGet (fun s => s.setAvailable id available) fun changed =>
      if changed = some true then emitNodeUpdated id k else k) owesNothing
  replacement : ∀ id attributes now k, S.Quiet k → S.Settles k owesNothing →
    S.Settles (.modify (fun s => s.replaceAttributes id attributes now) <|
      persist id <| emitNodeUpdated id k) owesNothing
  changes : ∀ id changes k, S.Quiet k → S.Settles k owesNothing →
    S.Settles (applyChanges id changes <| persist id k) owesNothing
  removal : ∀ id k, S.Quiet k → S.Settles k owesNothing →
    S.Settles (.modify (fun s => s.removeNode id) <| .emit (.delete id) <|
      .emit (.send (.nodeRemoved id)) k) owesNothing
  registration : ∀ record, S.Settles (registerNode record) owesNothing

theorem pending_applyChanges (id : NodeId) (changes : List (String × Json)) {k : Task}
    (hk : k.pending = []) : (applyChanges id changes k).pending = [] := by
  cases changes with
  | nil => exact hk
  | cons change rest => rfl

theorem pending_handleNodeState (id : NodeId) (k : Task) (state : NodeConnState) :
    (handleNodeState id k state).pending = [] := by cases state <;> rfl

theorem pending_handleEvent (ev : StackEvent) (now : String) (k : Task) :
    (handleEvent ev now k).pending = [] := by cases ev <;> rfl

theorem pending_nodeManager (inputs : List Input) : (nodeManager inputs).pending = [] := by
  cases inputs with
  | nil => rfl
  | cons input rest =>
    cases input with
    | event ev now => exact pending_handleEvent ev now _
    | graceExpired id => rfl

/-- A task that has not started is committed to nothing. -/
theorem IsControllerTask.pending {t : Task} (h : IsControllerTask t) : t.pending = [] := by
  cases h with
  | nodeManager inputs => exact pending_nodeManager inputs
  | interviewNode | removeNode | doCommission | idle => rfl

namespace Reports

variable {S : Mirror κ ν Memory Effect}

theorem settles_handleNodeState (h : Reports S) (id : NodeId) {k : Task} (state : NodeConnState)
    (hquiet : S.Quiet k) (hk : S.Settles k owesNothing) :
    S.Settles (handleNodeState id k state) owesNothing := by
  cases state with
  | connected maxIntervalSecs =>
    exact h.frame (fun s => s.registry_cancelGrace id)
      (fun _ => Mirror.quiet_of_pending_nil rfl) fun _ => h.availability id true k hquiet hk
  | reconnecting =>
    refine h.frame (fun _ => rfl) (fun s => ?_) fun s => ?_
    · dsimp only
      split
      · exact Mirror.quiet_of_pending_nil rfl
      · exact hquiet
    · dsimp only
      split
      · exact h.frame (fun s => s.registry_startGrace id) (fun _ => hquiet) fun _ => hk
      · exact hk

theorem settles_handleEvent (h : Reports S) (ev : StackEvent) (now : String) {k : Task}
    (hpending : k.pending = []) (hk : S.Settles k owesNothing) :
    S.Settles (handleEvent ev now k) owesNothing := by
  have hquiet : S.Quiet k := Mirror.quiet_of_pending_nil hpending
  cases ev with
  | nodeState id state =>
    exact h.settles_ifKnown hquiet (Mirror.quiet_of_pending_nil (pending_handleNodeState id k state))
      hk (h.settles_handleNodeState id state hquiet hk)
  | primingSnapshot id attributes =>
    exact h.settles_ifKnown hquiet (Mirror.quiet_of_pending_nil rfl) hk
      (h.replacement id attributes now k hquiet hk)
  | attributesChanged id changes =>
    exact h.settles_ifKnown hquiet
      (Mirror.quiet_of_pending_nil (pending_applyChanges id changes rfl)) hk
      (h.changes id changes k hquiet hk)
  | nodeEvent id event =>
    refine h.settles_ifKnown hquiet (Mirror.quiet_of_pending_nil rfl) hk ?_
    exact h.frame (fun s => s.registry_pushHistory _)
      (fun _ => (h.nodeEvent _).quiet_emit hquiet) fun _ => hk

theorem settles_handleGraceExpiry (h : Reports S) (id : NodeId) {k : Task}
    (hquiet : S.Quiet k) (hk : S.Settles k owesNothing) :
    S.Settles (handleGraceExpiry id k) owesNothing := by
  refine h.frame (fun s => s.registry_takeGrace id) (fun s => ?_) fun s => ?_
  · cases (s.takeGrace id).1 with
    | none => exact hquiet
    | some handle => exact Mirror.quiet_of_pending_nil rfl
  · cases (s.takeGrace id).1 with
    | none => exact hk
    | some handle => exact h.availability id false k hquiet hk

theorem settles_nodeManager (h : Reports S) (inputs : List Input) :
    S.Settles (nodeManager inputs) owesNothing := by
  induction inputs with
  | nil =>
    exact h.frame (fun s => s.registry_abortAll) (fun _ => Mirror.quiet_of_pending_nil rfl)
      fun _ => RegistryMirror.settles_done
  | cons input rest ih =>
    cases input with
    | event ev now => exact h.settles_handleEvent ev now (pending_nodeManager rest) ih
    | graceExpired id =>
      exact h.settles_handleGraceExpiry id
        (Mirror.quiet_of_pending_nil (pending_nodeManager rest)) ih

theorem settles_interviewNode (h : Reports S) (id : NodeId)
    (interview : Except StackError Attributes) (now : String) :
    S.Settles (interviewNode id interview now) owesNothing := by
  refine h.settles_ensureNode ((h.stack _).quiet_emit ?_) ?_
  · cases interview with
    | error e => exact h.quiet_reply _
    | ok attributes => exact Mirror.quiet_of_pending_nil rfl
  · cases interview with
    | error e => exact RegistryMirror.settles_reply (S := S) (.error (stackErr .nodeInterviewFailed e))
    | ok attributes =>
      exact h.replacement id attributes now _ (h.quiet_reply _) (RegistryMirror.settles_reply _)

theorem settles_removeNode (h : Reports S) (id : NodeId) :
    S.Settles (removeNode id) owesNothing := by
  refine h.settles_ensureNode (Mirror.quiet_of_pending_nil rfl) ?_
  refine h.frame (fun _ => rfl) (fun s => ?_) fun s => ?_
  · exact (h.stack _).quiet_emit ((h.stack _).quiet_emit (Mirror.quiet_of_pending_nil rfl))
  · exact h.removal id _ (h.quiet_reply _) (RegistryMirror.settles_reply _)

theorem settles_commissionNode (h : Reports S) (a : CommissionAttempt) (id : NodeId) :
    S.Settles (commissionNode a id) owesNothing := by
  have hquietEnd : ∀ result, S.Quiet (endCommission result) :=
    fun _ => Mirror.quiet_of_pending_nil rfl
  refine h.frame (fun _ => rfl) (fun s => (h.stack _).quiet_emit ?_) fun s => ?_
  · cases a.commission with
    | error e => exact hquietEnd _
    | ok outcome =>
      cases a.interview with
      | error e => exact (h.stack _).quiet_emit ((h.stack _).quiet_emit (hquietEnd _))
      | ok attributes => exact (h.stack _).quiet_emit (Mirror.quiet_of_pending_nil rfl)
  · cases a.commission with
    | error e => exact h.settles_endCommission _
    | ok outcome =>
      cases a.interview with
      | error e => exact h.settles_endCommission _
      | ok attributes => exact h.registration _

theorem settles_skipInUse (h : Reports S) {controllerNodeId : NodeId} {k : NodeId → Task}
    (hquiet : ∀ id, S.Quiet (k id)) (hk : ∀ id, S.Settles (k id) owesNothing) (fuel : Nat)
    (candidate : NodeId) :
    S.Quiet (skipInUse (idInUse controllerNodeId) k fuel candidate) ∧
      S.Settles (skipInUse (idInUse controllerNodeId) k fuel candidate) owesNothing := by
  induction fuel generalizing candidate with
  | zero =>
    exact ⟨Mirror.quiet_of_pending_nil rfl, h.frame (fun _ => rfl)
      (fun _ => Mirror.quiet_of_pending_nil rfl) fun _ => RegistryMirror.settles_done⟩
  | succ fuel ih =>
    refine ⟨Mirror.quiet_of_pending_nil rfl, h.frame (fun _ => rfl) (fun s => ?_) fun s => ?_⟩
    · dsimp only
      split
      · exact (ih _).1
      · exact hquiet _
    · dsimp only
      split
      · exact (ih _).2
      · exact hk _

theorem settles_doCommission (h : Reports S) (fuel : Nat) (controllerNodeId : NodeId)
    (a : CommissionAttempt) : S.Settles (doCommission fuel controllerNodeId a) owesNothing := by
  have hcommit : ∀ id cfg, S.Settles (.emit (.saveConfig cfg) <|
      .modify (fun s => { s with config := cfg, configLocked := false }) <|
        commissionNode a id) owesNothing := fun id cfg =>
    h.frame (fun _ => rfl) (fun _ => Mirror.quiet_of_pending_nil rfl)
      fun _ => h.settles_commissionNode a id
  have hquiet : ∀ id cfg, S.Quiet (.emit (.saveConfig cfg) <|
      .modify (fun s => { s with config := cfg, configLocked := false }) <|
        commissionNode a id) := fun id cfg =>
    (h.saveConfig _).quiet_emit (Mirror.quiet_of_pending_nil rfl)
  refine h.frame (fun _ => rfl) (fun _ => Mirror.quiet_of_pending_nil rfl) fun _ => ?_
  refine h.frame (fun _ => rfl) (fun _ => Mirror.quiet_of_pending_nil rfl) fun _ => ?_
  refine h.frame (fun _ => rfl) (fun s => ?_) fun s => ?_
  · exact (h.settles_skipInUse (fun id => hquiet id _) (fun id => hcommit id _) fuel _).1
  · exact (h.settles_skipInUse (fun id => hquiet id _) (fun id => hcommit id _) fuel _).2

/-- Every task of the controller settles a mirror that the five places report to. -/
theorem settles (h : Reports S) {t : Task} (ht : IsControllerTask t) :
    S.Settles t owesNothing := by
  cases ht with
  | nodeManager inputs => exact h.settles_nodeManager inputs
  | interviewNode id interview now => exact h.settles_interviewNode id interview now
  | removeNode id => exact h.settles_removeNode id
  | doCommission fuel controllerNodeId a => exact h.settles_doCommission fuel controllerNodeId a
  | idle => exact RegistryMirror.settles_done

/-- Whatever the mirror, it starts in step with a controller that has not run yet. -/
theorem mirrored_start {ι : Type} (h : Reports S) {c : Config ι Memory Effect} (hc : Starting c) :
    S.Mirrored (S.source c.mem) (fun _ => owesNothing) c :=
  Mirror.Mirrored.start (fun i => h.settles (hc.task i)) fun i => (hc.task i).pending

end Reports

end MatterRsServer.Controller
