import MatterRsServer.Controller.Steps
import MatterRsServer.Stack.Supervisor

/-!
# Supervised and registered

The boot task of `MatterController::new`, `do_commission` and `remove_node` ask the stack
for supervisors, which `request_loop` starts and stops in the order of the requests. No
request looks at the registry again: a `StartSupervisor` that was decided on before a
removal may be sent after it. As long as none is sent for a node that is unregistered
or whose removal has already stopped its supervisor, the supervised nodes are the
registered ones at rest.
-/
namespace MatterRsServer.Server
open Lib Controller Stack

/-- The loop of the boot task. -/
def startSupervisors : List NodeId → Task
  | [] => .done
  | nodeId :: rest => .emit (.stack (.startSupervisor nodeId)) (startSupervisors rest)

/-- The task that `MatterController::new` spawns. -/
def bootTask : Task := .read (fun s => s.registry.nodeIds) startSupervisors

/-- The arms of `request_loop` for supervisors; the other requests leave them alone. -/
def serveRequest (ctx : StackCtx) : Effect → StackCtx
  | .stack (.startSupervisor nodeId) => ctx.startSupervisor nodeId
  | .stack (.stopSupervisor nodeId) => ctx.stopSupervisor nodeId
  | _ => ctx

/-- `request_loop`, over the requests in the order they were sent. -/
def requestLoop (ctx : StackCtx) (log : List Effect) : StackCtx := log.foldl serveRequest ctx

/-- `remove_node`, from the removal of the registry entry on. -/
def dropNode (nodeId : NodeId) : Task :=
  .modify (fun s => s.removeNode nodeId) <|
  .emit (.delete nodeId) <|
  .emit (.send (.nodeRemoved nodeId)) <|
  reply (.ok .null)

/-- `remove_node` has stopped the supervisor and still has the registry entry to remove. -/
inductive Removing (nodeId : NodeId) : Task → Prop where
  | leavingFabric (deviceFabIdx : UInt8) :
      Removing nodeId (.emit (.stack (.removeDeviceFabric nodeId deviceFabIdx)) (dropNode nodeId))
  | dropping : Removing nodeId (dropNode nodeId)

/-- A process that has just loaded its nodes: the boot task and any commands, all at their start. -/
structure Booting {ι : Type} (c : Config ι Memory Effect) : Prop where
  task : ∀ i, c.task i = bootTask ∨ IsControllerTask (c.task i)
  boots : ∃ i, c.task i = bootTask
  log : c.log = []

/-- A supervisor is asked for only while the node is registered and no removal of it has
already stopped its supervisor. -/
def StartsServed {ι : Type} (c : Config ι Memory Effect) (_ : ι) (c' : Config ι Memory Effect) :
    Prop :=
  ∀ nodeId, c'.log = c.log ++ [.stack (.startSupervisor nodeId)] →
    c.mem.registry.contains nodeId = true ∧ ∀ j, ¬ Removing nodeId (c.task j)

/-- What a task still owes to the supervisors. -/
inductive SupervisionStage where
  | idle
  | booting
  | starting (rest : List NodeId)
  | inserted (nodeId : NodeId)
  | removing (nodeId : NodeId)

namespace SupervisionStage

inductive Access (s : Memory) : SupervisionStage → Memory → SupervisionStage → Prop where
  | pass (g : SupervisionStage) (s' : Memory)
      (h : ∀ id, s'.registry.contains id = s.registry.contains id) : Access s g s' g
  | load : Access s .booting s (.starting s.registry.nodeIds)
  | insert (record : NodeRecord) : Access s .idle (s.insertNode record) (.inserted record.nodeId)
  | vanish (id : NodeId) (h : s.registry.contains id = false) : Access s (.inserted id) s .idle
  | remove (id : NodeId) : Access s (.removing id) (s.removeNode id) .idle

/-- An output that asks for no supervisor. -/
def IsOther (e : Effect) : Prop :=
  (∀ id, e ≠ .stack (.startSupervisor id)) ∧ ∀ id, e ≠ .stack (.stopSupervisor id)

inductive Output : SupervisionStage → Effect → SupervisionStage → Prop where
  | startNext (id : NodeId) (rest : List NodeId) :
      Output (.starting (id :: rest)) (.stack (.startSupervisor id)) (.starting rest)
  | start (id : NodeId) : Output (.inserted id) (.stack (.startSupervisor id)) .idle
  | stop (id : NodeId) : Output .idle (.stack (.stopSupervisor id)) (.removing id)
  | other (g : SupervisionStage) (e : Effect) (h : IsOther e) : Output g e g

/-- The task will yet see to `nodeId`, if it is registered. -/
def Owes (nodeId : NodeId) : SupervisionStage → Prop
  | .idle => False
  | .booting => True
  | .starting rest => nodeId ∈ rest
  | .inserted id => id = nodeId
  | .removing id => id = nodeId

end SupervisionStage

open SupervisionStage in
def supervision : Protocol Memory Effect SupervisionStage where
  left g t := (∀ id, g = .removing id → Removing id t) ∧ ∀ id, t = .done → ¬ g.Owes id
  knows _ _ := True
  access g s s' g' := Access s g s' g'
  output := Output

namespace FollowsSupervision

variable {g : SupervisionStage}

theorem access (g' : Memory → SupervisionStage) {ready : Memory → Bool} {upd : Memory → Memory}
    {next : Memory → Task} (hleft : ∀ id, g = .removing id → Removing id (.access ready upd next))
    (hstep : ∀ s, ready s = true → SupervisionStage.Access s g (upd s) (g' s))
    (hnext : ∀ s, ready s = true → supervision.Follows (next s) (g' s)) :
    supervision.Follows (.access ready upd next) g :=
  ⟨⟨hleft, fun _ => nofun⟩, fun s hs _ => ⟨g' s, hstep s hs, fun _ => hnext s hs⟩⟩

/-- An access that leaves the set of registered ids, outside a removal. -/
theorem pass {ready : Memory → Bool} {upd : Memory → Memory} {next : Memory → Task}
    (hnext : ∀ s, ready s = true → supervision.Follows (next s) g)
    (hg : ∀ id, g ≠ .removing id := by exact fun _ => nofun)
    (hupd : ∀ s id, (upd s).registry.contains id = s.registry.contains id := by
      exact fun _ _ => rfl) :
    supervision.Follows (.access ready upd next) g :=
  access (fun _ => g) (fun id h => absurd h (hg id)) (fun s _ => .pass g _ (hupd s)) hnext

theorem emit {e : Effect} {rest : Task} (hrest : supervision.Follows rest g)
    (hg : ∀ id, g ≠ .removing id := by exact fun _ => nofun)
    (he : SupervisionStage.IsOther e := by exact ⟨fun _ => nofun, fun _ => nofun⟩) :
    supervision.Follows (.emit e rest) g :=
  ⟨⟨fun id h => absurd h (hg id), fun _ => nofun⟩, g, .other g e he, hrest⟩

theorem admits : Admits Memory.Keeps SupervisionStage.IsOther where
  keeps _ _ h := h
  report e h := by cases h <;> exact ⟨fun _ => nofun, fun _ => nofun⟩
  reply _ := ⟨fun _ => nofun, fun _ => nofun⟩

theorem within {t : Task} (h : t.Within Memory.Keeps SupervisionStage.IsOther) :
    supervision.Follows t .idle :=
  Prog.Within.follows (P := supervision) (g := .idle) (fun _ _ => ⟨fun _ => nofun, fun _ _ => id⟩)
    (fun _ s' hs => .pass _ s' hs.contains) (fun e he => .other _ e he) h

theorem reply (result : Except CommandError Wire.Json) :
    supervision.Follows (Controller.reply result) .idle :=
  within ⟨admits.reply result, trivial⟩

theorem startSupervisors (ids : List NodeId) :
    supervision.Follows (Server.startSupervisors ids) (.starting ids) := by
  induction ids with
  | nil => exact ⟨fun _ => nofun, fun _ _ => List.not_mem_nil⟩
  | cons id rest ih => exact ⟨⟨fun _ => nofun, fun _ => nofun⟩, _, .startNext id rest, ih⟩

theorem bootTask : supervision.Follows Server.bootTask .booting :=
  access (fun s => .starting s.registry.nodeIds) (fun _ => nofun) (fun _ _ => .load)
    fun s _ => startSupervisors s.registry.nodeIds

theorem dropNode (id : NodeId) : supervision.Follows (Server.dropNode id) (.removing id) := by
  apply access fun _ => .idle
  · rintro _ ⟨⟩
    exact .dropping
  · exact fun _ _ => .remove id
  · exact fun _ _ => within ⟨⟨fun _ => nofun, fun _ => nofun⟩, ⟨fun _ => nofun, fun _ => nofun⟩,
      admits.reply _, trivial⟩

theorem ensureNode (id : NodeId) {k : Task} (hk : supervision.Follows k .idle) :
    supervision.Follows (Controller.ensureNode id k) .idle := by
  refine pass fun s _ => ?_
  dsimp only
  split
  · exact hk
  · exact reply _

theorem removeNode (id : NodeId) : supervision.Follows (Controller.removeNode id) .idle := by
  apply ensureNode id
  refine pass fun s _ => ?_
  refine ⟨⟨fun _ => nofun, fun _ => nofun⟩, .removing id, .stop id, ?_⟩
  refine ⟨⟨?_, fun _ => nofun⟩, .removing id, .other _ _ ⟨fun _ => nofun, fun _ => nofun⟩, dropNode id⟩
  rintro _ ⟨⟩
  exact .leavingFabric _

theorem endCommission (result : Except CommandError Wire.Json) :
    supervision.Follows (Controller.endCommission result) .idle :=
  pass fun _ _ => reply result

theorem registerNode (record : NodeRecord) :
    supervision.Follows (Controller.registerNode record) .idle := by
  apply access fun _ => .inserted record.nodeId
  · exact fun _ => nofun
  · exact fun _ _ => .insert record
  intro _ _
  refine emit ?_
  apply access fun s => if s.registry.contains record.nodeId then .inserted record.nodeId else .idle
  · exact fun _ => nofun
  · intro s _
    split
    · exact .pass _ _ fun _ => rfl
    next hgone => exact .vanish _ (Bool.eq_false_iff.mpr hgone)
  · intro s _
    dsimp only
    cases hnode : s.registry.nodeData record.nodeId with
    | none =>
      have hgone : s.registry.contains record.nodeId = false := by
        rw [Registry.contains_eq_isSome_nodeData, hnode]
        rfl
      rw [hgone]
      exact endCommission _
    | some nd =>
      have hknown : s.registry.contains record.nodeId = true := by
        rw [Registry.contains_eq_isSome_nodeData, hnode]
        rfl
      rw [hknown, if_pos rfl]
      refine emit ?_
      exact ⟨⟨fun _ => nofun, fun _ => nofun⟩, .idle, .start _, endCommission _⟩

theorem commissionNode (a : CommissionAttempt) (id : NodeId) :
    supervision.Follows (Controller.commissionNode a id) .idle := by
  refine pass fun _ _ => ?_
  refine emit ?_
  split
  · exact endCommission _
  · refine emit ?_
    split
    · exact emit (endCommission _)
    · exact registerNode _

theorem skipInUse (controllerNodeId : NodeId) {k : NodeId → Task}
    (hk : ∀ id, supervision.Follows (k id) .idle) (fuel : Nat) (candidate : NodeId) :
    supervision.Follows (Controller.skipInUse (idInUse controllerNodeId) k fuel candidate) .idle := by
  induction fuel generalizing candidate with
  | zero => exact pass fun _ => nofun
  | succ fuel ih =>
    refine pass fun s _ => ?_
    dsimp only
    split
    · exact ih _
    · exact hk _

theorem doCommission (fuel : Nat) (controllerNodeId : NodeId) (a : CommissionAttempt) :
    supervision.Follows (Controller.doCommission fuel controllerNodeId a) .idle := by
  refine pass fun _ _ => ?_
  refine pass fun _ _ => ?_
  refine pass fun s _ => ?_
  apply skipInUse controllerNodeId
  intro id
  refine emit ?_
  exact pass fun _ _ => commissionNode a id

theorem start {t : Task} (h : IsControllerTask t) : supervision.Follows t .idle := by
  cases h with
  | nodeManager inputs => exact within (Within.nodeManager admits inputs)
  | interviewNode id interview now =>
    exact within (Within.interviewNode admits id interview now ⟨fun _ => nofun, fun _ => nofun⟩)
  | removeNode id => exact removeNode id
  | doCommission fuel controllerNodeId a => exact doCommission fuel controllerNodeId a
  | idle => exact within trivial

end FollowsSupervision

namespace SupervisionStage

theorem owes_update {ι : Type} [DecidableEq ι] {stage : ι → SupervisionStage} {i : ι}
    {g' : SupervisionStage} {id : NodeId} (h : ∃ j, (stage j).Owes id)
    (hi : (stage i).Owes id → g'.Owes id) : ∃ j, (Function.update stage i g' j).Owes id := by
  obtain ⟨j, hj⟩ := h
  by_cases hji : j = i
  · subst hji
    exact ⟨j, by simpa using hi hj⟩
  · exact ⟨j, by simpa [hji] using hj⟩

end SupervisionStage

theorem contains_startSupervisor (ctx : StackCtx) (nodeId id : NodeId) :
    (ctx.startSupervisor nodeId).supervisors.contains id =
      (decide (id = nodeId) || ctx.supervisors.contains id) := OrdMap.contains_insert ..

theorem contains_stopSupervisor (ctx : StackCtx) (nodeId id : NodeId) :
    (ctx.stopSupervisor nodeId).supervisors.contains id =
      (!decide (id = nodeId) && ctx.supervisors.contains id) := OrdMap.contains_erase ..

/-- A supervised node is registered and no removal has stopped its supervisor; a registered one
is supervised or some task owes it a supervisor or its removal. -/
structure Supervised {ι : Type} (stage : ι → SupervisionStage) (s : Memory) (ctx : StackCtx) :
    Prop where
  registered : ∀ id, ctx.supervisors.contains id = true →
    s.registry.contains id = true ∧ ∀ j, stage j ≠ .removing id
  owed : ∀ id, s.registry.contains id = true →
    ctx.supervisors.contains id = true ∨ ∃ j, (stage j).Owes id

namespace Supervised

variable {ι : Type} [DecidableEq ι] {stage : ι → SupervisionStage} {s s' : Memory}
  {ctx : StackCtx} {i : ι} {g' : SupervisionStage}

theorem not_removing_update {id : NodeId} (h : ∀ j, stage j ≠ .removing id)
    (hg' : g' ≠ .removing id) (j : ι) : Function.update stage i g' j ≠ .removing id := by
  by_cases hj : j = i
  · subst hj
    rwa [Function.update_self]
  · rw [Function.update_of_ne hj]
    exact h j

theorem access (h : Supervised stage s ctx)
    (haccess : SupervisionStage.Access s (stage i) s' g') :
    Supervised (Function.update stage i g') s' ctx := by
  generalize hi : stage i = g at haccess
  cases haccess with
  | pass _ _ hsame =>
    have hstage : Function.update stage i g' = stage := by
      rw [← hi, Function.update_eq_self]
    rw [hstage]
    exact ⟨fun id hid => (hsame id).symm ▸ h.registered id hid,
      fun id hid => h.owed id ((hsame id).symm.trans hid)⟩
  | load =>
    constructor
    · intro id hid
      obtain ⟨hreg, hno⟩ := h.registered id hid
      exact ⟨hreg, not_removing_update hno nofun⟩
    · intro id hid
      refine (h.owed id hid).imp_right fun howes => SupervisionStage.owes_update howes ?_
      exact fun _ => Registry.mem_nodeIds.mpr hid
  | insert record =>
    constructor
    · intro id hid
      obtain ⟨hreg, hno⟩ := h.registered id hid
      refine ⟨?_, not_removing_update hno nofun⟩
      rw [Registry.contains_eq, Memory.get?_insertNode]
      split
      · rfl
      · exact hreg
    · intro id hid
      rw [Registry.contains_eq, Memory.get?_insertNode] at hid
      split at hid
      next heq => exact Or.inr ⟨i, by rw [Function.update_self]; exact heq.symm⟩
      · refine (h.owed id hid).imp_right fun howes => SupervisionStage.owes_update howes ?_
        rw [hi]
        exact False.elim
  | vanish id' hgone =>
    constructor
    · intro id hid
      obtain ⟨hreg, hno⟩ := h.registered id hid
      exact ⟨hreg, not_removing_update hno nofun⟩
    · intro id hid
      refine (h.owed id hid).imp_right fun howes => SupervisionStage.owes_update howes ?_
      rw [hi]
      rintro rfl
      rw [hgone] at hid
      cases hid
  | remove id' =>
    have hgone : ∀ id, (s.removeNode id').registry.contains id =
        (!decide (id = id') && s.registry.contains id) := fun id => OrdMap.contains_erase ..
    constructor
    · intro id hid
      obtain ⟨hreg, hno⟩ := h.registered id hid
      refine ⟨?_, not_removing_update hno nofun⟩
      have hne : id ≠ id' := fun heq => hno i (heq ▸ hi)
      rw [hgone, hreg]
      simp [hne]
    · intro id hid
      simp only [hgone, Bool.and_eq_true, Bool.not_eq_true', decide_eq_false_iff_not] at hid
      refine (h.owed id hid.2).imp_right fun howes => SupervisionStage.owes_update howes ?_
      rw [hi]
      exact fun heq => absurd heq.symm hid.1

/-- A supervisor started where it belongs. -/
theorem start (h : Supervised stage s ctx) {nodeId : NodeId}
    (hreg : s.registry.contains nodeId = true) (hno : ∀ j, stage j ≠ .removing nodeId)
    (hg' : ∀ id, g' ≠ .removing id) (howes : ∀ id, id ≠ nodeId → (stage i).Owes id → g'.Owes id) :
    Supervised (Function.update stage i g') s (ctx.startSupervisor nodeId) := by
  constructor
  · intro id hid
    simp only [contains_startSupervisor, Bool.or_eq_true, decide_eq_true_eq] at hid
    rcases hid with rfl | hid
    · exact ⟨hreg, not_removing_update hno (hg' id)⟩
    · obtain ⟨hreg, hno⟩ := h.registered id hid
      exact ⟨hreg, not_removing_update hno (hg' id)⟩
  · intro id hid
    by_cases heq : id = nodeId
    · exact Or.inl (by simp [contains_startSupervisor, heq])
    · rcases h.owed id hid with hsup | howed
      · exact Or.inl (by simp [contains_startSupervisor, hsup])
      · exact Or.inr (SupervisionStage.owes_update howed (howes id heq))

theorem stop (h : Supervised stage s ctx) {nodeId : NodeId} (hi : stage i = .idle) :
    Supervised (Function.update stage i (.removing nodeId)) s (ctx.stopSupervisor nodeId) := by
  constructor
  · intro id hid
    simp only [contains_stopSupervisor, Bool.and_eq_true, Bool.not_eq_true',
      decide_eq_false_iff_not] at hid
    obtain ⟨hreg, hno⟩ := h.registered id hid.2
    refine ⟨hreg, not_removing_update hno fun heq => ?_⟩
    injection heq with heq
    exact hid.1 heq.symm
  · intro id hid
    by_cases heq : id = nodeId
    · exact Or.inr ⟨i, by rw [Function.update_self]; exact heq.symm⟩
    · rcases h.owed id hid with hsup | howed
      · exact Or.inl (by simp [contains_stopSupervisor, heq, hsup])
      · refine Or.inr (SupervisionStage.owes_update howed ?_)
        rw [hi]
        exact False.elim

end Supervised

theorem serveRequest_other (ctx : StackCtx) {e : Effect} (h : SupervisionStage.IsOther e) :
    serveRequest ctx e = ctx := by
  cases e with
  | stack call =>
    cases call with
    | startSupervisor id => exact absurd rfl (h.1 id)
    | stopSupervisor id => exact absurd rfl (h.2 id)
    | _ => rfl
  | _ => rfl

theorem requestLoop_concat (ctx : StackCtx) (log : List Effect) (e : Effect) :
    requestLoop ctx (log ++ [e]) = serveRequest (requestLoop ctx log) e := List.foldl_concat ..

/-- One step of the system. -/
theorem Supervised.step {ι : Type} [DecidableEq ι] {ctx : StackCtx} {c c' : Config ι Memory Effect}
    {i : ι} {stage stage' : ι → SupervisionStage}
    (hfollows : ∀ j, supervision.Follows (c.task j) (stage j))
    (h : Supervised stage c.mem (requestLoop ctx c.log)) (hserved : StartsServed c i c')
    (hstep : Protocol.Step (fun _ => supervision) i stage c.mem c.log stage' c'.mem c'.log) :
    Supervised stage' c'.mem (requestLoop ctx c'.log) := by
  -- A removal past its stop is one that the condition speaks of.
  have hcond : ∀ id, c'.log = c.log ++ [.stack (.startSupervisor id)] →
      c.mem.registry.contains id = true ∧ ∀ j, stage j ≠ .removing id := by
    intro id hlog
    obtain ⟨hreg, hno⟩ := hserved id hlog
    exact ⟨hreg, fun j hj => hno j ((hfollows j).left.1 id hj)⟩
  obtain ⟨mem', log', task'⟩ := c'
  cases hstep with
  | access _ g' haccess => exact h.access haccess
  | output e g' houtput =>
    change Supervised _ c.mem (requestLoop ctx (c.log ++ [e]))
    rw [requestLoop_concat]
    generalize hi : stage i = g at houtput
    cases houtput with
    | startNext id rest =>
      obtain ⟨hreg, hno⟩ := hcond id rfl
      refine h.start hreg hno (fun _ => nofun) fun id' hne howes => ?_
      rw [hi] at howes
      exact (List.mem_cons.mp howes).resolve_left hne
    | start id =>
      obtain ⟨hreg, hno⟩ := hcond id rfl
      refine h.start hreg hno (fun _ => nofun) fun id' hne howes => ?_
      rw [hi] at howes
      exact hne howes.symm
    | stop id => exact h.stop hi
    | other _ _ hother =>
      have hstage : Function.update stage i g' = stage := by
        rw [← hi, Function.update_eq_self]
      rw [hstage, serveRequest_other _ hother]
      exact h

/-- In every run of the boot task and any commands whose requests for supervisors come in time,
no supervisor outlives its node, and once all tasks have finished exactly the registered nodes
have one. -/
theorem supervised_iff_registered {ι : Type} [DecidableEq ι] {ctx : StackCtx}
    {c c' : Config ι Memory Effect} {sched : List ι}
    (hctx : ∀ id, ctx.supervisors.contains id = false) (hstart : Booting c)
    (halong : Config.Along StartsServed c sched) (hrun : c.run sched = some c') (id : NodeId) :
    ((requestLoop ctx c'.log).supervisors.contains id = true →
      c'.mem.registry.contains id = true) ∧
    (c'.Quiescent → (requestLoop ctx c'.log).supervisors.contains id =
      c'.mem.registry.contains id) := by
  have hmeets : Protocol.Meets (fun _ => supervision)
      (fun stage s log => Supervised stage s (requestLoop ctx log)) c := by
    classical
    refine ⟨fun i => if c.task i = bootTask then .booting else .idle, fun i => ?_, ?_, ?_⟩
    · dsimp only
      split
      next hboot => exact hboot ▸ FollowsSupervision.bootTask
      next hboot => exact FollowsSupervision.start ((hstart.task i).resolve_left hboot)
    · intro id hid
      rw [hstart.log] at hid
      exact absurd hid (by simp [requestLoop, hctx])
    · intro id _
      obtain ⟨i, hboot⟩ := hstart.boots
      exact Or.inr ⟨i, by rw [if_pos hboot]; trivial⟩
  obtain ⟨stage, hfollows, hsupervised⟩ := Protocol.Meets.run (fun _ _ _ _ _ => trivial)
    (fun c i c' stage stage' hf h hcond hstep => h.step hf hcond hstep) hmeets halong hrun
  refine ⟨fun hid => (hsupervised.registered id hid).1, fun hq => ?_⟩
  rw [Bool.eq_iff_iff]
  refine ⟨fun hid => (hsupervised.registered id hid).1, fun hid => ?_⟩
  refine (hsupervised.owed id hid).resolve_right ?_
  rintro ⟨j, hj⟩
  exact (hfollows j).left.2 id (hq j) hj

section Race

/-- The boot task (`true`) and the removal of the only node (`false`). -/
def bootRace : Config Bool Memory Effect where
  mem := lampMemory
  log := []
  task
    | true => bootTask
    | false => removeNode 7

def noSupervisors : StackCtx := ⟨1, ∅, ∅, ∅, ∅, ∅, ∅⟩

theorem bootRace_booting : Booting bootRace where
  task i := match i with
    | true => Or.inl rfl
    | false => Or.inr (.removeNode 7)
  boots := ⟨true, rfl⟩
  log := rfl

/-- The boot task reads the ids, the removal runs to its end, then the supervisor is started. -/
theorem removedNode_keepsSupervisor : Booting bootRace ∧ ∃ c',
    bootRace.run ([true] ++ List.replicate 8 false ++ [true]) = some c' ∧ c'.Quiescent ∧
      (requestLoop noSupervisors c'.log).supervisors.contains 7 = true ∧
      c'.mem.registry.contains 7 = false := by
  refine ⟨bootRace_booting, _, rfl, ?_, rfl, rfl⟩
  intro i
  cases i <;> rfl

/-- A task that never asks for a supervisor, on its own. -/
theorem along_quiet {ι : Type} [DecidableEq ι] {c : Config ι Memory Effect} {i : ι} (n : Nat)
    (h : (c.task i).Within (fun _ _ => True) fun e => ∀ id, e ≠ .stack (.startSupervisor id)) :
    Config.Along StartsServed c (List.replicate n i) := by
  induction n generalizing c with
  | zero => trivial
  | succ n ih =>
    intro c' hstep
    rcases Config.step_cases hstep with ⟨ready, upd, next, htask, hready, rfl⟩ | ⟨e, rest, htask, rfl⟩
    · rw [htask] at h
      refine ⟨fun id hlog => ?_, ih ?_⟩
      · exact absurd (congrArg List.length hlog) (by simp)
      · simpa only [Function.update_self] using (h.2 c.mem hready).2
    · rw [htask] at h
      refine ⟨fun id hlog => ?_, ih ?_⟩
      · exact absurd (List.singleton_inj.mp (List.append_cancel_left hlog)) (h.1 id)
      · simpa only [Function.update_self] using h.2

theorem quiet_removeNode (nodeId : NodeId) : (removeNode nodeId).Within (fun _ _ => True)
    fun e => ∀ id, e ≠ .stack (.startSupervisor id) := by
  have hadmits : Admits (fun _ _ => True) fun e => ∀ id, e ≠ .stack (.startSupervisor id) :=
    ⟨fun _ _ _ => trivial, fun e h => by cases h <;> exact fun _ => nofun, fun _ _ => nofun⟩
  apply Within.ensureNode hadmits nodeId
  apply Within.read hadmits.refreshes
  intro deviceFabIdx
  refine ⟨fun _ => nofun, fun _ => nofun, Prog.Within.step (fun _ => trivial) fun _ => ?_⟩
  exact ⟨fun _ => nofun, fun _ => nofun, hadmits.reply _, trivial⟩

theorem not_removing_removeNode {id nodeId : NodeId} : ¬ Removing id (removeNode nodeId) := by
  intro h
  generalize ht : removeNode nodeId = t at h
  cases h with
  | leavingFabric deviceFabIdx => cases ht
  | dropping =>
    injection ht with _ hupd _
    have hmem := congrArg (fun m : Memory => m.registry.contains id)
      (congrFun hupd ((Classical.arbitrary Memory).insertNode { lamp with nodeId := id }))
    simp [Registry.contains_eq] at hmem

/-- The supervisor is started first. -/
theorem supervised_iff_registered_boot : ∃ c',
    bootRace.run ([true, true] ++ List.replicate 8 false) = some c' ∧
      (requestLoop noSupervisors c'.log).supervisors.contains 7 =
        c'.mem.registry.contains 7 := by
  have hstarts : Config.Along StartsServed bootRace [true, true] := by
    intro c hc
    cases hc
    refine ⟨fun id => nofun, fun c hc => ?_⟩
    cases hc
    refine ⟨fun id hlog => ?_, trivial⟩
    cases hlog
    refine ⟨rfl, fun j => ?_⟩
    cases j
    · exact not_removing_removeNode
    · exact nofun
  have halong : Config.Along StartsServed bootRace ([true, true] ++ List.replicate 8 false) := by
    apply Transition.Along.append hstarts
    intro c hc
    cases hc
    exact along_quiet 8 (quiet_removeNode 7)
  have hnone : ∀ id, noSupervisors.supervisors.contains id = false := fun _ => rfl
  have h := supervised_iff_registered hnone bootRace_booting halong rfl 7
  refine ⟨_, rfl, h.2 ?_⟩
  intro i
  cases i <;> rfl

end Race

end MatterRsServer.Server
