import MatterRsServer.Controller.Addr
import MatterRsServer.Stack.ReportIsolation
import MatterRsServer.Stack.Supervisor

/-!
# Supervisor futures

The stack thread with every spawned supervisor as a future of its own. Dropping a task only
closes its future: it is never polled again, and the executor drops it, with its guard, at a
later step. Until then a node has several futures, of which `ctx.supervisors` names one. What
is recorded for a node always has a future that holds the guard of it.
-/
namespace MatterRsServer.Stack
open Lib Wire Gen Controller

/-- Where a supervisor is, between two awaits. -/
inductive SupervisorStage where
  | idle
  | priming (acc : AttrAccumulator)
  | watching (subId : UInt32)

/-- A spawned `watch_supervisor`. -/
structure SupervisorFuture where
  nodeId : NodeId
  stage : SupervisorStage
  closed : Bool

/-- The subscription whose guard the future holds. -/
def SupervisorFuture.subscription (f : SupervisorFuture) : Option UInt32 :=
  match f.stage with
  | .watching subId => some subId
  | _ => none

/-- What the stack thread does between two awaits; a supervisor is named by its task. -/
inductive ExecutorStep where
  | startSupervisor (nodeId : NodeId)
  | stopSupervisor (nodeId : NodeId)
  | begin (task : Nat)
  | chunk (task : Nat) (resp : Report)
  | established (task : Nat) (subId : UInt32) (maxInt : UInt16) (now : Nat)
  | failed (task : Nat)
  | silent (task : Nat)
  | dropFuture (task : Nat)
  | report (r : Incoming)
  | commission (nodeId : NodeId)
  | commissioned (nodeId : NodeId) (address : String)
  | commissionFailed (nodeId : NodeId)

/-- The stack thread: `handles` is what `ctx.supervisors` holds, `commissioning` the detached
commissionings that have not ended. -/
structure Executor where
  ctx : StackCtx
  futures : Nat → Option SupervisorFuture
  spawned : Nat
  handles : OrdMap NodeId Nat
  commissioning : List NodeId
  sent : List StackEvent

/-- `commission`, when it has succeeded. -/
def StackCtx.noteAddress (ctx : StackCtx) (nodeId : NodeId) (address : String) : StackCtx :=
  { ctx with addrs := ctx.addrs.insert nodeId [(splitIpPort address).1] }

namespace StackCtx

/-- Priming touches the marks only. -/
theorem notePriming_eq (ctx : StackCtx) (nodeId : NodeId) (events : List EventData) :
    ctx.notePriming nodeId events =
      { ctx with lastEvent := (ctx.notePriming nodeId events).lastEvent } := by
  induction events generalizing ctx with
  | nil => rfl
  | cons d rest ih => exact ih (ctx.noteEvent nodeId d.eventNumber)

@[simp] theorem liveness_notePriming (ctx : StackCtx) (nodeId : NodeId) (events : List EventData) :
    (ctx.notePriming nodeId events).liveness = ctx.liveness := by
  rw [notePriming_eq]

@[simp] theorem liveness_beginEstablish (ctx : StackCtx) (nodeId : NodeId) :
    (ctx.beginEstablish nodeId).liveness = ctx.liveness := rfl

theorem get?_subs_dropGuard (ctx : StackCtx) (nodeId j : NodeId) (subId : UInt32) :
    (ctx.dropGuard nodeId subId).subs.get? j =
      if j = nodeId ∧ ctx.subs.get? nodeId = some subId then none else ctx.subs.get? j := by
  by_cases hj : j = nodeId
  · subst hj
    by_cases hown : ctx.subs.get? j = some subId
    · simp [subs_dropGuard_self hown, hown]
    · simp [dropGuard, disown, hown]
  · simp [subs_dropGuard_of_ne ctx hj, hj]

theorem get?_liveness_dropGuard (ctx : StackCtx) (nodeId j : NodeId) (subId : UInt32) :
    (ctx.dropGuard nodeId subId).liveness.get? j =
      if j = nodeId then none else ctx.liveness.get? j :=
  OrdMap.get?_erase _ _ _

end StackCtx

namespace Executor

/-- The future of a task, when it may still be polled. -/
def polled (s : Executor) (task : Nat) : Option SupervisorFuture :=
  (s.futures task).filter fun f => !f.closed

/-- `Task::drop` of the task that is handled for the node. -/
def closeHandle (s : Executor) (nodeId : NodeId) : Nat → Option SupervisorFuture := fun task =>
  if s.handles.get? nodeId = some task then (s.futures task).map fun f => { f with closed := true }
  else s.futures task

def setStage (s : Executor) (task : Nat) (f : SupervisorFuture) (stage : SupervisorStage) : Executor :=
  { s with futures := Function.update s.futures task (some { f with stage := stage }) }

def send (s : Executor) (evs : List StackEvent) : Executor := { s with sent := s.sent ++ evs }

def startSupervisor (s : Executor) (nodeId : NodeId) : Executor where
  ctx := s.ctx.startSupervisor nodeId
  futures := Function.update (s.closeHandle nodeId) s.spawned (some ⟨nodeId, .idle, false⟩)
  spawned := s.spawned + 1
  handles := s.handles.insert nodeId s.spawned
  commissioning := s.commissioning
  sent := s.sent

def stopSupervisor (s : Executor) (nodeId : NodeId) : Executor :=
  { s with
    ctx := s.ctx.stopSupervisor nodeId
    futures := s.closeHandle nodeId
    handles := s.handles.erase nodeId }

/-- The drop of a future that holds a guard runs the guard's. -/
def releaseGuard (ctx : StackCtx) (f : SupervisorFuture) : StackCtx :=
  match f.stage with
  | .watching subId => ctx.dropGuard f.nodeId subId
  | _ => ctx

def step (gen : EventTables) (s : Executor) : ExecutorStep → Option Executor
  | .startSupervisor nodeId => some (s.startSupervisor nodeId)
  | .stopSupervisor nodeId => some (s.stopSupervisor nodeId)
  | .begin task => (s.polled task).bind fun f =>
    match f.stage with
    | .idle => some ({ s with ctx := s.ctx.beginEstablish f.nodeId }.setStage task f (.priming ∅))
    | _ => none
  | .chunk task resp => (s.polled task).bind fun f =>
    match f.stage with
    | .priming acc =>
      some ({ s with ctx := s.ctx.notePriming f.nodeId (walkEvents resp) }.setStage task f
        (.priming (acc.absorb gen.toTables resp.toReportDataResp)))
    | _ => none
  | .established task subId maxInt now => (s.polled task).bind fun f =>
    match f.stage with
    | .priming acc =>
      some (({ s with ctx := s.ctx.finishEstablish f.nodeId subId now }.setStage task f
        (.watching subId)).send (establishedMessages f.nodeId maxInt acc))
    | _ => none
  | .failed task => (s.polled task).bind fun f =>
    match f.stage with
    | .priming _ => some ((s.setStage task f .idle).send [.nodeState f.nodeId .reconnecting])
    | _ => none
  | .silent task => (s.polled task).bind fun f =>
    match f.stage with
    | .watching subId =>
      some (({ s with ctx := s.ctx.dropGuard f.nodeId subId }.setStage task f .idle).send
        [.nodeState f.nodeId .reconnecting])
    | _ => none
  | .dropFuture task => (s.futures task).bind fun f =>
    if f.closed then
      some { s with ctx := releaseGuard s.ctx f, futures := Function.update s.futures task none }
    else none
  | .report r =>
    let handled := handleReport gen s.ctx r
    some ({ s with ctx := handled.ctx }.send handled.sent)
  | .commission nodeId => some { s with commissioning := nodeId :: s.commissioning }
  | .commissioned nodeId address =>
    if nodeId ∈ s.commissioning then
      some { s with
        ctx := s.ctx.noteAddress nodeId address
        commissioning := s.commissioning.erase nodeId }
    else none
  | .commissionFailed nodeId =>
    if nodeId ∈ s.commissioning then
      some { s with commissioning := s.commissioning.erase nodeId }
    else none

/-- `StackCtx::new`, before any request. -/
structure Fresh (s : Executor) : Prop where
  futures : ∀ task, s.futures task = none
  subs : ∀ nodeId, s.ctx.subs.get? nodeId = none
  liveness : ∀ nodeId, s.ctx.liveness.get? nodeId = none
  handles : ∀ nodeId, s.handles.get? nodeId = none

/-- What each step does, with the future that it polls or drops. -/
inductive Moved (gen : EventTables) (s : Executor) : ExecutorStep → Executor → Prop where
  | startSupervisor (nodeId : NodeId) :
      Moved gen s (.startSupervisor nodeId) (s.startSupervisor nodeId)
  | stopSupervisor (nodeId : NodeId) : Moved gen s (.stopSupervisor nodeId) (s.stopSupervisor nodeId)
  | begin {task : Nat} {f : SupervisorFuture} (hf : s.futures task = some f)
      (hopen : f.closed = false) (hstage : f.stage = .idle) : Moved gen s (.begin task)
        ({ s with ctx := s.ctx.beginEstablish f.nodeId }.setStage task f (.priming ∅))
  | chunk {task : Nat} {f : SupervisorFuture} {acc : AttrAccumulator} (resp : Report)
      (hf : s.futures task = some f) (hopen : f.closed = false) (hstage : f.stage = .priming acc) :
      Moved gen s (.chunk task resp)
        ({ s with ctx := s.ctx.notePriming f.nodeId (walkEvents resp) }.setStage task f
          (.priming (acc.absorb gen.toTables resp.toReportDataResp)))
  | established {task : Nat} {f : SupervisorFuture} {acc : AttrAccumulator} (subId : UInt32)
      (maxInt : UInt16) (now : Nat) (hf : s.futures task = some f) (hopen : f.closed = false)
      (hstage : f.stage = .priming acc) : Moved gen s (.established task subId maxInt now)
        (({ s with ctx := s.ctx.finishEstablish f.nodeId subId now }.setStage task f
          (.watching subId)).send (establishedMessages f.nodeId maxInt acc))
  | failed {task : Nat} {f : SupervisorFuture} {acc : AttrAccumulator} (hf : s.futures task = some f)
      (hopen : f.closed = false) (hstage : f.stage = .priming acc) : Moved gen s (.failed task)
        ((s.setStage task f .idle).send [.nodeState f.nodeId .reconnecting])
  | silent {task : Nat} {f : SupervisorFuture} {subId : UInt32} (hf : s.futures task = some f)
      (hopen : f.closed = false) (hstage : f.stage = .watching subId) : Moved gen s (.silent task)
        (({ s with ctx := s.ctx.dropGuard f.nodeId subId }.setStage task f .idle).send
          [.nodeState f.nodeId .reconnecting])
  | dropFuture {task : Nat} {f : SupervisorFuture} (hf : s.futures task = some f)
      (hclosed : f.closed = true) : Moved gen s (.dropFuture task)
        { s with ctx := releaseGuard s.ctx f, futures := Function.update s.futures task none }
  | report (r : Incoming) : Moved gen s (.report r)
      ({ s with ctx := (handleReport gen s.ctx r).ctx }.send (handleReport gen s.ctx r).sent)
  | commission (nodeId : NodeId) : Moved gen s (.commission nodeId)
      { s with commissioning := nodeId :: s.commissioning }
  | commissioned {nodeId : NodeId} (address : String) (hmem : nodeId ∈ s.commissioning) :
      Moved gen s (.commissioned nodeId address) { s with
        ctx := s.ctx.noteAddress nodeId address
        commissioning := s.commissioning.erase nodeId }
  | commissionFailed {nodeId : NodeId} (hmem : nodeId ∈ s.commissioning) :
      Moved gen s (.commissionFailed nodeId)
        { s with commissioning := s.commissioning.erase nodeId }

theorem polled_eq_some {s : Executor} {task : Nat} {f : SupervisorFuture}
    (h : s.polled task = some f) : s.futures task = some f ∧ f.closed = false := by
  unfold polled at h
  obtain ⟨hf, hopen⟩ := Option.filter_eq_some_iff.mp h
  exact ⟨hf, by simpa using hopen⟩

theorem step_moved {gen : EventTables} {s s' : Executor} {a : ExecutorStep}
    (h : s.step gen a = some s') : Moved gen s a s' := by
  cases a with
  | startSupervisor nodeId =>
    cases h
    exact .startSupervisor nodeId
  | stopSupervisor nodeId =>
    cases h
    exact .stopSupervisor nodeId
  | begin task =>
    obtain ⟨f, hf, h⟩ := Option.bind_eq_some_iff.mp h
    obtain ⟨hf, hopen⟩ := polled_eq_some hf
    split at h
    next hstage =>
      cases h
      exact .begin hf hopen hstage
    · cases h
  | chunk task resp =>
    obtain ⟨f, hf, h⟩ := Option.bind_eq_some_iff.mp h
    obtain ⟨hf, hopen⟩ := polled_eq_some hf
    split at h
    next acc hstage =>
      cases h
      exact .chunk resp hf hopen hstage
    · cases h
  | established task subId maxInt now =>
    obtain ⟨f, hf, h⟩ := Option.bind_eq_some_iff.mp h
    obtain ⟨hf, hopen⟩ := polled_eq_some hf
    split at h
    next acc hstage =>
      cases h
      exact .established subId maxInt now hf hopen hstage
    · cases h
  | failed task =>
    obtain ⟨f, hf, h⟩ := Option.bind_eq_some_iff.mp h
    obtain ⟨hf, hopen⟩ := polled_eq_some hf
    split at h
    next acc hstage =>
      cases h
      exact .failed hf hopen hstage
    · cases h
  | silent task =>
    obtain ⟨f, hf, h⟩ := Option.bind_eq_some_iff.mp h
    obtain ⟨hf, hopen⟩ := polled_eq_some hf
    split at h
    next subId hstage =>
      cases h
      exact .silent hf hopen hstage
    · cases h
  | dropFuture task =>
    obtain ⟨f, hf, h⟩ := Option.bind_eq_some_iff.mp h
    split at h
    next hclosed =>
      cases h
      exact .dropFuture hf hclosed
    · cases h
  | report r =>
    cases h
    exact .report r
  | commission nodeId =>
    cases h
    exact .commission nodeId
  | commissioned nodeId address =>
    simp only [step] at h
    split at h
    next hmem =>
      cases h
      exact .commissioned address hmem
    · cases h
  | commissionFailed nodeId =>
    simp only [step] at h
    split at h
    next hmem =>
      cases h
      exact .commissionFailed hmem
    · cases h

/-- The thread is made by steps from its start. -/
structure Invariant (s : Executor) : Prop where
  handled : ∀ task f, s.futures task = some f → f.closed = false →
    s.handles.get? f.nodeId = some task
  pointed : ∀ nodeId task, s.handles.get? nodeId = some task →
    ∃ f, s.futures task = some f ∧ f.nodeId = nodeId ∧ f.closed = false
  spawned : ∀ task f, s.futures task = some f → task < s.spawned
  owned : ∀ nodeId subId, s.ctx.subs.get? nodeId = some subId →
    ∃ task f, s.futures task = some f ∧ f.nodeId = nodeId ∧ f.stage = .watching subId
  heard : ∀ nodeId, s.ctx.liveness.get? nodeId ≠ none → s.ctx.subs.get? nodeId ≠ none

variable {gen : EventTables} {s s' : Executor}

@[simp] theorem futures_setStage (s : Executor) (task : Nat) (f : SupervisorFuture)
    (stage : SupervisorStage) : (s.setStage task f stage).futures =
      Function.update s.futures task (some { f with stage := stage }) := rfl

@[simp] theorem ctx_setStage (s : Executor) (task : Nat) (f : SupervisorFuture)
    (stage : SupervisorStage) : (s.setStage task f stage).ctx = s.ctx := rfl

@[simp] theorem ctx_send (s : Executor) (evs : List StackEvent) : (s.send evs).ctx = s.ctx := rfl

@[simp] theorem futures_send (s : Executor) (evs : List StackEvent) :
    (s.send evs).futures = s.futures := rfl

/-- A closed future is where it was. -/
theorem closeHandle_of_eq_some {nodeId : NodeId} {task : Nat} {f : SupervisorFuture}
    (h : s.futures task = some f) : ∃ closed,
      s.closeHandle nodeId task = some { f with closed := closed } := by
  unfold closeHandle
  split
  · exact ⟨true, by rw [h]; rfl⟩
  · exact ⟨f.closed, h⟩

theorem of_closeHandle_eq_some {nodeId : NodeId} {task : Nat} {f : SupervisorFuture}
    (h : s.closeHandle nodeId task = some f) : ∃ closed,
      s.futures task = some { f with closed := closed } ∧
      (f.closed = false → closed = false ∧ s.handles.get? nodeId ≠ some task) := by
  unfold closeHandle at h
  split at h
  · obtain ⟨g, hg, rfl⟩ := Option.map_eq_some_iff.mp h
    exact ⟨g.closed, hg, fun hopen => by cases hopen⟩
  next hother => exact ⟨f.closed, h, fun hopen => ⟨hopen, hother⟩⟩

namespace Invariant

theorem fresh (h : Fresh s) : s.Invariant where
  handled task f hf := by
    rw [h.futures] at hf
    cases hf
  pointed nodeId task htask := by
    rw [h.handles] at htask
    cases htask
  spawned task f hf := by
    rw [h.futures] at hf
    cases hf
  owned nodeId subId hsub := by
    rw [h.subs] at hsub
    cases hsub
  heard nodeId hlive := absurd (h.liveness nodeId) hlive

/-- Changing one future leaves the other guards where they are. -/
theorem owned_update (h : s.Invariant) {task : Nat} {f : SupervisorFuture}
    (hf : s.futures task = some f) {g : Option SupervisorFuture} {nodeId : NodeId} {subId : UInt32}
    (hsub : s.ctx.subs.get? nodeId = some subId)
    (hother : ¬ (f.nodeId = nodeId ∧ f.stage = .watching subId)) :
    ∃ t f', Function.update s.futures task g t = some f' ∧ f'.nodeId = nodeId ∧
      f'.stage = .watching subId := by
  obtain ⟨t, f', hf', hnode, hstage⟩ := h.owned nodeId subId hsub
  refine ⟨t, f', ?_, hnode, hstage⟩
  rw [Function.update_of_ne, hf']
  rintro rfl
  obtain rfl := Option.some.inj (hf.symm.trans hf')
  exact hother ⟨hnode, hstage⟩

/-- Polling a future does not change whose it is, nor whether it is closed. -/
theorem handled_setStage (h : s.Invariant) {task : Nat} {f : SupervisorFuture}
    (hf : s.futures task = some f) (stage : SupervisorStage) {t : Nat} {f' : SupervisorFuture}
    (hf' : Function.update s.futures task (some { f with stage := stage }) t = some f') :
    (f'.closed = false → s.handles.get? f'.nodeId = some t) ∧ t < s.spawned := by
  by_cases ht : t = task
  · subst ht
    rw [Function.update_self] at hf'
    cases hf'
    exact ⟨fun hopen => h.handled t f hf hopen, h.spawned t f hf⟩
  · rw [Function.update_of_ne ht] at hf'
    exact ⟨h.handled t f' hf', h.spawned t f' hf'⟩

/-- A handle still points to its future once that was polled. -/
theorem pointed_setStage (h : s.Invariant) {task : Nat} {f : SupervisorFuture}
    (hf : s.futures task = some f) (stage : SupervisorStage) (nodeId : NodeId) (t : Nat)
    (ht : s.handles.get? nodeId = some t) :
    ∃ f', Function.update s.futures task (some { f with stage := stage }) t = some f' ∧
      f'.nodeId = nodeId ∧ f'.closed = false := by
  obtain ⟨f', hf', hnode, hopen⟩ := h.pointed nodeId t ht
  by_cases heq : t = task
  · subst heq
    obtain rfl := Option.some.inj (hf.symm.trans hf')
    exact ⟨_, Function.update_self .., hnode, hopen⟩
  · exact ⟨f', by rw [Function.update_of_ne heq, hf'], hnode, hopen⟩

/-- What is sent does not matter. -/
theorem sending (h : s.Invariant) (evs : List StackEvent) : (s.send evs).Invariant :=
  ⟨h.handled, h.pointed, h.spawned, h.owned, h.heard⟩

/-- A poll that keeps the subscriptions of the thread. -/
theorem poll (h : s.Invariant) {task : Nat} {f : SupervisorFuture} (hf : s.futures task = some f)
    (stage : SupervisorStage) {ctx : StackCtx} (hsubs : ctx.subs = s.ctx.subs)
    (hlive : ctx.liveness = s.ctx.liveness) (hstage : ∀ subId, f.stage ≠ .watching subId) :
    ({ s with ctx := ctx }.setStage task f stage).Invariant where
  handled t f' hf' := (h.handled_setStage hf stage hf').1
  pointed := h.pointed_setStage hf stage
  spawned t f' hf' := (h.handled_setStage hf stage hf').2
  owned nodeId subId hsub := by
    change ctx.subs.get? nodeId = some subId at hsub
    rw [hsubs] at hsub
    exact h.owned_update hf hsub fun heq => hstage subId heq.2
  heard nodeId hheard := by
    change ctx.liveness.get? nodeId ≠ none at hheard
    change ctx.subs.get? nodeId ≠ none
    rw [hsubs]
    rw [hlive] at hheard
    exact h.heard nodeId hheard

/-- What is left after a guard was dropped. -/
theorem dropGuard (h : s.Invariant) {task : Nat} {f : SupervisorFuture} {subId : UInt32}
    (hf : s.futures task = some f) (hstage : f.stage = .watching subId)
    (g : Option SupervisorFuture) :
    (∀ nodeId sub, (s.ctx.dropGuard f.nodeId subId).subs.get? nodeId = some sub →
      ∃ t f', Function.update s.futures task g t = some f' ∧ f'.nodeId = nodeId ∧
        f'.stage = .watching sub) ∧
    ∀ nodeId, (s.ctx.dropGuard f.nodeId subId).liveness.get? nodeId ≠ none →
      (s.ctx.dropGuard f.nodeId subId).subs.get? nodeId ≠ none := by
  constructor
  · intro nodeId sub hsub
    rw [StackCtx.get?_subs_dropGuard] at hsub
    split at hsub
    · cases hsub
    next hkept =>
      apply h.owned_update hf hsub
      rintro ⟨rfl, hwatching⟩
      cases hstage.symm.trans hwatching
      exact hkept ⟨rfl, hsub⟩
  · intro nodeId hlive
    rw [StackCtx.get?_liveness_dropGuard] at hlive
    split at hlive
    · exact absurd rfl hlive
    next hne =>
      rw [StackCtx.get?_subs_dropGuard, if_neg fun heq => hne heq.1]
      exact h.heard nodeId hlive

/-- Closing and spawning keep every guard. -/
theorem owned_closeHandle (h : s.Invariant) (n : NodeId) {nodeId : NodeId} {subId : UInt32}
    (hsub : s.ctx.subs.get? nodeId = some subId) :
    ∃ t f', s.closeHandle n t = some f' ∧ f'.nodeId = nodeId ∧ f'.stage = .watching subId ∧
      t < s.spawned := by
  obtain ⟨t, f, hf, hnode, hstage⟩ := h.owned nodeId subId hsub
  obtain ⟨closed, hclosed⟩ := @closeHandle_of_eq_some s n t f hf
  exact ⟨t, _, hclosed, hnode, hstage, h.spawned t f hf⟩

/-- The handles of other nodes are not closed. -/
theorem pointed_closeHandle (h : s.Invariant) {n nodeId : NodeId} (hne : nodeId ≠ n) {t : Nat}
    (ht : s.handles.get? nodeId = some t) : ∃ f, s.closeHandle n t = some f ∧
      f.nodeId = nodeId ∧ f.closed = false ∧ t < s.spawned := by
  obtain ⟨f, hf, hnode, hopen⟩ := h.pointed nodeId t ht
  refine ⟨f, ?_, hnode, hopen, h.spawned t f hf⟩
  unfold closeHandle
  rw [if_neg, hf]
  intro hother
  obtain ⟨f', hf', hnode', -⟩ := h.pointed n t hother
  obtain rfl := Option.some.inj (hf.symm.trans hf')
  exact hne (hnode.symm.trans hnode')

theorem startSupervisor (h : s.Invariant) (n : NodeId) : (s.startSupervisor n).Invariant where
  handled t f hf hopen := by
    change (s.handles.insert n s.spawned).get? f.nodeId = some t
    change Function.update (s.closeHandle n) s.spawned _ t = some f at hf
    by_cases ht : t = s.spawned
    · subst ht
      rw [Function.update_self] at hf
      cases hf
      exact OrdMap.get?_insert_self _ _ _
    · rw [Function.update_of_ne ht] at hf
      obtain ⟨closed, hold, hkept⟩ := of_closeHandle_eq_some hf
      obtain ⟨hclosed, hother⟩ := hkept hopen
      have hhandle := h.handled t _ hold hclosed
      rw [OrdMap.get?_insert_of_ne, hhandle]
      rintro heq
      exact hother (heq ▸ hhandle)
  pointed nodeId t ht := by
    change (s.handles.insert n s.spawned).get? nodeId = some t at ht
    change ∃ f, Function.update (s.closeHandle n) s.spawned _ t = some f ∧ _
    rw [OrdMap.get?_insert] at ht
    split at ht
    next heq =>
      cases ht
      exact ⟨_, Function.update_self .., heq.symm, rfl⟩
    next hne =>
      obtain ⟨f, hf, hnode, hopen, hlt⟩ := h.pointed_closeHandle hne ht
      exact ⟨f, by rw [Function.update_of_ne (by omega), hf], hnode, hopen⟩
  spawned t f hf := by
    change Function.update (s.closeHandle n) s.spawned _ t = some f at hf
    change t < s.spawned + 1
    by_cases ht : t = s.spawned
    · omega
    · rw [Function.update_of_ne ht] at hf
      obtain ⟨closed, hold, -⟩ := of_closeHandle_eq_some hf
      have := h.spawned t _ hold
      omega
  owned nodeId subId hsub := by
    obtain ⟨t, f, hf, hnode, hstage, ht⟩ := h.owned_closeHandle n hsub
    refine ⟨t, f, ?_, hnode, hstage⟩
    change Function.update (s.closeHandle n) s.spawned _ t = some f
    rw [Function.update_of_ne (by omega), hf]
  heard := h.heard

theorem stopSupervisor (h : s.Invariant) (n : NodeId) : (s.stopSupervisor n).Invariant where
  handled t f hf hopen := by
    obtain ⟨closed, hold, hkept⟩ := of_closeHandle_eq_some hf
    obtain ⟨hclosed, hother⟩ := hkept hopen
    have hhandle := h.handled t _ hold hclosed
    change (s.handles.erase n).get? f.nodeId = some t
    rw [OrdMap.get?_erase, if_neg, hhandle]
    rintro heq
    exact hother (heq ▸ hhandle)
  pointed nodeId t ht := by
    change (s.handles.erase n).get? nodeId = some t at ht
    rw [OrdMap.get?_erase] at ht
    split at ht
    · cases ht
    next hne =>
      obtain ⟨f, hf, hnode, hopen, -⟩ := h.pointed_closeHandle hne ht
      exact ⟨f, hf, hnode, hopen⟩
  spawned t f hf := by
    obtain ⟨closed, hold, -⟩ := of_closeHandle_eq_some hf
    exact h.spawned t _ hold
  owned nodeId subId hsub := by
    obtain ⟨t, f, hf, hnode, hstage, -⟩ := h.owned_closeHandle n hsub
    exact ⟨t, f, hf, hnode, hstage⟩
  heard := h.heard

theorem established (h : s.Invariant) {task : Nat} {f : SupervisorFuture} {acc : AttrAccumulator}
    (hf : s.futures task = some f) (hstage : f.stage = .priming acc) (subId : UInt32) (now : Nat) :
    ({ s with ctx := s.ctx.finishEstablish f.nodeId subId now }.setStage task f
      (.watching subId)).Invariant where
  handled t f' hf' := (h.handled_setStage hf _ hf').1
  pointed := h.pointed_setStage hf _
  spawned t f' hf' := (h.handled_setStage hf _ hf').2
  owned nodeId sub hsub := by
    change (s.ctx.subs.insert f.nodeId subId).get? nodeId = some sub at hsub
    rw [OrdMap.get?_insert] at hsub
    split at hsub
    next heq =>
      cases hsub
      exact ⟨task, _, Function.update_self .., heq.symm, rfl⟩
    · apply h.owned_update hf hsub
      rintro ⟨-, hwatching⟩
      cases hstage.symm.trans hwatching
  heard nodeId hheard := by
    change (s.ctx.liveness.insert f.nodeId now).get? nodeId ≠ none at hheard
    change (s.ctx.subs.insert f.nodeId subId).get? nodeId ≠ none
    rw [OrdMap.get?_insert] at hheard ⊢
    split
    · simp
    next hne =>
      rw [if_neg hne] at hheard
      exact h.heard nodeId hheard

/-- Only a report of a recorded subscription is heard. -/
theorem report (h : s.Invariant) (r : Incoming) : ({ s with
    ctx := (handleReport gen s.ctx r).ctx }.send (handleReport gen s.ctx r).sent).Invariant := by
  by_cases htracked : Tracked s.ctx.fabIdx (s.ctx.subs.get? r.sub.peerNodeId) r.sub.peerNodeId r
  · obtain ⟨-, -, subId, -, hrecorded⟩ := id htracked
    rw [handleReport_tracked gen htracked]
    refine ⟨h.handled, h.pointed, h.spawned, h.owned, fun nodeId hheard => ?_⟩
    change (s.ctx.liveness.insert r.sub.peerNodeId r.now).get? nodeId ≠ none at hheard
    change s.ctx.subs.get? nodeId ≠ none
    rw [OrdMap.get?_insert] at hheard
    split at hheard
    next heq =>
      rw [heq, hrecorded]
      exact Option.some_ne_none _
    · exact h.heard nodeId hheard
  · rw [handleReport_untracked gen htracked]
    exact ⟨h.handled, h.pointed, h.spawned, h.owned, h.heard⟩

theorem step {a : ExecutorStep} (h : s.Invariant) (hstep : s.step gen a = some s') :
    s'.Invariant := by
  cases step_moved hstep with
  | startSupervisor nodeId => exact h.startSupervisor nodeId
  | stopSupervisor nodeId => exact h.stopSupervisor nodeId
  | begin hf hopen hstage =>
    exact h.poll hf _ rfl rfl fun subId heq => by cases hstage.symm.trans heq
  | chunk resp hf hopen hstage =>
    exact h.poll hf _ (StackCtx.subs_notePriming _ _ _) (StackCtx.liveness_notePriming _ _ _)
      fun subId heq => by cases hstage.symm.trans heq
  | established subId maxInt now hf hopen hstage => exact (h.established hf hstage subId now).sending _
  | failed hf hopen hstage =>
    have hpolled : (s.setStage _ _ .idle).Invariant :=
      h.poll hf .idle rfl rfl fun subId heq => by cases hstage.symm.trans heq
    exact hpolled.sending _
  | silent hf hopen hstage =>
    obtain ⟨howned, hheard⟩ := h.dropGuard hf hstage _
    exact ⟨fun t f' hf' => (h.handled_setStage hf .idle hf').1, h.pointed_setStage hf .idle,
      fun t f' hf' => (h.handled_setStage hf .idle hf').2, howned, hheard⟩
  | @dropFuture task f hf hclosed =>
    have hrest : ∀ {t : Nat} {f' : SupervisorFuture},
        Function.update s.futures task none t = some f' → s.futures t = some f' := by
      intro t f' hf'
      rw [Function.update_apply] at hf'
      split at hf'
      · cases hf'
      · exact hf'
    have hpointed : ∀ nodeId t, s.handles.get? nodeId = some t →
        ∃ f', Function.update s.futures task none t = some f' ∧ f'.nodeId = nodeId ∧
          f'.closed = false := by
      intro nodeId t ht
      obtain ⟨f', hf', hnode, hopen⟩ := h.pointed nodeId t ht
      refine ⟨f', ?_, hnode, hopen⟩
      rw [Function.update_of_ne, hf']
      rintro rfl
      obtain rfl := Option.some.inj (hf.symm.trans hf')
      rw [hopen] at hclosed
      cases hclosed
    cases hstage : f.stage with
    | watching subId =>
      obtain ⟨howned, hheard⟩ := h.dropGuard hf hstage none
      simp only [releaseGuard, hstage]
      exact ⟨fun t f' hf' => h.handled t f' (hrest hf'), hpointed,
        fun t f' hf' => h.spawned t f' (hrest hf'),
        howned, hheard⟩
    | idle =>
      have hguard : ∀ nodeId subId, ¬ (f.nodeId = nodeId ∧ f.stage = .watching subId) :=
        fun nodeId subId heq => by cases hstage.symm.trans heq.2
      simp only [releaseGuard, hstage]
      exact ⟨fun t f' hf' => h.handled t f' (hrest hf'), hpointed,
        fun t f' hf' => h.spawned t f' (hrest hf'),
        fun nodeId subId hsub => h.owned_update hf hsub (hguard nodeId subId), h.heard⟩
    | priming acc =>
      have hguard : ∀ nodeId subId, ¬ (f.nodeId = nodeId ∧ f.stage = .watching subId) :=
        fun nodeId subId heq => by cases hstage.symm.trans heq.2
      simp only [releaseGuard, hstage]
      exact ⟨fun t f' hf' => h.handled t f' (hrest hf'), hpointed,
        fun t f' hf' => h.spawned t f' (hrest hf'),
        fun nodeId subId hsub => h.owned_update hf hsub (hguard nodeId subId), h.heard⟩
  | report r => exact h.report r
  | commission nodeId => exact ⟨h.handled, h.pointed, h.spawned, h.owned, h.heard⟩
  | commissioned address hmem => exact ⟨h.handled, h.pointed, h.spawned, h.owned, h.heard⟩
  | commissionFailed hmem => exact ⟨h.handled, h.pointed, h.spawned, h.owned, h.heard⟩

theorem run {steps : List ExecutorStep} (h : s.Invariant)
    (hrun : Transition.run (Executor.step gen) s steps = some s') : s'.Invariant :=
  Transition.run_invariant (fun _ _ _ hinv hstep _ => hinv.step hstep) h
    (Transition.Along.of_forall fun _ _ _ _ => trivial) hrun

end Invariant

/-- A stack thread that has just been set up. -/
def silentExecutor : Executor := ⟨⟨1, ∅, ∅, ∅, ∅, ∅, ∅⟩, fun _ => none, 0, ∅, [], []⟩

theorem silentExecutor_fresh : silentExecutor.Fresh :=
  ⟨fun _ => rfl, fun _ => rfl, fun _ => rfl, fun _ => rfl⟩

end Executor

end MatterRsServer.Stack
