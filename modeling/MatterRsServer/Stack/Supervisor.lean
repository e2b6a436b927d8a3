import MatterRsServer.Stack.ReportSink

/-!
# Supervisors

`supervisor.rs` and the registry arms of `runtime::request_loop`: each node has one
supervisor task that establishes a subscription, watches it and establishes it again. A
step of the system is what the single-threaded stack does between two awaits. The guard of
a stopped supervisor is dropped by the executor, so a subscription stays tracked for a
while after `StopSupervisor`; a cancelled task is scheduled before any later one is spawned.
-/
namespace MatterRsServer.Stack
open Lib Wire Gen Controller

/-- Where the supervisor of a node is; a stopped one may still have its guard to drop. -/
inductive SupervisorPhase where
  | absent
  | idle
  | priming (acc : AttrAccumulator)
  | watching (subId : UInt32)
  | cancelled (subId : UInt32)

/-- The subscription whose guard is alive. -/
@[simp] def SupervisorPhase.subscription : SupervisorPhase → Option UInt32
  | .watching subId => some subId
  | .cancelled subId => some subId
  | _ => none

/-- The task is dropped; its guard, if any, is still to be dropped. -/
def SupervisorPhase.cancel : SupervisorPhase → SupervisorPhase
  | .watching subId => .cancelled subId
  | .cancelled subId => .cancelled subId
  | _ => .absent

@[simp] theorem SupervisorPhase.subscription_cancel (phase : SupervisorPhase) :
    phase.cancel.subscription = phase.subscription := by
  cases phase <;> rfl

namespace StackCtx

/-- `reset_event_high_water`. -/
def resetEventHighWater (ctx : StackCtx) (nodeId : NodeId) : StackCtx :=
  { ctx with lastEvent := ctx.lastEvent.erase nodeId }

/-- The method `note_event`. -/
def noteEvent (ctx : StackCtx) (nodeId : NodeId) (eventNumber : UInt64) : StackCtx :=
  { ctx with lastEvent := (Stack.noteEvent ctx.lastEvent nodeId eventNumber).2 }

/-- `disown`. -/
def disown (ctx : StackCtx) (nodeId : NodeId) (subId : UInt32) : StackCtx :=
  if ctx.subs.get? nodeId = some subId then { ctx with subs := ctx.subs.erase nodeId } else ctx

/-- `SubscriptionGuard::drop`. -/
def dropGuard (ctx : StackCtx) (nodeId : NodeId) (subId : UInt32) : StackCtx :=
  { ctx.disown nodeId subId with liveness := ctx.liveness.erase nodeId }

/-- `forget_node`. -/
def forgetNode (ctx : StackCtx) (nodeId : NodeId) : StackCtx :=
  { ctx with
    lastEvent := ctx.lastEvent.erase nodeId
    addrs := ctx.addrs.erase nodeId
    pendingReports := ctx.pendingReports.forget nodeId }

/-- The head of `establish`, before its first await. -/
def beginEstablish (ctx : StackCtx) (nodeId : NodeId) : StackCtx :=
  { ctx.resetEventHighWater nodeId with pendingReports := ctx.pendingReports.forget nodeId }

/-- The events of one priming chunk seed the high-water mark. -/
def notePriming (ctx : StackCtx) (nodeId : NodeId) (events : List EventData) : StackCtx :=
  events.foldl (fun ctx d => ctx.noteEvent nodeId d.eventNumber) ctx

/-- `establish`, from `Established` to its return. -/
def finishEstablish (ctx : StackCtx) (nodeId : NodeId) (subId : UInt32) (now : Nat) : StackCtx :=
  { ctx with
    subs := ctx.subs.insert nodeId subId
    liveness := ctx.liveness.insert nodeId now }

/-- The `StartSupervisor` arm; a displaced task is dropped. -/
def startSupervisor (ctx : StackCtx) (nodeId : NodeId) : StackCtx :=
  { ctx with supervisors := ctx.supervisors.insert nodeId ⟨nodeId⟩ }

/-- The `StopSupervisor` arm. -/
def stopSupervisor (ctx : StackCtx) (nodeId : NodeId) : StackCtx :=
  { ctx with supervisors := ctx.supervisors.erase nodeId }.forgetNode nodeId

end StackCtx

/-- The two messages of an established subscription, in the order of rule 4. -/
def establishedMessages (nodeId : NodeId) (maxInt : UInt16) (acc : AttrAccumulator) :
    List StackEvent :=
  [.nodeState nodeId (.connected maxInt), .primingSnapshot nodeId (.ofList acc.intoPairs)]

/-- What the stack thread does between two awaits. -/
inductive StackStep where
  | start (nodeId : NodeId)
  | begin (nodeId : NodeId)
  | chunk (nodeId : NodeId) (resp : Report)
  | established (nodeId : NodeId) (subId : UInt32) (maxInt : UInt16) (now : Nat)
  | failed (nodeId : NodeId)
  | silent (nodeId : NodeId)
  | report (r : Incoming)
  | stop (nodeId : NodeId)
  | release (nodeId : NodeId)

/-- The node whose supervisor moves; reports come from the sessions. -/
def StackStep.node : StackStep → Option NodeId
  | .start nodeId => some nodeId
  | .begin nodeId => some nodeId
  | .chunk nodeId _ => some nodeId
  | .established nodeId _ _ _ => some nodeId
  | .failed nodeId => some nodeId
  | .silent nodeId => some nodeId
  | .report _ => none
  | .stop nodeId => some nodeId
  | .release nodeId => some nodeId

/-- The stack thread: its shared state, its supervisors and what it sent so far. -/
structure StackThread where
  ctx : StackCtx
  phase : NodeId → SupervisorPhase
  sent : List StackEvent

namespace StackThread

def setPhase (s : StackThread) (nodeId : NodeId) (phase : SupervisorPhase) : StackThread :=
  { s with phase := Function.update s.phase nodeId phase }

def send (s : StackThread) (evs : List StackEvent) : StackThread := { s with sent := s.sent ++ evs }

def step (gen : EventTables) (s : StackThread) : StackStep → Option StackThread
  | .start nodeId =>
    match s.phase nodeId with
    | .absent => some ({ s with ctx := s.ctx.startSupervisor nodeId }.setPhase nodeId .idle)
    | _ => none
  | .begin nodeId =>
    match s.phase nodeId with
    | .idle => some ({ s with ctx := s.ctx.beginEstablish nodeId }.setPhase nodeId (.priming ∅))
    | _ => none
  | .chunk nodeId resp =>
    match s.phase nodeId with
    | .priming acc =>
      some ({ s with ctx := s.ctx.notePriming nodeId (walkEvents resp) }.setPhase nodeId
        (.priming (acc.absorb gen.toTables resp.toReportDataResp)))
    | _ => none
  | .established nodeId subId maxInt now =>
    match s.phase nodeId with
    | .priming acc =>
      some (({ s with ctx := s.ctx.finishEstablish nodeId subId now }.setPhase nodeId
        (.watching subId)).send (establishedMessages nodeId maxInt acc))
    | _ => none
  | .failed nodeId =>
    match s.phase nodeId with
    | .priming _ => some ((s.setPhase nodeId .idle).send [.nodeState nodeId .reconnecting])
    | _ => none
  | .silent nodeId =>
    match s.phase nodeId with
    | .watching subId =>
      some (({ s with ctx := s.ctx.dropGuard nodeId subId }.setPhase nodeId .idle).send
        [.nodeState nodeId .reconnecting])
    | _ => none
  | .report r =>
    let handled := handleReport gen s.ctx r
    some ({ s with ctx := handled.ctx }.send handled.sent)
  | .stop nodeId =>
    some ({ s with ctx := s.ctx.stopSupervisor nodeId }.setPhase nodeId (s.phase nodeId).cancel)
  | .release nodeId =>
    match s.phase nodeId with
    | .cancelled subId =>
      some ({ s with ctx := s.ctx.dropGuard nodeId subId }.setPhase nodeId .absent)
    | _ => none

/-- `StackCtx::new`, before any request. -/
structure Fresh (s : StackThread) : Prop where
  phase : ∀ nodeId, s.phase nodeId = .absent
  subs : ∀ nodeId, s.ctx.subs.get? nodeId = none
  lastEvent : ∀ nodeId, s.ctx.lastEvent.get? nodeId = none
  sent : s.sent = []

end StackThread

namespace StackCtx

theorem get?_noteEvent_lastEvent (ctx : StackCtx) (nodeId j : NodeId) (eventNumber : UInt64) :
    (ctx.noteEvent nodeId eventNumber).lastEvent.get? j =
      (Stack.noteEvent ctx.lastEvent nodeId eventNumber).2.get? j := rfl

@[simp] theorem subs_startSupervisor (ctx : StackCtx) (nodeId : NodeId) :
    (ctx.startSupervisor nodeId).subs = ctx.subs := rfl

@[simp] theorem subs_beginEstablish (ctx : StackCtx) (nodeId : NodeId) :
    (ctx.beginEstablish nodeId).subs = ctx.subs := rfl

@[simp] theorem subs_notePriming (ctx : StackCtx) (nodeId : NodeId) (events : List EventData) :
    (ctx.notePriming nodeId events).subs = ctx.subs := by
  induction events generalizing ctx with
  | nil => rfl
  | cons d rest ih => exact ih (ctx.noteEvent nodeId d.eventNumber)

@[simp] theorem lastEvent_dropGuard (ctx : StackCtx) (nodeId : NodeId) (subId : UInt32) :
    (ctx.dropGuard nodeId subId).lastEvent = ctx.lastEvent := by
  simp only [dropGuard, disown]
  split <;> rfl

theorem subs_dropGuard_of_ne (ctx : StackCtx) {nodeId j : NodeId} (h : j ≠ nodeId)
    (subId : UInt32) : (ctx.dropGuard nodeId subId).subs.get? j = ctx.subs.get? j := by
  simp only [dropGuard, disown]
  split
  · simp [OrdMap.get?_erase, h]
  · rfl

theorem subs_dropGuard_self {ctx : StackCtx} {nodeId : NodeId} {subId : UInt32}
    (h : ctx.subs.get? nodeId = some subId) :
    (ctx.dropGuard nodeId subId).subs.get? nodeId = none := by
  simp [dropGuard, disown, h]

end StackCtx

end MatterRsServer.Stack
