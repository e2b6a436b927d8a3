import MatterRsServer.Stack.ReportSink

/-!
# Reports cannot cross nodes

What `handle_report` does for one node depends on the entries of that node and on the
reports of its tracked subscription alone: every other report, whatever it carries, leaves
those entries as they are and sends nothing on the node's behalf.
-/
namespace MatterRsServer.Stack
open Lib Wire Gen Controller

theorem get?_noteEvent_of_ne {nodeId j : NodeId} (h : j ≠ nodeId) (last : OrdMap NodeId UInt64)
    (eventNumber : UInt64) : (noteEvent last nodeId eventNumber).2.get? j = last.get? j := by
  unfold noteEvent
  split
  · split
    · rfl
    · exact OrdMap.get?_insert_of_ne _ h _
  · exact OrdMap.get?_insert_of_ne _ h _

/-- Noting an event looks only at the node's own mark. -/
theorem noteEvent_congr {last last' : OrdMap NodeId UInt64} {nodeId : NodeId}
    (h : last.get? nodeId = last'.get? nodeId) (eventNumber : UInt64) :
    (noteEvent last nodeId eventNumber).1 = (noteEvent last' nodeId eventNumber).1 ∧
      (noteEvent last nodeId eventNumber).2.get? nodeId =
        (noteEvent last' nodeId eventNumber).2.get? nodeId := by
  unfold noteEvent
  rw [← h]
  cases hseen : last.get? nodeId with
  | none => simp
  | some seen =>
    by_cases hle : eventNumber ≤ seen
    · simp [hle, hseen, h.symm.trans hseen]
    · simp [hle]

theorem get?_forwardEvents_of_ne (gen : EventTables) {nodeId j : NodeId} (h : j ≠ nodeId)
    (wall : Int) (events : List EventData) (last : OrdMap NodeId UInt64) :
    (forwardEvents gen nodeId wall events last).2.get? j = last.get? j := by
  induction events generalizing last with
  | nil => rfl
  | cons d rest ih => exact (ih _).trans (get?_noteEvent_of_ne h last d.eventNumber)

theorem forwardEvents_congr (gen : EventTables) {last last' : OrdMap NodeId UInt64}
    {nodeId : NodeId} (wall : Int) (events : List EventData)
    (h : last.get? nodeId = last'.get? nodeId) :
    (forwardEvents gen nodeId wall events last).1 =
        (forwardEvents gen nodeId wall events last').1 ∧
      (forwardEvents gen nodeId wall events last).2.get? nodeId =
        (forwardEvents gen nodeId wall events last').2.get? nodeId := by
  induction events generalizing last last' with
  | nil => exact ⟨rfl, h⟩
  | cons d rest ih =>
    obtain ⟨hnew, hmark⟩ := noteEvent_congr h d.eventNumber
    obtain ⟨hsent, hlast⟩ := ih hmark
    constructor
    · simp only [forwardEvents, hnew, hsent]
    · exact hlast

/-- A report is handled on behalf of its sender only. -/
theorem eventNode_of_forwarded (gen : EventTables) (nodeId : NodeId) (wall : Int)
    (events : List EventData) (last : OrdMap NodeId UInt64) {ev : StackEvent}
    (h : ev ∈ (forwardEvents gen nodeId wall events last).1) : eventNode ev = nodeId := by
  induction events generalizing last with
  | nil => cases h
  | cons d rest ih =>
    rcases List.mem_append.mp h with h | h
    · split at h
      · rw [List.mem_singleton.mp h]
        rfl
      · cases h
    · exact ih _ h

theorem eventNode_of_changesMessage {nodeId : NodeId}
    {changes : Option (List (String × Json))} {ev : StackEvent}
    (h : ev ∈ changesMessage nodeId changes) : eventNode ev = nodeId := by
  unfold changesMessage at h
  split at h
  · rw [List.mem_singleton.mp h]
    rfl
  · cases h

/-- The accumulator of the sender decides what a message completes. -/
theorem absorbMessage_congr (gen : Tables) {pending pending' : PendingReports} {nodeId : NodeId}
    (h : pending.get? nodeId = pending'.get? nodeId) (report : ReportDataResp) :
    (pending.absorbMessage gen nodeId report).1 = (pending'.absorbMessage gen nodeId report).1 ∧
      (pending.absorbMessage gen nodeId report).2.get? nodeId =
        (pending'.absorbMessage gen nodeId report).2.get? nodeId := by
  unfold PendingReports.absorbMessage
  rw [h]
  split <;> simp

/-- The state and the messages of a sink, as a system that serves reports. -/
def sink (gen : EventTables) (ctx : StackCtx) (r : Incoming) : StackCtx × List StackEvent :=
  ((handleReport gen ctx r).ctx, (handleReport gen ctx r).sent)

/-- The entries of one node, with what decides whether a report is tracked. -/
structure NodeEntries where
  fabIdx : UInt8
  recorded : Option UInt32
  liveness : Option Nat
  pending : Option AttrAccumulator
  lastEvent : Option UInt64

def nodeEntries (nodeId : NodeId) (ctx : StackCtx) : NodeEntries where
  fabIdx := ctx.fabIdx
  recorded := ctx.subs.get? nodeId
  liveness := ctx.liveness.get? nodeId
  pending := ctx.pendingReports.get? nodeId
  lastEvent := ctx.lastEvent.get? nodeId

/-- The reports of the subscription that is recorded for the node. -/
def concerns (nodeId : NodeId) (e : NodeEntries) (r : Incoming) : Bool :=
  decide (Tracked e.fabIdx e.recorded nodeId r)

/-- Neither the fabric nor the recorded subscriptions are the sink's to change. -/
theorem sink_constant (gen : EventTables) (ctx : StackCtx) (r : Incoming) :
    (sink gen ctx r).1.fabIdx = ctx.fabIdx ∧ (sink gen ctx r).1.subs = ctx.subs := by
  unfold sink
  by_cases h : Tracked ctx.fabIdx (ctx.subs.get? r.sub.peerNodeId) r.sub.peerNodeId r
  · rw [handleReport_tracked gen h]
    exact ⟨rfl, rfl⟩
  · rw [handleReport_untracked gen h]
    exact ⟨rfl, rfl⟩

/-- A report that is not of the node's subscription. -/
theorem sink_silent (gen : EventTables) (nodeId : NodeId) (ctx : StackCtx) (r : Incoming)
    (h : ¬ Tracked ctx.fabIdx (ctx.subs.get? nodeId) nodeId r) :
    nodeEntries nodeId (sink gen ctx r).1 = nodeEntries nodeId ctx ∧
      (sink gen ctx r).2.filter (fun ev => eventNode ev = nodeId) = [] := by
  unfold sink
  by_cases htracked : Tracked ctx.fabIdx (ctx.subs.get? r.sub.peerNodeId) r.sub.peerNodeId r
  · have hne : nodeId ≠ r.sub.peerNodeId := by
      intro heq
      rw [← heq] at htracked
      exact h htracked
    rw [handleReport_tracked gen htracked]
    constructor
    · let message := Action.message r.sub.peerNodeId r.report.toReportDataResp
      have hpending : (ctx.pendingReports.step gen.toTables message).2.get? nodeId =
          ctx.pendingReports.get? nodeId :=
        PendingReports.get?_step_of_ne (Ne.symm hne) ctx.pendingReports
      simp only [nodeEntries, NodeEntries.mk.injEq, true_and]
      exact ⟨OrdMap.get?_insert_of_ne _ hne _, hpending, get?_forwardEvents_of_ne gen hne _ _ _⟩
    · rw [List.filter_eq_nil_iff]
      intro ev hev
      have hnode : eventNode ev = r.sub.peerNodeId := by
        rcases List.mem_append.mp hev with hev | hev
        · exact eventNode_of_changesMessage hev
        · exact eventNode_of_forwarded gen _ _ _ _ hev
      simpa [hnode] using Ne.symm hne
  · rw [handleReport_untracked gen htracked]
    exact ⟨rfl, rfl⟩

/-- What a report of the node's subscription does for the node. -/
theorem sink_determined (gen : EventTables) (nodeId : NodeId) (ctx ctx' : StackCtx) (r : Incoming)
    (heq : nodeEntries nodeId ctx = nodeEntries nodeId ctx')
    (h : Tracked ctx.fabIdx (ctx.subs.get? nodeId) nodeId r) :
    nodeEntries nodeId (sink gen ctx r).1 = nodeEntries nodeId (sink gen ctx' r).1 ∧
      (sink gen ctx r).2 = (sink gen ctx' r).2 := by
  simp only [nodeEntries, NodeEntries.mk.injEq] at heq
  obtain ⟨hfab, hrecorded, hliveness, hpending, hlast⟩ := heq
  have h' : Tracked ctx'.fabIdx (ctx'.subs.get? nodeId) nodeId r := by
    rwa [hfab, hrecorded] at h
  obtain ⟨hchanges, habsorbed⟩ := absorbMessage_congr gen.toTables hpending r.report.toReportDataResp
  obtain ⟨hsent, hmarks⟩ := forwardEvents_congr gen r.wall (walkEvents r.report) hlast
  unfold sink
  rw [handleReport_tracked gen h, handleReport_tracked gen h']
  constructor
  · simp only [nodeEntries, NodeEntries.mk.injEq, OrdMap.get?_insert_self]
    exact ⟨hfab, hrecorded, trivial, habsorbed, hmarks⟩
  · rw [hchanges, hsent]

/-- The sink as one node sees it. -/
def nodeView (gen : EventTables) (nodeId : NodeId) :
    Isolation.View (sink gen) NodeEntries where
  part := nodeEntries nodeId
  mine := fun ev => eventNode ev = nodeId
  concerns := concerns nodeId
  constant ctx r := by
    obtain ⟨hfab, hsubs⟩ := sink_constant gen ctx r
    funext r'
    exact decide_eq_decide.mpr (by simp only [nodeEntries, hfab, hsubs])
  silent ctx r h := sink_silent gen nodeId ctx r (of_decide_eq_false h)
  determined ctx ctx' r heq h := by
    obtain ⟨hentries, hsent⟩ := sink_determined gen nodeId ctx ctx' r heq (of_decide_eq_true h)
    exact ⟨hentries, by rw [hsent]⟩

/-- Two sequences of reports that agree on the reports of the subscription recorded for
node `b` leave the same entries for `b` and send the same messages on its behalf; and a report
that is answered `InvalidSubscription` changes nothing at all. -/
theorem reports_isolated (gen : EventTables) (ctx : StackCtx) (b : NodeId) (xs ys : List Incoming)
    (hagree : xs.filter (fun r => Tracked ctx.fabIdx (ctx.subs.get? b) b r) =
      ys.filter (fun r => Tracked ctx.fabIdx (ctx.subs.get? b) b r)) :
    (Isolation.serve (sink gen) ctx xs).1.liveness.get? b =
        (Isolation.serve (sink gen) ctx ys).1.liveness.get? b ∧
      (Isolation.serve (sink gen) ctx xs).1.pendingReports.get? b =
        (Isolation.serve (sink gen) ctx ys).1.pendingReports.get? b ∧
      (Isolation.serve (sink gen) ctx xs).1.lastEvent.get? b =
        (Isolation.serve (sink gen) ctx ys).1.lastEvent.get? b ∧
      (Isolation.serve (sink gen) ctx xs).2.filter (fun ev => eventNode ev = b) =
        (Isolation.serve (sink gen) ctx ys).2.filter (fun ev => eventNode ev = b) ∧
      ∀ (s : StackCtx) (r : Incoming), (handleReport gen s r).answer = .error .invalidSubscription →
        (handleReport gen s r).ctx = s ∧ (handleReport gen s r).sent = [] := by
  obtain ⟨hentries, hsent⟩ := (nodeView gen b).isolated hagree
  simp only [nodeView, nodeEntries, NodeEntries.mk.injEq] at hentries
  obtain ⟨_, _, hliveness, hpending, hlast⟩ := hentries
  refine ⟨hliveness, hpending, hlast, hsent, ?_⟩
  intro s r hanswer
  by_cases h : Tracked s.fabIdx (s.subs.get? r.sub.peerNodeId) r.sub.peerNodeId r
  · rw [handleReport_tracked gen h] at hanswer
    cases hanswer
  · rw [handleReport_untracked gen h]
    exact ⟨rfl, rfl⟩

section Forged

/-- Nodes 5 and 6 picked the same subscription id. -/
def forgedCtx : StackCtx where
  fabIdx := 1
  subs := .ofList [(5, 7), (6, 7)]
  liveness := ∅
  lastEvent := ∅
  pendingReports := ∅
  addrs := ∅
  supervisors := ∅

/-- An event of the given number, on a session with `peer`. -/
def eventReport (peer : NodeId) (subscriptionId : Option UInt32) (eventNumber : UInt64) :
    Incoming where
  sub := ⟨subscriptionId, 1, peer⟩
  report := ⟨⟨none, none⟩, some [some (.data
    ⟨⟨some 1, some 6, some 0⟩, eventNumber, 1, .epoch 0, none⟩)]⟩
  now := 10
  wall := 0

/-- `matter_rs_gen` without any cluster. -/
def noEventTables : EventTables := ⟨noTables, fun _ => []⟩

/-- Node 6 reports event 900 under node 5's subscription id: event 3 of node 5 still gets
through, as if node 6 had said nothing. -/
theorem reports_isolated_forged :
    (Isolation.serve (sink noEventTables) forgedCtx
        [eventReport 6 (some 7) 900, eventReport 5 (some 7) 3]).2.filter
          (fun ev => eventNode ev = 5) =
      (Isolation.serve (sink noEventTables) forgedCtx
        [eventReport 5 (some 7) 3]).2.filter (fun ev => eventNode ev = 5) :=
  (reports_isolated noEventTables forgedCtx 5 [eventReport 6 (some 7) 900, eventReport 5 (some 7) 3]
    [eventReport 5 (some 7) 3] rfl).2.2.2.1

end Forged

end MatterRsServer.Stack
