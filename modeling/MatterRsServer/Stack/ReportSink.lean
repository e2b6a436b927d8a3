import MatterRsServer.Controller.NodeManager
import MatterRsServer.Lib.Isolation
import MatterRsServer.Stack.Reassembly

/-!
# Unsolicited reports

`ReportSink::handle_report` with `walk_events` and `node_event` of
`crates/stack/src/reports.rs`, over the maps of `StackCtx` in `ctx.rs`. A report is taken
on the word of its CASE session: only the entries of the session's peer change, and only
where the subscription id is the one recorded for that peer, so no device can speak for
another one.
-/
namespace MatterRsServer.Stack
open Lib Wire Gen Controller

/-- `matter_rs_gen::Event`. -/
structure Event where
  code : UInt32
  fields : List Field

/-- The generated table with the events of its clusters, by cluster code. -/
structure EventTables extends Tables where
  events : UInt32 → List Event

/-- `cluster(code)?.event(event)?`. -/
def EventTables.event (t : EventTables) (cluster event : UInt32) : Option (Cluster × Event) :=
  (t.cluster cluster).bind fun c =>
    ((t.events c.code).find? fun e => e.code = event).map fun e => (c, e)

structure EventPath where
  endpoint : Option UInt16
  cluster : Option UInt32
  event : Option UInt32

inductive EventDataTimestamp where
  | epoch (ms : UInt64)
  | system (ms : UInt64)
  | deltaEpoch (ms : UInt64)
  | deltaSystem (ms : UInt64)

/-- An absent payload is `none`. -/
structure EventData where
  path : EventPath
  eventNumber : UInt64
  priority : UInt8
  timestamp : EventDataTimestamp
  data : Option Tlv

inductive EventResp where
  | data (d : EventData)
  | status (path : EventPath)

/-- A `ReportData` message with its events; an event that does not parse is `none`. -/
structure Report extends ReportDataResp where
  eventReports : Option (List (Option EventResp))

/-- `ReportContext::subscription`: what the session and the message say about the sender. -/
structure ReportSubscription where
  subscriptionId : Option UInt32
  fabricIdx : UInt8
  peerNodeId : NodeId

/-- A report with the clocks at its arrival: the monotonic one and the Unix time in ms. -/
structure Incoming where
  sub : ReportSubscription
  report : Report
  now : Nat
  wall : Int

inductive IMStatusCode where
  | invalidSubscription
deriving DecidableEq

/-- A spawned `watch_supervisor`. -/
structure SupervisorTask where
  nodeId : NodeId
deriving DecidableEq

/-- The maps of `StackCtx`. -/
structure StackCtx where
  fabIdx : UInt8
  subs : OrdMap NodeId UInt32
  liveness : OrdMap NodeId Nat
  lastEvent : OrdMap NodeId UInt64
  pendingReports : PendingReports
  addrs : OrdMap NodeId (List String)
  supervisors : OrdMap NodeId SupervisorTask

/-- `note_event`: whether the number is new, and the high-water marks afterwards. -/
def noteEvent (last : OrdMap NodeId UInt64) (nodeId : NodeId) (eventNumber : UInt64) :
    Bool × OrdMap NodeId UInt64 :=
  match last.get? nodeId with
  | some seen => if eventNumber ≤ seen then (false, last) else (true, last.insert nodeId eventNumber)
  | none => (true, last.insert nodeId eventNumber)

/-- The events that `walk_events` hands on, in wire order. -/
def walkEvents (report : Report) : List EventData :=
  (report.eventReports.getD []).filterMap fun
    | some (.data d) => some d
    | _ => none

/-- `i64::try_from(ms).unwrap_or(i64::MAX)`. -/
def clampMillis (ms : UInt64) : Int64 :=
  if ms.toNat < 2 ^ 63 then Int64.ofNat ms.toNat else Int64.maxValue

/-- `unix_millis`. -/
def unixMillis (t : Int) : Int64 := if 0 ≤ t ∧ t < 2 ^ 63 then Int64.ofInt t else 0

/-- `convert_timestamp`. -/
def convertTimestamp (wall : Int) : EventDataTimestamp → Int64 × UInt8
  | .epoch ms => (clampMillis ms, 1)
  | .system ms => (clampMillis ms, 0)
  | .deltaEpoch _ => (unixMillis wall, 2)
  | .deltaSystem _ => (unixMillis wall, 2)

/-- `event_json`. -/
def eventJson (gen : EventTables) (cluster event : UInt32) (payload : Option Tlv) : Json :=
  match payload with
  | none => .null
  | some elem =>
    let converted := match gen.event cluster event with
      | some (c, e) => tlvToJsonNamed elem e.fields c
      | none => tlvToJson elem
    converted.getD .null

/-- `node_event`. -/
def nodeEvent (gen : EventTables) (wall : Int) (d : EventData) : NodeEventData where
  endpointId := d.path.endpoint.getD 0
  clusterId := d.path.cluster.getD 0
  eventId := d.path.event.getD 0
  eventNumber := d.eventNumber
  priority := d.priority
  timestamp := (convertTimestamp wall d.timestamp).1
  timestampType := (convertTimestamp wall d.timestamp).2
  data := eventJson gen (d.path.cluster.getD 0) (d.path.event.getD 0) d.data

/-- The closure that `handle_report` passes to `walk_events`, over all events of a report. -/
def forwardEvents (gen : EventTables) (nodeId : NodeId) (wall : Int) :
    List EventData → OrdMap NodeId UInt64 → List StackEvent × OrdMap NodeId UInt64
  | [], last => ([], last)
  | d :: rest, last =>
    let noted := noteEvent last nodeId d.eventNumber
    let later := forwardEvents gen nodeId wall rest noted.2
    ((if noted.1 then [.nodeEvent nodeId (nodeEvent gen wall d)] else []) ++ later.1, later.2)

/-- What handling a report leaves behind: the answer, the shared state and what was sent. -/
structure Handled where
  answer : Except IMStatusCode Unit
  ctx : StackCtx
  sent : List StackEvent

/-- The completed changes as a message; an empty batch is not sent. -/
def changesMessage (nodeId : NodeId) : Option (List (String × Json)) → List StackEvent
  | some (change :: rest) => [.attributesChanged nodeId (change :: rest)]
  | _ => []

/-- `handle_report`. -/
def handleReport (gen : EventTables) (ctx : StackCtx) (r : Incoming) : Handled :=
  match r.sub.subscriptionId with
  | none => ⟨.error .invalidSubscription, ctx, []⟩
  | some subId =>
    if r.sub.fabricIdx ≠ ctx.fabIdx then ⟨.error .invalidSubscription, ctx, []⟩
    else if ctx.subs.get? r.sub.peerNodeId ≠ some subId then
      ⟨.error .invalidSubscription, ctx, []⟩
    else
      let nodeId := r.sub.peerNodeId
      let absorbed := ctx.pendingReports.absorbMessage gen.toTables nodeId r.report.toReportDataResp
      let events := forwardEvents gen nodeId r.wall (walkEvents r.report) ctx.lastEvent
      ⟨.ok (),
        { ctx with
          liveness := ctx.liveness.insert nodeId r.now
          pendingReports := absorbed.2
          lastEvent := events.2 },
        changesMessage nodeId absorbed.1 ++ events.1⟩

/-- The report comes from `nodeId` on our fabric with the subscription id recorded for it. -/
def Tracked (fabIdx : UInt8) (recorded : Option UInt32) (nodeId : NodeId) (r : Incoming) : Prop :=
  r.sub.peerNodeId = nodeId ∧ r.sub.fabricIdx = fabIdx ∧
    ∃ subId, r.sub.subscriptionId = some subId ∧ recorded = some subId

instance (fabIdx : UInt8) (recorded : Option UInt32) (nodeId : NodeId) (r : Incoming) :
    Decidable (Tracked fabIdx recorded nodeId r) :=
  decidable_of_iff (r.sub.peerNodeId = nodeId ∧ r.sub.fabricIdx = fabIdx ∧
      r.sub.subscriptionId.isSome = true ∧ recorded = r.sub.subscriptionId) (by
    unfold Tracked
    cases r.sub.subscriptionId <;> simp)

/-- The node that a stack event is about. -/
def eventNode : StackEvent → NodeId
  | .nodeState nodeId _ => nodeId
  | .primingSnapshot nodeId _ => nodeId
  | .attributesChanged nodeId _ => nodeId
  | .nodeEvent nodeId _ => nodeId

/-- A report of an untracked subscription changes nothing. -/
theorem handleReport_untracked (gen : EventTables) {ctx : StackCtx} {r : Incoming}
    (h : ¬ Tracked ctx.fabIdx (ctx.subs.get? r.sub.peerNodeId) r.sub.peerNodeId r) :
    handleReport gen ctx r = ⟨.error .invalidSubscription, ctx, []⟩ := by
  unfold handleReport
  split
  · rfl
  next subId hsub =>
    split
    · rfl
    next hfab =>
      split
      · rfl
      next hrecorded =>
        simp only [ne_eq, Decidable.not_not] at hfab hrecorded
        exact absurd ⟨rfl, hfab, subId, hsub, hrecorded⟩ h

/-- A report of the tracked subscription. -/
theorem handleReport_tracked (gen : EventTables) {ctx : StackCtx} {nodeId : NodeId} {r : Incoming}
    (h : Tracked ctx.fabIdx (ctx.subs.get? nodeId) nodeId r) :
    handleReport gen ctx r = ⟨.ok (),
      { ctx with
        liveness := ctx.liveness.insert nodeId r.now
        pendingReports := (ctx.pendingReports.absorbMessage gen.toTables nodeId
          r.report.toReportDataResp).2
        lastEvent := (forwardEvents gen nodeId r.wall (walkEvents r.report) ctx.lastEvent).2 },
      changesMessage nodeId (ctx.pendingReports.absorbMessage gen.toTables nodeId
          r.report.toReportDataResp).1 ++
        (forwardEvents gen nodeId r.wall (walkEvents r.report) ctx.lastEvent).1⟩ := by
  obtain ⟨rfl, hfab, subId, hsub, hrecorded⟩ := h
  unfold handleReport
  simp only [hsub, hfab, hrecorded, ne_eq, not_true_eq_false, if_false]

end MatterRsServer.Stack
