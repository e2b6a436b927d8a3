import MatterRsServer.Controller.Registry
import MatterRsServer.Lib.Interleaving

/-!
# Node manager

`crates/controller/src/node_manager.rs`, as a task over the controller's shared
memory. Every registry access is one atomic step, and so is every broadcast
send and every node-file write; `k` is what the task does afterwards. The map of
grace timers is local to `run` in the source and is kept in the memory, together
with the timer tasks it has handles of.
-/
namespace MatterRsServer.Controller
open Lib Wire

/-- `RECONNECT_GRACE`, in seconds. -/
def reconnectGrace : Nat := 180

def eventHistorySize : Nat := 25

/-- `stack_api.rs`. -/
inductive NodeConnState where
  | connected (maxIntervalSecs : UInt16)
  | reconnecting

structure NodeEventData where
  endpointId : UInt16
  clusterId : UInt32
  eventId : UInt32
  eventNumber : UInt64
  priority : UInt8
  timestamp : Int64
  timestampType : UInt8
  data : Json

inductive StackEvent where
  | nodeState (nodeId : NodeId) (state : NodeConnState)
  | primingSnapshot (nodeId : NodeId) (attributes : Attributes)
  | attributesChanged (nodeId : NodeId) (changes : List (String × Json))
  | nodeEvent (nodeId : NodeId) (event : NodeEventData)

/-- `wire/src/node.rs`: the event as the clients see it. -/
structure MatterNodeEvent extends NodeEventData where
  nodeId : NodeId

/-- `build_node_event`. -/
def buildNodeEvent (nodeId : NodeId) (event : NodeEventData) : MatterNodeEvent :=
  { event with nodeId := nodeId }

/-- `wire/src/envelope.rs`: one broadcast message, by its `event` name. -/
inductive EventMessage where
  | nodeAdded (data : MatterNodeData)
  | nodeUpdated (data : MatterNodeData)
  | attributeUpdated (nodeId : NodeId) (path : String) (value : Json)
  | nodeRemoved (nodeId : NodeId)
  | nodeEvent (data : MatterNodeEvent)

structure WifiCredential where
  ssid : String
  password : String

/-- `config.json`. -/
structure ConfigData where
  fabricLabel : String
  nextNodeId : NodeId
  wifiCredentials : OrdMap String WifiCredential
  threadDatasets : OrdMap String String

inductive ServerErrorCode where
  | unknownError | nodeCommissionFailed | nodeInterviewFailed | nodeNotReady | nodeNotResolving
  | nodeNotExists | versionMismatch | sdkStackError | invalidArguments | invalidCommand
  | updateCheckError | updateError | icdMultiAdmin | otaUploadError
deriving DecidableEq

structure CommandError where
  code : ServerErrorCode
  details : String

inductive PaseTarget where
  | code (code : String)
  | onNetwork (passcode : UInt32) (longDiscriminator : Option UInt16)
      (shortDiscriminator : Option UInt8) (vendorId : Option UInt16)
  | address (passcode : UInt32) (addr : String)

structure CommissionRequest where
  nodeId : NodeId
  target : PaseTarget
  fabricLabel : String

/-- Requests to the stack thread. -/
inductive StackCall where
  | commission (req : CommissionRequest)
  | interview (nodeId : NodeId)
  | removeDeviceFabric (nodeId : NodeId) (fabricIndex : UInt8)
  | startSupervisor (nodeId : NodeId)
  | stopSupervisor (nodeId : NodeId)

/-- What a task does outside the memory: broadcast, node files, config file, stack,
and the result a command returns to its connection. -/
inductive Effect where
  | send (msg : EventMessage)
  | save (record : NodeRecord)
  | delete (nodeId : NodeId)
  | saveConfig (config : ConfigData)
  | stack (call : StackCall)
  | reply (result : Except CommandError Json)

inductive TimerState where
  | sleeping | finished | aborted
deriving DecidableEq

/-- A spawned grace timer task. -/
structure Timer where
  nodeId : NodeId
  started : Nat
  state : TimerState
deriving DecidableEq

/-- Everything the tasks share. A grace timer's handle is its index in `timers`. -/
structure Memory where
  registry : Registry
  config : ConfigData
  configLocked : Bool
  allocLocked : Bool
  graceTimers : OrdMap NodeId Nat
  timers : List Timer
  clock : Nat
  history : List MatterNodeEvent

abbrev Task := Prog Memory Effect

namespace Memory

/-- `JoinHandle::abort`: a timer that has already sent its signal is past stopping. -/
def abort (s : Memory) (handle : Nat) : Memory :=
  { s with timers := s.timers.modify handle fun t =>
      if t.state = .sleeping then { t with state := .aborted } else t }

/-- `if let Some(t) = grace_timers.remove(&node_id) { t.abort(); }` -/
def cancelGrace (s : Memory) (nodeId : NodeId) : Memory :=
  match s.graceTimers.get? nodeId with
  | some handle => { s.abort handle with graceTimers := s.graceTimers.erase nodeId }
  | none => s

/-- `grace_timers.insert(node_id, tokio::spawn(..))`, unless the node has an entry. -/
def startGrace (s : Memory) (nodeId : NodeId) : Memory :=
  if s.graceTimers.contains nodeId then s
  else { s with
    graceTimers := s.graceTimers.insert nodeId s.timers.length
    timers := s.timers ++ [⟨nodeId, s.clock, .sleeping⟩] }

theorem startGrace_of_none {s : Memory} {nodeId : NodeId} (h : s.graceTimers.get? nodeId = none) :
    s.startGrace nodeId = { s with
      graceTimers := s.graceTimers.insert nodeId s.timers.length
      timers := s.timers ++ [⟨nodeId, s.clock, .sleeping⟩] } := by
  have hcontains : s.graceTimers.contains nodeId = false := by rw [OrdMap.contains, h]; rfl
  rw [startGrace, hcontains]
  rfl

theorem startGrace_of_ne_none {s : Memory} {nodeId : NodeId} (h : s.graceTimers.get? nodeId ≠ none) :
    s.startGrace nodeId = s :=
  if_pos (Option.isSome_iff_ne_none.mpr h)

/-- `grace_timers.remove(&node_id)`. -/
def takeGrace (s : Memory) (nodeId : NodeId) : Option Nat × Memory :=
  (s.graceTimers.get? nodeId, { s with graceTimers := s.graceTimers.erase nodeId })

/-- `for (_, t) in grace_timers { t.abort(); }` -/
def abortAll (s : Memory) : Memory :=
  s.graceTimers.entries.foldl (fun m e => m.abort e.2) { s with graceTimers := ∅ }

def setAvailable (s : Memory) (nodeId : NodeId) (available : Bool) : Option Bool × Memory :=
  let r := s.registry.setAvailable nodeId available
  (r.1, { s with registry := r.2 })

/-- The closure of `PrimingSnapshot` and of `interview_node`. -/
def replaceAttributes (s : Memory) (nodeId : NodeId) (attributes : Attributes) (now : String) :
    Memory :=
  { s with registry := (s.registry.withEntry nodeId fun e =>
      ((), { e with record := { e.record with attributes := attributes, lastInterview := now } })).2 }

/-- The closure of `AttributesChanged`. -/
def setAttribute (s : Memory) (nodeId : NodeId) (path : String) (value : Json) : Memory :=
  { s with registry := (s.registry.withEntry nodeId fun e =>
      ((), { e with record :=
        { e.record with attributes := e.record.attributes.insert path value } })).2 }

/-- The bounded queue of the last node events. -/
def pushHistory (s : Memory) (event : MatterNodeEvent) : Memory :=
  { s with history :=
      (if s.history.length ≥ eventHistorySize then s.history.drop 1 else s.history) ++ [event] }

end Memory

/-- `emit_node_updated`: read the node, then broadcast it. -/
def emitNodeUpdated (nodeId : NodeId) (k : Task) : Task :=
  .read (fun s => s.registry.nodeData nodeId) fun
    | some nd => .emit (.send (.nodeUpdated nd)) k
    | none => k

/-- `persist`: take a snapshot of the record, then write its file. -/
def persist (nodeId : NodeId) (k : Task) : Task :=
  .read (fun s => s.registry.snapshotRecord nodeId) fun
    | some rec => .emit (.save rec) k
    | none => k

/-- The loop of `AttributesChanged`; the message is sent also when there was no entry to change. -/
def applyChanges (nodeId : NodeId) : List (String × Json) → Task → Task
  | [], k => k
  | (path, value) :: changes, k =>
    .modify (fun s => s.setAttribute nodeId path value) <|
    .emit (.send (.attributeUpdated nodeId path value)) <|
    applyChanges nodeId changes k

/-- `handle_grace_expiry`. -/
def handleGraceExpiry (nodeId : NodeId) (k : Task) : Task :=
  .modifyGet (fun s => s.takeGrace nodeId) fun
    | none => k
    | some _ =>
      .modifyGet (fun s => s.setAvailable nodeId false) fun changed =>
        if changed = some true then emitNodeUpdated nodeId k else k

/-- The arms of `NodeState` once the node is known. -/
def handleNodeState (nodeId : NodeId) (k : Task) : NodeConnState → Task
  | .connected _ =>
    .modify (fun s => s.cancelGrace nodeId) <|
    .modifyGet (fun s => s.setAvailable nodeId true) fun changed =>
      if changed = some true then emitNodeUpdated nodeId k else k
  | .reconnecting =>
    .read (fun s => ((s.registry.nodeData nodeId).map (·.available)).getD false) fun available =>
      if available then .modify (fun s => s.startGrace nodeId) k else k

/-- Every arm of `handle_event` first drops events of unknown nodes. -/
def ifKnown (nodeId : NodeId) (arm k : Task) : Task :=
  .read (fun s => s.registry.contains nodeId) fun known => if known then arm else k

/-- `handle_event`; `now` is `format_node_date(SystemTime::now())`. -/
def handleEvent (ev : StackEvent) (now : String) (k : Task) : Task :=
  match ev with
  | .nodeState nodeId state => ifKnown nodeId (handleNodeState nodeId k state) k
  | .primingSnapshot nodeId attributes =>
    ifKnown nodeId
      (.modify (fun s => s.replaceAttributes nodeId attributes now) <|
        persist nodeId <| emitNodeUpdated nodeId k) k
  | .attributesChanged nodeId changes =>
    ifKnown nodeId (applyChanges nodeId changes <| persist nodeId k) k
  | .nodeEvent nodeId event =>
    ifKnown nodeId
      (.modify (fun s => s.pushHistory (buildNodeEvent nodeId event)) <|
        .emit (.send (.nodeEvent (buildNodeEvent nodeId event))) k) k

/-- What `run` receives: a stack event, or the signal of a grace timer. -/
inductive Input where
  | event (ev : StackEvent) (now : String)
  | graceExpired (nodeId : NodeId)

/-- `run`, over the inputs its `select!` happens to serve. -/
def nodeManager : List Input → Task
  | [] => .modify Memory.abortAll .done
  | .event ev now :: rest => handleEvent ev now (nodeManager rest)
  | .graceExpired nodeId :: rest => handleGraceExpiry nodeId (nodeManager rest)

namespace Memory

@[simp] theorem registry_abort (s : Memory) (handle : Nat) :
    (s.abort handle).registry = s.registry := rfl

@[simp] theorem registry_cancelGrace (s : Memory) (nodeId : NodeId) :
    (s.cancelGrace nodeId).registry = s.registry := by
  unfold cancelGrace
  split <;> rfl

@[simp] theorem registry_startGrace (s : Memory) (nodeId : NodeId) :
    (s.startGrace nodeId).registry = s.registry := by
  unfold startGrace
  split <;> rfl

@[simp] theorem registry_takeGrace (s : Memory) (nodeId : NodeId) :
    (s.takeGrace nodeId).2.registry = s.registry := rfl

@[simp] theorem registry_pushHistory (s : Memory) (event : MatterNodeEvent) :
    (s.pushHistory event).registry = s.registry := rfl

@[simp] theorem registry_abortAll (s : Memory) : s.abortAll.registry = s.registry := by
  have hfold : ∀ (l : List (NodeId × Nat)) (m : Memory),
      (l.foldl (fun m e => m.abort e.2) m).registry = m.registry := by
    intro l
    induction l with
    | nil => intro m; rfl
    | cons e l ih => intro m; exact ih (m.abort e.2)
  exact hfold _ _

theorem get?_setAvailable (s : Memory) (nodeId j : NodeId) (available : Bool) :
    (s.setAvailable nodeId available).2.registry.get? j =
      if j = nodeId then (s.registry.get? nodeId).map fun e => { e with available := available }
      else s.registry.get? j := Registry.get?_setAvailable _ _ _ _

theorem get?_replaceAttributes (s : Memory) (nodeId j : NodeId) (attributes : Attributes)
    (now : String) : (s.replaceAttributes nodeId attributes now).registry.get? j =
      if j = nodeId then (s.registry.get? nodeId).map fun e =>
        { e with record := { e.record with attributes := attributes, lastInterview := now } }
      else s.registry.get? j := Registry.get?_withEntry _ _ _ _ fun _ => rfl

theorem get?_setAttribute (s : Memory) (nodeId j : NodeId) (path : String) (value : Json) :
    (s.setAttribute nodeId path value).registry.get? j =
      if j = nodeId then (s.registry.get? nodeId).map fun e =>
        { e with record := { e.record with attributes := e.record.attributes.insert path value } }
      else s.registry.get? j := Registry.get?_withEntry _ _ _ _ fun _ => rfl

end Memory

end MatterRsServer.Controller
