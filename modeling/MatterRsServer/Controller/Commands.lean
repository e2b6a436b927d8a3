import MatterRsServer.Controller.Addr
import MatterRsServer.Controller.NodeManager

/-!
# Commands that change the registry

`commands/nodes.rs` (`interview_node`, `remove_node`) and
`commands/commissioning.rs` (`do_commission`), with `update_config` and
`allocate_node_id`. What the stack answers is a parameter of the task; a command
ends by replying to its connection.
-/
namespace MatterRsServer.Controller
open Lib Wire

inductive StackErrorKind where
  | nodeUnreachable | busy | timeout | invalidArguments | sdk
deriving DecidableEq

structure StackError where
  kind : StackErrorKind
  message : String

structure CommissionOutcome where
  deviceFabricIndex : UInt8
  address : String

/-- `stack_err`. -/
def stackErr (defaultCode : ServerErrorCode) (e : StackError) : CommandError :=
  let code := match e.kind with
    | .invalidArguments => .invalidArguments
    | .nodeUnreachable => .nodeNotResolving
    | .busy | .timeout | .sdk => defaultCode
  ⟨code, e.message⟩

/-- `commission_failed`. -/
def commissionFailed (e : StackError) : CommandError :=
  let mapped := stackErr .nodeCommissionFailed e
  { mapped with details := s!"Commission failed: {mapped.details}" }

def reply (result : Except CommandError Json) : Task := .emit (.reply result) .done

/-- `ensure_node(node_id)?`. -/
def ensureNode (nodeId : NodeId) (k : Task) : Task :=
  .read (fun s => s.registry.contains nodeId) fun known =>
    if known then k else reply (.error ⟨.nodeNotExists, s!"Node {nodeId} does not exist"⟩)

/-- `interview_node`. Its snapshot-and-save and its broadcast are written out in the
source as `persist` and `emit_node_updated` are. -/
def interviewNode (nodeId : NodeId) (interview : Except StackError Attributes) (now : String) :
    Task :=
  ensureNode nodeId <|
  .emit (.stack (.interview nodeId)) <|
  match interview with
  | .error e => reply (.error (stackErr .nodeInterviewFailed e))
  | .ok attributes =>
    .modify (fun s => s.replaceAttributes nodeId attributes now) <|
    persist nodeId <|
    emitNodeUpdated nodeId <|
    reply (.ok .null)

namespace Memory

def removeNode (s : Memory) (nodeId : NodeId) : Memory :=
  { s with registry := (s.registry.remove nodeId).2 }

def insertNode (s : Memory) (record : NodeRecord) : Memory :=
  { s with registry := s.registry.insert record }

end Memory

/-- `remove_node`; a failing RemoveFabric is only logged. -/
def removeNode (nodeId : NodeId) : Task :=
  ensureNode nodeId <|
  .read (fun s => ((s.registry.snapshotRecord nodeId).map (·.deviceFabricIndex)).getD 0)
    fun deviceFabIdx =>
  .emit (.stack (.stopSupervisor nodeId)) <|
  .emit (.stack (.removeDeviceFabric nodeId deviceFabIdx)) <|
  .modify (fun s => s.removeNode nodeId) <|
  .emit (.delete nodeId) <|
  .emit (.send (.nodeRemoved nodeId)) <|
  reply (.ok .null)

/-- `update_config`: the whole read-modify-write under the `config_write` lock. -/
def updateConfig {ρ : Type} (f : ConfigData → (ρ → ConfigData → Task) → Task) (k : ρ → Task) :
    Task :=
  .await (fun s => !s.configLocked) (fun s => { s with configLocked := true }) <|
  .read (fun s => s.config) fun cfg =>
  f cfg fun result cfg' =>
  .emit (.saveConfig cfg') <|
  .modify (fun s => { s with config := cfg', configLocked := false }) <|
  k result

/-- A loop that has not ended within its fuel never ends. -/
def loopForever : Task := .await (fun _ => false) id .done

/-- `while is_in_use(candidate) { candidate += 1; }`. -/
def skipInUse (isInUse : NodeId → (Bool → Task) → Task) (k : NodeId → Task) :
    Nat → NodeId → Task
  | 0, _ => loopForever
  | fuel + 1, candidate =>
    isInUse candidate fun used =>
      if used then skipInUse isInUse k fuel (candidate + 1) else k candidate

/-- `allocate_node_id`. -/
def allocateNodeId (fuel : Nat) (isInUse : NodeId → (Bool → Task) → Task) (cfg : ConfigData)
    (k : NodeId → ConfigData → Task) : Task :=
  skipInUse isInUse (fun candidate => k candidate { cfg with nextNodeId := candidate + 1 }) fuel
    (max cfg.nextNodeId 1)

/-- The closure `do_commission` passes to `allocate_node_id`. -/
def idInUse (controllerNodeId : NodeId) (id : NodeId) (k : Bool → Task) : Task :=
  .read (fun s => s.registry.contains id) fun known => k (known || id == controllerNodeId)

/-- One commissioning: what it is asked for and what the stack and the clock answer. -/
structure CommissionAttempt where
  target : PaseTarget
  commission : Except StackError CommissionOutcome
  interview : Except StackError Attributes
  now : String

/-- Drop the `alloc_lock` guard and return. -/
def endCommission (result : Except CommandError Json) : Task :=
  .modify (fun s => { s with allocLocked := false }) (reply result)

/-- The record `do_commission` inserts. -/
def commissionedRecord (nodeId : NodeId) (outcome : CommissionOutcome) (attributes : Attributes)
    (now : String) : NodeRecord where
  nodeId := nodeId
  dateCommissioned := now
  lastInterview := now
  deviceFabricIndex := outcome.deviceFabricIndex
  addresses := [(splitIpPort outcome.address).1]
  attributes := attributes

/-- `do_commission`, from the saved record on. -/
def announceNode (nodeId : NodeId) : Task :=
  .read (fun s => s.registry.nodeData nodeId) fun
    | none => endCommission (.error
        ⟨.sdkStackError, "node vanished immediately after commissioning (internal error)"⟩)
    | some nd =>
      .emit (.send (.nodeAdded nd)) <|
      .emit (.stack (.startSupervisor nodeId)) <|
      endCommission (.ok nd.toJson)

@[simp] theorem pending_announceNode (nodeId : NodeId) : (announceNode nodeId).pending = [] := rfl

/-- `do_commission`, from the new record on. -/
def registerNode (record : NodeRecord) : Task :=
  .modify (fun s => s.insertNode record) <|
  .emit (.save record) <|
  announceNode record.nodeId

/-- `do_commission`, from the allocated id on. -/
def commissionNode (a : CommissionAttempt) (nodeId : NodeId) : Task :=
  .read (fun s => s.config.fabricLabel) fun fabricLabel =>
  .emit (.stack (.commission ⟨nodeId, a.target, fabricLabel⟩)) <|
  match a.commission with
  | .error e => endCommission (.error (commissionFailed e))
  | .ok outcome =>
    .emit (.stack (.interview nodeId)) <|
    match a.interview with
    | .error e =>
      .emit (.stack (.removeDeviceFabric nodeId outcome.deviceFabricIndex)) <|
      endCommission (.error (commissionFailed e))
    | .ok attributes => registerNode (commissionedRecord nodeId outcome attributes a.now)

/-- `do_commission`; `fuel` bounds the search for a free id. -/
def doCommission (fuel : Nat) (controllerNodeId : NodeId) (a : CommissionAttempt) : Task :=
  .await (fun s => !s.allocLocked) (fun s => { s with allocLocked := true }) <|
  updateConfig (allocateNodeId fuel (idInUse controllerNodeId)) (commissionNode a)

/-- The tasks of the controller: its node manager and any command. -/
inductive IsControllerTask : Task → Prop where
  | nodeManager (inputs : List Input) : IsControllerTask (nodeManager inputs)
  | interviewNode (nodeId : NodeId) (interview : Except StackError Attributes) (now : String) :
      IsControllerTask (interviewNode nodeId interview now)
  | removeNode (nodeId : NodeId) : IsControllerTask (removeNode nodeId)
  | doCommission (fuel : Nat) (controllerNodeId : NodeId) (a : CommissionAttempt) :
      IsControllerTask (doCommission fuel controllerNodeId a)
  | idle : IsControllerTask .done

/-- Nothing has run yet: every task is one of the controller's, at its start. -/
structure Starting {ι : Type} (c : Config ι Memory Effect) : Prop where
  task : ∀ i, IsControllerTask (c.task i)
  log : c.log = []

namespace Memory

@[simp] theorem get?_removeNode (s : Memory) (nodeId j : NodeId) :
    (s.removeNode nodeId).registry.get? j = if j = nodeId then none else s.registry.get? j :=
  Registry.get?_remove _ _ _

@[simp] theorem get?_insertNode (s : Memory) (record : NodeRecord) (j : NodeId) :
    (s.insertNode record).registry.get? j =
      if j = record.nodeId then some ⟨record, false⟩ else s.registry.get? j :=
  Registry.get?_insert _ _ _

end Memory

/-- Node 7, with one attribute. -/
def lamp : NodeRecord :=
  ⟨7, "2026-08-13T10:00:00.000000", "2026-08-13T10:00:00.000000", 1, [],
    .ofList [("1/6/0", .bool false)]⟩

/-- A controller that has just booted with that node. -/
def lampMemory : Memory :=
  ⟨.new [lamp], ⟨"HomeAssistant", 8, ∅, ∅⟩, false, false, ∅, [], 0, []⟩

end MatterRsServer.Controller
