import MatterRsServer.Controller.DeviceCommands
import MatterRsServer.Stack.CommandArgs
import MatterRsServer.Stack.Labels
import MatterRsServer.Stack.NamedRoundTrip

/-!
# The fabrics of a device

`ops/fabrics.rs`: the list of the fabrics that a device belongs to, the removal of one of them,
and the new label of our own. A removal is answered with a status of its own, so the invocation
can succeed where the removal has not.
-/
namespace MatterRsServer.Stack.Im
open Lib Wire Gen Controller

def opCreds : UInt32 := 62

def fabricsAttr : UInt32 := 1

def noFabrics : String := "No or invalid response received while querying fabrics"

/-- A struct of the list; ids that are too large lose their upper bits. -/
def fabricOf (fields : List (String × Json)) : DeviceFabric :=
  let num (tag : String) : Nat := ((Entries.get? tag fields).bind Json.asU64).getD 0
  { fabricId := .ofNat (num "3")
    vendorId := .ofNat (num "2")
    fabricIndex := .ofNat (num "254")
    fabricLabel := ((Entries.get? "5" fields).bind Json.asStr).getD "" }

/-- An entry of the list that is a struct. -/
def fabricEntry : Json → Option DeviceFabric
  | .obj fields => some (fabricOf fields)
  | _ => none

def parseFabrics (pairs : List (String × Json)) : Except StackError (List DeviceFabric) :=
  match (pairs.find? fun p => p.1 = s!"{rootEndpoint}/{opCreds}/{fabricsAttr}").map Prod.snd with
  | some (.arr entries) =>
    if entries.isEmpty then .error ⟨.sdk, noFabrics⟩ else .ok (entries.filterMap fabricEntry)
  | _ => .error ⟨.sdk, noFabrics⟩

/-- `device_fabrics`; `readAttributes` is the operation of that name. -/
def deviceFabrics (readAttributes : NodeId → List AttributePathSpec → Bool →
    Except StackError (List (String × Json))) (nodeId : NodeId) :
    Except StackError (List DeviceFabric) := do
  let pairs ← readAttributes nodeId [⟨some rootEndpoint, some opCreds, some fabricsAttr⟩] false
  parseFabrics pairs

/-- `check_noc_response`. -/
def checkNocResponse (command : String) (resp : Json) : Except StackError Unit :=
  match (resp.get "statusCode").bind Json.asU64 with
  | some 0 => .ok ()
  | some status => .error ⟨.sdk, s!"{command} failed with status {status}"⟩
  | none => .error ⟨.sdk, s!"{command} returned no status code"⟩

section
variable {σ : Type} [DecidableEq σ]

def removeDeviceFabric (d : Devices σ) (nodeId : NodeId) (fabricIndex : UInt8) :
    Except StackError Unit := do
  let resp ← invoke d.invoker nodeId rootEndpoint opCreds "removeFabric"
    (.ofMembers [("fabricIndex", .ofU64 fabricIndex.toUInt64)]) none
  checkNocResponse "RemoveFabric" resp

/-- `push_fabric_label`: the warning, if there is one. -/
def pushFabricLabel (d : Devices σ) (nodeId : NodeId) (label : String) : Option String :=
  let label := truncateToBytes label fabricLabelMaxBytes
  let outcome := invoke d.invoker nodeId rootEndpoint opCreds "updateFabricLabel"
    (.ofMembers [("label", .str label)]) none >>= checkNocResponse "UpdateFabricLabel"
  match outcome with
  | .ok () => none
  | .error e => some s!"UpdateFabricLabel on node {nodeId} failed: {e.message}"

/-- `update_fabric_label`: `updateLabel` is the change of the local fabric, `supervised` the nodes
of the supervisors. -/
def updateFabricLabel (d : Devices σ) (updateLabel : String → Except Error Unit)
    (supervised : List NodeId) (label : String) :
    Except StackError (List (NodeId × Option String)) := do
  let label := truncateToBytes label fabricLabelMaxBytes
  (updateLabel label).mapError mapErr
  return supervised.map fun nodeId => (nodeId, pushFabricLabel d nodeId label)

end

/-! ### The answer to a removal -/

/-- `NOCResponse`. -/
structure NocResponse where
  statusCode : UInt64
  fabricIndex : Option UInt8
  debugText : Option ByteArray

def nocResponseFields : List Field :=
  [⟨0, "statusCode", "NodeOperationalCertStatusEnum", false⟩, ⟨1, "fabricIndex", "fabric_idx", false⟩,
    ⟨2, "debugText", "char_string", false⟩]

namespace NocResponse

def members (r : NocResponse) : List (UInt8 × Tlv) :=
  (0, .uint r.statusCode) ::
    ((r.fabricIndex.map fun i => ((1 : UInt8), Tlv.uint i.toUInt64)).toList ++
      (r.debugText.map fun text => ((2 : UInt8), Tlv.utf8 text)).toList)

def tlv (r : NocResponse) : Tlv := contextStruct r.members

/-- The response under the names of its fields. -/
def named (r : NocResponse) : List (String × Json) :=
  ("statusCode", .ofU64 r.statusCode) ::
    ((r.fabricIndex.map fun i => ("fabricIndex", Json.ofU64 i.toUInt64)).toList ++
      (r.debugText.map fun text => ("debugText", Json.str (Text.fromUtf8Lossy text))).toList)

end NocResponse

section Removal
variable {σ : Type}

variable {d : Devices σ} {cmeta : ClusterMeta}

variable [DecidableEq σ]

section Answer
variable {nodeId : NodeId} {fabricIndex : UInt8} {bytes : List UInt8} {first : Batch σ}
  {later : List (Batch σ)}

end Answer

end Removal

end MatterRsServer.Stack.Im
