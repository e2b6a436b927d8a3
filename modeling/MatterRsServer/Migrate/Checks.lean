import MatterRsServer.Controller.Commands
import MatterRsServer.Migrate.Convert

/-!
# The self-checks of a migration

`crates/migrate/src/checks.rs`, and what `crates/stack/src/migration.rs` does around the
certificate and key functions of the SDK, which are parameters.
-/
namespace MatterRsServer.Migrate
open Lib Lib.Result Wire Controller

/-- What the SDK mints from a preserved CA. -/
structure Minted where
  controllerPrivateKey : Bytes
  controllerNocTlv : Bytes
  compressedFabricId : UInt64

/-- The certificate and key functions; `verifyIdentity` at a time in seconds. -/
structure Sdk where
  rcacFabricId : Bytes → Except String UInt64
  rcacCaId : Bytes → Except String UInt64
  rcacPublicKey : Bytes → Except String Bytes
  serialIsDerCanonical : Bytes → Except String Bool
  mint : Bytes → Bytes → UInt64 → UInt16 → NodeId → Bytes → Except StackError Minted
  verifyIdentity : Nat → ServerIdentity → Except StackError Unit
  deriveOperationalIpk : Bytes → UInt64 → Except StackError Bytes

/-- `sdk_err`. -/
def sdkErr {α : Type} (what : String) : Except String α → Except StackError α
  | .ok a => .ok a
  | .error e => .error ⟨.sdk, s!"{what}: Error::{e}"⟩

/-- A fabric id in the root certificate is the requested one; a root may do without. -/
def checkRcacFabricId (sdk : Sdk) (rcacTlv : Bytes) (fabricId : UInt64) : Except StackError Unit :=
  match sdk.rcacFabricId rcacTlv with
  | .ok rcacFabricId =>
    if rcacFabricId = fabricId then .ok ()
    else .error ⟨.sdk, s!"the preserved RCAC carries fabric id {rcacFabricId}, not the requested {fabricId}"⟩
  | .error e =>
    match sdk.rcacCaId rcacTlv with
    | .ok _ => .ok ()
    | .error _ => sdkErr "rcac_tlv does not parse as a Matter TLV certificate" (.error e)

/-- `identity_from_preserved_ca`. -/
def identityFromPreservedCa (sdk : Sdk) (now : Nat) (caPrivateKey rcacTlv : Bytes)
    (fabricId : UInt64) (vendorId : UInt16) (nodeId : NodeId) (ipkEpochKey : Bytes) :
    Except StackError ServerIdentity := do
  checkRcacFabricId sdk rcacTlv fabricId
  let minted ← sdk.mint caPrivateKey rcacTlv fabricId vendorId nodeId ipkEpochKey
  let identity : ServerIdentity :=
    { version := identityVersion
      fabricId := fabricId
      vendorId := vendorId
      controllerNodeId := nodeId
      compressedFabricId := minted.compressedFabricId
      caPrivateKey := caPrivateKey
      rcacTlv := rcacTlv
      controllerPrivateKey := minted.controllerPrivateKey
      controllerNocTlv := minted.controllerNocTlv
      ipk := ipkEpochKey }
  sdk.verifyIdentity now identity
  return identity

/-- The identity keeps what it was made from. -/
theorem identityFromPreservedCa_eq_ok {sdk : Sdk} {now : Nat} {caPrivateKey rcacTlv : Bytes}
    {fabricId : UInt64} {vendorId : UInt16} {nodeId : NodeId} {ipkEpochKey : Bytes}
    {identity : ServerIdentity}
    (h : identityFromPreservedCa sdk now caPrivateKey rcacTlv fabricId vendorId nodeId ipkEpochKey =
      .ok identity) :
    identity.caPrivateKey = caPrivateKey ∧ identity.rcacTlv = rcacTlv ∧
      identity.ipk = ipkEpochKey ∧ identity.fabricId = fabricId ∧ identity.vendorId = vendorId ∧
      identity.controllerNodeId = nodeId := by
  obtain ⟨_, _, h⟩ := bind_eq_ok h
  obtain ⟨_, _, h⟩ := bind_eq_ok h
  obtain ⟨_, _, h⟩ := bind_eq_ok h
  cases h
  exact ⟨rfl, rfl, rfl, rfl, rfl, rfl⟩

structure CheckOutcome where
  name : String
  passed : Bool
  detail : String

/-- `u64::to_be_bytes`. -/
def toBeBytes (n : UInt64) : Bytes :=
  [n >>> 56, n >>> 48, n >>> 40, n >>> 32, n >>> 24, n >>> 16, n >>> 8, n].map UInt64.toUInt8

/-- A kind of a `StackError` as it is printed. -/
def kindName : StackErrorKind → String
  | .nodeUnreachable => "NodeUnreachable"
  | .busy => "Busy"
  | .timeout => "Timeout"
  | .invalidArguments => "InvalidArguments"
  | .sdk => "Sdk"

/-- A `StackError` flattened: `<kind>: <message>`. -/
def stackErrText (e : StackError) : String := s!"{kindName e.kind}: {e.message}"

/-- Check 1. -/
def checkFabricIdentity (identity : ServerIdentity) (source : SourceFabric) : CheckOutcome where
  name := "fabric-identity"
  passed := toBeBytes identity.compressedFabricId == source.operationalId
  detail := s!"ours {hexEncode (toBeBytes identity.compressedFabricId)} vs source {hexEncode source.operationalId}"

/-- Check 2. -/
def checkAdminIdentity (sdk : Sdk) (now : Nat) (identity : ServerIdentity) (source : SourceFabric) :
    CheckOutcome :=
  match sdk.verifyIdentity now identity with
  | .ok () =>
    if identity.controllerNodeId = source.controllerNodeId then
      ⟨"admin-identity", true,
        s!"controller node id {identity.controllerNodeId} verifies against the RCAC"⟩
    else
      ⟨"admin-identity", false, s!"identity.controller_node_id {identity.controllerNodeId} != source.controller_node_id {source.controllerNodeId}"⟩
  | .error e => ⟨"admin-identity", false, stackErrText e⟩

/-- Check 3. -/
def checkIpkChoice (sdk : Sdk) (identity : ServerIdentity) (source : SourceFabric) : CheckOutcome :=
  match sdk.deriveOperationalIpk identity.ipk identity.compressedFabricId with
  | .ok derived =>
    if derived = source.operationalIpk then
      ⟨"ipk-choice", true, "derived operational IPK matches the source's"⟩
    else
      ⟨"ipk-choice", false, s!"derived operational IPK {hexEncode derived} != source's operational_ipk {hexEncode source.operationalIpk}"⟩
  | .error e => ⟨"ipk-choice", false, stackErrText e⟩

/-- Check 4. -/
def checkNodeAccounting (config : ConfigData) (nodes : List NodePlan) : CheckOutcome :=
  let colliding := (nodes.map fun n => n.record.nodeId).filter fun id => config.nextNodeId ≤ id
  if colliding = [] then
    ⟨"node-accounting", true,
      s!"next_node_id {config.nextNodeId} is past every one of {nodes.length} planned node(s)"⟩
  else
    ⟨"node-accounting", false,
      s!"next_node_id {config.nextNodeId} would collide with commissioned node id(s) {colliding}"⟩

/-- Where a plan's index and its source do not go together. -/
def inconsistency (n : NodePlan) : Option String :=
  match n.fabricIndex with
  | .matchedByRootPublicKey =>
    if n.record.deviceFabricIndex = 0 then
      some s!"node {n.record.nodeId} is MatchedByRootPublicKey but device_fabric_index is 0"
    else none
  | .fallbackZero reason =>
    if n.record.deviceFabricIndex ≠ 0 then
      some s!"node {n.record.nodeId} has device_fabric_index {n.record.deviceFabricIndex} but its fabric_index source is FallbackZero ({reason})"
    else none

/-- The operator's warning about a node that fell back to index 0. -/
def fallbackWarning (n : NodePlan) : Option String :=
  match n.fabricIndex with
  | .fallbackZero reason =>
    if n.record.deviceFabricIndex = 0 then some s!"node {n.record.nodeId} — FALLBACK 0 — {reason}"
    else none
  | .matchedByRootPublicKey => none

/-- Check 5. -/
def checkFabricIndexSanity (nodes : List NodePlan) : CheckOutcome :=
  let inconsistent := nodes.filterMap inconsistency
  let fallbacks := nodes.filterMap fallbackWarning
  { name := "fabric-index-sanity"
    passed := inconsistent.isEmpty
    detail :=
      if ¬ inconsistent.isEmpty then String.intercalate "; " inconsistent
      else if fallbacks.isEmpty then
        "every planned node's fabric index was matched by root public key"
      else String.intercalate "; " fallbacks }

/-- `run_all`. -/
def runAll (sdk : Sdk) (now : Nat) (identity : ServerIdentity) (source : SourceFabric)
    (config : ConfigData) (nodes : List NodePlan) : List CheckOutcome :=
  [checkFabricIdentity identity source, checkAdminIdentity sdk now identity source,
    checkIpkChoice sdk identity source, checkNodeAccounting config nodes,
    checkFabricIndexSanity nodes]

/-- Check 4 passes exactly when the next id is past every planned one. -/
theorem passed_checkNodeAccounting {config : ConfigData} {nodes : List NodePlan} :
    (checkNodeAccounting config nodes).passed = true ↔
      ∀ n ∈ nodes, n.record.nodeId < config.nextNodeId := by
  unfold checkNodeAccounting
  dsimp only
  split
  next hnil =>
    simp only [true_iff]
    intro n hn
    have hnot := List.filter_eq_nil_iff.mp hnil _ (List.mem_map_of_mem hn)
    simpa using hnot
  next hne =>
    simp only [Bool.false_eq_true, false_iff]
    intro h
    apply hne
    rw [List.filter_eq_nil_iff]
    intro id hid
    obtain ⟨n, hn, rfl⟩ := List.mem_map.mp hid
    simpa using h n hn

end MatterRsServer.Migrate
