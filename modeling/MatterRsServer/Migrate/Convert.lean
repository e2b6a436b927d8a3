import MatterRsServer.Controller.Addr
import MatterRsServer.Migrate.Decode
import Mathlib.Data.List.Sort

/-!
# From a matter.js store to the stored documents

`crates/migrate/src/convert.rs`. The fabric is read strictly, the devices' fabric indexes are
matched where a cached fabric table names them and are 0 otherwise.
-/
namespace MatterRsServer.Migrate
open Lib Lib.Result Wire Controller

inductive ConvertError where
  | missing (path : String)
  | decode (context : String) (source : DecodeError)
  | invalid (reason : String)

structure SourceFabric where
  fabricId : UInt64
  controllerNodeId : NodeId
  vendorId : UInt16
  label : String
  ipkEpochKey : Bytes
  operationalIpk : Bytes
  operationalId : Bytes
  caPrivateKey : Bytes
  rcacTlv : Bytes

inductive FabricIndexSource where
  | matchedByRootPublicKey
  | fallbackZero (reason : String)

structure NodePlan where
  record : NodeRecord
  fabricIndex : FabricIndexSource

/-- `format_node_date` of a time in milliseconds, and of the time of the migration. -/
structure Dates where
  ofMillis : UInt64 → String
  now : String

/-- `need`. -/
def need (members : List (String × Json)) (key full : String) : Except ConvertError Json :=
  match Entries.get? key members with
  | some v => .ok v
  | none => .error (.missing full)

/-- `as_object`. -/
def asObject (v : Json) (full : String) : Except ConvertError (List (String × Json)) :=
  match v with
  | .obj members => .ok members
  | _ => .error (.invalid s!"{full} is not an object")

/-- The error of a field names its path. -/
def atPath {α : Type} (path : String) : Except DecodeError α → Except ConvertError α :=
  Except.mapError (.decode path)

def u64Field (texts : Texts) (v : Json) (path : String) : Except ConvertError UInt64 :=
  atPath path (asU64 texts v)

def bytesField (texts : Texts) (v : Json) (path : String) : Except ConvertError Bytes :=
  atPath path (asBytes texts v)

def strField (texts : Texts) (v : Json) (path : String) : Except ConvertError String :=
  atPath path (asStr texts v)

/-- `check_len`. -/
def checkLen (bytes : Bytes) (expected : Nat) (field : String) : Except ConvertError Unit :=
  if bytes.length ≠ expected then
    .error (.invalid s!"{field} must be {expected} bytes, got {bytes.length}")
  else .ok ()

/-- A key of the fabric: present, bytes, and of its length. -/
def keyField (texts : Texts) (members : List (String × Json)) (key full : String) (length : Nat) :
    Except ConvertError Bytes := do
  let bytes ← bytesField texts (← need members key full) full
  checkLen bytes length full
  return bytes

/-- `JsDb::get`, as the context's members. -/
def context (db : Data) (name : String) : Except ConvertError (List (String × Json)) :=
  match db.get? name with
  | some fields => .ok fields.entries
  | none => .error (.missing name)

/-- The label, empty when it is absent. -/
def labelField (texts : Texts) (fabric : List (String × Json)) : Except ConvertError String :=
  match Entries.get? "label" fabric with
  | some v => strField texts v "credentials.fabric.label"
  | none => .ok ""

def readSourceFabric (texts : Texts) (db : Data) : Except ConvertError SourceFabric := do
  let credentials ← context db "credentials"
  let fabric ← asObject (← need credentials "fabric" "credentials.fabric") "credentials.fabric"
  let fabricId ← u64Field texts (← need fabric "fabricId" "credentials.fabric.fabricId")
    "credentials.fabric.fabricId"
  let controllerNodeId ← u64Field texts (← need fabric "nodeId" "credentials.fabric.nodeId")
    "credentials.fabric.nodeId"
  let rootVendorId ← u64Field texts
    (← need fabric "rootVendorId" "credentials.fabric.rootVendorId")
    "credentials.fabric.rootVendorId"
  if ¬ rootVendorId.toNat < 2 ^ 16 then
    throw (.invalid s!"credentials.fabric.rootVendorId {rootVendorId} does not fit in a u16")
  let label ← labelField texts fabric
  let ipkEpochKey ← keyField texts fabric "identityProtectionKey"
    "credentials.fabric.identityProtectionKey" 16
  let operationalIpk ← keyField texts fabric "operationalIdentityProtectionKey"
    "credentials.fabric.operationalIdentityProtectionKey" 16
  let operationalId ← keyField texts fabric "operationalId" "credentials.fabric.operationalId" 8
  let certificates ← context db "certificates"
  let rootKeyPair ← asObject (← need certificates "rootKeyPair" "certificates.rootKeyPair")
    "certificates.rootKeyPair"
  let caPrivateKey ← keyField texts rootKeyPair "privateKey" "certificates.rootKeyPair.privateKey" 32
  let rcacTlv ← bytesField texts (← need certificates "rootCertBytes" "certificates.rootCertBytes")
    "certificates.rootCertBytes"
  return {
    fabricId := fabricId
    controllerNodeId := controllerNodeId
    vendorId := rootVendorId.toUInt16
    label := label
    ipkEpochKey := ipkEpochKey
    operationalIpk := operationalIpk
    operationalId := operationalId
    caPrivateKey := caPrivateKey
    rcacTlv := rcacTlv }

/-- What the cached fabric tables say of a node's index: the index, or why none is taken. -/
abbrev FabricIndexes := OrdMap NodeId (Except String UInt8)

/-- The claim of one cached entry that a node has an index on our fabric. -/
def claimIndex (map : FabricIndexes) (source : String) (nodeId : NodeId) (index : UInt64) :
    FabricIndexes :=
  if ¬ (1 ≤ index ∧ index ≤ 254) then
    map.insert nodeId (.error s!"the cached fabric entry for this node (at {source}) has an out-of-range fabricIndex {index}")
  else
    match map.get? nodeId with
    | none => map.insert nodeId (.ok index.toUInt8)
    | some (.ok prev) =>
      if prev = index.toUInt8 then map
      else map.insert nodeId (.error s!"two cached fabric tables claim node {nodeId} on our fabric with different fabric indexes; refusing to pick")
    | some (.error _) => map

/-- One entry of a cached `fabrics` attribute; an unreadable one is skipped. -/
def claimEntry (texts : Texts) (rootPublicKey : Bytes) (source : String) (map : FabricIndexes)
    (entry : Json) : FabricIndexes :=
  match entry with
  | .obj members =>
    match (Entries.get? "rootPublicKey" members).map (asBytes texts) with
    | some (.ok key) =>
      if key ≠ rootPublicKey then map
      else
        match (Entries.get? "nodeId" members).map (asU64 texts),
          (Entries.get? "fabricIndex" members).map (asU64 texts) with
        | some (.ok nodeId), some (.ok index) => claimIndex map source nodeId index
        | _, _ => map
    | _ => map
  | _ => map

/-- A cached Operational Credentials cluster of a peer's root endpoint. -/
def isFabricCache (name : String) : Bool :=
  "nodes.peer".toList.isPrefixOf name.toList && ".endpoints.0.62".toList.isSuffixOf name.toList

/-- `fabric_index_by_node_id`. -/
def fabricIndexByNodeId (texts : Texts) (db : Data) (rootPublicKey : Bytes) : FabricIndexes :=
  db.entries.foldl (fun map e =>
    if isFabricCache e.1 then
      match (e.2.get? "1").bind Json.asArray with
      | some array => array.foldl (claimEntry texts rootPublicKey e.1) map
      | none => map
    else map) ∅

/-- The index that a node's file gets. -/
def deviceFabricIndex : Option (Except String UInt8) → UInt8 × FabricIndexSource
  | some (.ok index) => (index, .matchedByRootPublicKey)
  | some (.error reason) =>
    (0, .fallbackZero s!"{reason} — removing this device will leave our fabric behind on it")
  | none =>
    (0, .fallbackZero ("no cached fabric table names this node on our fabric (searched every " ++
      "nodes.peer*.endpoints.0.62 cache) — removing this device will leave our " ++
      "fabric behind on it"))

/-- `nodes.commissionedNodes`, when the store has it. -/
def commissionedNodes (db : Data) : Option Json :=
  (db.get? "nodes").bind fun fields => fields.get? "commissionedNodes"

/-- When the node was discovered, or now. -/
def discoveryDate (texts : Texts) (dates : Dates) (obj : List (String × Json)) :
    Except ConvertError String :=
  match (Entries.get? "discoveryData" obj).bind fun d => d.get "discoveredAt" with
  | some v =>
    (u64Field texts v "nodes.commissionedNodes[value].discoveryData.discoveredAt").map dates.ofMillis
  | none => .ok dates.now

/-- The node's last operational address, without its port. -/
def operationalAddresses (texts : Texts) (obj : List (String × Json)) :
    Except ConvertError (List String) :=
  match (Entries.get? "operationalServerAddress" obj).bind fun a => a.get "ip" with
  | some v =>
    (strField texts v "nodes.commissionedNodes[value].operationalServerAddress.ip").map fun ip =>
      [(splitIpPort ip).1]
  | none => .ok []

/-- The plan for one commissioned node. -/
def planNode (texts : Texts) (dates : Dates) (indexes : FabricIndexes) (entry : Json × Json) :
    Except ConvertError NodePlan := do
  let nodeId ← u64Field texts entry.1 "nodes.commissionedNodes[key]"
  let obj ← asObject entry.2 "nodes.commissionedNodes[value]"
  let date ← discoveryDate texts dates obj
  let addresses ← operationalAddresses texts obj
  let index := deviceFabricIndex (indexes.get? nodeId)
  return ⟨⟨nodeId, date, date, index.1, addresses, ∅⟩, index.2⟩

/-- `plan_nodes`: the nodes in ascending order of their ids. -/
def planNodes (texts : Texts) (dates : Dates) (db : Data) (rootPublicKey : Bytes) :
    Except ConvertError (List NodePlan) :=
  match commissionedNodes db with
  | none => .ok []
  | some commissioned => do
    let entries ← atPath "nodes.commissionedNodes" (asMapEntries texts commissioned)
    let plans ← entries.mapM (planNode texts dates (fabricIndexByNodeId texts db rootPublicKey))
    return plans.insertionSort fun a b => a.record.nodeId ≤ b.record.nodeId

/-- `normalize_fabric_label`. -/
def normalizeFabricLabel (label : Option String) : String :=
  let trimmed := trim (label.getD "").toList
  let effective := if trimmed = [] then "HomeAssistant".toList else trimmed
  .ofList (effective.take 32)

/-- `config_from`; the successor of the largest `u64` is 0. -/
def configFrom (source : SourceFabric) (nodes : List NodePlan) : ConfigData where
  fabricLabel := normalizeFabricLabel (some source.label)
  nextNodeId :=
    match (nodes.map fun p => p.record.nodeId).max? with
    | some max => max + 1
    | none => 1
  wifiCredentials := ∅
  threadDatasets := ∅

/-- The ids that the store lists, in its order. -/
def listedIds (texts : Texts) (db : Data) : List NodeId :=
  match (commissionedNodes db).map (asMapEntries texts) with
  | some (.ok entries) => entries.filterMap fun e => (asU64 texts e.1).toOption
  | _ => []

theorem planNode_nodeId {texts : Texts} {dates : Dates} {indexes : FabricIndexes}
    {entry : Json × Json} {plan : NodePlan} (h : planNode texts dates indexes entry = .ok plan) :
    asU64 texts entry.1 = .ok plan.record.nodeId := by
  obtain ⟨nodeId, hid, h⟩ := bind_eq_ok h
  obtain ⟨_, _, h⟩ := bind_eq_ok h
  obtain ⟨_, _, h⟩ := bind_eq_ok h
  obtain ⟨_, _, h⟩ := bind_eq_ok h
  cases h
  exact mapError_eq_ok hid

theorem mapM_planNode {texts : Texts} {dates : Dates} {indexes : FabricIndexes}
    {entries : List (Json × Json)} {plans : List NodePlan}
    (h : entries.mapM (planNode texts dates indexes) = .ok plans) :
    plans.map (fun p => p.record.nodeId) =
      entries.filterMap fun e => (asU64 texts e.1).toOption := by
  induction entries generalizing plans with
  | nil => cases h; rfl
  | cons entry entries ih =>
    rw [List.mapM_cons] at h
    obtain ⟨plan, hplan, h⟩ := bind_eq_ok h
    obtain ⟨rest, hrest, h⟩ := bind_eq_ok h
    cases h
    simp [planNode_nodeId hplan, Except.toOption, ih hrest]

/-- The planned ids are the listed ones. -/
theorem planNodes_perm {texts : Texts} {dates : Dates} {db : Data} {rootPublicKey : Bytes}
    {plans : List NodePlan} (h : planNodes texts dates db rootPublicKey = .ok plans) :
    (plans.map fun p => p.record.nodeId).Perm (listedIds texts db) := by
  unfold planNodes at h
  unfold listedIds
  split at h
  next hnone =>
    cases h
    simp [hnone]
  next commissioned hsome =>
    obtain ⟨entries, hentries, h⟩ := bind_eq_ok h
    obtain ⟨unsorted, hplans, h⟩ := bind_eq_ok h
    cases h
    rw [hsome, Option.map_some, mapError_eq_ok hentries]
    dsimp only
    rw [← mapM_planNode hplans]
    exact (List.perm_insertionSort _ _).map _

end MatterRsServer.Migrate
