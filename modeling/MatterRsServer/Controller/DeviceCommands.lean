import MatterRsServer.Controller.AccessControl
import MatterRsServer.Controller.AttributePath

/-!
# Commands to one device

The commands of `commands/interaction.rs`, `commands/fabrics.rs` and `commands/commissioning.rs`
that send one request about one node to the stack: what they require of their arguments, the
request that they send, and their reply to what the stack answers.
-/
namespace MatterRsServer.Controller
open Lib Lib.Result Wire

structure WindowInfo where
  setupPinCode : UInt32
  setupManualCode : String
  setupQrCode : String

structure DeviceFabric where
  fabricId : UInt64
  vendorId : UInt16
  fabricIndex : UInt8
  fabricLabel : String

/-- A request to the stack on behalf of a command. -/
inductive DeviceRequest where
  | readAttributes (nodeId : NodeId) (paths : List AttributePathSpec) (fabricFiltered : Bool)
  | writeAttribute (write : AttributeWrite)
  | invoke (nodeId : NodeId) (endpoint : UInt16) (cluster : UInt32) (commandName : String)
      (payload : Json) (timedMs : Option UInt16)
  | openCommissioningWindow (nodeId : NodeId) (timeoutSecs : UInt16)
  | deviceFabrics (nodeId : NodeId)
  | removeDeviceFabric (nodeId : NodeId) (fabricIndex : UInt8)

namespace DeviceRequest

def nodeId : DeviceRequest → NodeId
  | .readAttributes nodeId _ _ => nodeId
  | .writeAttribute write => write.nodeId
  | .invoke nodeId _ _ _ _ _ => nodeId
  | .openCommissioningWindow nodeId _ => nodeId
  | .deviceFabrics nodeId => nodeId
  | .removeDeviceFabric nodeId _ => nodeId

/-- What the stack answers when it succeeds. -/
abbrev Answer : DeviceRequest → Type
  | .readAttributes _ _ _ => List (String × Json)
  | .writeAttribute _ => UInt8
  | .invoke _ _ _ _ _ _ => Json
  | .openCommissioningWindow _ _ => WindowInfo
  | .deviceFabrics _ => List DeviceFabric
  | .removeDeviceFabric _ _ => Unit

end DeviceRequest

inductive DeviceCommand where
  | readAttribute
  | writeAttribute
  | deviceCommand
  | openCommissioningWindow
  | getMatterFabrics
  | removeMatterFabric
  | setAclEntry
  | setNodeBinding
deriving DecidableEq

/-- `opt_bool`. -/
def optBool (args : Args) (key : String) : Option Bool := (args.get? key).bind Json.asBool

/-- `opt_u64_strict`; `display` prints a value. -/
def optU64Strict (display : Json → String) (args : Args) (key : String) :
    Except CommandError (Option Nat) :=
  match args.get? key with
  | none | some .null => .ok none
  | some v =>
    match v.asU64 with
    | some n => .ok (some n)
    | none => .error (invalid s!"invalid value for {key}: {display v}")

/-- The strings of an `attribute_path`. -/
def pathStrings : Json → Except CommandError (List String)
  | .str s => .ok [s]
  | .arr xs => xs.mapM fun v => okOrInvalid v.asStr "attribute_path entries must be strings"
  | _ => .error (invalid "attribute_path must be a string or list of strings")

/-- The closure `put` of `map_binding`. -/
def putBinding (binding : Json) (tag key : String) (out : List (String × Json)) :
    List (String × Json) :=
  match binding.get key with
  | some v => if v.isNull then out else Entries.insert tag v out
  | none => out

/-- `map_binding`. Nulls are left out, unlike in an access control entry. -/
def mapBinding (binding : Json) : Json :=
  .obj <| putBinding binding "4" "cluster" <| putBinding binding "3" "endpoint" <|
    putBinding binding "2" "group" <| putBinding binding "1" "node" []

section
variable (known : NodeId → Bool)

/-- `require_u64(args, "node_id")?` and `ensure_node(node_id)?`. -/
def nodeArg (args : Args) : Except CommandError NodeId := do
  let nodeId := UInt64.ofNat (← requireU64 args "node_id")
  if known nodeId then return nodeId
  else .error ⟨.nodeNotExists, s!"Node {nodeId} does not exist"⟩

def readRequest (args : Args) : Except CommandError DeviceRequest := do
  let nodeId ← nodeArg known args
  let fabricFiltered := (optBool args "fabric_filtered").getD false
  let raw ← okOrInvalid (args.get? "attribute_path")
    "missing or invalid required argument: attribute_path"
  let paths ← (← pathStrings raw).mapM parseAttributePath
  return .readAttributes nodeId paths fabricFiltered

def writeRequest (args : Args) : Except CommandError DeviceRequest := do
  let nodeId ← nodeArg known args
  let spec ← parseAttributePath (← requireStr args "attribute_path")
  match spec with
  | ⟨some endpoint, some cluster, some attr⟩ =>
    return .writeAttribute ⟨nodeId, endpoint, cluster, attr, (args.get? "value").getD .null⟩
  | _ => .error (invalid "write_attribute does not support wildcards in attribute path")

/-- The `timed_request_timeout_ms` of an invocation; what is no `u64` counts as absent. -/
def timedArg (args : Args) : Except CommandError (Option UInt16) :=
  match optU64 args "timed_request_timeout_ms" with
  | some v => (narrow (2 ^ 16) v "timed_request_timeout_ms").map fun ms => some (.ofNat ms)
  | none => .ok none

def invokeRequest (args : Args) : Except CommandError DeviceRequest := do
  let nodeId ← nodeArg known args
  let endpoint ← narrow (2 ^ 16) (← requireU64 args "endpoint_id") "endpoint_id"
  let cluster ← narrow (2 ^ 32) (← requireU64 args "cluster_id") "cluster_id"
  let commandName ← requireStr args "command_name"
  let payload := (args.get? "payload").getD (.obj [])
  let timedMs ← timedArg args
  return .invoke nodeId (.ofNat endpoint) (.ofNat cluster) commandName payload timedMs

def windowRequest (display : Json → String) (args : Args) : Except CommandError DeviceRequest := do
  let nodeId ← nodeArg known args
  let timeout ← narrow (2 ^ 16) ((← optU64Strict display args "timeout").getD 300) "timeout"
  return .openCommissioningWindow nodeId (.ofNat timeout)

def fabricsRequest (args : Args) : Except CommandError DeviceRequest := do
  let nodeId ← nodeArg known args
  return .deviceFabrics nodeId

def removeFabricRequest (args : Args) : Except CommandError DeviceRequest := do
  let nodeId ← nodeArg known args
  let fabricIndex ← narrow (2 ^ 8) (← requireU64 args "fabric_index") "fabric_index"
  return .removeDeviceFabric nodeId (.ofNat fabricIndex)

def aclRequest (args : Args) : Except CommandError DeviceRequest := do
  let write ← aclWrite known args
  return .writeAttribute write

def bindingRequest (args : Args) : Except CommandError DeviceRequest := do
  let nodeId ← nodeArg known args
  let endpoint ← narrow (2 ^ 16) (← requireU64 args "endpoint") "endpoint"
  let bindings ← okOrInvalid ((args.get? "bindings").bind Json.asArray)
    "missing or invalid required argument: bindings"
  return .writeAttribute ⟨nodeId, .ofNat endpoint, 30, 0, .arr (bindings.map mapBinding)⟩

/-- The request of a command: `known` is `registry.contains`. -/
def DeviceCommand.request (display : Json → String) (args : Args) :
    DeviceCommand → Except CommandError DeviceRequest
  | .readAttribute => readRequest known args
  | .writeAttribute => writeRequest known args
  | .deviceCommand => invokeRequest known args
  | .openCommissioningWindow => windowRequest known display args
  | .getMatterFabrics => fabricsRequest known args
  | .removeMatterFabric => removeFabricRequest known args
  | .setAclEntry => aclRequest known args
  | .setNodeBinding => bindingRequest known args

end

/-- `MatterFabricData`. -/
def fabricData (vendorName : UInt16 → Option String) (f : DeviceFabric) : Json :=
  .ofMembers <| [("fabric_id", .ofU64 f.fabricId), ("vendor_id", .ofU64 f.vendorId.toUInt64),
    ("fabric_index", .ofU64 f.fabricIndex.toUInt64), ("fabric_label", .str f.fabricLabel)] ++
    (vendorName f.vendorId).toList.map fun name => ("vendor_name", .str name)

/-- The reply of `write_attribute`. -/
def writeReply (w : AttributeWrite) (status : UInt8) : Json :=
  .arr [.ofMembers [("Path", .ofMembers [("EndpointId", .ofU64 w.endpoint.toUInt64),
    ("ClusterId", .ofU64 w.cluster.toUInt64), ("AttributeId", .ofU64 w.attributeId.toUInt64)]),
    ("Status", .ofU64 status.toUInt64)]]

/-- The reply of `set_acl_entry` and of `set_node_binding`. -/
def listReply (w : AttributeWrite) (status : UInt8) : Json :=
  .arr [.ofMembers [("path", .ofMembers [("endpoint_id", .ofU64 w.endpoint.toUInt64),
    ("cluster_id", .ofU64 w.cluster.toUInt64), ("attribute_id", .ofU64 w.attributeId.toUInt64)]),
    ("status", .ofU64 status.toUInt64)]]

def windowReply (info : WindowInfo) : Json :=
  .ofMembers [("setup_pin_code", .ofU64 info.setupPinCode.toUInt64),
    ("setup_manual_code", .str info.setupManualCode), ("setup_qr_code", .str info.setupQrCode)]

namespace DeviceCommand

/-- What becomes of a failure of the stack; `get_matter_fabrics` says the same of every one. -/
def refusal : DeviceCommand → StackError → CommandError
  | .getMatterFabrics, _ =>
    ⟨.sdkStackError, "No or invalid response received while querying fabrics"⟩
  | _, e => stackErr .sdkStackError e

/-- The reply to an answer of the stack. -/
def success (vendorName : UInt16 → Option String) (cmd : DeviceCommand) :
    (r : DeviceRequest) → r.Answer → Except CommandError Json
  | .readAttributes _ _ _, values =>
    if values.isEmpty then
      .error ⟨.sdkStackError, "Failed to read attribute: no values returned"⟩
    else .ok (.ofMembers values)
  | .writeAttribute w, status =>
    .ok (if cmd = .writeAttribute then writeReply w status else listReply w status)
  | .invoke _ _ _ _ _ _, answer => .ok answer
  | .openCommissioningWindow _ _, info => .ok (windowReply info)
  | .deviceFabrics _, fabrics => .ok (.arr (fabrics.map (fabricData vendorName)))
  | .removeDeviceFabric _ _, _ => .ok (.obj [])

def handle (known : NodeId → Bool) (display : Json → String) (vendorName : UInt16 → Option String)
    (stack : (r : DeviceRequest) → Except StackError r.Answer) (args : Args)
    (cmd : DeviceCommand) : Except CommandError Json := do
  let r ← cmd.request known display args
  cmd.success vendorName r (← (stack r).mapError cmd.refusal)

end DeviceCommand

/-! ### What a request carries -/

/-- Each segment of the path stands for its own id, or for a wildcard. -/
def NamesPath (path : String) (spec : AttributePathSpec) : Prop :=
  ∃ endpoint cluster attr, path.toList.splitOn '/' = [endpoint, cluster, attr] ∧
    spec.endpoint.map UInt16.toNat = segment endpoint 0xFFFF ∧
    spec.cluster.map UInt32.toNat = segment cluster 0xFFFFFFFF ∧
    spec.attr.map UInt32.toNat = segment attr 0xFFFFFFFF

/-- The request says what the arguments say, number for number. -/
inductive Carries (args : Args) : DeviceCommand → DeviceRequest → Prop where
  | readAttribute {nodeId : NodeId} {given : Json} {paths : List String}
      {specs : List AttributePathSpec} {fabricFiltered : Bool}
      (hgiven : args.get? "attribute_path" = some given)
      (hpaths : given = .arr (paths.map Json.str) ∨ ∃ path, given = .str path ∧ paths = [path])
      (hspecs : List.Forall₂ NamesPath paths specs)
      (hfiltered : fabricFiltered = true ↔ args.get? "fabric_filtered" = some (.bool true)) :
      Carries args .readAttribute (.readAttributes nodeId specs fabricFiltered)
  | writeAttribute {nodeId : NodeId} {path : String} {endpoint : UInt16} {cluster attr : UInt32}
      (hpath : args.get? "attribute_path" = some (.str path))
      (hspec : NamesPath path ⟨some endpoint, some cluster, some attr⟩) :
      Carries args .writeAttribute
        (.writeAttribute ⟨nodeId, endpoint, cluster, attr, (args.get? "value").getD .null⟩)
  | deviceCommand {nodeId : NodeId} {endpoint : UInt16} {cluster : UInt32} {commandName : String}
      {timedMs : Option UInt16}
      (hendpoint : args.get? "endpoint_id" = some (.ofU64 endpoint.toUInt64))
      (hcluster : args.get? "cluster_id" = some (.ofU64 cluster.toUInt64))
      (hname : args.get? "command_name" = some (.str commandName))
      (htimed : timedMs.map UInt16.toNat = optU64 args "timed_request_timeout_ms") :
      Carries args .deviceCommand (.invoke nodeId endpoint cluster commandName
        ((args.get? "payload").getD (.obj [])) timedMs)
  | openCommissioningWindow {nodeId : NodeId} {timeoutSecs : UInt16}
      (htimeout : args.get? "timeout" = some (.ofU64 timeoutSecs.toUInt64) ∨
        AbsentOrNull (args.get? "timeout") ∧ timeoutSecs = 300) :
      Carries args .openCommissioningWindow (.openCommissioningWindow nodeId timeoutSecs)
  | getMatterFabrics {nodeId : NodeId} : Carries args .getMatterFabrics (.deviceFabrics nodeId)
  | removeMatterFabric {nodeId : NodeId} {fabricIndex : UInt8}
      (hindex : args.get? "fabric_index" = some (.ofU64 fabricIndex.toUInt64)) :
      Carries args .removeMatterFabric (.removeDeviceFabric nodeId fabricIndex)
  | setAclEntry {nodeId : NodeId} {entries : List Json}
      (hentries : args.get? "entry" = some (.arr entries)) :
      Carries args .setAclEntry
        (.writeAttribute ⟨nodeId, 0, 31, 0, .arr (entries.filterMap (mapAclEntry nodeId))⟩)
  | setNodeBinding {nodeId : NodeId} {endpoint : UInt16} {bindings : List Json}
      (hendpoint : args.get? "endpoint" = some (.ofU64 endpoint.toUInt64))
      (hbindings : args.get? "bindings" = some (.arr bindings)) :
      Carries args .setNodeBinding
        (.writeAttribute ⟨nodeId, endpoint, 30, 0, .arr (bindings.map mapBinding)⟩)

/-- What a command is refused for before anything is sent. -/
def RefusedFor (known : NodeId → Bool) (args : Args) (e : CommandError) : Prop :=
  e.code = .invalidArguments ∨
    e.code = .nodeNotExists ∧ ∃ nodeId, args.get? "node_id" = some (.ofU64 nodeId) ∧
      known nodeId = false

section
variable {known : NodeId → Bool} {display : Json → String} {args : Args}

theorem nodeArg_eq_ok {nodeId : NodeId} (h : nodeArg known args = .ok nodeId) :
    args.get? "node_id" = some (.ofU64 nodeId) ∧ known nodeId = true := by
  unfold nodeArg at h
  obtain ⟨n, hn, h⟩ := bind_eq_ok h
  dsimp only at h
  split at h
  next hknown =>
    cases h
    exact ⟨(requireU64_eq_ok hn).2, hknown⟩
  next => cases h

theorem narrow_eq_ok {size value n : Nat} {what : String} (h : narrow size value what = .ok n) :
    n = value ∧ value < size := by
  unfold narrow at h
  split at h
  next hlt =>
    cases h
    exact ⟨rfl, hlt⟩
  next => cases h

theorem toUInt64_ofNat_16 {n : Nat} (h : n < 2 ^ 16) :
    (UInt16.ofNat n).toUInt64 = UInt64.ofNat n := by
  rw [← UInt64.toNat_inj, UInt16.toNat_toUInt64, UInt16.toNat_ofNat_of_lt' h,
    UInt64.toNat_ofNat_of_lt' (Nat.lt_trans h (by decide))]

theorem toUInt64_ofNat_32 {n : Nat} (h : n < 2 ^ 32) :
    (UInt32.ofNat n).toUInt64 = UInt64.ofNat n := by
  rw [← UInt64.toNat_inj, UInt32.toNat_toUInt64, UInt32.toNat_ofNat_of_lt' h,
    UInt64.toNat_ofNat_of_lt' (Nat.lt_trans h (by decide))]

theorem toUInt64_ofNat_8 {n : Nat} (h : n < 2 ^ 8) :
    (UInt8.ofNat n).toUInt64 = UInt64.ofNat n := by
  rw [← UInt64.toNat_inj, UInt8.toNat_toUInt64, UInt8.toNat_ofNat_of_lt' h,
    UInt64.toNat_ofNat_of_lt' (Nat.lt_trans h (by decide))]

theorem requireStr_eq_ok {key s : String} (h : requireStr args key = .ok s) :
    args.get? key = some (.str s) := by
  unfold requireStr optStr at h
  split at h
  next s' hs =>
    cases h
    obtain ⟨v, hv, hstr⟩ := Option.bind_eq_some_iff.mp hs
    unfold Json.asStr at hstr
    split at hstr
    next =>
      cases hstr
      exact hv
    next => cases hstr
  next => cases h

theorem arrayArg_eq_ok {key details : String} {xs : List Json}
    (h : okOrInvalid ((args.get? key).bind Json.asArray) details = .ok xs) :
    args.get? key = some (.arr xs) := by
  obtain ⟨v, hv, harray⟩ := Option.bind_eq_some_iff.mp (okOrInvalid_eq_ok h)
  unfold Json.asArray at harray
  split at harray
  next =>
    cases harray
    exact hv
  next => cases harray

theorem namesPath_of_parse {path : String} {spec : AttributePathSpec}
    (h : parseAttributePath path = .ok spec) : NamesPath path spec := by
  have hsplit : ∃ endpoint cluster attr, path.toList.splitOn '/' = [endpoint, cluster, attr] := by
    unfold parseAttributePath at h
    split at h
    next endpoint cluster attr hsplit => exact ⟨endpoint, cluster, attr, hsplit⟩
    next => cases h
  obtain ⟨endpoint, cluster, attr, hsplit⟩ := hsplit
  rcases parseAttributePath_cases hsplit with ⟨-, e, herror⟩ | ⟨-, spec', hok, hids⟩
  · rw [h] at herror
    cases herror
  · rw [h] at hok
    cases hok
    exact ⟨endpoint, cluster, attr, hsplit, hids⟩

theorem pathStrings_eq_ok {given : Json} {paths : List String} (h : pathStrings given = .ok paths) :
    given = .arr (paths.map Json.str) ∨ ∃ path, given = .str path ∧ paths = [path] := by
  unfold pathStrings at h
  split at h
  next s =>
    cases h
    exact .inr ⟨s, rfl, rfl⟩
  next xs =>
    refine .inl (congrArg Json.arr ?_)
    have hstrings : List.Forall₂ (fun v s => v = Json.str s) xs paths := by
      refine (mapM_eq_ok_iff.mp h).imp fun v s hs => ?_
      have hv := okOrInvalid_eq_ok hs
      unfold Json.asStr at hv
      split at hv
      next =>
        cases hv
        rfl
      next => cases hv
    rw [← List.forall₂_eq_eq_eq, List.forall₂_map_right_iff]
    exact hstrings
  next => cases h

theorem readRequest_carries {r : DeviceRequest} (h : readRequest known args = .ok r) :
    nodeArg known args = .ok r.nodeId ∧ Carries args .readAttribute r := by
  unfold readRequest at h
  obtain ⟨nodeId, hnode, h⟩ := bind_eq_ok h
  obtain ⟨given, hgiven, h⟩ := bind_eq_ok h
  obtain ⟨paths, hpaths, h⟩ := bind_eq_ok h
  obtain ⟨specs, hspecs, h⟩ := bind_eq_ok h
  cases h
  have hfiltered : (optBool args "fabric_filtered").getD false = true ↔
      args.get? "fabric_filtered" = some (.bool true) := by
    unfold optBool
    cases args.get? "fabric_filtered" with
    | none => simp
    | some v => cases v <;> simp [Json.asBool]
  exact ⟨hnode, .readAttribute (okOrInvalid_eq_ok hgiven) (pathStrings_eq_ok hpaths)
    ((mapM_eq_ok_iff.mp hspecs).imp fun _ _ => namesPath_of_parse) hfiltered⟩

theorem writeRequest_carries {r : DeviceRequest} (h : writeRequest known args = .ok r) :
    nodeArg known args = .ok r.nodeId ∧ Carries args .writeAttribute r := by
  unfold writeRequest at h
  obtain ⟨nodeId, hnode, h⟩ := bind_eq_ok h
  obtain ⟨path, hpath, h⟩ := bind_eq_ok h
  obtain ⟨spec, hspec, h⟩ := bind_eq_ok h
  split at h
  next endpoint cluster attr =>
    cases h
    exact ⟨hnode, .writeAttribute (requireStr_eq_ok hpath) (namesPath_of_parse hspec)⟩
  next => cases h

theorem invokeRequest_carries {r : DeviceRequest} (h : invokeRequest known args = .ok r) :
    nodeArg known args = .ok r.nodeId ∧ Carries args .deviceCommand r := by
  unfold invokeRequest at h
  obtain ⟨nodeId, hnode, h⟩ := bind_eq_ok h
  obtain ⟨e, he, h⟩ := bind_eq_ok h
  obtain ⟨endpoint, hendpoint, h⟩ := bind_eq_ok h
  obtain ⟨c, hc, h⟩ := bind_eq_ok h
  obtain ⟨cluster, hcluster, h⟩ := bind_eq_ok h
  obtain ⟨commandName, hname, h⟩ := bind_eq_ok h
  obtain ⟨timedMs, htimed, h⟩ := bind_eq_ok h
  cases h
  obtain ⟨rfl, helt⟩ := narrow_eq_ok hendpoint
  obtain ⟨rfl, hclt⟩ := narrow_eq_ok hcluster
  refine ⟨hnode, .deviceCommand ?_ ?_ (requireStr_eq_ok hname) ?_⟩
  · rw [toUInt64_ofNat_16 helt]
    exact (requireU64_eq_ok he).2
  · rw [toUInt64_ofNat_32 hclt]
    exact (requireU64_eq_ok hc).2
  · unfold timedArg at htimed
    split at htimed
    next v hv =>
      cases hms : narrow (2 ^ 16) v "timed_request_timeout_ms" with
      | error e =>
        rw [hms] at htimed
        cases htimed
      | ok ms =>
        rw [hms] at htimed
        cases htimed
        obtain ⟨rfl, hlt⟩ := narrow_eq_ok hms
        rw [hv, Option.map_some, UInt16.toNat_ofNat_of_lt' hlt]
    next hv =>
      cases htimed
      rw [hv]
      rfl

theorem windowRequest_carries {r : DeviceRequest}
    (h : windowRequest known display args = .ok r) :
    nodeArg known args = .ok r.nodeId ∧ Carries args .openCommissioningWindow r := by
  unfold windowRequest at h
  obtain ⟨nodeId, hnode, h⟩ := bind_eq_ok h
  obtain ⟨given, hgiven, h⟩ := bind_eq_ok h
  obtain ⟨timeout, htimeout, h⟩ := bind_eq_ok h
  cases h
  obtain ⟨rfl, hlt⟩ := narrow_eq_ok htimeout
  refine ⟨hnode, .openCommissioningWindow ?_⟩
  unfold optU64Strict at hgiven
  split at hgiven
  next habsent =>
    cases hgiven
    exact .inr ⟨.inl habsent, rfl⟩
  next hnull =>
    cases hgiven
    exact .inr ⟨.inr hnull, rfl⟩
  next v hv =>
    split at hgiven
    next n hn =>
      cases hgiven
      have hvalue : optU64 args "timeout" = some n := by
        unfold optU64
        rw [hv, Option.bind_some, hn]
      have hfits : n < 2 ^ 16 := hlt
      refine .inl ?_
      rw [Option.getD_some, toUInt64_ofNat_16 hfits]
      exact (optU64_eq_some hvalue).2
    next => cases hgiven

theorem removeFabricRequest_carries {r : DeviceRequest}
    (h : removeFabricRequest known args = .ok r) :
    nodeArg known args = .ok r.nodeId ∧ Carries args .removeMatterFabric r := by
  unfold removeFabricRequest at h
  obtain ⟨nodeId, hnode, h⟩ := bind_eq_ok h
  obtain ⟨i, hi, h⟩ := bind_eq_ok h
  obtain ⟨fabricIndex, hindex, h⟩ := bind_eq_ok h
  cases h
  obtain ⟨rfl, hlt⟩ := narrow_eq_ok hindex
  refine ⟨hnode, .removeMatterFabric ?_⟩
  rw [toUInt64_ofNat_8 hlt]
  exact (requireU64_eq_ok hi).2

theorem aclRequest_carries {r : DeviceRequest} (h : aclRequest known args = .ok r) :
    nodeArg known args = .ok r.nodeId ∧ Carries args .setAclEntry r := by
  unfold aclRequest aclWrite at h
  obtain ⟨write, hwrite, h⟩ := bind_eq_ok h
  obtain ⟨n, hn, hwrite⟩ := bind_eq_ok hwrite
  cases h
  dsimp only at hwrite
  split at hwrite
  next hknown =>
    obtain ⟨entries, hentries, hwrite⟩ := bind_eq_ok hwrite
    cases hwrite
    refine ⟨?_, .setAclEntry (arrayArg_eq_ok hentries)⟩
    simp only [nodeArg, hn, bind, Except.bind, hknown, if_true]
    rfl
  next => cases hwrite

theorem bindingRequest_carries {r : DeviceRequest} (h : bindingRequest known args = .ok r) :
    nodeArg known args = .ok r.nodeId ∧ Carries args .setNodeBinding r := by
  unfold bindingRequest at h
  obtain ⟨nodeId, hnode, h⟩ := bind_eq_ok h
  obtain ⟨e, he, h⟩ := bind_eq_ok h
  obtain ⟨endpoint, hendpoint, h⟩ := bind_eq_ok h
  obtain ⟨bindings, hbindings, h⟩ := bind_eq_ok h
  cases h
  obtain ⟨rfl, hlt⟩ := narrow_eq_ok hendpoint
  refine ⟨hnode, .setNodeBinding ?_ (arrayArg_eq_ok hbindings)⟩
  rw [toUInt64_ofNat_16 hlt]
  exact (requireU64_eq_ok he).2

theorem request_carries {cmd : DeviceCommand} {r : DeviceRequest}
    (h : cmd.request known display args = .ok r) :
    nodeArg known args = .ok r.nodeId ∧ Carries args cmd r := by
  cases cmd with
  | readAttribute => exact readRequest_carries h
  | writeAttribute => exact writeRequest_carries h
  | deviceCommand => exact invokeRequest_carries h
  | openCommissioningWindow => exact windowRequest_carries h
  | getMatterFabrics =>
    obtain ⟨nodeId, hnode, h⟩ := bind_eq_ok h
    cases h
    exact ⟨hnode, .getMatterFabrics⟩
  | removeMatterFabric => exact removeFabricRequest_carries h
  | setAclEntry => exact aclRequest_carries h
  | setNodeBinding => exact bindingRequest_carries h

/-! ### What a command is refused for -/

theorem refused_invalid (details : String) : RefusedFor known args (invalid details) := .inl rfl

theorem refused_requireU64 (key : String) : FailsOnly (RefusedFor known args) (requireU64 args key) := by
  unfold requireU64
  split
  · exact .ok _
  · exact .error (refused_invalid _)

theorem refused_requireStr (key : String) : FailsOnly (RefusedFor known args) (requireStr args key) := by
  unfold requireStr
  split
  · exact .ok _
  · exact .error (refused_invalid _)

theorem refused_okOrInvalid {α : Type} (value : Option α) (details : String) :
    FailsOnly (RefusedFor known args) (okOrInvalid value details) := by
  unfold okOrInvalid
  split
  · exact .ok _
  · exact .error (refused_invalid _)

theorem refused_narrow (size value : Nat) (what : String) :
    FailsOnly (RefusedFor known args) (narrow size value what) := by
  unfold narrow
  split
  · exact .ok _
  · exact .error (refused_invalid _)

theorem refused_narrowed (path what : String) (size : Nat) (id : Option Nat) :
    FailsOnly (RefusedFor known args) (narrowed path what size id) := by
  unfold narrowed
  split
  · exact .ok _
  · split
    · exact .ok _
    · exact .error (refused_invalid _)

theorem refused_path (path : String) :
    FailsOnly (RefusedFor known args) (parseAttributePath path) := by
  unfold parseAttributePath
  split
  · exact (refused_narrowed _ _ _ _).bind fun _ => (refused_narrowed _ _ _ _).bind fun _ =>
      (refused_narrowed _ _ _ _).bind fun _ => .ok _
  · exact .error (refused_invalid _)

theorem refused_pathStrings (given : Json) :
    FailsOnly (RefusedFor known args) (pathStrings given) := by
  unfold pathStrings
  split
  · exact .ok _
  · exact .mapM (fun _ => refused_okOrInvalid _ _) _
  · exact .error (refused_invalid _)

theorem refused_optU64Strict (key : String) :
    FailsOnly (RefusedFor known args) (optU64Strict display args key) := by
  unfold optU64Strict
  split
  · exact .ok _
  · exact .ok _
  · split
    · exact .ok _
    · exact .error (refused_invalid _)

/-- The only other refusal: the node is not registered. -/
theorem refused_unknown {n : Nat} (h : requireU64 args "node_id" = .ok n)
    (hunknown : known (.ofNat n) = false) (details : String) :
    RefusedFor known args ⟨.nodeNotExists, details⟩ :=
  .inr ⟨rfl, .ofNat n, (requireU64_eq_ok h).2, hunknown⟩

theorem refused_node : FailsOnly (RefusedFor known args) (nodeArg known args) := by
  intro e h
  unfold nodeArg at h
  cases hn : requireU64 args "node_id" with
  | error e' =>
    rw [hn] at h
    cases h
    exact refused_requireU64 "node_id" e hn
  | ok n =>
    rw [hn] at h
    change (if known (.ofNat n) = true then _ else _) = _ at h
    split at h
    · cases h
    · next hunknown =>
      cases h
      exact refused_unknown hn (Bool.eq_false_of_not_eq_true hunknown) _

theorem refused_acl : FailsOnly (RefusedFor known args) (aclWrite known args) := by
  intro e h
  unfold aclWrite at h
  cases hn : requireU64 args "node_id" with
  | error e' =>
    rw [hn] at h
    cases h
    exact refused_requireU64 "node_id" e hn
  | ok n =>
    rw [hn] at h
    change (if known (.ofNat n) = true then _ else _) = _ at h
    split at h
    · exact (refused_okOrInvalid _ _).bind (fun _ => .ok _) e h
    · next hunknown =>
      cases h
      exact refused_unknown hn (Bool.eq_false_of_not_eq_true hunknown) _

theorem request_refused (cmd : DeviceCommand) :
    FailsOnly (RefusedFor known args) (cmd.request known display args) := by
  cases cmd with
  | readAttribute =>
    exact refused_node.bind fun _ => (refused_okOrInvalid _ _).bind fun given =>
      (refused_pathStrings given).bind fun paths => (FailsOnly.mapM refused_path paths).bind fun _ =>
        .ok _
  | writeAttribute =>
    refine refused_node.bind fun _ => (refused_requireStr _).bind fun path =>
      (refused_path path).bind fun spec => ?_
    split
    · exact .ok _
    · exact .error (refused_invalid _)
  | deviceCommand =>
    refine refused_node.bind fun _ => (refused_requireU64 _).bind fun _ =>
      (refused_narrow _ _ _).bind fun _ => (refused_requireU64 _).bind fun _ =>
      (refused_narrow _ _ _).bind fun _ => (refused_requireStr _).bind fun _ => ?_
    refine FailsOnly.bind ?_ fun _ => .ok _
    unfold timedArg
    split
    · exact (refused_narrow _ _ _).map _
    · exact .ok _
  | openCommissioningWindow =>
    exact refused_node.bind fun _ => (refused_optU64Strict _).bind fun _ =>
      (refused_narrow _ _ _).bind fun _ => .ok _
  | getMatterFabrics => exact refused_node.bind fun _ => .ok _
  | removeMatterFabric =>
    exact refused_node.bind fun _ => (refused_requireU64 _).bind fun _ =>
      (refused_narrow _ _ _).bind fun _ => .ok _
  | setAclEntry => exact refused_acl.bind fun _ => .ok _
  | setNodeBinding =>
    exact refused_node.bind fun _ => (refused_requireU64 _).bind fun _ =>
      (refused_narrow _ _ _).bind fun _ => (refused_okOrInvalid _ _).bind fun _ => .ok _

end

/-- Whatever the arguments are, a command to a device sends nothing and is refused for them or for
the node, or it sends one request, to the registered node that they name, with exactly the ids,
the value and the payload that they give. -/
theorem commands_exact (known : NodeId → Bool) (display : Json → String) (args : Args)
    (cmd : DeviceCommand) :
    (∀ r, cmd.request known display args = .ok r →
      args.get? "node_id" = some (.ofU64 r.nodeId) ∧ known r.nodeId = true ∧ Carries args cmd r) ∧
    ∀ e, cmd.request known display args = .error e → RefusedFor known args e := by
  refine ⟨fun r h => ?_, request_refused cmd⟩
  obtain ⟨hnode, hcarries⟩ := request_carries h
  obtain ⟨hid, hknown⟩ := nodeArg_eq_ok hnode
  exact ⟨hid, hknown, hcarries⟩

/-- The arguments of `remove_matter_fabric`. -/
def fabricArgs (fabricIndex : UInt64) : Args :=
  .ofList [("node_id", .ofU64 7), ("fabric_index", .ofU64 fabricIndex)]

/-- The index after the last one is refused instead of wrapping to 0. -/
theorem commands_exact_fabric :
    Carries (fabricArgs 3) .removeMatterFabric (.removeDeviceFabric 7 3) ∧
    RefusedFor (· == 7) (fabricArgs 256) (invalid "fabric_index out of range: 256") :=
  ⟨((commands_exact (· == 7) (fun _ => "") (fabricArgs 3) .removeMatterFabric).1 _ rfl).2.2,
   (commands_exact (· == 7) (fun _ => "") (fabricArgs 256) .removeMatterFabric).2 _ rfl⟩

end MatterRsServer.Controller
