import MatterRsServer.Server.Envelope
import MatterRsServer.Stack.Sweep
import MatterRsServer.Stack.Tlv

/-!
# Discovery from the network to the client

`discover` of `commands/commissioning.rs` lists what the sweep of `ops/discovery.rs` has found,
with fixed values for all that a sweep does not tell.
-/
namespace MatterRsServer.Server
open Lib Lib.Inet Wire Controller Stack Stack.Browsing

/-- `CommissionableNodeData`. -/
structure CommissionableNodeData where
  instanceName : Option String
  hostName : String
  port : Option UInt16
  longDiscriminator : Option UInt16
  vendorId : Int32
  productId : Int32
  commissioningMode : UInt8
  deviceType : Option UInt32
  deviceName : Option String
  pairingInstruction : Option String
  pairingHint : UInt32
  mrpRetryIntervalIdle : Option UInt32
  mrpRetryIntervalActive : Option UInt32
  supportsTcp : Bool
  addresses : List String
  rotatingId : Option String

def CommissionableNodeData.members (nd : CommissionableNodeData) : List (String × Json) :=
  optionalField "instance_name" .str nd.instanceName ++
    [("host_name", .str nd.hostName)] ++
    optionalField "port" (fun n => .ofU64 n.toUInt64) nd.port ++
    optionalField "long_discriminator" (fun n => .ofU64 n.toUInt64) nd.longDiscriminator ++
    [("vendor_id", jsonOfI64 nd.vendorId.toInt64), ("product_id", jsonOfI64 nd.productId.toInt64),
      ("commissioning_mode", .ofU64 nd.commissioningMode.toUInt64)] ++
    optionalField "device_type" (fun n => .ofU64 n.toUInt64) nd.deviceType ++
    optionalField "device_name" .str nd.deviceName ++
    optionalField "pairing_instruction" .str nd.pairingInstruction ++
    [("pairing_hint", .ofU64 nd.pairingHint.toUInt64)] ++
    optionalField "mrp_retry_interval_idle" (fun n => .ofU64 n.toUInt64) nd.mrpRetryIntervalIdle ++
    optionalField "mrp_retry_interval_active" (fun n => .ofU64 n.toUInt64)
      nd.mrpRetryIntervalActive ++
    [("supports_tcp", .bool nd.supportsTcp), ("addresses", .arr (nd.addresses.map .str))] ++
    optionalField "rotating_id" .str nd.rotatingId

def CommissionableNodeData.toJson (nd : CommissionableNodeData) : Json := .ofMembers nd.members

/-- What `discover` says of a device. -/
def commissionableNode (d : DiscoveredDevice) : CommissionableNodeData where
  instanceName := some d.instanceName
  hostName := "000000000000"
  port := (splitIpPort d.address).2
  longDiscriminator := none
  vendorId := -1
  productId := -1
  commissioningMode := 1
  deviceType := none
  deviceName := none
  pairingInstruction := none
  pairingHint := 0
  mrpRetryIntervalIdle := none
  mrpRetryIntervalActive := none
  supportsTcp := false
  addresses := [(splitIpPort d.address).1]
  rotatingId := none

def discover (browseCommissionable : UInt32 → Except StackError (List DiscoveredDevice)) :
    Except CommandError Json := do
  let devices ← (browseCommissionable 3000).mapError (stackErr .sdkStackError)
  return .arr (devices.map fun d => (commissionableNode d).toJson)

/-- The entry is of this device: under its instance, and with the host and the port of its socket
address. -/
structure ShowsDevice {β : Type} (found : Address β × UInt64) (entry : Json) : Prop where
  name : entry.get "instance_name" = some (.str (instanceName found.2))
  host : ∀ sa, found.1.IsSocket sa →
    entry.get "addresses" = some (.arr [.str (.ofList sa.hostText)])
  port : ∀ sa, found.1.IsSocket sa → entry.get "port" = some (.ofU64 sa.port.toUInt64)

theorem keys_commissionableNode (d : DiscoveredDevice) :
    (commissionableNode d).members.map Prod.fst = ["instance_name", "host_name"] ++
      ((splitIpPort d.address).2.map fun _ => "port").toList ++
      ["vendor_id", "product_id", "commissioning_mode", "pairing_hint", "supports_tcp",
        "addresses"] := by
  cases hport : (splitIpPort d.address).2 with
  | none => simp [CommissionableNodeData.members, commissionableNode, optionalField, hport]
  | some port => simp [CommissionableNodeData.members, commissionableNode, optionalField, hport]

theorem nodup_commissionableNode (d : DiscoveredDevice) :
    ((commissionableNode d).members.map Prod.fst).Nodup := by
  rw [keys_commissionableNode]
  cases (splitIpPort d.address).2 with
  | none => simp
  | some port => simp

theorem get_commissionableNode {d : DiscoveredDevice} {key : String} {value : Json}
    (h : (key, value) ∈ (commissionableNode d).members) :
    (commissionableNode d).toJson.get key = some value := by
  have hget := get_ofMembers_of_mem (nodup_commissionableNode d) h
  exact hget

theorem name_commissionableNode (d : DiscoveredDevice) :
    (commissionableNode d).toJson.get "instance_name" = some (.str d.instanceName) := by
  have hmem : ("instance_name", Json.str d.instanceName) ∈ (commissionableNode d).members := by
    simp [CommissionableNodeData.members, commissionableNode, optionalField]
  exact get_commissionableNode hmem

theorem discover_of_ok {browseCommissionable : UInt32 → Except StackError (List DiscoveredDevice)}
    {devices : List DiscoveredDevice} (h : browseCommissionable 3000 = .ok devices) :
    discover browseCommissionable =
      .ok (.arr (devices.map fun d => (commissionableNode d).toJson)) := by
  unfold discover
  rw [h]
  rfl

variable {β : Type}

theorem showsDevice (display : β → String) (found : Address β × UInt64) :
    ShowsDevice found
      (commissionableNode ⟨instanceName found.2, addrToString display found.1⟩).toJson where
  name := name_commissionableNode ⟨instanceName found.2, addrToString display found.1⟩
  host := by
    intro sa hsa
    have hsplit := (splitIpPort_addrToString display hsa).1
    have hmem : ("addresses", Json.arr [.str (.ofList sa.hostText)]) ∈
        (commissionableNode ⟨instanceName found.2, addrToString display found.1⟩).members := by
      simp [CommissionableNodeData.members, commissionableNode, hsplit]
    exact get_commissionableNode hmem
  port := by
    intro sa hsa
    have hsplit := (splitIpPort_addrToString display hsa).1
    have hmem : ("port", Json.ofU64 sa.port.toUInt64) ∈
        (commissionableNode ⟨instanceName found.2, addrToString display found.1⟩).members := by
      simp [CommissionableNodeData.members, commissionableNode, optionalField, hsplit]
    exact get_commissionableNode hmem

/-- A client is told of every device that the sweep has found, in the order of the finds: no
instance twice, at most six, and within three seconds. A sweep that ends early is no failure. -/
theorem devices_discovered (rate : TickRate) (display : β → String) (turns : Nat → Turn β)
    (now : Nat) (hfair : ∀ c ∈ (browse rate display turns now 3000).1, c.Fair rate) :
    ∃ entries, discover (fun timeoutMs => .ok (browse rate display turns now timeoutMs).2) =
        .ok (.arr entries) ∧
      ((browse rate display turns now 3000).1.filterMap fun c => c.result.toOption).Forall₂
        ShowsDevice entries ∧
      (entries.map fun entry => entry.get "instance_name").Nodup ∧ entries.length ≤ 6 ∧
      ((browse rate display turns now 3000).1.map BrowseCall.took).sum <
        fromMillis rate 3000 + fromMillis rate 1 := by
  have hswept := browse_sweptWithin rate display turns now 3000 hfair
  let device : Address β × UInt64 → DiscoveredDevice :=
    fun r => ⟨instanceName r.2, addrToString display r.1⟩
  have hdevices : (browse rate display turns now 3000).2 =
      ((browse rate display turns now 3000).1.filterMap fun c => c.result.toOption).map device := by
    rw [hswept.devices_eq, List.map_filterMap]
    rfl
  refine ⟨_, discover_of_ok rfl, ?_, ?_, ?_, hswept.time_lt⟩
  · rw [hdevices, List.map_map, List.forall₂_map_right_iff, List.forall₂_same]
    exact fun found _ => showsDevice display found
  · have hinjective : Function.Injective fun s : String => some (Json.str s) := by
      intro a b h
      exact Json.str.inj (Option.some.inj h)
    have hnames := hswept.distinct.map hinjective
    simpa only [List.map_map, Function.comp_def, name_commissionableNode] using hnames
  · rw [List.length_map, hswept.devices_eq]
    exact (List.length_filterMap_le _ _).trans hswept.calls_le

theorem devices_discovered_lamp : ∃ entry,
    discover (fun timeoutMs => .ok (browse microseconds Empty.elim lateDevice 0 timeoutMs).2) =
      .ok (.arr [entry]) ∧ ShowsDevice (lateAddress, 0xabcd) entry := by
  have hfair : ∀ c ∈ (browse microseconds Empty.elim lateDevice 0 3000).1, c.Fair microseconds := by
    rw [browse_lateDevice 3000 (by decide)]
    refine List.forall_mem_cons.mpr ⟨⟨by decide, ?_⟩, ?_⟩
    · intro inst _
      exact List.not_mem_nil
    · refine List.forall_mem_singleton.mpr ⟨by decide, ?_⟩
      intro inst hfound
      cases hfound
  obtain ⟨entries, hreply, hshown, -⟩ :=
    devices_discovered microseconds Empty.elim lateDevice 0 hfair
  have hfound : (browse microseconds Empty.elim lateDevice 0 3000).1.filterMap
      (fun c => c.result.toOption) = [(lateAddress, 0xabcd)] := by
    rw [browse_lateDevice 3000 (by decide)]
    rfl
  rw [hfound] at hshown
  cases hshown with
  | cons hentry hrest =>
    cases hrest
    exact ⟨_, hreply, hentry⟩

end MatterRsServer.Server
