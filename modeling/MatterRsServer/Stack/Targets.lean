import MatterRsServer.Controller.OnNetwork
import MatterRsServer.Stack.Addresses
import MatterRsServer.Lib.Words

/-!
# Where PASE knocks

`resolve_target` of `crates/stack/src/ops/commission.rs`, against the addresses that
`commission_on_network` passes on.
-/
namespace MatterRsServer.Stack
open Lib Lib.Inet Controller

/-- `CommissionableFilter`. -/
structure CommissionableFilter where
  discriminator : Option UInt16
  shortDiscriminator : Option UInt8
  vendorId : Option UInt16
  productId : Option UInt16
  deviceType : Option UInt32
  commissioningModeOnly : Bool

/-- What is decoded and found outside this program: the two kinds of pairing codes, with the
text of the error, and the first device that a browse for the filter sees. -/
structure Discovery (β : Type) where
  parseQr : String → Except String (UInt32 × CommissionableFilter)
  parsePairingCode : String → Except String (UInt32 × CommissionableFilter)
  browseOne : CommissionableFilter → Except StackError (Address β)

variable {β : Type}

/-- `invalid_code`. -/
def invalidCode (what e : String) : StackError := ⟨.invalidArguments, s!"invalid {what}: Error::{e}"⟩

def parsePairingCode (env : Discovery β) (code : String) :
    Except StackError (UInt32 × CommissionableFilter) :=
  if "MT:".toList.isPrefixOf code.toList then (env.parseQr code).mapError (invalidCode "QR code")
  else (env.parsePairingCode code).mapError (invalidCode "pairing code")

def parseSocketAddr (addr : String) : Except StackError (Address β) :=
  match SocketAddr.parse addr with
  | some sa => .ok (.udp sa)
  | none => .error ⟨.invalidArguments, "invalid ip_addr: invalid socket address syntax"⟩

/-- The end of `resolve_target`: look for the device. -/
def discovered (env : Discovery β) (passcode : UInt32) (filter : CommissionableFilter) :
    Except StackError (UInt32 × Address β) := do
  let addr ← env.browseOne filter
  return (passcode, addr)

def resolveTarget (env : Discovery β) : PaseTarget → Except StackError (UInt32 × Address β)
  | .code code => do
    let (passcode, filter) ← parsePairingCode env (.ofList (Words.trim code.toList))
    discovered env passcode filter
  | .onNetwork passcode longDiscriminator shortDiscriminator vendorId =>
    discovered env passcode {
      discriminator := longDiscriminator
      shortDiscriminator := shortDiscriminator
      vendorId := vendorId
      productId := none
      deviceType := none
      commissioningModeOnly :=
        longDiscriminator.isNone && shortDiscriminator.isNone && vendorId.isNone }
  | .address passcode addr => do
    let addr ← parseSocketAddr addr
    return (passcode, addr)

/-- The target takes the stack to this address, without a search. -/
def Reaches (env : Discovery β) (target : PaseTarget) (ip : IpAddr) (port : UInt16) : Prop :=
  ∃ passcode addr, target = .address passcode addr ∧
    resolveTarget env target = .ok (passcode, .udp (.new ip port))

theorem reaches_address (env : Discovery β) (passcode : UInt32) (addr : String) (ip : IpAddr)
    (port : UInt16) :
    Reaches env (.address passcode addr) ip port ↔
      SocketAddr.parse addr = some (.new ip port) := by
  have hresolve : resolveTarget env (.address passcode addr) =
      (parseSocketAddr addr).bind fun a => .ok (passcode, a) := rfl
  unfold Reaches
  rw [hresolve]
  unfold parseSocketAddr
  constructor
  · rintro ⟨_, _, -, h⟩
    cases hparse : SocketAddr.parse addr with
    | none =>
      rw [hparse] at h
      cases h
    | some sa =>
      rw [hparse] at h
      cases h
      rfl
  · intro h
    rw [h]
    exact ⟨passcode, addr, rfl, rfl⟩

/-- An address that is passed on without brackets is reached exactly if it is an IPv4 one. -/
theorem ipAddr_reached (env : Discovery β) {args : Args} {ipAddr : String} {ip : IpAddr}
    {target : PaseTarget} (harg : optStr args "ip_addr" = some ipAddr)
    (hparse : IpAddr.parse ipAddr = some ip) (hfe80 : startsFe80 ipAddr = false)
    (htarget : onNetworkTarget args = .ok target) :
    Reaches env target ip 5540 ↔ ∃ v4, ip = .v4 v4 := by
  obtain ⟨passcode, rfl⟩ := target_of_ipAddr harg hfe80 htarget
  rw [reaches_address]
  cases ip with
  | v4 v4 =>
    have hport : SocketAddr.parse (ipAddr ++ ":" ++ "5540") = some (.v4 v4 5540) :=
      parse_v4_port hparse 5540
    exact iff_of_true hport ⟨v4, rfl⟩
  | v6 v6 =>
    have hport := parse_v6_port hparse "5540"
    refine iff_of_false ?_ ?_
    · rw [hport]
      rintro ⟨⟩
    · rintro ⟨v4, ⟨⟩⟩

/-- A browse that finds nothing. -/
def nobodyThere : Discovery Empty where
  parseQr _ := .error "InvalidData"
  parsePairingCode _ := .error "InvalidData"
  browseOne _ := .error ⟨.timeout, "no commissionable device found"⟩

def ipArgs (ipAddr : String) : Args :=
  .ofList [("setup_pin_code", .ofU64 20202021), ("ip_addr", .str ipAddr)]

theorem ipAddr_reached_v4 :
    Reaches nobodyThere (.address 20202021 "192.168.1.99:5540") (.v4 ⟨192, 168, 1, 99⟩) 5540 := by
  have harg : optStr (ipArgs "192.168.1.99") "ip_addr" = some "192.168.1.99" := by decide
  have hparse : IpAddr.parse "192.168.1.99" = some (.v4 ⟨192, 168, 1, 99⟩) := by decide
  have htarget : onNetworkTarget (ipArgs "192.168.1.99") =
      .ok (.address 20202021 "192.168.1.99:5540") := rfl
  exact (ipAddr_reached nobodyThere harg hparse (by decide) htarget).mpr ⟨_, rfl⟩

def documentationIp : Ipv6Addr := ⟨[0x2001, 0xdb8, 0, 0, 0, 0, 0, 1], rfl⟩

/-- `2001:db8::1` is refused as no address. -/
theorem ipv6_refused : optStr (ipArgs "2001:db8::1") "ip_addr" = some "2001:db8::1" ∧
    IpAddr.parse "2001:db8::1" = some (.v6 documentationIp) ∧ startsFe80 "2001:db8::1" = false ∧
    onNetworkTarget (ipArgs "2001:db8::1") = .ok (.address 20202021 "2001:db8::1:5540") ∧
    resolveTarget nobodyThere (.address 20202021 "2001:db8::1:5540") =
      .error ⟨.invalidArguments, "invalid ip_addr: invalid socket address syntax"⟩ ∧
    ¬ Reaches nobodyThere (.address 20202021 "2001:db8::1:5540") (.v6 documentationIp) 5540 := by
  have hparse : SocketAddr.parse "2001:db8::1:5540" = none := by decide
  refine ⟨by decide, by decide, by decide, rfl, ?_, ?_⟩
  · have hrefused : parseSocketAddr (β := Empty) "2001:db8::1:5540" =
        .error ⟨.invalidArguments, "invalid ip_addr: invalid socket address syntax"⟩ := by
      rw [parseSocketAddr, hparse]
    show (parseSocketAddr "2001:db8::1:5540" >>= _) = _
    rw [hrefused]
    rfl
  · rw [reaches_address, hparse]
    rintro ⟨⟩

end MatterRsServer.Stack
