import MatterRsServer.Controller.Commands
import MatterRsServer.Controller.Credentials
import MatterRsServer.Lib.Result

/-!
# What a device is commissioned by

The arguments of `commission_with_code` and `commission_on_network`
(`crates/controller/src/commands/commissioning.rs`) as a `PaseTarget`.
-/
namespace MatterRsServer.Controller
open Lib Lib.Result Wire

/-- `opt_u64`. -/
def optU64 (args : Args) (key : String) : Option Nat := (args.get? key).bind Json.asU64

/-- `require_u64`. -/
def requireU64 (args : Args) (key : String) : Except CommandError Nat :=
  match optU64 args key with
  | some n => .ok n
  | none => .error (invalid s!"missing or invalid required argument: {key}")

/-- `ok_or_else(|| invalid(details))`. -/
def okOrInvalid {α : Type} (value : Option α) (details : String) : Except CommandError α :=
  match value with
  | some a => .ok a
  | none => .error (invalid details)

/-- `narrow`, to a type with `size` values. -/
def narrow (size value : Nat) (what : String) : Except CommandError Nat :=
  if value < size then .ok value else .error (invalid s!"{what} out of range: {value}")

/-- The target of `commission_with_code`. -/
def codeTarget (args : Args) : Except CommandError PaseTarget :=
  let code := (optStr args "code").getD ""
  if code = "" then .error (invalid "No pairing code provided") else .ok (.code code)

/-- What an mDNS search is narrowed to. -/
structure OnNetworkFilter where
  longDiscriminator : Option UInt16
  shortDiscriminator : Option UInt8
  vendorId : Option UInt16

def onNetworkFilter (args : Args) : Except CommandError OnNetworkFilter :=
  let filter := optU64 args "filter"
  match optU64 args "filter_type" with
  | some 1 => do
    let f ← okOrInvalid filter "filter required for filter_type 1 (short discriminator)"
    let short ← narrow (2 ^ 8) f "filter (short discriminator)"
    return ⟨none, some (.ofNat short), none⟩
  | some 2 => do
    let f ← okOrInvalid filter "filter required for filter_type 2 (long discriminator)"
    let long ← narrow (2 ^ 16) f "filter (long discriminator)"
    return ⟨some (.ofNat long), none, none⟩
  | some 3 => do
    let f ← okOrInvalid filter "filter required for filter_type 3 (vendor ID)"
    let vendor ← narrow (2 ^ 16) f "filter (vendor ID)"
    return ⟨none, none, some (.ofNat vendor)⟩
  | _ => .ok ⟨none, none, none⟩

/-- `ip.starts_with("fe80")`. -/
def startsFe80 (ip : String) : Bool := "fe80".toList.isPrefixOf ip.toList

/-- The target of `commission_on_network`. -/
def onNetworkTarget (args : Args) : Except CommandError PaseTarget := do
  let pin ← okOrInvalid (optU64 args "setup_pin_code") "No passcode provided"
  let passcode ← narrow (2 ^ 32) pin "setup_pin_code"
  let filter ← onNetworkFilter args
  return match (optStr args "ip_addr").filter fun ip => !startsFe80 ip with
    | some ipAddr => .address (.ofNat passcode) s!"{ipAddr}:5540"
    | none => .onNetwork (.ofNat passcode) filter.longDiscriminator filter.shortDiscriminator
        filter.vendorId

/-- A command that commissions the target in its arguments, with what the stack answers. -/
def commissionTarget (fuel : Nat) (controllerNodeId : NodeId)
    (target : Except CommandError PaseTarget) (answers : PaseTarget → CommissionAttempt) : Task :=
  match target with
  | .error e => reply (.error e)
  | .ok target => doCommission fuel controllerNodeId { answers target with target := target }

def commissionWithCode (fuel : Nat) (controllerNodeId : NodeId) (args : Args)
    (answers : PaseTarget → CommissionAttempt) : Task :=
  commissionTarget fuel controllerNodeId (codeTarget args) answers

def commissionOnNetwork (fuel : Nat) (controllerNodeId : NodeId) (args : Args)
    (answers : PaseTarget → CommissionAttempt) : Task :=
  commissionTarget fuel controllerNodeId (onNetworkTarget args) answers

theorem optU64_eq_some {args : Args} {key : String} {n : Nat} (h : optU64 args key = some n) :
    n < 2 ^ 64 ∧ args.get? key = some (.ofU64 (.ofNat n)) := by
  obtain ⟨v, hv, hn⟩ := Option.bind_eq_some_iff.mp h
  unfold Json.asU64 at hn
  split at hn
  · next m hlt =>
    cases hn
    have htoNat : (UInt64.ofNat n).toNat = n := UInt64.toNat_ofNat_of_lt' hlt
    exact ⟨hlt, by simp only [Json.ofU64, htoNat, hv]⟩
  · cases hn

theorem requireU64_eq_ok {args : Args} {key : String} {n : Nat}
    (h : requireU64 args key = .ok n) :
    n < 2 ^ 64 ∧ args.get? key = some (.ofU64 (.ofNat n)) := by
  unfold requireU64 at h
  split at h
  · next m hm =>
    cases h
    exact optU64_eq_some hm
  · cases h

theorem okOrInvalid_eq_ok {α : Type} {value : Option α} {details : String} {a : α}
    (h : okOrInvalid value details = .ok a) : value = some a := by
  unfold okOrInvalid at h
  split at h
  · cases h
    rfl
  · cases h

/-- An address that is not link-local is the one that the target carries. -/
theorem target_of_ipAddr {args : Args} {ipAddr : String} {target : PaseTarget}
    (harg : optStr args "ip_addr" = some ipAddr) (hfe80 : startsFe80 ipAddr = false)
    (htarget : onNetworkTarget args = .ok target) :
    ∃ passcode, target = .address passcode (ipAddr ++ ":" ++ "5540") := by
  have hfilter : (some ipAddr).filter (fun ip => !startsFe80 ip) = some ipAddr := by
    simp [hfe80]
  unfold onNetworkTarget at htarget
  rw [harg, hfilter] at htarget
  obtain ⟨pin, -, htarget⟩ := bind_eq_ok htarget
  obtain ⟨passcode, -, htarget⟩ := bind_eq_ok htarget
  obtain ⟨filter, -, htarget⟩ := bind_eq_ok htarget
  refine ⟨.ofNat passcode, (Except.ok.inj htarget).symm.trans ?_⟩
  simp [toString, String.append_assoc]

end MatterRsServer.Controller
