import MatterRsServer.Lib.Der
import MatterRsServer.Stack.Identity

/-!
# Serial numbers that peers re-encode

`serial_is_der_canonical` of `crates/stack/src/identity.rs`. A peer signs and hashes the serial
number as it encodes it itself, so a root certificate is of use only where that changes nothing.
-/
namespace MatterRsServer.Stack
open Lib Controller

/-- The sign bit of a byte. -/
theorem and_0x80_eq_zero_iff (b : UInt8) : b &&& 0x80 = 0 ↔ b < 0x80 := by
  have hall : ∀ n < 256, (UInt8.ofNat n &&& 0x80 = 0 ↔ UInt8.ofNat n < 0x80) := by decide +kernel
  have hb := hall b.toNat b.toNat_lt
  rwa [UInt8.ofNat_toNat] at hb

namespace RsMatter

variable {μ κ : Type}

/-- Two bytes decide it. -/
theorem serialIsDerCanonical_iff_minimal (rs : RsMatter μ κ) {cert serial : Bytes}
    (hserial : rs.serialNumber cert = .ok serial) :
    rs.serialIsDerCanonical cert = .ok true ↔ Der.Minimal serial := by
  unfold serialIsDerCanonical
  rw [hserial]
  match serial with
  | [] => simp [Except.map, Der.Minimal]
  | [first] =>
    have hsign := and_0x80_eq_zero_iff first
    by_cases hfirst : first < 0x80
    · simp [Except.map, Der.Minimal, hsign.mpr hfirst, hfirst]
    · have hset : ¬ (first &&& 0x80 = 0) := fun h => hfirst (hsign.mp h)
      simp [Except.map, Der.Minimal, hset, hfirst]
  | first :: next :: rest =>
    have hsign := and_0x80_eq_zero_iff first
    have hnext := and_0x80_eq_zero_iff next
    by_cases hfirst : first < 0x80
    · simp [Except.map, Der.Minimal, hsign.mpr hfirst, hfirst, hnext, imp_iff_not_or]
    · have hset : ¬ (first &&& 0x80 = 0) := fun h => hfirst (hsign.mp h)
      simp [Except.map, Der.Minimal, hset, hfirst]

/-- The serial number of a root certificate that was drawn is what every peer makes of it. -/
theorem encodeInteger_of_generateUsableRcac {rs : RsMatter μ κ} {fabricId : UInt64} {k k' : κ}
    {priv rcac serial : Bytes} (h : rs.generateUsableRcac fabricId k = (.ok (priv, rcac), k'))
    (hserial : rs.serialNumber rcac = .ok serial) : Der.encodeInteger serial = serial :=
  Der.encodeInteger_eq_self_iff.mpr
    ((serialIsDerCanonical_iff_minimal rs hserial).mp (canonical_of_drawRcac h))

/-- A serial number is canonical exactly if there is one and its DER encoding is the same. -/
theorem serialIsDerCanonical_iff (rs : RsMatter μ κ) {cert serial : Bytes}
    (hserial : rs.serialNumber cert = .ok serial) :
    rs.serialIsDerCanonical cert = .ok true ↔
      serial ≠ [] ∧ Der.encodeInteger serial = serial := by
  rw [serialIsDerCanonical_iff_minimal rs hserial, Der.encodeInteger_eq_self_iff]
  constructor
  · intro h
    refine ⟨?_, h⟩
    rintro rfl
    exact h
  · exact fun h => h.2

/-- The octet string under context tag 1 of a certificate that holds nothing else. -/
def onlySerial : Bytes → Except String Bytes
  | 0x15 :: 0x30 :: 0x01 :: length :: rest =>
    if rest.length = length.toNat + 1 ∧ rest.getLast? = some 0x18 then .ok rest.dropLast
    else .error "TLVNotFound"
  | _ => .error "TLVNotFound"

def signByte : Bytes := [0x00, 0x80]

theorem serialIsDerCanonical_iff_signByte :
    { plainMatter with serialNumber := onlySerial }.serialIsDerCanonical
        [0x15, 0x30, 0x01, 2, 0x00, 0x80, 0x18] = .ok true ↔
      signByte ≠ [] ∧ Der.encodeInteger signByte = signByte :=
  serialIsDerCanonical_iff _ rfl

end RsMatter

end MatterRsServer.Stack
