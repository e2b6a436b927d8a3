import MatterRsServer.Wire.Json
import MatterRsServer.Lib.Text
import MatterRsServer.Lib.Base64

/-!
# TLV elements

What the program sees of a TLV element through its reader: the value, without the
width of an integer's encoding, and the members of a container. A part that the
reader cannot parse is an element or a tag of its own. The writer builds the same
trees.
-/
namespace MatterRsServer.Stack
open Lib Wire

/-- The tag of a struct member; every tag that is not a context tag is skipped alike. -/
inductive Tag where
  | context (n : UInt8)
  | other
  | malformed
deriving DecidableEq

inductive Tlv where
  | uint (n : UInt64)
  | sint (i : Int64)
  | bool (b : Bool)
  | f32 (bits : UInt32)
  | f64 (bits : UInt64)
  | utf8 (bytes : ByteArray)
  | octets (bytes : ByteArray)
  | null
  | struct (members : List (Tag × Tlv))
  | array (items : List Tlv)
  | list (items : List Tlv)
  | malformed

/-- `Value::from(i64)`. -/
def jsonOfI64 (i : Int64) : Json :=
  if h : i.toInt < 0 then
    .num (.negInt (-i.toInt).toNat (by omega) (by have := i.le_toInt; omega))
  else .num (.posInt i.toInt.toNat (by have := i.toInt_lt; omega))

/-- `Value::from(f64)`: a number, or null when it is not finite. -/
def jsonOfF64 (f : Float) : Json := if f.isFinite then .num (.float f.toBits) else .null

/-- The standard base64 engine. -/
def base64Encode (bytes : ByteArray) : String := .ofList (Base64.encode bytes.data.toList)

def base64Decode (s : String) : Option ByteArray :=
  (Base64.decode s.toList).map fun bytes => ⟨bytes.toArray⟩

/-- `str::parse::<u8>`. -/
def parseU8 (s : String) : Option UInt8 := (Text.parseUnsigned 256 s.toList).map UInt8.ofNat

@[simp] theorem parseU8_repr (n : UInt8) : parseU8 n.toNat.repr = some n := by
  unfold parseU8
  rw [Text.parseUnsigned_repr n.toNat_lt]
  simp

@[simp] theorem base64Decode_encode (bytes : ByteArray) :
    base64Decode (base64Encode bytes) = some bytes := by
  simp [base64Decode, base64Encode, Base64.decode_encode]

theorem base64Encode_of_decode {s : String} {bytes : ByteArray} (h : base64Decode s = some bytes) :
    base64Encode bytes = s := by
  obtain ⟨raw, hraw, rfl⟩ := Option.map_eq_some_iff.mp h
  simp [base64Encode, Base64.encode_of_decode hraw]

@[simp] theorem asU64_ofU64 (n : UInt64) : (Json.ofU64 n).asU64 = some n.toNat := rfl

theorem asU64_lt {v : Json} {n : Nat} (h : v.asU64 = some n) : n < 2 ^ 64 := by
  unfold Json.asU64 at h
  split at h
  next m hlt =>
    cases h
    exact hlt
  next => cases h

theorem asI64_range {v : Json} {i : Int} (h : v.asI64 = some i) : -2 ^ 63 ≤ i ∧ i < 2 ^ 63 := by
  unfold Json.asI64 at h
  split at h
  next m hlt =>
    split at h
    · cases h
      omega
    · cases h
  next m hpos hle =>
    cases h
    omega
  next => cases h

@[simp] theorem asI64_jsonOfI64 (i : Int64) : (jsonOfI64 i).asI64 = some i.toInt := by
  have hlo := i.le_toInt
  have hhi := i.toInt_lt
  unfold jsonOfI64
  split
  next h => simp only [Json.asI64, Option.some.injEq]; omega
  next h =>
    simp only [Json.asI64]
    rw [if_pos (by omega), Option.some.injEq]
    omega

end MatterRsServer.Stack
