import Mathlib.Data.List.Basic

/-!
# DER integers

The content bytes of a non-negative INTEGER. An encoder that is given an unsigned number as bytes
puts a zero in front and takes off the zeros that the sign does not need; what comes out is
shortest, and only what is shortest comes out as it was.
-/
namespace MatterRsServer.Lib.Der

/-- Strip leading zeros while the following byte is below `0x80`. -/
def stripZeros : List UInt8 → List UInt8
  | first :: next :: rest =>
    if first = 0 ∧ next < 0x80 then stripZeros (next :: rest) else first :: next :: rest
  | bytes => bytes

/-- The encoding of the number with these bytes, most significant byte first. -/
def encodeInteger (bytes : List UInt8) : List UInt8 := stripZeros (0 :: bytes)

/-- The number does not read as negative, and is not padded further than its sign needs. -/
def Minimal : List UInt8 → Prop
  | [] => False
  | [first] => first < 0x80
  | first :: next :: _ => first < 0x80 ∧ ¬ (first = 0 ∧ next < 0x80)

theorem stripZeros_of_minimal {bytes : List UInt8} (h : Minimal bytes) : stripZeros bytes = bytes := by
  match bytes with
  | [_] => rfl
  | first :: next :: rest => exact if_neg h.2

/-- Each zero that goes leaves a number that is still not negative. -/
theorem minimal_stripZeros {first : UInt8} {rest : List UInt8} (h : first < 0x80) :
    Minimal (stripZeros (first :: rest)) := by
  induction rest generalizing first with
  | nil => exact h
  | cons next rest ih =>
    by_cases hstrip : first = 0 ∧ next < 0x80
    · rw [stripZeros, if_pos hstrip]
      exact ih hstrip.2
    · rw [stripZeros, if_neg hstrip]
      exact ⟨h, hstrip⟩

theorem minimal_encodeInteger (bytes : List UInt8) : Minimal (encodeInteger bytes) :=
  minimal_stripZeros (by decide)

/-- Encoding leaves exactly the shortest encodings as they are. -/
theorem encodeInteger_eq_self_iff {bytes : List UInt8} : encodeInteger bytes = bytes ↔ Minimal bytes := by
  constructor
  · intro h
    have hminimal := minimal_encodeInteger bytes
    rwa [h] at hminimal
  · intro h
    have hfirst : encodeInteger bytes = stripZeros bytes := by
      match bytes with
      | [_] => exact if_pos ⟨rfl, h⟩
      | first :: next :: rest => exact if_pos ⟨rfl, h.1⟩
    rw [hfirst, stripZeros_of_minimal h]

end MatterRsServer.Lib.Der
