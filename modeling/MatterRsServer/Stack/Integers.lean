import MatterRsServer.Stack.Canonical
import MatterRsServer.Stack.NamedAgrees

/-!
# Integers and epochs, to the last value

`write_unsigned`, `write_signed`, `to_matter_epoch` and `apply_epoch` of `tlv_json.rs`, over
the calls that the writer makes. Widths of 3, 5, 6 and 7 bytes have no type of their own:
their bounds are a one shifted into place in 64 bits.
-/
namespace MatterRsServer.Stack
open Lib Wire Gen

/-- The integer that a JSON value is; what `serde_json` holds as a float is none. -/
def jsonInteger : Json → Option Int
  | .num (.posInt n _) => some n
  | .num (.negInt m _ _) => some (-m)
  | _ => none

theorem asU64_eq_some {v : Json} {n : Nat} : v.asU64 = some n ↔ jsonInteger v = some (n : Int) := by
  match v with
  | .num (.posInt m _) => simp only [Json.asU64, jsonInteger, Option.some.injEq, Int.natCast_inj]
  | .num (.negInt m hpos _) =>
    simp only [Json.asU64, jsonInteger, reduceCtorEq, Option.some.injEq, false_iff]
    omega
  | .num (.float _) | .null | .bool _ | .str _ | .arr _ | .obj _ => simp [Json.asU64, jsonInteger]

theorem asI64_eq_some {v : Json} {i : Int} :
    v.asI64 = some i ↔ jsonInteger v = some i ∧ -2 ^ 63 ≤ i ∧ i < 2 ^ 63 := by
  match v with
  | .num (.posInt m _) =>
    simp only [Json.asI64, jsonInteger, Option.ite_none_right_eq_some, Option.some.injEq]
    omega
  | .num (.negInt m _ hle) =>
    simp only [Json.asI64, jsonInteger, Option.some.injEq]
    omega
  | .num (.float _) | .null | .bool _ | .str _ | .arr _ | .obj _ => simp [Json.asI64, jsonInteger]

theorem any_asU64 {v : Json} {bound : Nat} :
    (v.asU64.any fun n => n < bound) = true ↔ ∃ i, jsonInteger v = some i ∧ 0 ≤ i ∧ i < bound := by
  simp only [Option.any_eq_true, asU64_eq_some, decide_eq_true_eq]
  constructor
  · rintro ⟨n, hn, hlt⟩
    exact ⟨n, hn, by omega⟩
  · rintro ⟨i, hi, hpos, hlt⟩
    refine ⟨i.toNat, ?_, by omega⟩
    rw [hi, Int.toNat_of_nonneg hpos]

/-- `1u64 << (bytes as u32 * 8)`. -/
def unsignedLimit (bytes : UInt8) : UInt64 := 1 <<< (bytes.toUInt64 * 8)

/-- `1i64 << (bytes as u32 * 8 - 1)`. -/
def signedLimit (bytes : UInt8) : Int64 := 1 <<< (bytes.toUInt64 * 8 - 1).toInt64

/-- The shifted bounds are the powers that the range checks compare with: neither the shift nor
the negation of its result overflows. -/
theorem limits_exact {bytes : UInt8} (h : bytes ∈ [3, 5, 6, 7]) :
    (unsignedLimit bytes).toNat = 2 ^ (bytes.toNat * 8) ∧
      (signedLimit bytes).toInt = 2 ^ (bytes.toNat * 8 - 1) ∧
      (-signedLimit bytes).toInt = -2 ^ (bytes.toNat * 8 - 1) := by
  simp only [List.mem_cons, List.not_mem_nil, or_false] at h
  rcases h with rfl | rfl | rfl | rfl <;> decide

theorem tlvToJson_element (s : Scalar) : tlvToJson s.element = some s.element.json :=
  by cases s <;> rfl

theorem exists_scalar_iff {x : Option Scalar} {y : Option Tlv} (h : x.map Scalar.element = y) :
    (∃ s, x = some s) ↔ y.isSome = true := by
  rw [← h, Option.isSome_map, Option.isSome_iff_exists]

/-- `write_unsigned` at one width. -/
structure UnsignedExact (bytes : UInt8) : Prop where
  succeeds_iff (v : Json) : (∃ s, Calls.writeUnsigned v bytes.toNat = some s) ↔
    ∃ i, jsonInteger v = some i ∧ 0 ≤ i ∧ i < 2 ^ (8 * bytes.toNat)
  decodes {v : Json} {s : Scalar} (h : Calls.writeUnsigned v bytes.toNat = some s) :
    (∃ n, s.element = .uint n) ∧ tlvToJson s.element = some v
  limit (h : bytes ∈ [3, 5, 6, 7]) : (unsignedLimit bytes).toNat = 2 ^ (bytes.toNat * 8)

/-- `write_signed` at one width. -/
structure SignedExact (bytes : UInt8) : Prop where
  succeeds_iff (v : Json) : (∃ s, Calls.writeSigned v bytes.toNat = some s) ↔
    ∃ i, jsonInteger v = some i ∧ -2 ^ (8 * bytes.toNat - 1) ≤ i ∧ i < 2 ^ (8 * bytes.toNat - 1)
  decodes {v : Json} {s : Scalar} (h : Calls.writeSigned v bytes.toNat = some s) :
    (∃ i, s.element = .sint i) ∧ tlvToJson s.element = some v
  limit (h : bytes ∈ [3, 5, 6, 7]) : (signedLimit bytes).toInt = 2 ^ (bytes.toNat * 8 - 1) ∧
    (-signedLimit bytes).toInt = -2 ^ (bytes.toNat * 8 - 1)

/-- An epoch type, whose matter values are below `bound`. -/
structure EpochExact (ty : String) (base : Base) (offset bound : Nat) : Prop where
  declared : baseType ty = some base
  succeeds_iff (v : Json) : (∃ s, Calls.writeBase v base = some s) ↔
    ∃ i, jsonInteger v = some i ∧ (offset : Int) ≤ i ∧ i - offset < bound
  returns {v : Json} {s : Scalar} (h : Calls.writeBase v base = some s) :
    (tlvToJson s.element).bind (applyEpoch ty) = some v
  fails_iff (v : Json) : applyEpoch ty v = none ↔
    ∃ i, jsonInteger v = some i ∧ 0 ≤ i ∧ 2 ^ 64 ≤ i + offset

theorem unsignedExact {bytes : UInt8} (h : 1 ≤ bytes ∧ bytes ≤ 8) : UnsignedExact bytes where
  succeeds_iff v := by
    have hwidth : bytes.toNat ≠ 0 := by
      have := UInt8.le_iff_toNat_le.mp h.1
      have hone : (1 : UInt8).toNat = 1 := rfl
      omega
    rw [exists_scalar_iff (Calls.writeUnsigned_element v bytes.toNat),
      writeUnsigned_isSome v hwidth, any_asU64]
    push_cast
    rfl
  decodes {v s} hs := by
    have hwrite : writeUnsigned v bytes.toNat = some s.element := by
      rw [← Calls.writeUnsigned_element, hs, Option.map_some]
    obtain ⟨n, _, helement⟩ := writeUnsigned_eq hwrite
    exact ⟨⟨_, helement⟩, by rw [tlvToJson_element, (writeUnsigned_read hwrite).2]⟩
  limit h := (limits_exact h).1

theorem signedExact {bytes : UInt8} (h : 1 ≤ bytes ∧ bytes ≤ 8) : SignedExact bytes where
  succeeds_iff v := by
    have hle : (1 : UInt8).toNat ≤ bytes.toNat := UInt8.le_iff_toNat_le.mp h.1
    have hge : bytes.toNat ≤ (8 : UInt8).toNat := UInt8.le_iff_toNat_le.mp h.2
    have hone : (1 : UInt8).toNat = 1 := rfl
    have height : (8 : UInt8).toNat = 8 := rfl
    rw [exists_scalar_iff (Calls.writeSigned_element v bytes.toNat),
      writeSigned_isSome v (by omega), Option.any_eq_true]
    simp only [asI64_eq_some, decide_eq_true_eq]
    -- no width holds more than `i64` does
    have hpow : (2 : Int) ^ (8 * bytes.toNat - 1) ≤ 2 ^ 63 := by
      exact_mod_cast Nat.pow_le_pow_right (show 0 < 2 by decide)
        (show 8 * bytes.toNat - 1 ≤ 63 by omega)
    constructor
    · rintro ⟨i, ⟨hi, _⟩, hrange⟩
      exact ⟨i, hi, hrange⟩
    · rintro ⟨i, hi, hlow, hhigh⟩
      exact ⟨i, ⟨hi, (Int.neg_le_neg hpow).trans hlow, lt_of_lt_of_le hhigh hpow⟩, hlow, hhigh⟩
  decodes {v s} hs := by
    have hwrite : writeSigned v bytes.toNat = some s.element := by
      rw [← Calls.writeSigned_element, hs, Option.map_some]
    obtain ⟨i, _, helement⟩ := writeSigned_eq hwrite
    exact ⟨⟨_, helement⟩, by rw [tlvToJson_element, (writeSigned_read hwrite).2]⟩
  limit h := (limits_exact h).2

/-- A shift fails only for an unsigned number, and only when it leaves 64 bits. -/
theorem applyEpoch_eq_none {ty : String} {offset : Nat} (h : epochOffset ty = some offset)
    (v : Json) : applyEpoch ty v = none ↔
      ∃ i, jsonInteger v = some i ∧ 0 ≤ i ∧ 2 ^ 64 ≤ i + offset := by
  rw [applyEpoch_eq, shiftOverflows, h]
  cases hn : v.asU64 with
  | none =>
    refine iff_of_false (by simp) ?_
    rintro ⟨i, hi, hpos, _⟩
    have hsome : v.asU64 = some i.toNat := asU64_eq_some.mpr (by rw [hi, Int.toNat_of_nonneg hpos])
    rw [hn] at hsome
    cases hsome
  | some m =>
    simp only [ite_eq_left_iff, reduceCtorEq, imp_false, not_not, decide_eq_true_eq,
      asU64_eq_some.mp hn, Option.some.injEq, exists_eq_left']
    omega

theorem toMatterEpoch_lt {v : Json} {offset bound : Nat} :
    (∃ m, toMatterEpoch v offset = some m ∧ m < bound) ↔
      ∃ i, jsonInteger v = some i ∧ (offset : Int) ≤ i ∧ i - offset < bound := by
  simp only [toMatterEpoch_eq_some, asU64_eq_some]
  constructor
  · rintro ⟨m, hm, hlt⟩
    exact ⟨_, hm, by omega⟩
  · rintro ⟨i, hi, hle, hlt⟩
    refine ⟨(i - offset).toNat, ?_, by omega⟩
    rw [hi]
    congr 1
    omega

theorem writeBase_epochS {v : Json} {s : Scalar} : Calls.writeBase v .epochS = some s ↔
    ∃ m, toMatterEpoch v matterEpochOffsetS = some m ∧ m < 2 ^ 32 ∧ s = .u32 (UInt32.ofNat m) := by
  unfold Calls.writeBase
  cases toMatterEpoch v matterEpochOffsetS with
  | none => simp
  | some m =>
    simp only [Option.ite_none_right_eq_some, Option.some.injEq, exists_eq_left',
      eq_comm (a := s)]

theorem writeBase_epochUs {v : Json} {s : Scalar} : Calls.writeBase v .epochUs = some s ↔
    ∃ m, toMatterEpoch v matterEpochOffsetUs = some m ∧ m < 2 ^ 64 ∧
      s = .u64 (UInt64.ofNat m) := by
  rw [Calls.writeBase, Option.map_eq_some_iff]
  constructor
  · rintro ⟨m, hm, rfl⟩
    have hlt := asU64_lt (toMatterEpoch_eq_some.mp hm)
    exact ⟨m, hm, by omega, rfl⟩
  · rintro ⟨m, hm, _, rfl⟩
    exact ⟨m, hm, rfl⟩

/-- What is read back of a shifted number is shifted to the number again. -/
theorem applyEpoch_of_written {ty : String} {offset m : Nat} {v : Json}
    (h : epochOffset ty = some offset) (hm : toMatterEpoch v offset = some m) :
    applyEpoch ty (.ofU64 (UInt64.ofNat m)) = some v := by
  have hv := toMatterEpoch_eq_some.mp hm
  have hlt := asU64_lt hv
  rw [applyEpoch_eq, shiftOverflows, shiftEpoch, h, asU64_of_toMatterEpoch hm]
  dsimp only
  rw [if_neg (by simpa using hlt), ofU64_ofNat hv]

theorem epochExact_s : EpochExact "epoch_s" .epochS matterEpochOffsetS (2 ^ 32) where
  declared := baseType_epochS
  succeeds_iff v := by
    simp only [writeBase_epochS, ← toMatterEpoch_lt]
    constructor
    · rintro ⟨_, m, hm, hlt, _⟩
      exact ⟨m, hm, hlt⟩
    · rintro ⟨m, hm, hlt⟩
      exact ⟨_, m, hm, hlt, rfl⟩
  returns {v s} hs := by
    obtain ⟨m, hm, hlt, rfl⟩ := writeBase_epochS.mp hs
    have hnarrow : (UInt32.ofNat m).toUInt64 = UInt64.ofNat m := by
      rw [← UInt64.toNat_inj, UInt32.toNat_toUInt64, UInt32.toNat_ofNat', UInt64.toNat_ofNat']
      omega
    rw [tlvToJson_element, Scalar.element, hnarrow, Tlv.json, Option.bind_some]
    exact applyEpoch_of_written (by rw [epochOffset, baseType_epochS]) hm
  fails_iff := applyEpoch_eq_none (by rw [epochOffset, baseType_epochS])

theorem epochExact_us : EpochExact "epoch_us" .epochUs matterEpochOffsetUs (2 ^ 64) where
  declared := baseType_epochUs
  succeeds_iff v := by
    simp only [writeBase_epochUs, ← toMatterEpoch_lt]
    constructor
    · rintro ⟨_, m, hm, hlt, _⟩
      exact ⟨m, hm, hlt⟩
    · rintro ⟨m, hm, hlt⟩
      exact ⟨_, m, hm, hlt, rfl⟩
  returns {v s} hs := by
    obtain ⟨m, hm, hlt, rfl⟩ := writeBase_epochUs.mp hs
    rw [tlvToJson_element, Scalar.element, Tlv.json, Option.bind_some]
    exact applyEpoch_of_written (by rw [epochOffset, baseType_epochUs]) hm
  fails_iff := applyEpoch_eq_none (by rw [epochOffset, baseType_epochUs])

/-- Every width writes the integers of its range and no others, under a type of its own sign,
and reads them back; the epochs are shifted by what they are shifted back. -/
theorem integers_exact (bytes : UInt8) (h : 1 ≤ bytes ∧ bytes ≤ 8) :
    UnsignedExact bytes ∧ SignedExact bytes ∧
      EpochExact "epoch_s" .epochS matterEpochOffsetS (2 ^ 32) ∧
      EpochExact "epoch_us" .epochUs matterEpochOffsetUs (2 ^ 64) :=
  ⟨unsignedExact h, signedExact h, epochExact_s, epochExact_us⟩

theorem integers_exact_int24 : UnsignedExact 3 ∧ SignedExact 3 ∧
    EpochExact "epoch_s" .epochS matterEpochOffsetS (2 ^ 32) ∧
    EpochExact "epoch_us" .epochUs matterEpochOffsetUs (2 ^ 64) :=
  integers_exact 3 (by decide)

end MatterRsServer.Stack
