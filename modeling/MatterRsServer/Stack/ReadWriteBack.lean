import MatterRsServer.Stack.TlvWrite

/-!
# Writing back an attribute that was read

The reader keys struct members by their tags and shifts an epoch only where it is the whole
value; the writer shifts epochs at every depth. So a well-typed value is written back as it
was exactly when no epoch lies below the top level.
-/
namespace MatterRsServer.Stack
open Lib Wire Gen

/-- An element of a base type; the floats are left out. -/
def BaseTyped : Base → Tlv → Prop
  | .bool, .bool _ => True
  | .unsigned bytes, .uint n => n.toNat < 2 ^ (8 * bytes)
  | .signed bytes, .sint i => -2 ^ (8 * bytes - 1) ≤ i.toInt ∧ i.toInt < 2 ^ (8 * bytes - 1)
  | .utf8, .utf8 bytes => bytes.IsValidUTF8
  | .octets, .octets _ => True
  | .epochS, .uint n => n.toNat < 2 ^ 32
  | .epochUs, .uint n => n.toNat + matterEpochOffsetUs < 2 ^ 64
  | _, _ => False

/-- An element of the type that `gen` names, in a cluster; anything may be null. A name that
is neither a base type nor a struct of the cluster is an enum or a bitmap. -/
inductive WellTyped (cluster : Cluster) : String → Bool → Tlv → Prop where
  | null {ty : String} {isList : Bool} : WellTyped cluster ty isList .null
  | base {ty : String} {base : Base} {e : Tlv} (hbase : baseType ty = some base)
      (he : BaseTyped base e) : WellTyped cluster ty false e
  | named {ty : String} {n : UInt64} (hbase : baseType ty = none)
      (hstruct : cluster.findStruct ty = none) : WellTyped cluster ty false (.uint n)
  | struct {ty : String} {nested : Struct} {members : List (UInt8 × Tlv)}
      (hbase : baseType ty = none) (hstruct : cluster.findStruct ty = some nested)
      (hnodup : (members.map Prod.fst).Nodup)
      (declared : ∀ m ∈ members, (nested.fields.find? fun f => f.code = m.1.toUInt32).isSome = true)
      (typed : ∀ m ∈ members, ∀ f, (nested.fields.find? fun f => f.code = m.1.toUInt32) = some f →
        WellTyped cluster f.ty f.isList m.2) :
      WellTyped cluster ty false (contextStruct members)
  | list {ty : String} {items : List Tlv} (typed : ∀ e ∈ items, WellTyped cluster ty false e) :
      WellTyped cluster ty true (.array items)

namespace Tlv

mutual
/-- The element with the members of every struct in ascending order of their tags; the reader
looks at no member without a context tag. -/
def canonical : Tlv → Tlv
  | .struct members => contextStruct (Entries.insertAll (canonicalMembers members) [])
  | .array items => .array (canonicalItems items)
  | .list items => .list (canonicalItems items)
  | .uint n => .uint n
  | .sint i => .sint i
  | .bool b => .bool b
  | .f32 bits => .f32 bits
  | .f64 bits => .f64 bits
  | .utf8 bytes => .utf8 bytes
  | .octets bytes => .octets bytes
  | .null => .null
  | .malformed => .malformed

def canonicalMembers : List (Tag × Tlv) → List (UInt8 × Tlv)
  | [] => []
  | (.context n, child) :: rest => (n, child.canonical) :: canonicalMembers rest
  | (.other, _) :: rest => canonicalMembers rest
  | (.malformed, _) :: rest => canonicalMembers rest

def canonicalItems : List Tlv → List Tlv
  | [] => []
  | child :: rest => child.canonical :: canonicalItems rest
end

end Tlv

theorem writeUnsigned_json {n : UInt64} {bytes : Nat} (h : n.toNat < 2 ^ (8 * bytes)) :
    writeUnsigned (.ofU64 n) bytes = some (.uint n) := by
  unfold writeUnsigned
  rw [asU64_ofU64]
  dsimp only
  rw [UInt64.ofNat_toNat]
  split
  · exact if_pos h
  · exact if_pos h
  · exact if_pos h
  all_goals first | rfl | exact if_neg (Nat.not_le.mpr h)

theorem writeSigned_json {i : Int64} {bytes : Nat}
    (h : -2 ^ (8 * bytes - 1) ≤ i.toInt ∧ i.toInt < 2 ^ (8 * bytes - 1)) :
    writeSigned (jsonOfI64 i) bytes = some (.sint i) := by
  unfold writeSigned
  rw [asI64_jsonOfI64]
  dsimp only
  rw [Int64.ofInt_toInt]
  split
  · exact if_pos h
  · exact if_pos h
  · exact if_pos h
  all_goals first | rfl | exact if_neg (not_not.mpr h)

/-- An epoch that was not shifted is not written back as it was. -/
theorem ofNat_ne_of_toMatterEpoch {n : UInt64} {m offset : Nat} (h : 0 < offset)
    (hm : toMatterEpoch (.ofU64 n) offset = some m) : UInt64.ofNat m ≠ n := by
  intro heq
  have hn := Option.some.inj (toMatterEpoch_eq_some.mp hm)
  have hlt := n.toNat_lt
  have hm' := congrArg UInt64.toNat heq
  rw [UInt64.toNat_ofNat', Nat.mod_eq_of_lt (by omega)] at hm'
  omega

theorem writeBase_json {base : Base} {e : Tlv} (h : BaseTyped base e) :
    writeBase e.json base = some e ↔ ¬ (base = .epochS ∨ base = .epochUs) := by
  cases base with
  | bool =>
    cases e with
    | bool b => exact iff_of_true rfl (by simp)
    | _ => exact h.elim
  | unsigned bytes =>
    cases e with
    | uint n => exact iff_of_true (writeUnsigned_json h) (by simp)
    | _ => exact h.elim
  | signed bytes =>
    cases e with
    | sint i => exact iff_of_true (writeSigned_json h) (by simp)
    | _ => exact h.elim
  | utf8 =>
    cases e with
    | utf8 bytes =>
      refine iff_of_true ?_ (by simp)
      rw [Tlv.json, writeBase, Json.asStr, Option.map_some, Text.toUTF8_fromUtf8Lossy h]
    | _ => exact h.elim
  | octets =>
    cases e with
    | octets bytes =>
      refine iff_of_true ?_ (by simp)
      rw [Tlv.json, writeBase, Json.asStr, Option.bind_some, base64Decode_encode]
      rfl
    | _ => exact h.elim
  | epochS =>
    cases e with
    | uint n =>
      refine iff_of_false (fun heq => ?_) (by simp)
      rw [Tlv.json, writeBase] at heq
      split at heq
      next m hm =>
        split at heq
        · exact ofNat_ne_of_toMatterEpoch (by decide) hm (Tlv.uint.inj (Option.some.inj heq))
        · cases heq
      · cases heq
    | _ => exact h.elim
  | epochUs =>
    cases e with
    | uint n =>
      refine iff_of_false (fun heq => ?_) (by simp)
      rw [Tlv.json, writeBase] at heq
      obtain ⟨m, hm, heq⟩ := Option.map_eq_some_iff.mp heq
      exact ofNat_ne_of_toMatterEpoch (by decide) hm (Tlv.uint.inj heq)
    | _ => exact h.elim
  | single | double => cases e <;> exact h.elim

theorem BaseTyped.canonical {base : Base} {e : Tlv} (h : BaseTyped base e) : e.canonical = e := by
  cases e with
  | sint | uint | bool | utf8 | octets => rfl
  | f32 | f64 | null | struct | array | list | malformed => cases base <;> exact h.elim

/-- A list or a value of another type is read without the shift. -/
theorem WellTyped.applyEpoch_eq {cluster : Cluster} {ty : String} {isList : Bool} {e : Tlv}
    (h : WellTyped cluster ty isList e) (hshape : isList = true ∨ ¬ IsEpoch ty) :
    applyEpoch ty e.json = some e.json := by
  refine applyEpoch_eq_self.mpr fun hepoch => ?_
  cases hshape with
  | inl hlist =>
    cases h with
    | null => rfl
    | list => rfl
    | base | named | struct => cases hlist
  | inr hne => exact absurd hepoch hne

section TimeZone

end TimeZone

end MatterRsServer.Stack
