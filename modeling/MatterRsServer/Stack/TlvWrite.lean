import Mathlib.Data.List.Forall2
import Mathlib.Data.List.Perm.Basic
import MatterRsServer.Stack.TlvRead

/-!
# What the writer emits

A list is written item by item; a struct is written when every member is and no tag occurs
twice, and its members come out in ascending order of their tags, whatever the order of
the keys.
-/
namespace MatterRsServer.Stack
open Lib Wire Gen

/-- A struct whose members all have context tags. -/
def contextStruct (members : List (UInt8 × Tlv)) : Tlv :=
  .struct (members.map fun m => (.context m.1, m.2))

theorem toMatterEpoch_eq_some {v : Json} {offset m : Nat} :
    toMatterEpoch v offset = some m ↔ v.asU64 = some (m + offset) := by
  unfold toMatterEpoch
  cases v.asU64 with
  | none => simp
  | some n =>
    dsimp only
    rw [Option.some_inj]
    split
    · rw [Option.some_inj]
      omega
    · constructor
      · intro h
        cases h
      · intro h
        omega

/-- The two shifts are inverse to each other. -/
theorem toMatterEpoch_iff_checkedAdd {v : Json} {offset m : Nat} :
    toMatterEpoch v offset = some m ↔ checkedAdd m offset = some v := by
  rw [toMatterEpoch_eq_some]
  unfold checkedAdd
  constructor
  · intro h
    unfold Json.asU64 at h
    split at h
    next n hlt =>
      cases h
      rw [dif_pos hlt]
    · cases h
  · intro h
    split at h
    · cases h
      rfl
    · cases h

theorem exists_mem_of_forall₂ {α β : Type} {r : α → β → Prop} {l : List α} {u : List β}
    (h : List.Forall₂ r l u) {a : α} (ha : a ∈ l) : ∃ b ∈ u, r a b := by
  induction h with
  | nil => cases ha
  | cons hab _ ih =>
    rcases List.mem_cons.mp ha with rfl | ha
    · exact ⟨_, by simp, hab⟩
    · obtain ⟨b, hb, hr⟩ := ih ha
      exact ⟨b, by simp [hb], hr⟩

theorem repr_toNat_injective {m n : UInt8} (h : m.toNat.repr = n.toNat.repr) : m = n :=
  UInt8.toNat_inj.mp (Text.repr_injective h)

theorem writeItems_eq_mapM (items : List Json) (hint : Option TypeHint) :
    writeItems items hint = items.mapM fun item => writeJson item hint := by
  induction items with
  | nil =>
    rw [writeItems]
    rfl
  | cons item rest ih =>
    rw [writeItems, ih, List.mapM_cons]
    cases writeJson item hint with
    | none => rfl
    | some t => cases rest.mapM fun item => writeJson item hint <;> rfl

theorem writeItems_eq_some {items : List Json} {hint : Option TypeHint} {ts : List Tlv} :
    writeItems items hint = some ts ↔
      List.Forall₂ (fun item t => writeJson item hint = some t) items ts := by
  rw [writeItems_eq_mapM, Result.mapM_eq_some_iff]

/-- A member and what is written of it. -/
def WritesMember (resolve : Resolve) (m : String × Json) (w : UInt8 × Tlv) : Prop :=
  ∃ hint, resolve m.1 = some (w.1, hint) ∧ writeJson m.2 hint = some w.2

theorem writeMembers_eq_some {members : List (String × Json)} {resolve : Resolve}
    {ws : List (UInt8 × Tlv)} : writeMembers members resolve = some ws ↔
      List.Forall₂ (WritesMember resolve) members ws := by
  induction members generalizing ws with
  | nil =>
    rw [writeMembers, List.forall₂_nil_left_iff, Option.some_inj]
    exact eq_comm
  | cons m rest ih =>
    obtain ⟨key, v⟩ := m
    rw [writeMembers]
    constructor
    · intro h
      split at h
      next ctx hint hresolve =>
        split at h
        next t ts ht hts =>
          cases h
          exact .cons ⟨hint, hresolve, ht⟩ (ih.mp hts)
        · cases h
      · cases h
    · intro h
      cases h with
      | cons hw hws =>
        obtain ⟨hint, hresolve, ht⟩ := hw
        rw [hresolve]
        dsimp only at ht ⊢
        rw [ht, ih.mpr hws]

/-- The members are sorted unless a tag occurs twice. -/
theorem sortMembers_eq_some {written s : List (UInt8 × Tlv)} : sortMembers written = some s ↔
    (written.map Prod.fst).Nodup ∧ s = Entries.insertAll written [] := by
  change written.foldlM (fun l p => Entries.insertNew p.1 p.2 l) [] = some s ↔ _
  rw [Entries.foldlM_insertNew]
  simp [Entries.get?]

/-- A struct is written when its members are, each tag once. -/
theorem emitStruct_eq_some {members : List (String × Json)} {resolve : Resolve} {t : Tlv} :
    emitStruct members resolve = some t ↔ ∃ ws, List.Forall₂ (WritesMember resolve) members ws ∧
      (ws.map Prod.fst).Nodup ∧ t = contextStruct (Entries.insertAll ws []) := by
  rw [emitStruct]
  constructor
  · intro h
    split at h
    next ws hws =>
      obtain ⟨sorted, hsorted, rfl⟩ := Option.map_eq_some_iff.mp h
      obtain ⟨hnd, rfl⟩ := sortMembers_eq_some.mp hsorted
      exact ⟨ws, writeMembers_eq_some.mp hws, hnd, rfl⟩
    · cases h
  · rintro ⟨ws, hws, hnd, rfl⟩
    rw [writeMembers_eq_some.mpr hws]
    dsimp only
    rw [sortMembers_eq_some.mpr ⟨hnd, rfl⟩]
    rfl

section Dispatch

variable {v : Json} {ty : String}

theorem writeJson_null (ty : String) (isList : Bool) (cluster : Option Cluster) :
    writeJson .null (some ⟨ty, isList, cluster⟩) = some .null := by
  unfold writeJson writeHinted
  cases isList <;> rfl

theorem writeJson_scalar (v : Json) (ty : String) (cluster : Option Cluster) :
    writeJson v (some ⟨ty, false, cluster⟩) = writeHinted v ⟨ty, false, cluster⟩ := by
  unfold writeJson
  exact if_neg (by simp)

theorem writeJson_list (items : List Json) (ty : String) (cluster : Option Cluster) :
    writeJson (.arr items) (some ⟨ty, true, cluster⟩) =
      (writeItems items (some ⟨ty, false, cluster⟩)).map Tlv.array := by
  unfold writeJson
  exact if_pos rfl

theorem writeHinted_base {base : Base} (hv : v.isNull = false) (hbase : baseType ty = some base)
    (isList : Bool) (cluster : Option Cluster) :
    writeHinted v ⟨ty, isList, cluster⟩ = writeBase v base := by
  unfold writeHinted
  rw [if_neg (by simp [hv]), hbase]

theorem writeHinted_struct {cluster : Cluster} {nested : Struct} (hv : v.isNull = false)
    (hbase : baseType ty = none) (hstruct : cluster.findStruct ty = some nested) (isList : Bool) :
    writeHinted v ⟨ty, isList, some cluster⟩ = writeHintedStruct v nested cluster := by
  unfold writeHinted
  rw [if_neg (by simp [hv]), hbase]
  dsimp only
  rw [Option.bind_some, hstruct]
  rfl

theorem writeHinted_unresolved {cluster : Cluster} (hv : v.isNull = false)
    (hbase : baseType ty = none) (hstruct : cluster.findStruct ty = none) (isList : Bool) :
    writeHinted v ⟨ty, isList, some cluster⟩ = writeHeuristic v := by
  unfold writeHinted
  rw [if_neg (by simp [hv]), hbase]
  dsimp only
  rw [Option.bind_some, hstruct]
  rfl

end Dispatch

end MatterRsServer.Stack
