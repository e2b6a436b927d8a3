import Mathlib.Order.Lattice
import Mathlib.Data.List.Basic
import Mathlib.Data.List.Forall2
import Mathlib.Data.List.Nodup

/-!
# Ordered maps

Key-sorted association lists, the iteration-order model of an ordered tree map.
The first half states the operations on raw entry lists, so that a nested
inductive can hold its members as a list; `OrdMap` then carries sortedness as a
field. Lookup laws of `insert` and `erase` hold for every entry list; only
extensionality and membership need the order.
-/
namespace MatterRsServer.Lib

namespace Entries

variable {κ ν μ : Type} [LinearOrder κ]

/-- Strictly ascending keys. -/
def Sorted (l : List (κ × ν)) : Prop := l.Pairwise (fun a b => a.1 < b.1)

def get? (k : κ) : List (κ × ν) → Option ν
  | [] => none
  | (a, v) :: l => if k = a then some v else get? k l

/-- Single-pass insertion, replacing the value of an existing key. -/
def insert (k : κ) (v : ν) : List (κ × ν) → List (κ × ν)
  | [] => [(k, v)]
  | (a, w) :: l =>
    if k < a then (k, v) :: (a, w) :: l
    else if k = a then (k, v) :: l
    else (a, w) :: insert k v l

def erase (k : κ) (l : List (κ × ν)) : List (κ × ν) := l.filter fun e => e.1 ≠ k

/-- Insert every pair from left to right, so that later pairs win. -/
def insertAll (ps : List (κ × ν)) (l : List (κ × ν)) : List (κ × ν) :=
  ps.foldl (fun acc p => insert p.1 p.2 acc) l

theorem get?_insert (k j : κ) (v : ν) (l : List (κ × ν)) :
    get? j (insert k v l) = if j = k then some v else get? j l := by
  induction l with
  | nil => rfl
  | cons e l ih =>
    obtain ⟨a, w⟩ := e
    unfold insert
    split
    · rfl
    · split
      next h => subst h; by_cases hj : j = k <;> simp [get?, hj]
      next h =>
        by_cases hj : j = a
        · subst hj; simp [get?, Ne.symm h]
        · simp [get?, hj, ih]

@[simp] theorem get?_insert_self (k : κ) (v : ν) (l : List (κ × ν)) :
    get? k (insert k v l) = some v := by simp [get?_insert]

theorem get?_insert_of_ne {k j : κ} (h : j ≠ k) (v : ν) (l : List (κ × ν)) :
    get? j (insert k v l) = get? j l := by simp [get?_insert, h]

theorem get?_filter (j : κ) (p : κ → Bool) (l : List (κ × ν)) :
    get? j (l.filter fun e => p e.1) = if p j then get? j l else none := by
  induction l with
  | nil => simp [get?]
  | cons e l ih =>
    obtain ⟨a, w⟩ := e
    by_cases hj : j = a
    · subst hj
      cases hp : p j <;> simp [hp, get?, ih]
    · cases hp : p a <;> simp [hp, get?, ih, hj]

theorem get?_erase (k j : κ) (l : List (κ × ν)) :
    get? j (erase k l) = if j = k then none else get? j l := by
  have h := get?_filter j (fun a => decide (a ≠ k)) l
  unfold erase
  rw [h]
  by_cases hj : j = k <;> simp [hj]

theorem get?_map (g : ν → μ) (k : κ) (l : List (κ × ν)) :
    get? k (l.map fun e => (e.1, g e.2)) = (get? k l).map g := by
  induction l with
  | nil => rfl
  | cons e l ih =>
    obtain ⟨a, w⟩ := e
    by_cases h : k = a <;> simp [get?, h, ih]

theorem mem_of_get? {k : κ} {v : ν} {l : List (κ × ν)} (h : get? k l = some v) : (k, v) ∈ l := by
  induction l with
  | nil => simp [get?] at h
  | cons e l ih =>
    obtain ⟨a, w⟩ := e
    by_cases hk : k = a
    · subst hk
      simp only [get?, if_true, Option.some.injEq] at h
      simp [h]
    · simp only [get?, if_neg hk] at h
      exact List.mem_cons_of_mem _ (ih h)

theorem get?_eq_none {k : κ} {l : List (κ × ν)} : get? k l = none ↔ ∀ e ∈ l, e.1 ≠ k := by
  induction l with
  | nil => simp [get?]
  | cons e l ih =>
    obtain ⟨a, w⟩ := e
    by_cases h : k = a
    · simp [get?, h]
    · simp [get?, h, ih, Ne.symm h]

theorem mem_insert {k : κ} {v : ν} {e : κ × ν} {l : List (κ × ν)} (h : e ∈ insert k v l) :
    e = (k, v) ∨ e ∈ l := by
  induction l with
  | nil => simpa [insert] using h
  | cons hd l ih =>
    obtain ⟨a, w⟩ := hd
    unfold insert at h
    split at h
    · simpa using h
    · split at h
      · simp only [List.mem_cons] at h ⊢
        exact h.imp_right Or.inr
      · simp only [List.mem_cons] at h ⊢
        rcases h with h | h
        · exact Or.inr (Or.inl h)
        · exact (ih h).imp_right Or.inr

theorem Sorted.insert {l : List (κ × ν)} (h : Sorted l) (k : κ) (v : ν) :
    Sorted (Entries.insert k v l) := by
  induction l with
  | nil => simp [Sorted, Entries.insert]
  | cons hd l ih =>
    obtain ⟨a, w⟩ := hd
    obtain ⟨hhd, htl⟩ := List.pairwise_cons.mp h
    unfold Entries.insert
    split
    next hlt =>
      refine List.pairwise_cons.mpr ⟨?_, h⟩
      intro e he
      rcases List.mem_cons.mp he with rfl | he
      · exact hlt
      · exact lt_trans hlt (hhd e he)
    next hlt =>
      split
      next heq => subst heq; exact List.pairwise_cons.mpr ⟨hhd, htl⟩
      next hne =>
        refine List.pairwise_cons.mpr ⟨?_, ih htl⟩
        intro e he
        rcases mem_insert he with rfl | he
        · exact lt_of_le_of_ne (not_lt.mp hlt) (Ne.symm hne)
        · exact hhd e he

theorem Sorted.filter {l : List (κ × ν)} (h : Sorted l) (p : κ × ν → Bool) :
    Sorted (l.filter p) := List.Pairwise.sublist List.filter_sublist h

theorem Sorted.map {l : List (κ × ν)} (h : Sorted l) (g : ν → μ) :
    Sorted (l.map fun e => (e.1, g e.2)) := by
  unfold Sorted
  rw [List.pairwise_map]
  exact h

theorem Sorted.insertAll (ps : List (κ × ν)) {l : List (κ × ν)} (h : Sorted l) :
    Sorted (Entries.insertAll ps l) := by
  induction ps generalizing l with
  | nil => exact h
  | cons p ps ih => exact ih (h.insert p.1 p.2)

/-- Below the head's key there is nothing to find. -/
theorem Sorted.get?_eq_none_of_lt {k a : κ} {w : ν} {l : List (κ × ν)} (h : Sorted ((a, w) :: l))
    (hk : k < a) : get? k l = none := by
  rw [get?_eq_none]
  intro e he heq
  have hlt := (List.pairwise_cons.mp h).1 e he
  rw [heq] at hlt
  exact lt_asymm hk hlt

theorem Sorted.get?_of_mem {k : κ} {v : ν} {l : List (κ × ν)} (h : Sorted l) (hm : (k, v) ∈ l) :
    get? k l = some v := by
  induction l with
  | nil => cases hm
  | cons hd l ih =>
    obtain ⟨a, w⟩ := hd
    obtain ⟨hhd, htl⟩ := List.pairwise_cons.mp h
    rcases List.mem_cons.mp hm with heq | hm
    · obtain ⟨rfl, rfl⟩ := Prod.mk.inj heq
      simp [get?]
    · have hlt : a < k := hhd _ hm
      simp [get?, ne_of_gt hlt, ih htl hm]

/-- Two sorted entry lists with the same lookups are the same list. -/
theorem Sorted.ext {l m : List (κ × ν)} (hl : Sorted l) (hm : Sorted m)
    (h : ∀ k, get? k l = get? k m) : l = m := by
  induction l generalizing m with
  | nil =>
    cases m with
    | nil => rfl
    | cons e m => have := h e.1; simp [get?] at this
  | cons e l ih =>
    obtain ⟨a, v⟩ := e
    cases m with
    | nil => have := h a; simp [get?] at this
    | cons f m =>
      obtain ⟨b, w⟩ := f
      have hab : a = b := by
        rcases lt_trichotomy a b with hlt | heq | hgt
        · have := h a
          simp [get?, ne_of_lt hlt, hm.get?_eq_none_of_lt hlt] at this
        · exact heq
        · have := h b
          simp [get?, ne_of_lt hgt, hl.get?_eq_none_of_lt hgt] at this
      subst hab
      have hvw : v = w := by simpa [get?] using h a
      subst hvw
      have hl' := (List.pairwise_cons.mp hl)
      have hm' := (List.pairwise_cons.mp hm)
      have htail : ∀ k, get? k l = get? k m := by
        intro k
        by_cases hk : k = a
        · subst hk
          rw [get?_eq_none.mpr (fun e he => ne_of_gt (hl'.1 e he)),
            get?_eq_none.mpr (fun e he => ne_of_gt (hm'.1 e he))]
        · simpa [get?, hk] using h k
      rw [ih hl'.2 hm'.2 htail]

theorem Sorted.nodup_keys {l : List (κ × ν)} (h : Sorted l) : (l.map Prod.fst).Nodup :=
  List.pairwise_map.mpr (h.imp fun hlt => ne_of_lt hlt)

theorem get?_insertAll_of_not_mem {k : κ} {ps : List (κ × ν)} (h : ∀ p ∈ ps, p.1 ≠ k)
    (l : List (κ × ν)) : get? k (insertAll ps l) = get? k l := by
  induction ps generalizing l with
  | nil => rfl
  | cons p ps ih =>
    have hp : k ≠ p.1 := Ne.symm (h p (by simp))
    change get? k (insertAll ps (insert p.1 p.2 l)) = _
    rw [ih (fun q hq => h q (by simp [hq])), get?_insert_of_ne hp]

/-- With distinct keys the order of insertion does not matter: every pair is found. -/
theorem get?_insertAll_of_mem {k : κ} {v : ν} {ps : List (κ × ν)}
    (hnd : (ps.map Prod.fst).Nodup) (h : (k, v) ∈ ps) (l : List (κ × ν)) :
    get? k (insertAll ps l) = some v := by
  induction ps generalizing l with
  | nil => cases h
  | cons p ps ih =>
    obtain ⟨hp, hnd⟩ := List.nodup_cons.mp hnd
    change get? k (insertAll ps (insert p.1 p.2 l)) = _
    rcases List.mem_cons.mp h with heq | hm
    · subst heq
      rw [get?_insertAll_of_not_mem]
      · simp
      · intro q hq heq
        exact hp (List.mem_map.mpr ⟨q, hq, heq⟩)
    · exact ih hnd hm _

theorem mem_insertAll {ps : List (κ × ν)} (hnd : (ps.map Prod.fst).Nodup) {e : κ × ν} :
    e ∈ insertAll ps [] ↔ e ∈ ps := by
  have hsorted : Sorted (insertAll ps []) := Sorted.insertAll ps List.Pairwise.nil
  constructor
  · intro he
    have hget := hsorted.get?_of_mem (k := e.1) (v := e.2) he
    by_cases hkey : ∀ p ∈ ps, p.1 ≠ e.1
    · rw [get?_insertAll_of_not_mem hkey] at hget
      cases hget
    · push Not at hkey
      obtain ⟨⟨k, v⟩, hp, hk⟩ := hkey
      change k = e.1 at hk
      subst hk
      rw [get?_insertAll_of_mem hnd hp] at hget
      rw [Option.some.inj hget] at hp
      exact hp
  · intro he
    exact mem_of_get? (get?_insertAll_of_mem hnd he [])

/-- With distinct keys insertion only sorts. -/
theorem perm_insertAll {ps : List (κ × ν)} (hnd : (ps.map Prod.fst).Nodup) :
    (insertAll ps []).Perm ps := by
  have hsorted : Sorted (insertAll ps []) := Sorted.insertAll ps List.Pairwise.nil
  rw [List.perm_ext_iff_of_nodup hsorted.nodup_keys.of_map hnd.of_map]
  exact fun e => mem_insertAll hnd

theorem insertAll_congr {ps qs : List (κ × ν)} (h : ps.Perm qs) (hnd : (ps.map Prod.fst).Nodup) :
    insertAll ps [] = insertAll qs [] := by
  have hps : Sorted (insertAll ps []) := Sorted.insertAll ps List.Pairwise.nil
  have hqs : Sorted (insertAll qs []) := Sorted.insertAll qs List.Pairwise.nil
  have hperm : (insertAll ps []).Perm (insertAll qs []) :=
    (perm_insertAll hnd).trans (h.trans (perm_insertAll ((h.map Prod.fst).nodup hnd)).symm)
  refine hps.ext hqs fun k => ?_
  cases hget : get? k (insertAll ps []) with
  | none =>
    rw [get?_eq_none] at hget
    exact (get?_eq_none.mpr fun e he => hget e (hperm.mem_iff.mpr he)).symm
  | some v => exact (hqs.get?_of_mem (hperm.mem_iff.mp (mem_of_get? hget))).symm

/-- With the same distinct keys in the same order, different pairs give different maps. -/
theorem insertAll_injective {ps qs : List (κ × ν)} (hkeys : ps.map Prod.fst = qs.map Prod.fst)
    (hnd : (ps.map Prod.fst).Nodup) (h : insertAll ps [] = insertAll qs []) : ps = qs := by
  have hlookup : ∀ rs : List (κ × ν), (rs.map Prod.fst).Nodup →
      rs.map (fun e => (e.1, some e.2)) =
        (rs.map Prod.fst).map fun k => (k, get? k (insertAll rs [])) := by
    intro rs hrs
    rw [List.map_map]
    refine List.map_congr_left fun e he => ?_
    exact congrArg (Prod.mk e.1) (get?_insertAll_of_mem hrs he []).symm
  have hps := hlookup ps hnd
  rw [hkeys] at hnd
  have hqs := hlookup qs hnd
  rw [hkeys, h, ← hqs] at hps
  refine List.map_injective_iff.mpr (fun a b hab => ?_) hps
  obtain ⟨hk, hv⟩ := Prod.mk.inj hab
  exact Prod.ext hk (Option.some.inj hv)

theorem insertAll_self {l : List (κ × ν)} (h : Sorted l) : insertAll l [] = l := by
  refine Sorted.ext (Sorted.insertAll l List.Pairwise.nil) h fun k => ?_
  cases hk : get? k l with
  | none => exact get?_insertAll_of_not_mem (get?_eq_none.mp hk) []
  | some v => exact get?_insertAll_of_mem h.nodup_keys (mem_of_get? hk) []

theorem mem_of_mem_insertAll {ps l : List (κ × ν)} {e : κ × ν} (h : e ∈ insertAll ps l) :
    e ∈ ps ∨ e ∈ l := by
  induction ps generalizing l with
  | nil => exact Or.inr h
  | cons p ps ih =>
    rcases ih h with hps | hl
    · exact Or.inl (List.mem_cons_of_mem _ hps)
    · rcases mem_insert hl with rfl | hl
      · exact Or.inl List.mem_cons_self
      · exact Or.inr hl

/-- Under a renaming that confuses no two of the keys, a lookup finds what it found before. -/
theorem get?_insertAll_rename {ren : κ → κ} {upd : κ → ν → μ} {ps : List (κ × ν)} {k : κ}
    (hinj : ∀ p ∈ ps, ren p.1 = ren k → p.1 = k) {l : List (κ × ν)} {m : List (κ × μ)}
    (hlm : get? (ren k) m = (get? k l).map (upd k)) :
    get? (ren k) (insertAll (ps.map fun e => (ren e.1, upd e.1 e.2)) m) =
      (get? k (insertAll ps l)).map (upd k) := by
  induction ps generalizing l m with
  | nil => exact hlm
  | cons p ps ih =>
    refine ih (fun q hq => hinj q (List.mem_cons_of_mem _ hq)) ?_
    dsimp only
    rw [get?_insert, get?_insert]
    by_cases hk : k = p.1
    · subst hk
      rw [if_pos rfl, if_pos rfl]
      rfl
    · have hne : ren k ≠ ren p.1 := fun heq => hk (hinj p List.mem_cons_self heq.symm).symm
      rw [if_neg hk, if_neg hne, hlm]

/-- Renaming the keys of a map is renaming those of the pairs it was collected from. -/
theorem insertAll_rename (ren : κ → κ) (upd : κ → ν → μ) {ps : List (κ × ν)}
    (hinj : ∀ p ∈ ps, ∀ q ∈ ps, ren p.1 = ren q.1 → p.1 = q.1) :
    insertAll ((insertAll ps []).map fun e => (ren e.1, upd e.1 e.2)) [] =
      insertAll (ps.map fun e => (ren e.1, upd e.1 e.2)) [] := by
  have hsub : ∀ e ∈ insertAll ps [], e ∈ ps :=
    fun e he => (mem_of_mem_insertAll he).resolve_right (by simp)
  refine Sorted.ext (Sorted.insertAll _ List.Pairwise.nil) (Sorted.insertAll _ List.Pairwise.nil)
    fun j => ?_
  by_cases hj : ∃ p ∈ ps, ren p.1 = j
  · obtain ⟨p, hp, rfl⟩ := hj
    rw [get?_insertAll_rename (fun q hq => hinj q hq p hp) (l := []) rfl,
      get?_insertAll_rename (fun q hq => hinj q (hsub q hq) p hp) (l := []) rfl,
      insertAll_self (Sorted.insertAll ps List.Pairwise.nil)]
  · push Not at hj
    rw [get?_insertAll_of_not_mem, get?_insertAll_of_not_mem]
    · rintro _ hq rfl
      obtain ⟨p, hp, rfl⟩ := List.mem_map.mp hq
      exact hj p hp rfl
    · rintro _ hq rfl
      obtain ⟨p, hp, rfl⟩ := List.mem_map.mp hq
      exact hj p (hsub p hp) rfl
/-- Insertion that refuses a key that is there already. -/
def insertNew (k : κ) (v : ν) (l : List (κ × ν)) : Option (List (κ × ν)) :=
  if (get? k l).isSome then none else some (insert k v l)

/-- Pairs are collected one by one unless a key occurs twice. -/
theorem foldlM_insertNew {ps l s : List (κ × ν)} :
    ps.foldlM (fun l p => insertNew p.1 p.2 l) l = some s ↔ (ps.map Prod.fst).Nodup ∧
      (∀ p ∈ ps, get? p.1 l = none) ∧ s = insertAll ps l := by
  induction ps generalizing l with
  | nil => simp [insertAll, eq_comm]
  | cons p ps ih =>
    rw [List.foldlM_cons, insertNew]
    cases hget : get? p.1 l with
    | some t => simp [hget]
    | none =>
      change ps.foldlM (fun l p => insertNew p.1 p.2 l) (insert p.1 p.2 l) = some s ↔ _
      rw [ih, List.map_cons, List.nodup_cons, List.forall_mem_cons]
      constructor
      · rintro ⟨hnd, hnone, rfl⟩
        refine ⟨⟨fun hmem => ?_, hnd⟩, ⟨hget, fun q hq => ?_⟩, rfl⟩
        · obtain ⟨q, hq, hkey⟩ := List.mem_map.mp hmem
          have hself := hnone q hq
          rw [hkey, get?_insert_self] at hself
          cases hself
        · have hp := hnone q hq
          rw [get?_insert] at hp
          split at hp
          · cases hp
          · exact hp
      · rintro ⟨⟨hmem, hnd⟩, ⟨_, hnone⟩, rfl⟩
        refine ⟨hnd, fun q hq => ?_, rfl⟩
        have hne : q.1 ≠ p.1 := fun heq => hmem (List.mem_map.mpr ⟨q, hq, heq⟩)
        rw [get?_insert_of_ne hne]
        exact hnone q hq

/-- Entries under the same keys. -/
def SameKey (r : ν → μ → Prop) (a : κ × ν) (b : κ × μ) : Prop := a.1 = b.1 ∧ r a.2 b.2

omit [LinearOrder κ] in
theorem map_fst_eq_of_sameKey {r : ν → μ → Prop} {l : List (κ × ν)} {m : List (κ × μ)}
    (h : List.Forall₂ (SameKey r) l m) : l.map Prod.fst = m.map Prod.fst := by
  induction h with
  | nil => rfl
  | cons hab _ ih => rw [List.map_cons, List.map_cons, hab.1, ih]

theorem forall₂_insert {r : ν → μ → Prop} {k : κ} {v : ν} {w : μ} (hvw : r v w)
    {l : List (κ × ν)} {m : List (κ × μ)} (h : List.Forall₂ (SameKey r) l m) :
    List.Forall₂ (SameKey r) (insert k v l) (insert k w m) := by
  induction h with
  | nil => exact .cons ⟨rfl, hvw⟩ .nil
  | @cons a b l m hab hlm ih =>
    obtain ⟨ka, va⟩ := a
    obtain ⟨kb, vb⟩ := b
    obtain ⟨hkey, hr⟩ := hab
    change ka = kb at hkey
    subst hkey
    unfold insert
    split
    · exact .cons ⟨rfl, hvw⟩ (.cons ⟨rfl, hr⟩ hlm)
    · split
      · exact .cons ⟨rfl, hvw⟩ hlm
      · exact .cons ⟨rfl, hr⟩ ih

/-- Collecting related pairs gives related entries. -/
theorem forall₂_insertAll {r : ν → μ → Prop} {ps : List (κ × ν)} {qs : List (κ × μ)}
    (h : List.Forall₂ (SameKey r) ps qs) {l : List (κ × ν)} {m : List (κ × μ)}
    (hlm : List.Forall₂ (SameKey r) l m) :
    List.Forall₂ (SameKey r) (insertAll ps l) (insertAll qs m) := by
  induction h generalizing l m with
  | nil => exact hlm
  | @cons p q ps qs hpq _ ih =>
    obtain ⟨hkey, hr⟩ := hpq
    refine ih ?_
    dsimp only
    rw [hkey]
    exact forall₂_insert hr hlm
theorem isSome_get?_of_sameKey {r : ν → μ → Prop} {l : List (κ × ν)} {m : List (κ × μ)}
    (h : List.Forall₂ (SameKey r) l m) (k : κ) : (get? k l).isSome = (get? k m).isSome := by
  induction h with
  | nil => rfl
  | @cons a b l m hab _ ih =>
    rw [get?, get?, hab.1]
    split
    · rfl
    · exact ih

/-- Related values are accepted or refused alike. -/
theorem rel_insertNew {r : ν → μ → Prop} {k : κ} {v : ν} {w : μ} (hvw : r v w)
    {l : List (κ × ν)} {m : List (κ × μ)} (h : List.Forall₂ (SameKey r) l m) :
    Option.Rel (List.Forall₂ (SameKey r)) (insertNew k v l) (insertNew k w m) := by
  unfold insertNew
  rw [isSome_get?_of_sameKey h k]
  split
  · exact .none
  · exact .some (forall₂_insert hvw h)

end Entries

/-- The numeric order of machine words, as map keys. -/
instance instLinearOrderUInt64 : LinearOrder UInt64 where
  le_refl := UInt64.le_refl
  le_trans _ _ _ := UInt64.le_trans
  le_antisymm _ _ := UInt64.le_antisymm
  le_total := UInt64.le_total
  lt_iff_le_not_ge _ _ := by simp only [UInt64.le_iff_toNat_le, UInt64.lt_iff_toNat_lt]; omega
  toDecidableLE := inferInstance
  toDecidableEq := inferInstance
  toDecidableLT := inferInstance

instance instLinearOrderUInt8 : LinearOrder UInt8 where
  le_refl := UInt8.le_refl
  le_trans _ _ _ := UInt8.le_trans
  le_antisymm _ _ := UInt8.le_antisymm
  le_total := UInt8.le_total
  lt_iff_le_not_ge _ _ := by simp only [UInt8.le_iff_toNat_le, UInt8.lt_iff_toNat_lt]; omega
  toDecidableLE := inferInstance
  toDecidableEq := inferInstance
  toDecidableLT := inferInstance

/-- A finite map with keys in ascending order. -/
structure OrdMap (κ ν : Type) [LinearOrder κ] where
  entries : List (κ × ν)
  sorted : Entries.Sorted entries

namespace OrdMap

variable {κ ν μ : Type} [LinearOrder κ]

instance [DecidableEq ν] : DecidableEq (OrdMap κ ν) := fun a b =>
  decidable_of_iff (a.entries = b.entries)
    ⟨fun h => by cases a; cases b; cases h; rfl, fun h => h ▸ rfl⟩

def empty : OrdMap κ ν := ⟨[], List.Pairwise.nil⟩

instance : EmptyCollection (OrdMap κ ν) := ⟨empty⟩
instance : Inhabited (OrdMap κ ν) := ⟨empty⟩

def get? (m : OrdMap κ ν) (k : κ) : Option ν := Entries.get? k m.entries
def contains (m : OrdMap κ ν) (k : κ) : Bool := (m.get? k).isSome
def insert (m : OrdMap κ ν) (k : κ) (v : ν) : OrdMap κ ν := ⟨_, m.sorted.insert k v⟩
def erase (m : OrdMap κ ν) (k : κ) : OrdMap κ ν := ⟨_, m.sorted.filter fun e => e.1 ≠ k⟩
def filter (m : OrdMap κ ν) (p : κ → Bool) : OrdMap κ ν := ⟨_, m.sorted.filter fun e => p e.1⟩
def mapVal (m : OrdMap κ ν) (g : ν → μ) : OrdMap κ μ := ⟨_, m.sorted.map g⟩
def keys (m : OrdMap κ ν) : List κ := m.entries.map Prod.fst

/-- Collect pairs; a repeated key keeps its last value. -/
def ofList (ps : List (κ × ν)) : OrdMap κ ν :=
  ⟨Entries.insertAll ps [], Entries.Sorted.insertAll ps List.Pairwise.nil⟩

/-- `f` applied to the entry of `k`, when there is one. -/
def modify (m : OrdMap κ ν) (k : κ) (f : ν → ν) : OrdMap κ ν :=
  match m.get? k with
  | some v => m.insert k (f v)
  | none => m

theorem ext {a b : OrdMap κ ν} (h : ∀ k, a.get? k = b.get? k) : a = b := by
  have he : a.entries = b.entries := a.sorted.ext b.sorted h
  cases a; cases b; cases he; rfl

@[simp] theorem get?_empty (k : κ) : (∅ : OrdMap κ ν).get? k = none := rfl

theorem get?_insert (m : OrdMap κ ν) (k j : κ) (v : ν) :
    (m.insert k v).get? j = if j = k then some v else m.get? j := Entries.get?_insert k j v _

@[simp] theorem get?_insert_self (m : OrdMap κ ν) (k : κ) (v : ν) :
    (m.insert k v).get? k = some v := Entries.get?_insert_self k v _

theorem get?_insert_of_ne (m : OrdMap κ ν) {k j : κ} (h : j ≠ k) (v : ν) :
    (m.insert k v).get? j = m.get? j := Entries.get?_insert_of_ne h v _

theorem mem_keys {m : OrdMap κ ν} {k : κ} : k ∈ m.keys ↔ m.contains k = true := by
  simp only [keys, List.mem_map, contains, get?, Option.isSome_iff_exists]
  constructor
  · rintro ⟨e, he, rfl⟩
    exact ⟨e.2, m.sorted.get?_of_mem he⟩
  · rintro ⟨v, hv⟩
    exact ⟨(k, v), Entries.mem_of_get? hv, rfl⟩

theorem contains_insert (m : OrdMap κ ν) (k j : κ) (v : ν) :
    (m.insert k v).contains j = (decide (j = k) || m.contains j) := by
  simp only [contains, get?_insert]
  split <;> simp [*]

/-- Collecting a map's own entries gives the map back. -/
theorem ofList_entries (m : OrdMap κ ν) : ofList m.entries = m := by
  refine ext fun k => ?_
  change Entries.get? k (Entries.insertAll m.entries []) = Entries.get? k m.entries
  rw [Entries.insertAll_self m.sorted]

theorem insert_of_get? {m : OrdMap κ ν} {k : κ} {v : ν} (h : m.get? k = some v) : m.insert k v = m := by
  refine ext fun j => ?_
  by_cases hj : j = k
  · subst hj; simp [h]
  · exact get?_insert_of_ne m hj v

/-- Of two insertions under one key only the later one shows. -/
theorem insert_insert (m : OrdMap κ ν) (k : κ) (v w : ν) : (m.insert k v).insert k w = m.insert k w := by
  refine ext fun j => ?_
  by_cases hj : j = k
  · subst hj; simp
  · simp [get?_insert_of_ne _ hj]

theorem insert_comm (m : OrdMap κ ν) {k j : κ} (h : k ≠ j) (v w : ν) :
    (m.insert k v).insert j w = (m.insert j w).insert k v := by
  refine ext fun i => ?_
  simp only [get?_insert]
  by_cases hi : i = j
  · subst hi; simp [h.symm]
  · simp [hi]

theorem get?_erase (m : OrdMap κ ν) (k j : κ) :
    (m.erase k).get? j = if j = k then none else m.get? j := Entries.get?_erase k j _

theorem contains_erase (m : OrdMap κ ν) (k j : κ) :
    (m.erase k).contains j = (!decide (j = k) && m.contains j) := by
  simp only [contains, get?_erase]
  split <;> simp [*]

@[simp] theorem get?_erase_self (m : OrdMap κ ν) (k : κ) : (m.erase k).get? k = none := by
  simp [get?_erase]

theorem erase_insert (m : OrdMap κ ν) (k : κ) (v : ν) : (m.insert k v).erase k = m.erase k := by
  apply ext
  intro j
  rw [get?_erase, get?_erase]
  split
  · rfl
  next hj => rw [get?_insert_of_ne _ hj]

theorem get?_filter (m : OrdMap κ ν) (p : κ → Bool) (j : κ) :
    (m.filter p).get? j = if p j then m.get? j else none := Entries.get?_filter j p _

theorem get?_mapVal (m : OrdMap κ ν) (g : ν → μ) (k : κ) :
    (m.mapVal g).get? k = (m.get? k).map g := Entries.get?_map g k _

theorem get?_modify (m : OrdMap κ ν) (k j : κ) (f : ν → ν) :
    (m.modify k f).get? j = if j = k then (m.get? k).map f else m.get? j := by
  unfold modify
  by_cases hj : j = k
  · subst hj
    cases h : m.get? j <;> simp [h]
  · cases h : m.get? k <;> simp [hj, get?_insert]

@[simp] theorem get?_modify_self (m : OrdMap κ ν) (k : κ) (f : ν → ν) :
    (m.modify k f).get? k = (m.get? k).map f := by simp [get?_modify]

end OrdMap

end MatterRsServer.Lib
