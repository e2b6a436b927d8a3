import Mathlib.Data.List.Basic
import Mathlib.Data.List.Nodup
import Mathlib.Data.List.Induction

/-!
# Operations grouped by key

A sequence of keyed operations is applied to a list that holds one value for each key, in the
order in which the keys first occur. The list that results is the one in which every
key's value is the fold of its own operations alone.
-/
namespace MatterRsServer.Lib.Grouping

variable {κ ν ω : Type} [DecidableEq κ]

/-- Change the value of `k` in place, or push the first value of `k`. -/
def upsert (k : κ) (f : Option ν → ν) : List (κ × ν) → List (κ × ν)
  | [] => [(k, f none)]
  | (a, v) :: l => if a = k then (a, f (some v)) :: l else (a, v) :: upsert k f l

/-- The operations under one key. -/
def own (k : κ) (ops : List (κ × ω)) : List ω := (ops.filter fun o => o.1 = k).map Prod.snd

/-- Operations applied in turn, from nothing. -/
def foldOps (act : ω → Option ν → ν) (ops : List ω) : Option ν :=
  ops.foldl (fun v o => some (act o v)) none

/-- All operations, each on its key's entry. -/
def group (act : ω → Option ν → ν) (ops : List (κ × ω)) (l : List (κ × ν)) : List (κ × ν) :=
  ops.foldl (fun l o => upsert o.1 (act o.2) l) l

theorem lookup_cons_of_ne {j a : κ} (h : j ≠ a) (v : ν) (l : List (κ × ν)) :
    ((a, v) :: l).lookup j = l.lookup j := by
  rw [List.lookup_cons, beq_false_of_ne h]

/-- Where no key occurs twice, the entries are what a lookup finds. -/
theorem lookup_eq_some_iff_mem {l : List (κ × ν)} (hnodup : (l.map Prod.fst).Nodup) {k : κ}
    {v : ν} : l.lookup k = some v ↔ (k, v) ∈ l := by
  induction l with
  | nil => simp
  | cons e l ih =>
    obtain ⟨a, w⟩ := e
    obtain ⟨ha, hnodup⟩ := List.nodup_cons.mp hnodup
    by_cases hk : k = a
    · subst hk
      have hl : (k, v) ∉ l := fun hmem => ha (List.mem_map.mpr ⟨_, hmem, rfl⟩)
      simp [hl, eq_comm]
    · rw [lookup_cons_of_ne hk, ih hnodup, List.mem_cons, Prod.mk.injEq]
      simp [hk]

theorem lookup_upsert (k j : κ) (f : Option ν → ν) (l : List (κ × ν)) :
    (upsert k f l).lookup j = if j = k then some (f (l.lookup k)) else l.lookup j := by
  induction l with
  | nil =>
    by_cases hj : j = k
    · subst hj; simp [upsert]
    · rw [upsert, lookup_cons_of_ne hj, if_neg hj]
  | cons e l ih =>
    obtain ⟨a, v⟩ := e
    unfold upsert
    by_cases hak : a = k
    · subst hak
      by_cases hja : j = a
      · subst hja; simp
      · simp [lookup_cons_of_ne hja, hja]
    · rw [if_neg hak, lookup_cons_of_ne (Ne.symm hak)]
      by_cases hja : j = a
      · subst hja; simp [hak]
      · rw [lookup_cons_of_ne hja, lookup_cons_of_ne hja, ih]

theorem keys_upsert (k : κ) (f : Option ν → ν) (l : List (κ × ν)) :
    (upsert k f l).map Prod.fst =
      if k ∈ l.map Prod.fst then l.map Prod.fst else l.map Prod.fst ++ [k] := by
  induction l with
  | nil => simp [upsert]
  | cons e l ih =>
    obtain ⟨a, v⟩ := e
    unfold upsert
    by_cases hak : a = k
    · simp [hak]
    · rw [if_neg hak, List.map_cons, ih]
      by_cases hmem : k ∈ l.map Prod.fst
      · rw [if_pos hmem, if_pos (by simp [hmem])]
        rfl
      · rw [if_neg hmem, if_neg (by simpa [Ne.symm hak] using hmem)]
        rfl

/-- Of a key that has no entry yet the upsert is a push. -/
theorem upsert_of_not_mem {k : κ} {l : List (κ × ν)} (h : k ∉ l.map Prod.fst) (f : Option ν → ν) :
    upsert k f l = l ++ [(k, f none)] := by
  induction l with
  | nil => rfl
  | cons e l ih =>
    obtain ⟨a, v⟩ := e
    simp only [List.map_cons, List.mem_cons, not_or] at h
    unfold upsert
    rw [if_neg (Ne.symm h.1), ih h.2]
    rfl

/-- Of a key whose only entry is at `i` the upsert changes that entry. -/
theorem upsert_eq_modify {k : κ} {i : Nat} {l : List (κ × ν)} (hnodup : (l.map Prod.fst).Nodup)
    (hi : (l.map Prod.fst)[i]? = some k) (f : Option ν → ν) :
    upsert k f l = l.modify i fun e => (e.1, f (some e.2)) := by
  induction l generalizing i with
  | nil => simp at hi
  | cons e l ih =>
    obtain ⟨a, v⟩ := e
    obtain ⟨ha, hnodup⟩ := List.nodup_cons.mp hnodup
    unfold upsert
    cases i with
    | zero =>
      have hak : a = k := by simpa using hi
      simp [hak]
    | succ i =>
      have hi' : (l.map Prod.fst)[i]? = some k := by simpa using hi
      have hak : a ≠ k := fun heq => ha (by rw [heq]; exact List.mem_of_getElem? hi')
      rw [if_neg hak, ih hnodup hi']
      rfl

theorem lookup_group (act : ω → Option ν → ν) (ops : List (κ × ω)) (l : List (κ × ν)) (k : κ) :
    (group act ops l).lookup k = (own k ops).foldl (fun v o => some (act o v)) (l.lookup k) := by
  unfold group own
  induction ops generalizing l with
  | nil => rfl
  | cons o ops ih =>
    rw [List.foldl_cons, ih, lookup_upsert]
    by_cases hk : o.1 = k
    · simp [hk]
    · simp [hk, Ne.symm hk]

theorem keys_group (act : ω → Option ν → ν) (ops : List (κ × ω)) :
    (group act ops []).map Prod.fst = (ops.map Prod.fst).eraseDups := by
  induction ops using List.reverseRec with
  | nil => rfl
  | append_singleton ops o ih =>
    have hgroup : group act (ops ++ [o]) [] = upsert o.1 (act o.2) (group act ops []) := by
      simp [group]
    rw [hgroup, keys_upsert, ih, List.map_append, List.eraseDups_append]
    by_cases hmem : o.1 ∈ ops.map Prod.fst
    · rw [if_pos (List.mem_eraseDups.mpr hmem)]
      simp [List.removeAll, hmem]
    · rw [if_neg (fun h => hmem (List.mem_eraseDups.mp h))]
      simp [List.removeAll, hmem, List.eraseDups_cons]

/-- Renaming the keys one to one renames the groups. -/
theorem group_map_key {μ : Type} [DecidableEq μ] {g : κ → μ} (hg : ∀ a b, g a = g b → a = b)
    (act : ω → Option ν → ν) (ops : List (κ × ω)) (l : List (κ × ν)) :
    group act (ops.map fun o => (g o.1, o.2)) (l.map fun e => (g e.1, e.2)) =
      (group act ops l).map fun e => (g e.1, e.2) := by
  have hupsert : ∀ (k : κ) (f : Option ν → ν) (l : List (κ × ν)),
      upsert (g k) f (l.map fun e => (g e.1, e.2)) =
        (upsert k f l).map fun e => (g e.1, e.2) := by
    intro k f l
    induction l with
    | nil => rfl
    | cons e l ih =>
      obtain ⟨a, v⟩ := e
      by_cases hak : a = k
      · simp [upsert, hak]
      · have hne : g a ≠ g k := fun h => hak (hg _ _ h)
        simpa [upsert, hak, hne] using ih
  unfold group
  induction ops generalizing l with
  | nil => rfl
  | cons o ops ih =>
    rw [List.map_cons, List.foldl_cons, List.foldl_cons, hupsert]
    exact ih _

/-- Renaming the keys one to one keeps each key's operations. -/
theorem own_map_key {μ : Type} [DecidableEq μ] {g : κ → μ} (hg : ∀ a b, g a = g b → a = b) (k : κ)
    (ops : List (κ × ω)) : own (g k) (ops.map fun o => (g o.1, o.2)) = own k ops := by
  unfold own
  induction ops with
  | nil => rfl
  | cons o ops ih =>
    by_cases hk : o.1 = k
    · simpa [hk] using ih
    · have hne : g o.1 ≠ g k := fun h => hk (hg _ _ h)
      simpa [hk, hne] using ih

end MatterRsServer.Lib.Grouping
