import Mathlib.Data.List.Sort

/-!
# Sorting by a key and dropping repeated keys

A stable sort by key followed by the removal of consecutive equal keys keeps, of the elements
with one key, exactly the one that stood first.
-/
namespace MatterRsServer.Lib.ByKey

variable {α κ : Type} [LinearOrder κ]

/-- `Vec::sort_by_key`, which is stable. -/
def sortByKey (key : α → κ) (l : List α) : List α :=
  l.insertionSort fun a b => key a ≤ key b

/-- Drop the elements with the key of the one kept last. -/
def dedupAfter (key : α → κ) (k : κ) : List α → List α
  | [] => []
  | a :: l => if key a = k then dedupAfter key k l else a :: dedupAfter key (key a) l

/-- `Vec::dedup_by_key`. -/
def dedupByKey (key : α → κ) : List α → List α
  | [] => []
  | a :: l => a :: dedupAfter key (key a) l

variable {key : α → κ}

theorem filter_orderedInsert (k : κ) (a : α) (l : List α) :
    (l.orderedInsert (fun a b => key a ≤ key b) a).filter (fun b => key b = k) =
      (a :: l).filter fun b => key b = k := by
  induction l with
  | nil => simp
  | cons b l ih =>
    rw [List.orderedInsert_cons]
    by_cases hab : key a ≤ key b
    · rw [if_pos hab]
    · rw [if_neg hab, List.filter_cons, ih]
      by_cases hb : key b = k
      · have ha : key a ≠ k := by
          rintro rfl
          exact hab hb.ge
        simp [hb, ha]
      · simp [List.filter_cons, hb]

/-- Elements with one key keep their order. -/
theorem filter_sortByKey (k : κ) (l : List α) :
    (sortByKey key l).filter (fun b => key b = k) = l.filter fun b => key b = k := by
  induction l with
  | nil => rfl
  | cons a l ih =>
    calc (sortByKey key (a :: l)).filter (fun b => key b = k)
        = (a :: sortByKey key l).filter (fun b => key b = k) :=
          filter_orderedInsert k a (sortByKey key l)
      _ = (a :: l).filter (fun b => key b = k) := by
          simp only [List.filter_cons, ih]

theorem pairwise_sortByKey (l : List α) : (sortByKey key l).Pairwise fun a b => key a ≤ key b := by
  have : IsTrans α fun a b => key a ≤ key b := ⟨fun _ _ _ => le_trans⟩
  have : Std.Total fun a b : α => key a ≤ key b := ⟨fun a b => le_total (key a) (key b)⟩
  exact List.pairwise_insertionSort _ l

theorem filter_cons_dedupAfter {k : κ} {a : α} {l : List α}
    (h : (a :: l).Pairwise fun a b => key a ≤ key b) :
    (a :: dedupAfter key (key a) l).filter (fun b => key b = k) =
      ((a :: l).find? fun b => key b = k).toList := by
  induction l generalizing a with
  | nil => by_cases ha : key a = k <;> simp [dedupAfter, ha]
  | cons b l ih =>
    obtain ⟨ha, hl⟩ := List.pairwise_cons.mp h
    unfold dedupAfter
    by_cases hba : key b = key a
    · -- a repeated key: the element goes, and is not the first with its key
      have hskip : (a :: l).Pairwise fun a b => key a ≤ key b :=
        h.sublist ((List.sublist_cons_self b l).cons_cons a)
      rw [if_pos hba, ih hskip]
      by_cases hak : key a = k <;> simp [hba, hak]
    · rw [if_neg hba]
      by_cases hak : key a = k
      · have hnone : (b :: l).find? (fun c => key c = k) = none := by
          refine List.find?_eq_none.mpr fun c hc => ?_
          have hbc : key b ≤ key c := by
            rcases List.mem_cons.mp hc with rfl | hc
            · exact le_refl _
            · exact (List.pairwise_cons.mp hl).1 c hc
          have hlt : k < key c := by
            rw [← hak]
            exact lt_of_lt_of_le (lt_of_le_of_ne (ha b (by simp)) (Ne.symm hba)) hbc
          simpa using hlt.ne'
        rw [List.filter_cons_of_pos (by simpa using hak), ih hl, hnone,
          List.find?_cons_of_pos (by simpa using hak)]
        rfl
      · have hfind : (a :: b :: l).find? (fun c => key c = k) = (b :: l).find? fun c => key c = k :=
          List.find?_cons_of_neg (by simpa using hak)
        rw [List.filter_cons_of_neg (by simpa using hak), ih hl, hfind]

/-- Of the elements with one key the first one is kept. -/
theorem filter_dedupByKey_sortByKey (k : κ) (l : List α) :
    (dedupByKey key (sortByKey key l)).filter (fun b => key b = k) =
      (l.find? fun b => key b = k).toList := by
  have hsorted : (sortByKey key l).Pairwise fun a b => key a ≤ key b := pairwise_sortByKey l
  have hfind : (sortByKey key l).find? (fun b => key b = k) = l.find? fun b => key b = k := by
    rw [← List.head?_filter, filter_sortByKey, List.head?_filter]
  rw [← hfind]
  cases hcons : sortByKey key l with
  | nil => rfl
  | cons a l =>
    rw [hcons] at hsorted
    exact filter_cons_dedupAfter hsorted

end MatterRsServer.Lib.ByKey
