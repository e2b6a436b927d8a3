import Mathlib.Data.List.Nodup

/-!
# First occurrences

A list from which everything that has been seen before is dropped, as a hash set next to the list
does it.
-/
namespace MatterRsServer.Lib

variable {α β : Type} [DecidableEq α] [DecidableEq β]

def firstSeen : List α → List α → List α
  | _, [] => []
  | seen, a :: l => if a ∈ seen then firstSeen seen l else a :: firstSeen (a :: seen) l

theorem mem_firstSeen {seen l : List α} {a : α} : a ∈ firstSeen seen l ↔ a ∈ l ∧ a ∉ seen := by
  induction l generalizing seen with
  | nil => simp [firstSeen]
  | cons b l ih =>
    unfold firstSeen
    split
    next hb =>
      rw [ih, List.mem_cons]
      constructor
      · rintro ⟨ha, hnot⟩
        exact ⟨.inr ha, hnot⟩
      · rintro ⟨rfl | ha, hnot⟩
        · exact absurd hb hnot
        · exact ⟨ha, hnot⟩
    next hb =>
      rw [List.mem_cons, ih, List.mem_cons, List.mem_cons]
      by_cases hab : a = b
      · subst hab
        simp [hb]
      · simp [hab]

theorem nodup_firstSeen (seen l : List α) : (firstSeen seen l).Nodup := by
  induction l generalizing seen with
  | nil => exact List.nodup_nil
  | cons b l ih =>
    unfold firstSeen
    split
    · exact ih seen
    · exact List.nodup_cons.mpr ⟨fun h => (mem_firstSeen.mp h).2 (by simp), ih (b :: seen)⟩

/-- What is kept is in the order in which it came first. -/
theorem idxOf_firstSeen_lt {seen l : List α} {a b : α} (ha : a ∈ firstSeen seen l)
    (hb : b ∈ firstSeen seen l) :
    (firstSeen seen l).idxOf a < (firstSeen seen l).idxOf b ↔ l.idxOf a < l.idxOf b := by
  induction l generalizing seen with
  | nil => cases ha
  | cons c l ih =>
    unfold firstSeen at ha hb ⊢
    split
    next hc =>
      rw [if_pos hc] at ha hb
      have hne : ∀ {x : α}, x ∈ firstSeen seen l → c ≠ x := by
        rintro x hx rfl
        exact (mem_firstSeen.mp hx).2 hc
      rw [ih ha hb, List.idxOf_cons_ne _ (hne ha), List.idxOf_cons_ne _ (hne hb)]
      omega
    next hc =>
      rw [if_neg hc] at ha hb
      rcases List.mem_cons.mp ha with rfl | ha'
      · by_cases hba : a = b
        · subst hba
          simp
        · simp [List.idxOf_cons_self, List.idxOf_cons_ne _ hba]
      · have hca : c ≠ a := by
          rintro rfl
          exact (mem_firstSeen.mp ha').2 (by simp)
        rcases List.mem_cons.mp hb with rfl | hb'
        · simp [List.idxOf_cons_self]
        · have hcb : c ≠ b := by
            rintro rfl
            exact (mem_firstSeen.mp hb').2 (by simp)
          rw [List.idxOf_cons_ne _ hca, List.idxOf_cons_ne _ hcb, List.idxOf_cons_ne _ hca,
            List.idxOf_cons_ne _ hcb]
          have hrest := ih ha' hb'
          omega

/-- It makes no difference whether repetitions are dropped before as well. -/
theorem firstSeen_map_firstSeen (f : α → β) {seen : List α} {seen' : List β}
    (h : ∀ a ∈ seen, f a ∈ seen') (l : List α) :
    firstSeen seen' ((firstSeen seen l).map f) = firstSeen seen' (l.map f) := by
  induction l generalizing seen seen' with
  | nil => rfl
  | cons c l ih =>
    rw [List.map_cons, firstSeen]
    split
    next hc =>
      rw [ih h, firstSeen, if_pos (h c hc)]
    next hc =>
      rw [List.map_cons, firstSeen, firstSeen]
      split
      next hfc =>
        refine ih fun a ha => ?_
        rcases List.mem_cons.mp ha with rfl | ha
        · exact hfc
        · exact h a ha
      next hfc =>
        rw [ih fun a ha => ?_]
        rcases List.mem_cons.mp ha with rfl | ha
        · simp
        · exact List.mem_cons_of_mem _ (h a ha)

end MatterRsServer.Lib
