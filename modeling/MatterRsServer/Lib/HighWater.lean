import Mathlib.Order.Lattice
import Mathlib.Data.List.Basic
import Mathlib.Data.List.Pairwise
import Mathlib.Data.List.Induction

/-!
# High-water filter

Numbered items are let through when their number is above every number seen since the
filter was last cleared. A window is opened and closed: closing it clears the filter, and
items are judged while it is open. Within one window what is let through is strictly
increasing and above everything seen before.
-/
namespace MatterRsServer.Lib.HighWater

/-- What happens to a filter: `reset` closes the window, `forget` only clears the filter, `seen`
items are noted and go nowhere. -/
inductive Mark (ν : Type) where
  | reset
  | forget
  | opened
  | seen (k : ν)
  | judged (k : ν) (passed : Bool)

variable {ν : Type}

def openAfter (isOpen : Bool) : Mark ν → Bool
  | .reset => false
  | .opened => true
  | _ => isOpen

def isOpen (marks : List (Mark ν)) : Bool := marks.foldl openAfter false

/-- The numbers that passed, in order. -/
def passed (marks : List (Mark ν)) : List ν :=
  marks.filterMap fun
    | .judged k true => some k
    | _ => none

/-- The numbers noted, whether they passed or not. -/
def noted (marks : List (Mark ν)) : List ν :=
  marks.filterMap fun
    | .seen k => some k
    | .judged k _ => some k
    | _ => none

/-- The marks since the filter was last cleared. -/
def sinceClear (marks : List (Mark ν)) : List (Mark ν) :=
  marks.foldl (fun kept m => match m with
    | .reset => []
    | .forget => []
    | m => kept ++ [m]) []

theorem noted_concat (marks : List (Mark ν)) (m : Mark ν) :
    noted (marks ++ [m]) = noted marks ++ noted [m] := by
  simp [noted]

theorem passed_append (l m : List (Mark ν)) : passed (l ++ m) = passed l ++ passed m := by
  simp [passed]

variable [LinearOrder ν]

/-- Whether a number is above the level. -/
def fresh (level : Option ν) (k : ν) : Bool :=
  match level with
  | some seen => decide (seen < k)
  | none => true

/-- The level after a number was noted. -/
def raise (level : Option ν) (k : ν) : Option ν := if fresh level k then some k else level

def levelAfter (level : Option ν) : Mark ν → Option ν
  | .reset => none
  | .forget => none
  | .opened => level
  | .seen k => raise level k
  | .judged k _ => raise level k

/-- The highest number since the filter was last cleared. -/
def level (marks : List (Mark ν)) : Option ν := marks.foldl levelAfter none

/-- Items are judged while the window is open, by comparison with the level. -/
def Judged (w : Option ν) (o : Bool) : List (Mark ν) → Prop
  | [] => True
  | m :: rest =>
    (∀ k f, m = .judged k f → o = true ∧ f = fresh w k) ∧
      Judged (levelAfter w m) (openAfter o m) rest

theorem level_concat (marks : List (Mark ν)) (m : Mark ν) :
    level (marks ++ [m]) = levelAfter (level marks) m := by
  simp [level]

/-- A number is fresh after a raise when it is above the level and the number noted. -/
theorem fresh_raise {w : Option ν} {j k : ν} :
    fresh (raise w j) k = true ↔ fresh w k = true ∧ j < k := by
  unfold raise
  cases w with
  | none => simp [fresh]
  | some seen =>
    by_cases hj : seen < j
    · simp only [fresh, hj, decide_true, if_true, decide_eq_true_eq]
      constructor
      · intro hk
        exact ⟨hj.trans hk, hk⟩
      · exact And.right
    · simp only [fresh, hj, decide_false, Bool.false_eq_true, if_false, decide_eq_true_eq]
      constructor
      · intro hk
        exact ⟨hk, (not_lt.mp hj).trans_lt hk⟩
      · exact And.left

/-- The level stands for everything noted since the filter was cleared. -/
theorem fresh_level {marks : List (Mark ν)} {k : ν} :
    fresh (level marks) k = true ↔ ∀ j ∈ noted (sinceClear marks), j < k := by
  induction marks using List.reverseRecOn with
  | nil => simp [level, fresh, sinceClear, noted]
  | append_singleton marks m ih =>
    rw [level_concat, sinceClear, List.foldl_concat, ← sinceClear]
    have hnoted : ∀ j, fresh (raise (level marks) j) k = true ↔
        ∀ i ∈ noted (sinceClear marks) ++ [j], i < k := by
      intro j
      rw [fresh_raise, ih]
      simp [or_imp, forall_and]
    cases m with
    | reset => simp [levelAfter, fresh, noted]
    | forget => simp [levelAfter, fresh, noted]
    | opened =>
      rw [noted_concat]
      simpa [levelAfter, noted] using ih
    | seen j =>
      rw [noted_concat]
      exact hnoted j
    | judged j f =>
      rw [noted_concat]
      exact hnoted j

theorem Judged.append {w : Option ν} {o : Bool} {l m : List (Mark ν)} :
    Judged w o (l ++ m) ↔
      Judged w o l ∧ Judged (l.foldl levelAfter w) (l.foldl openAfter o) m := by
  induction l generalizing w o with
  | nil => simp [Judged]
  | cons a l ih => simp only [List.cons_append, Judged, List.foldl_cons, ih, and_assoc]

/-- An item passes exactly when its number is above everything noted since the last clear. -/
theorem Judged.passed_iff {pre post : List (Mark ν)} {k : ν} {f : Bool}
    (h : Judged none false (pre ++ .judged k f :: post)) :
    f = true ↔ ∀ j ∈ noted (sinceClear pre), j < k := by
  obtain ⟨_, hjudged, _⟩ := Judged.append.mp h
  obtain ⟨_, hf⟩ := hjudged k f rfl
  rw [hf]
  exact fresh_level

/-- The window stays closed until it is opened. -/
theorem Judged.closed {w : Option ν} {marks : List (Mark ν)} (h : Judged w false marks)
    (hopened : .opened ∉ marks) : passed marks = [] := by
  induction marks generalizing w with
  | nil => rfl
  | cons m rest ih =>
    obtain ⟨hm, hrest⟩ := h
    have hrest' : .opened ∉ rest := fun hmem => hopened (List.mem_cons_of_mem _ hmem)
    cases m with
    | opened => exact absurd List.mem_cons_self hopened
    | judged k f => exact absurd (hm k f rfl).1 Bool.false_ne_true
    | reset => exact ih hrest hrest'
    | forget => exact ih hrest hrest'
    | seen k => exact ih hrest hrest'

/-- Within one window what passes is strictly increasing, and above the level at its start. -/
theorem Judged.increasing {w : Option ν} {o : Bool} {marks : List (Mark ν)} (h : Judged w o marks)
    (hopened : .opened ∉ marks) (hforget : .forget ∉ marks) :
    (passed marks).Pairwise (· < ·) ∧ ∀ k ∈ passed marks, fresh w k = true := by
  induction marks generalizing w o with
  | nil => exact ⟨List.Pairwise.nil, fun k hk => by cases hk⟩
  | cons m rest ih =>
    obtain ⟨hm, hrest⟩ := h
    have hopened' : .opened ∉ rest := fun hmem => hopened (List.mem_cons_of_mem _ hmem)
    have hforget' : .forget ∉ rest := fun hmem => hforget (List.mem_cons_of_mem _ hmem)
    cases m with
    | opened => exact absurd List.mem_cons_self hopened
    | forget => exact absurd List.mem_cons_self hforget
    | reset =>
      have hnone : passed (Mark.reset :: rest) = [] := hrest.closed hopened'
      rw [hnone]
      exact ⟨List.Pairwise.nil, fun k hk => by cases hk⟩
    | seen j =>
      obtain ⟨hincreasing, habove⟩ := ih hrest hopened' hforget'
      exact ⟨hincreasing, fun k hk => (fresh_raise.mp (habove k hk)).1⟩
    | judged j f =>
      obtain ⟨hincreasing, habove⟩ := ih hrest hopened' hforget'
      have habove' : ∀ k ∈ passed rest, fresh w k = true ∧ j < k :=
        fun k hk => fresh_raise.mp (habove k hk)
      obtain ⟨_, hf⟩ := hm j f rfl
      cases f with
      | false => exact ⟨hincreasing, fun k hk => (habove' k hk).1⟩
      | true =>
        constructor
        · exact List.pairwise_cons.mpr ⟨fun k hk => (habove' k hk).2, hincreasing⟩
        · intro k hk
          rcases List.mem_cons.mp hk with rfl | hk
          · exact hf.symm
          · exact (habove' k hk).1

end MatterRsServer.Lib.HighWater
