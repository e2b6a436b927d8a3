import Mathlib.Data.List.Forall2

/-!
# Results that are not errors

How a successful result of a computation that can fail comes about.
-/
namespace MatterRsServer.Lib.Result

theorem bind_eq_ok {ε α β : Type} {x : Except ε α} {f : α → Except ε β} {b : β}
    (h : (x >>= f) = .ok b) : ∃ a, x = .ok a ∧ f a = .ok b := by
  cases x with
  | error e => cases h
  | ok a => exact ⟨a, rfl, h⟩

theorem mapError_eq_ok {ε δ α : Type} {f : ε → δ} {x : Except ε α} {a : α}
    (h : x.mapError f = .ok a) : x = .ok a := by
  cases x with
  | error e => cases h
  | ok b => exact congrArg Except.ok (Except.ok.inj h)

/-- All results of a list are there just if each element has its own. -/
theorem mapM_eq_some_iff {α β : Type} {f : α → Option β} {l : List α} {u : List β} :
    l.mapM f = some u ↔ List.Forall₂ (fun a b => f a = some b) l u := by
  induction l generalizing u with
  | nil => simp [eq_comm]
  | cons a l ih =>
    rw [List.mapM_cons]
    constructor
    · intro h
      obtain ⟨b, hb, hrest⟩ := Option.bind_eq_some_iff.mp h
      obtain ⟨bs, hbs, hu⟩ := Option.bind_eq_some_iff.mp hrest
      cases hu
      exact .cons hb (ih.mp hbs)
    · intro h
      cases h with
      | cons hb hbs =>
        rw [hb, ih.mpr hbs]
        rfl

theorem mapM_eq_some_iff_map {α β : Type} {f : α → Option β} {l : List α} {u : List β} :
    l.mapM f = some u ↔ l.map f = u.map some := by
  rw [mapM_eq_some_iff, ← List.forall₂_eq_eq_eq, List.forall₂_map_left_iff,
    List.forall₂_map_right_iff]

theorem mapM_eq_ok_iff {ε α β : Type} {f : α → Except ε β} {l : List α} {u : List β} :
    l.mapM f = .ok u ↔ List.Forall₂ (fun a b => f a = .ok b) l u := by
  induction l generalizing u with
  | nil =>
    rw [List.forall₂_nil_left_iff, List.mapM_nil]
    exact ⟨fun h => (Except.ok.inj h).symm, fun h => congrArg Except.ok h.symm⟩
  | cons a l ih =>
    rw [List.mapM_cons]
    constructor
    · intro h
      obtain ⟨b, hb, hrest⟩ := bind_eq_ok h
      obtain ⟨bs, hbs, hu⟩ := bind_eq_ok hrest
      cases hu
      exact .cons hb (ih.mp hbs)
    · intro h
      cases h with
      | cons hb hbs =>
        rw [hb, ih.mpr hbs]
        rfl

/-- Every error of the computation satisfies `P`. -/
def FailsOnly {ε α : Type} (P : ε → Prop) (x : Except ε α) : Prop := ∀ e, x = .error e → P e

namespace FailsOnly
variable {ε α β : Type} {P : ε → Prop}

theorem ok (a : α) : FailsOnly P (.ok a) := by
  intro e h
  cases h

theorem error {e : ε} (h : P e) : FailsOnly P (.error e : Except ε α) := by
  intro e' h'
  cases h'
  exact h

theorem bind {x : Except ε α} {f : α → Except ε β} (hx : FailsOnly P x)
    (hf : ∀ a, FailsOnly P (f a)) : FailsOnly P (x >>= f) := by
  intro e h
  cases x with
  | error e' =>
    cases h
    exact hx e rfl
  | ok a => exact hf a e h

theorem map {x : Except ε α} (f : α → β) (hx : FailsOnly P x) : FailsOnly P (x.map f) := by
  intro e h
  cases x with
  | error e' =>
    cases h
    exact hx e rfl
  | ok a => cases h

theorem mapM {f : α → Except ε β} (hf : ∀ a, FailsOnly P (f a)) (l : List α) :
    FailsOnly P (l.mapM f) := by
  induction l with
  | nil => exact ok []
  | cons a l ih =>
    rw [List.mapM_cons]
    exact (hf a).bind fun b => ih.bind fun bs => ok (b :: bs)

end FailsOnly

end MatterRsServer.Lib.Result
