import Mathlib.Data.List.Basic

/-!
# Steps under time limits

A course is what an operation does until its first failure: the steps it takes, the time that it
spends and what comes of it. A step that waits is cut off at its budget.
-/
namespace MatterRsServer.Lib

/-- The steps that were taken, the time they took together, and the result. -/
structure Course (ω ε α : Type) where
  steps : List ω
  spent : Nat
  result : Except ε α

/-- Something to wait for: when it would be there, and with what. -/
structure Awaited (δ α : Type) where
  due : Nat
  result : Except δ α

/-- What is awaited is there with this value before the budget is spent. -/
def Awaited.InTime {δ α : Type} (a : Awaited δ α) (budget : Nat) (value : α) : Prop :=
  a.due ≤ budget ∧ a.result = .ok value

namespace Course

variable {ω δ ε α β : Type}

/-- A value or a failure at once. -/
def ofExcept (result : Except ε α) : Course ω ε α := ⟨[], 0, result⟩

def bind (x : Course ω ε α) (f : α → Course ω ε β) : Course ω ε β :=
  match x.result with
  | .error e => ⟨x.steps, x.spent, .error e⟩
  | .ok a => ⟨x.steps ++ (f a).steps, x.spent + (f a).spent, (f a).result⟩

instance : Monad (Course ω ε) where
  pure a := ofExcept (.ok a)
  bind := bind

/-- A step that takes no time and does not fail. -/
def step (w : ω) : Course ω ε Unit := ⟨[w], 0, .ok ()⟩

/-- A step that waits: what is due at the end of the budget is still in time. -/
def within (w : ω) (budget : Nat) (a : Awaited δ α) (failed : δ → ε) (late : ε) :
    Course ω ε α :=
  if a.due ≤ budget then ⟨[w], a.due, a.result.mapError failed⟩ else ⟨[w], budget, .error late⟩

theorem bind_of_ok {x : Course ω ε α} {a : α} (h : x.result = .ok a) (f : α → Course ω ε β) :
    x >>= f = ⟨x.steps ++ (f a).steps, x.spent + (f a).spent, (f a).result⟩ := by
  change bind x f = _
  unfold bind
  rw [h]

theorem bind_of_error {x : Course ω ε α} {e : ε} (h : x.result = .error e)
    (f : α → Course ω ε β) : x >>= f = ⟨x.steps, x.spent, .error e⟩ := by
  change bind x f = _
  unfold bind
  rw [h]

@[simp] theorem result_ofExcept (r : Except ε α) :
    (ofExcept r : Course ω ε α).result = r := rfl

@[simp] theorem result_pure (a : α) : (pure a : Course ω ε α).result = .ok a := rfl

@[simp] theorem steps_pure (a : α) : (pure a : Course ω ε α).steps = [] := rfl

@[simp] theorem spent_pure (a : α) : (pure a : Course ω ε α).spent = 0 := rfl

theorem steps_bind_of_ok {x : Course ω ε α} {a : α} (h : x.result = .ok a)
    (f : α → Course ω ε β) : (x >>= f).steps = x.steps ++ (f a).steps := by
  rw [bind_of_ok h]

theorem result_bind_eq_ok {x : Course ω ε α} {f : α → Course ω ε β} {b : β} :
    (x >>= f).result = .ok b ↔ ∃ a, x.result = .ok a ∧ (f a).result = .ok b := by
  cases h : x.result with
  | error e => simp [bind_of_error h]
  | ok a => simp [bind_of_ok h]

/-- A failure is that of the first part, or that of the second after a first that succeeded. -/
theorem result_bind_eq_error {x : Course ω ε α} {f : α → Course ω ε β} {e : ε} :
    (x >>= f).result = .error e ↔
      x.result = .error e ∨ ∃ a, x.result = .ok a ∧ (f a).result = .error e := by
  cases h : x.result with
  | error e' => simp [bind_of_error h]
  | ok a => simp [bind_of_ok h]

/-- A step of the second part is taken only after the first part has succeeded. -/
theorem mem_steps_bind {x : Course ω ε α} {f : α → Course ω ε β} {w : ω} :
    w ∈ (x >>= f).steps ↔ w ∈ x.steps ∨ ∃ a, x.result = .ok a ∧ w ∈ (f a).steps := by
  cases h : x.result with
  | error e => simp [bind_of_error h]
  | ok a => simp [bind_of_ok h]

theorem spent_bind_le {x : Course ω ε α} {f : α → Course ω ε β} {m n : Nat} (hx : x.spent ≤ m)
    (hf : ∀ a, (f a).spent ≤ n) : (x >>= f).spent ≤ m + n := by
  cases h : x.result with
  | error e =>
    rw [bind_of_error h]
    exact Nat.le_trans hx (Nat.le_add_right _ _)
  | ok a =>
    rw [bind_of_ok h]
    exact Nat.add_le_add hx (hf a)

section
variable {w : ω} {budget : Nat} {a : Awaited δ α} {failed : δ → ε} {late : ε}

@[simp] theorem steps_within : (within w budget a failed late).steps = [w] := by
  unfold within
  split <;> rfl

theorem spent_within_le : (within w budget a failed late).spent ≤ budget := by
  unfold within
  split
  · assumption
  · exact Nat.le_refl _

theorem result_within_eq_ok {value : α} :
    (within w budget a failed late).result = .ok value ↔ a.InTime budget value := by
  unfold within Awaited.InTime
  by_cases hdue : a.due ≤ budget
  · rw [if_pos hdue]
    cases a.result <;> simp [Except.mapError, hdue]
  · rw [if_neg hdue]
    simp [hdue]

theorem result_within_eq_error {e : ε} (h : (within w budget a failed late).result = .error e) :
    e = late ∨ ∃ cause, e = failed cause := by
  unfold within at h
  split at h
  · cases hresult : a.result with
    | ok value =>
      rw [hresult] at h
      cases h
    | error cause =>
      rw [hresult] at h
      cases h
      exact .inr ⟨cause, rfl⟩
  · cases h
    exact .inl rfl

end

end Course

end MatterRsServer.Lib
