import Mathlib.Data.List.Basic

/-!
# Calls that may panic

A call returns a value or an error, or it panics and returns nothing. Where a sequence of calls
can panic is decided by the calls before the one that does: they must have returned values.
-/
namespace MatterRsServer.Lib

/-- `none` is a panic. -/
abbrev Call (ε α : Type) := ExceptT ε Option α

namespace Call

variable {ε α β : Type}

/-- A call that returns. -/
def of (r : Except ε α) : Call ε α := ExceptT.mk (some r)

/-- A call that returns a value, if there is one. -/
def unwrap (a : Option α) : Call ε α := ExceptT.mk (a.map Except.ok)

def panics : Call ε α := ExceptT.mk none

/-- `map_err`. -/
def adapt {δ : Type} (f : ε → δ) (c : Call ε α) : Call δ α :=
  ExceptT.mk (c.run.map (Except.mapError f))

def Returns (c : Call ε α) : Prop := ∃ r, c = of r

/-- If the call returns, then this. -/
def Agrees (c : Call ε α) (r : Except ε α) : Prop := ∀ r', c = of r' → r' = r

theorem of_injective {r r' : Except ε α} (h : (of r : Call ε α) = of r') : r = r' :=
  Option.some.inj h

@[simp] theorem of_inj {r r' : Except ε α} : (of r : Call ε α) = of r' ↔ r = r' :=
  ⟨of_injective, congrArg of⟩

/-- The three ways of a call. -/
theorem cases (c : Call ε α) : c = panics ∨ (∃ e, c = of (.error e)) ∨ ∃ a, c = of (.ok a) := by
  match c with
  | none => exact .inl rfl
  | some (.error e) => exact .inr (.inl ⟨e, rfl⟩)
  | some (.ok a) => exact .inr (.inr ⟨a, rfl⟩)

@[simp] theorem of_ok_bind (a : α) (f : α → Call ε β) : (of (.ok a) >>= f) = f a := rfl

@[simp] theorem of_error_bind (e : ε) (f : α → Call ε β) :
    (of (.error e) >>= f) = of (.error e) := rfl

@[simp] theorem panics_bind (f : α → Call ε β) : (panics >>= f) = panics := rfl

@[simp] theorem returns_of (r : Except ε α) : (of r).Returns := ⟨r, rfl⟩

@[simp] theorem returns_pure (a : α) : (pure a : Call ε α).Returns := ⟨.ok a, rfl⟩

@[simp] theorem not_returns_panics : ¬ (panics : Call ε α).Returns := by
  rintro ⟨r, h⟩
  cases h

@[simp] theorem unwrap_none : (unwrap none : Call ε α) = panics := rfl

@[simp] theorem unwrap_some (a : α) : (unwrap (some a) : Call ε α) = of (.ok a) := rfl

@[simp] theorem adapt_of {δ : Type} (f : ε → δ) (r : Except ε α) :
    (of r).adapt f = of (r.mapError f) := rfl

theorem returns_bind {c : Call ε α} {f : α → Call ε β} :
    (c >>= f).Returns ↔ c.Returns ∧ ∀ a, c = of (.ok a) → (f a).Returns := by
  rcases c.cases with rfl | ⟨e, rfl⟩ | ⟨a, rfl⟩
  · simp
  · simp only [of_error_bind, returns_of, true_and, true_iff]
    intro a h
    cases of_injective h
  · simp only [of_ok_bind, returns_of, true_and]
    constructor
    · intro h b hb
      cases of_injective hb
      exact h
    · exact fun h => h a rfl

theorem bind_eq_ok {c : Call ε α} {f : α → Call ε β} {b : β} :
    (c >>= f) = of (.ok b) ↔ ∃ a, c = of (.ok a) ∧ f a = of (.ok b) := by
  constructor
  · intro h
    rcases c.cases with rfl | ⟨e, rfl⟩ | ⟨a, rfl⟩
    · cases h
    · cases h
    · exact ⟨a, rfl, h⟩
  · rintro ⟨a, rfl, h⟩
    exact h

theorem pure_eq_ok {a b : α} : (pure a : Call ε α) = of (.ok b) ↔ a = b := by
  constructor
  · intro h
    exact Except.ok.inj (of_injective (r := .ok a) h)
  · rintro rfl
    rfl

/-- A traversal panics where the first of its calls that returns no value does. -/
theorem returns_mapM {f : α → Call ε β} {P : α → Prop}
    (hP : ∀ a, (∃ b, f a = of (.ok b)) ↔ P a ∧ (f a).Returns) {l : List α} :
    (l.mapM f).Returns ↔ ∀ before a after, l = before ++ a :: after → (∀ x ∈ before, P x) →
      (f a).Returns := by
  induction l with
  | nil => simp
  | cons x l ih =>
    rw [List.mapM_cons, returns_bind]
    simp only [returns_bind, returns_pure, implies_true, and_true, ih]
    constructor
    · rintro ⟨hx, hl⟩ before a after heq hbefore
      cases before with
      | nil =>
        cases heq
        exact hx
      | cons y before =>
        cases heq
        obtain ⟨b, hb⟩ := (hP x).mpr ⟨hbefore x (by simp), hx⟩
        exact hl b hb before a after rfl fun z hz => hbefore z (by simp [hz])
    · intro h
      refine ⟨h [] x l rfl (by simp), fun b hb before a after heq hbefore => ?_⟩
      apply h (x :: before) a after (by rw [heq]; rfl)
      intro z hz
      rcases List.mem_cons.mp hz with rfl | hz
      · exact ((hP z).mp ⟨b, hb⟩).1
      · exact hbefore z hz

theorem exists_mapM_eq_ok {f : α → Call ε β} {l : List α} :
    (∃ bs, l.mapM f = of (.ok bs)) ↔ ∀ a ∈ l, ∃ b, f a = of (.ok b) := by
  induction l with
  | nil => simpa using ⟨[], rfl⟩
  | cons x l ih =>
    simp only [List.mapM_cons, bind_eq_ok, List.forall_mem_cons, ← ih, pure_eq_ok]
    constructor
    · rintro ⟨_, b, hb, bs, hbs, -⟩
      exact ⟨⟨b, hb⟩, bs, hbs⟩
    · rintro ⟨⟨b, hb⟩, bs, hbs⟩
      exact ⟨_, b, hb, bs, hbs, rfl⟩

theorem agrees_of (r : Except ε α) : (of r).Agrees r := fun _ h => (of_injective h).symm

theorem agrees_pure (a : α) : (pure a : Call ε α).Agrees (pure a) := agrees_of _

theorem agrees_bind {c : Call ε α} {r : Except ε α} {f : α → Call ε β} {g : α → Except ε β}
    (h : c.Agrees r) (hf : ∀ a, (f a).Agrees (g a)) : (c >>= f).Agrees (r >>= g) := by
  rcases c.cases with rfl | ⟨e, rfl⟩ | ⟨a, rfl⟩
  · intro r' hr
    cases hr
  · rw [← h _ rfl]
    exact agrees_of _
  · rw [← h _ rfl]
    exact hf a

theorem agrees_mapM {f : α → Call ε β} {g : α → Except ε β} (h : ∀ a, (f a).Agrees (g a))
    (l : List α) : (l.mapM f).Agrees (l.mapM g) := by
  induction l with
  | nil => exact agrees_pure []
  | cons a l ih =>
    rw [List.mapM_cons, List.mapM_cons]
    exact agrees_bind (h a) fun b => agrees_bind ih fun bs => agrees_pure (b :: bs)

end Call

end MatterRsServer.Lib
