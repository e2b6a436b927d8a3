import Mathlib.Logic.Basic

/-!
# Operations that may fail one by one

A computation over a state performs its operations in order, and an oracle says which of
them fail, and why. `Performs` is what is known of a computation: it does its work exactly
when all of its operations succeed, and otherwise leaves something that `K` relates to the
state it started from.
-/
namespace MatterRsServer.Lib

/-- The state, the reasons for which operations fail, and how many have been performed. -/
structure Faulty (σ : Type) where
  state : σ
  faults : Nat → Option String
  performed : Nat

abbrev Attempt (σ ε α : Type) := ExceptT ε (StateM (Faulty σ)) α

namespace Faulty

variable {σ : Type}

/-- The next `n` operations succeed. -/
def Clear (s : Faulty σ) (n : Nat) : Prop := ∀ i < n, s.faults (s.performed + i) = none

/-- After `n` operations that did `f`. -/
def after (s : Faulty σ) (n : Nat) (f : σ → σ) : Faulty σ :=
  { s with state := f s.state, performed := s.performed + n }

theorem clear_add {s : Faulty σ} {m n : Nat} {f : σ → σ} :
    s.Clear (m + n) ↔ s.Clear m ∧ (s.after m f).Clear n := by
  constructor
  · intro h
    refine ⟨fun i hi => h i (by omega), fun i hi => ?_⟩
    have hnext := h (m + i) (by omega)
    rwa [← Nat.add_assoc] at hnext
  · rintro ⟨hm, hn⟩ i hi
    by_cases him : i < m
    · exact hm i him
    · have hnext := hn (i - m) (by omega)
      rwa [show (s.after m f).performed + (i - m) = s.performed + i by
        simp only [after]; omega] at hnext

theorem after_after (s : Faulty σ) (m n : Nat) (f g : σ → σ) :
    (s.after m f).after n g = s.after (m + n) (g ∘ f) := by
  simp [after, Nat.add_assoc]

end Faulty

namespace Attempt

variable {σ ε δ α β : Type}

/-- One operation: it fails and changes nothing, or it happens. -/
def operation (f : σ → σ) : Attempt σ String Unit := fun s =>
  match s.faults s.performed with
  | some reason => (.error reason, { s with performed := s.performed + 1 })
  | none => (.ok (), s.after 1 f)

/-- `map_err`. -/
def mapError (g : ε → δ) (m : Attempt σ ε α) : Attempt σ δ α := fun s =>
  match m s with
  | (.ok a, s') => (.ok a, s')
  | (.error e, s') => (.error (g e), s')

/-- When `m` fails, `cleanup` runs, and whether that succeeds is ignored. -/
def cleaning (m : Attempt σ ε α) (cleanup : Attempt σ δ Unit) : Attempt σ ε α := fun s =>
  match m s with
  | (.ok a, s') => (.ok a, s')
  | (.error e, s') => (.error e, (cleanup s').2)

/-- Whether `m` succeeds is ignored. -/
def ignoring (m : Attempt σ δ α) : Attempt σ ε Unit := fun s => (.ok (), (m s).2)

/-- A computation over a part of the state. -/
def focus {τ : Type} (get : τ → σ) (set : τ → σ → τ) (m : Attempt σ ε α) : Attempt τ ε α := fun s =>
  let r := m ⟨get s.state, s.faults, s.performed⟩
  (r.1, ⟨set s.state r.2.state, r.2.faults, r.2.performed⟩)

theorem cleaning_ok {m : Attempt σ ε α} {cleanup : Attempt σ δ Unit} {s s' : Faulty σ} {a : α}
    (h : m s = (.ok a, s')) : cleaning m cleanup s = (.ok a, s') := by
  simp only [cleaning, h]

theorem cleaning_error {m : Attempt σ ε α} {cleanup : Attempt σ δ Unit} {s s' : Faulty σ} {e : ε}
    (h : m s = (.error e, s')) : cleaning m cleanup s = (.error e, (cleanup s').2) := by
  simp only [cleaning, h]

theorem bind_ok {m : Attempt σ ε α} {k : α → Attempt σ ε β} {s s' : Faulty σ} {a : α}
    (h : m s = (.ok a, s')) : (m >>= k) s = k a s' := by
  change (ExceptT.bindCont k : _ → StateM (Faulty σ) (Except ε β)) (m s).1 (m s).2 = _
  rw [h]
  rfl

theorem bind_error {m : Attempt σ ε α} {k : α → Attempt σ ε β} {s s' : Faulty σ} {e : ε}
    (h : m s = (.error e, s')) : (m >>= k) s = (.error e, s') := by
  change (ExceptT.bindCont k : _ → StateM (Faulty σ) (Except ε β)) (m s).1 (m s).2 = _
  rw [h]
  rfl

theorem ignoring_bind (m : Attempt σ δ α) (k : Unit → Attempt σ ε β) (s : Faulty σ) :
    (ignoring m >>= k) s = k () (m s).2 := bind_ok rfl

/-- From a state of `P`, `m` does `f` in `n` operations if none of them fails, and otherwise
ends in an error and a state that `K` relates to the first. -/
structure Performs (P : σ → Prop) (m : Attempt σ ε Unit) (n : Nat) (f : σ → σ)
    (K : σ → σ → Prop) : Prop where
  done : ∀ s, P s.state → s.Clear n → m s = (.ok (), s.after n f)
  failed : ∀ s, P s.state → ¬ s.Clear n → ∃ e s', m s = (.error e, s') ∧ K s.state s'.state

namespace Performs

variable {P Q : σ → Prop} {m m' : Attempt σ ε Unit} {n n' : Nat} {f f' : σ → σ}
  {K K' : σ → σ → Prop}

theorem operation (f : σ → σ) (P : σ → Prop) :
    Performs P (Attempt.operation f) 1 f fun s t => t = s where
  done s _ hclear := by
    have hnone := hclear 0 (by omega)
    rw [Nat.add_zero] at hnone
    simp [Attempt.operation, hnone]
  failed s _ hclear := by
    cases hfault : s.faults s.performed with
    | none =>
      refine absurd (fun i hi => ?_) hclear
      obtain rfl : i = 0 := by omega
      exact hfault
    | some reason =>
      refine ⟨reason, { s with performed := s.performed + 1 }, ?_, rfl⟩
      simp only [Attempt.operation, hfault]

theorem mono (h : Performs P m n f K) (hP : ∀ s, Q s → P s) (hK : ∀ s t, Q s → K s t → K' s t) :
    Performs Q m n f K' where
  done s hs hclear := h.done s (hP _ hs) hclear
  failed s hs hclear := by
    obtain ⟨e, s', hrun, hkeep⟩ := h.failed s (hP _ hs) hclear
    exact ⟨e, s', hrun, hK _ _ hs hkeep⟩

/-- It is done, or it has failed. -/
theorem done_or_failed (h : Performs P m n f K) {s : Faulty σ} (hs : P s.state) :
    m s = (.ok (), s.after n f) ∨ ∃ e s', m s = (.error e, s') ∧ K s.state s'.state := by
  by_cases hclear : s.Clear n
  · exact .inl (h.done s hs hclear)
  · exact .inr (h.failed s hs hclear)

/-- What `m` does from the states of `P`. -/
theorem congr (h : Performs P m n f K) (heq : ∀ s, P s.state → m' s = m s) :
    Performs P m' n f K where
  done s hs hclear := (heq s hs).trans (h.done s hs hclear)
  failed s hs hclear := by
    rw [heq s hs]
    exact h.failed s hs hclear

/-- One after the other. -/
theorem seq (h : Performs P m n f K) (h' : Performs Q m' n' f' K) (hQ : ∀ s, P s → Q (f s))
    (hK : ∀ s t, P s → K (f s) t → K s t) :
    Performs P (m >>= fun _ => m') (n + n') (f' ∘ f) K where
  done s hs hclear := by
    obtain ⟨hfirst, hsecond⟩ := Faulty.clear_add (f := f) |>.mp hclear
    rw [bind_ok (h.done s hs hfirst), h'.done _ (hQ _ hs) hsecond, Faulty.after_after]
  failed s hs hclear := by
    by_cases hfirst : s.Clear n
    · have hsecond : ¬ (s.after n f).Clear n' := fun hc => hclear (Faulty.clear_add.mpr ⟨hfirst, hc⟩)
      obtain ⟨e, s', hrun, hkeep⟩ := h'.failed _ (hQ _ hs) hsecond
      exact ⟨e, s', by rw [bind_ok (h.done s hs hfirst), hrun], hK _ _ hs hkeep⟩
    · obtain ⟨e, s', hrun, hkeep⟩ := h.failed s hs hfirst
      exact ⟨e, s', bind_error hrun, hkeep⟩

theorem mapError {g : ε → δ} (h : Performs P m n f K) :
    Performs P (Attempt.mapError g m) n f K where
  done s hs hclear := by simp only [Attempt.mapError, h.done s hs hclear]
  failed s hs hclear := by
    obtain ⟨e, s', hrun, hkeep⟩ := h.failed s hs hclear
    exact ⟨g e, s', by simp only [Attempt.mapError, hrun], hkeep⟩

/-- Cleaning up after a failure. -/
theorem cleaning {cleanup : Attempt σ δ Unit} (h : Performs P m n f K)
    (hclean : ∀ s t, K s t.state → K s (cleanup t).2.state) :
    Performs P (Attempt.cleaning m cleanup) n f K where
  done s hs hclear := by simp only [Attempt.cleaning, h.done s hs hclear]
  failed s hs hclear := by
    obtain ⟨e, s', hrun, hkeep⟩ := h.failed s hs hclear
    exact ⟨e, (cleanup s').2, by simp only [Attempt.cleaning, hrun], hclean _ _ hkeep⟩

/-- A loop over a list, when every round leaves something that `K` relates. -/
theorem forM {g : α → Attempt σ ε Unit} {f : α → σ → σ} (h : ∀ a, Performs P (g a) n (f a) K)
    (hP : ∀ a s, P s → P (f a s)) (hK : ∀ a s t, P s → K (f a s) t → K s t) (l : List α) :
    Performs P (l.forM g) (n * l.length) (fun s => l.foldl (fun s a => f a s) s) K := by
  induction l with
  | nil =>
    refine ⟨fun s _ _ => rfl, fun s _ hclear => absurd (fun i hi => ?_) hclear⟩
    simp at hi
  | cons a l ih =>
    have hseq := (h a).seq ih (hP a) (hK a)
    rw [List.length_cons, Nat.mul_succ, Nat.add_comm]
    exact hseq

end Performs

end Attempt

end MatterRsServer.Lib
