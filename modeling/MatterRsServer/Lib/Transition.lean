import Mathlib.Logic.Basic

/-!
# Runs of a step function

A system is a partial step function; a run is a list of the actions it takes.
`Along` states a condition of every step of a run, and `run_invariant` is the one
induction from steps to runs.
-/
namespace MatterRsServer.Lib.Transition

variable {σ α : Type}

def run (step : σ → α → Option σ) (s : σ) : List α → Option σ
  | [] => some s
  | a :: rest => (step s a).bind fun s' => run step s' rest

/-- Every step the run takes from `s` meets `P`. -/
def Along (step : σ → α → Option σ) (P : σ → α → σ → Prop) (s : σ) : List α → Prop
  | [] => True
  | a :: rest => ∀ s', step s a = some s' → P s a s' ∧ Along step P s' rest

variable {step : σ → α → Option σ}

theorem run_cons {s s' : σ} {a : α} {rest : List α} (h : run step s (a :: rest) = some s') :
    ∃ m, step s a = some m ∧ run step m rest = some s' := by
  simpa only [run, Option.bind_eq_some_iff] using h

theorem Along.mono {P Q : σ → α → σ → Prop} (hpq : ∀ s a s', P s a s' → Q s a s') {s : σ}
    {l : List α} (h : Along step P s l) : Along step Q s l := by
  induction l generalizing s with
  | nil => trivial
  | cons a l ih => exact fun s' hs' => ⟨hpq _ _ _ (h s' hs').1, ih (h s' hs').2⟩

theorem Along.all {β : Type} {P : β → σ → α → σ → Prop} {s : σ} {l : List α}
    (h : ∀ b, Along step (P b) s l) : Along step (fun s a s' => ∀ b, P b s a s') s l := by
  induction l generalizing s with
  | nil => trivial
  | cons a l ih =>
    intro s' hs'
    exact ⟨fun b => (h b s' hs').1, ih fun b => (h b s' hs').2⟩

theorem Along.append {P : σ → α → σ → Prop} {s : σ} {l m : List α} (hl : Along step P s l)
    (hm : ∀ t, run step s l = some t → Along step P t m) : Along step P s (l ++ m) := by
  induction l generalizing s with
  | nil => exact hm s rfl
  | cons a l ih =>
    intro d hd
    refine ⟨(hl d hd).1, ih (hl d hd).2 fun t ht => hm t ?_⟩
    simpa only [run, hd, Option.bind_some] using ht

/-- What is left of a run meets what the whole run meets. -/
theorem Along.of_append {P : σ → α → σ → Prop} {s t : σ} {l m : List α}
    (h : Along step P s (l ++ m)) (hrun : run step s l = some t) : Along step P t m := by
  induction l generalizing s with
  | nil => cases hrun; exact h
  | cons a l ih =>
    obtain ⟨d, hd, hr⟩ := run_cons hrun
    exact ih (h d hd).2 hr

/-- A condition of the actions alone. -/
theorem Along.of_forall {P : σ → α → σ → Prop} {s : σ} {l : List α}
    (h : ∀ a ∈ l, ∀ s s', P s a s') : Along step P s l := by
  induction l generalizing s with
  | nil => trivial
  | cons a l ih =>
    exact fun s' _ => ⟨h a (by simp) s s', ih fun b hb => h b (by simp [hb])⟩

/-- Conditions that agree on the steps of the system agree along its runs. -/
theorem Along.congr {P Q : σ → α → σ → Prop}
    (h : ∀ s a s', step s a = some s' → (P s a s' ↔ Q s a s')) (s : σ) (l : List α) :
    Along step P s l ↔ Along step Q s l := by
  induction l generalizing s with
  | nil => exact Iff.rfl
  | cons a l ih => exact forall₂_congr fun s' hs' => and_congr (h s a s' hs') (ih s')

/-- A run that takes one action only. -/
theorem Along.replicate {P : σ → α → σ → Prop} {a : α} (h : ∀ s s', P s a s') (n : Nat) {s : σ} :
    Along step P s (List.replicate n a) :=
  .of_forall fun b hb => by
    obtain rfl := List.eq_of_mem_replicate hb
    exact h

/-- What every step from a state of an invariant does, every step of a run does. -/
theorem Along.of_invariant {Q : σ → α → σ → Prop} {Inv : σ → Prop}
    (hstep : ∀ s a s', Inv s → step s a = some s' → Inv s' ∧ Q s a s') {s : σ} (h0 : Inv s)
    (l : List α) : Along step Q s l := by
  induction l generalizing s with
  | nil => trivial
  | cons a l ih =>
    intro s' hs'
    obtain ⟨hinv, hq⟩ := hstep s a s' h0 hs'
    exact ⟨hq, ih hinv⟩

/-- An invariant of every admitted step is an invariant of every admitted run. -/
theorem run_invariant {P : σ → α → σ → Prop} {Inv : σ → Prop}
    (hstep : ∀ s a s', Inv s → step s a = some s' → P s a s' → Inv s') {s s' : σ} {l : List α}
    (h0 : Inv s) (halong : Along step P s l) (hrun : run step s l = some s') : Inv s' := by
  induction l generalizing s with
  | nil => cases hrun; exact h0
  | cons a l ih =>
    obtain ⟨m, hm, hr⟩ := run_cons hrun
    obtain ⟨hp, ha⟩ := halong m hm
    exact ih (hstep s a m h0 hm hp) ha hr

/-- What an observer has noted when the run is over; it sees every step with both its states. -/
def observe {β : Type} (step : σ → α → Option σ) (note : σ → α → σ → β → β) (s : σ) (b : β) :
    List α → β
  | [] => b
  | a :: rest =>
    match step s a with
    | some s' => observe step note s' (note s a s' b) rest
    | none => b

/-- What every admitted step keeps between the state and the notes, every admitted run keeps. -/
theorem observe_invariant {β : Type} {note : σ → α → σ → β → β} {P : σ → α → σ → Prop}
    {Inv : σ → β → Prop}
    (hstep : ∀ s a s' b, Inv s b → step s a = some s' → P s a s' → Inv s' (note s a s' b))
    {s s' : σ} {b : β} {l : List α} (h0 : Inv s b) (halong : Along step P s l)
    (hrun : run step s l = some s') : Inv s' (observe step note s b l) := by
  induction l generalizing s b with
  | nil => cases hrun; exact h0
  | cons a l ih =>
    obtain ⟨m, hm, hr⟩ := run_cons hrun
    obtain ⟨hp, ha⟩ := halong m hm
    have hlast := ih (hstep s a m b h0 hm hp) ha hr
    rwa [observe, hm]

end MatterRsServer.Lib.Transition
