import Mathlib.Data.List.Basic

/-!
# Replaying a log

A log is a list of entries; an entry has an effect on the state, or it is refused with an
error that ends the replay. What a boundary covers is skipped, so a state that already
contains the covered entries replays to the same end.
-/
namespace MatterRsServer.Lib.Replay

variable {ε σ χ : Type}

/-- Apply the entries in order, up to the first that is refused. -/
def replay (step : ε → σ → Except χ σ) (log : List ε) (s : σ) : Except χ σ :=
  log.foldlM (fun s e => step e s) s

@[simp] theorem replay_nil (step : ε → σ → Except χ σ) (s : σ) : replay step [] s = .ok s := rfl

theorem replay_cons (step : ε → σ → Except χ σ) (e : ε) (log : List ε) (s : σ) :
    replay step (e :: log) s = (step e s).bind (replay step log) := rfl

theorem replay_append (step : ε → σ → Except χ σ) (a b : List ε) (s : σ) :
    replay step (a ++ b) s = (replay step a s).bind (replay step b) := by
  induction a generalizing s with
  | nil => rfl
  | cons e a ih =>
    rw [List.cons_append, replay_cons, replay_cons]
    cases step e s with
    | error x => rfl
    | ok t => exact ih t

/-- A loop that passes over some entries is the replay of those it keeps. -/
theorem replay_filterMap {δ : Type} {step : ε → σ → Except χ σ} {round : δ → σ → Except χ σ}
    {keep : δ → Option ε} (h : ∀ d s, round d s = match keep d with
      | some e => step e s
      | none => .ok s) (l : List δ) (s : σ) :
    replay round l s = replay step (l.filterMap keep) s := by
  induction l generalizing s with
  | nil => rfl
  | cons d l ih =>
    rw [replay_cons, h, List.filterMap_cons]
    cases keep d with
    | none => exact ih s
    | some e =>
      dsimp only
      rw [replay_cons]
      cases step e s with
      | error x => rfl
      | ok t => exact ih t

/-- A loop whose rounds are replays is the replay of them all. -/
theorem replay_flatMap {δ : Type} {step : ε → σ → Except χ σ} {round : δ → σ → Except χ σ}
    {entries : δ → List ε} {l : List δ}
    (h : ∀ d ∈ l, ∀ s, round d s = replay step (entries d) s) (s : σ) :
    replay round l s = replay step (l.flatMap entries) s := by
  induction l generalizing s with
  | nil => rfl
  | cons d l ih =>
    rw [replay_cons, List.flatMap_cons, replay_append, h d (by simp)]
    cases replay step (entries d) s with
    | error x => rfl
    | ok t => exact ih (fun d' hd' => h d' (by simp [hd'])) t

/-- Where every entry has an effect, the replay is the fold of the effects. -/
theorem replay_eq_foldl {step : ε → σ → Except χ σ} (effect : ε → σ → σ) {log : List ε}
    (h : ∀ e ∈ log, ∀ s, step e s = .ok (effect e s)) (s : σ) :
    replay step log s = .ok (log.foldl (fun s e => effect e s) s) := by
  induction log generalizing s with
  | nil => rfl
  | cons e log ih =>
    rw [replay_cons, h e (by simp)]
    exact ih (fun e' he' => h e' (by simp [he'])) _

/-- The first entry that is refused decides the error. -/
theorem replay_first_refused {step : ε → σ → Except χ σ} {a : List ε} {e : ε} {x : χ}
    (ha : ∀ e ∈ a, ∀ s, ∃ t, step e s = .ok t) (he : ∀ s, step e s = .error x) (b : List ε) (s : σ) :
    replay step (a ++ e :: b) s = .error x := by
  induction a generalizing s with
  | nil =>
    rw [List.nil_append, replay_cons, he]
    rfl
  | cons d a ih =>
    obtain ⟨t, ht⟩ := ha d (by simp) s
    rw [List.cons_append, replay_cons, ht]
    exact ih (fun d' hd' => ha d' (by simp [hd'])) t

/-- A replay that succeeds has applied every entry. -/
theorem step_of_replay_eq_ok {step : ε → σ → Except χ σ} {log : List ε} {s t : σ}
    (h : replay step log s = .ok t) : ∀ e ∈ log, ∃ u v, step e u = .ok v := by
  induction log generalizing s with
  | nil => simp
  | cons d log ih =>
    rw [replay_cons] at h
    cases hd : step d s with
    | error x =>
      rw [hd] at h
      cases h
    | ok u =>
      rw [hd] at h
      intro e he
      rcases List.mem_cons.mp he with rfl | he
      · exact ⟨s, u, hd⟩
      · exact ih h e he

/-- A boundary that covers an initial part of the log splits it. -/
theorem filter_append_filter_not {covered : ε → Bool} {log : List ε}
    (h : log.Pairwise fun a b => covered b = true → covered a = true) :
    log.filter covered ++ log.filter (fun e => !covered e) = log := by
  induction log with
  | nil => rfl
  | cons e log ih =>
    obtain ⟨he, hlog⟩ := List.pairwise_cons.mp h
    cases hcov : covered e with
    | true =>
      rw [List.filter_cons_of_pos hcov, List.filter_cons_of_neg (by simp [hcov]), List.cons_append,
        ih hlog]
    | false =>
      have hnone : log.filter covered = [] := by
        rw [List.filter_eq_nil_iff]
        intro d hd hcd
        rw [he d hd hcd] at hcov
        cases hcov
      have hall : log.filter (fun e => !covered e) = log := by
        rw [hnone, List.nil_append] at ih
        exact ih hlog
      rw [List.filter_cons_of_neg (by simp [hcov]), List.filter_cons_of_pos (by simp [hcov]), hnone,
        hall, List.nil_append]

/-- What the boundary covers may be applied beforehand and skipped. -/
theorem replay_after_covered {step : ε → σ → Except χ σ} {covered : ε → Bool} {log : List ε} {s t : σ}
    (h : log.Pairwise fun a b => covered b = true → covered a = true)
    (ht : replay step (log.filter covered) s = .ok t) :
    replay step (log.filter fun e => !covered e) t = replay step log s := by
  have hsplit := congrArg (fun l => replay step l s) (filter_append_filter_not h)
  rw [replay_append, ht] at hsplit
  exact hsplit

end MatterRsServer.Lib.Replay
