import Mathlib.Data.List.Basic

/-!
# Isolation of an observer

A system serves inputs one after the other and makes outputs. An observer owns a part of
the state and some of the outputs; an input that does not concern it leaves that part
alone and makes no output of its own, and what an input that does concern it does there
is a function of that part. Two runs that agree on the inputs that concern the observer
then look the same to it, whatever the other inputs are.
-/
namespace MatterRsServer.Lib.Isolation

variable {σ α ε ο : Type}

/-- Serve the inputs in order: the final state and all outputs. -/
def serve (step : σ → α → σ × List ε) (s : σ) : List α → σ × List ε
  | [] => (s, [])
  | a :: rest =>
    ((serve step (step s a).1 rest).1, (step s a).2 ++ (serve step (step s a).1 rest).2)

/-- What one observer owns of a system. -/
structure View (step : σ → α → σ × List ε) (ο : Type) where
  part : σ → ο
  mine : ε → Bool
  concerns : ο → α → Bool
  constant : ∀ s a, concerns (part (step s a).1) = concerns (part s)
  silent : ∀ s a, concerns (part s) a = false →
    part (step s a).1 = part s ∧ (step s a).2.filter mine = []
  determined : ∀ s t a, part s = part t → concerns (part s) a = true →
    part (step s a).1 = part (step t a).1 ∧ (step s a).2.filter mine = (step t a).2.filter mine

namespace View

variable {step : σ → α → σ × List ε} (V : View step ο)

/-- The inputs of others can be left out of a run without the observer noticing. -/
theorem serve_filter {s t : σ} (hst : V.part s = V.part t) (xs : List α) :
    V.part (serve step s xs).1 =
        V.part (serve step t (xs.filter (V.concerns (V.part s)))).1 ∧
      (serve step s xs).2.filter V.mine =
        (serve step t (xs.filter (V.concerns (V.part s)))).2.filter V.mine := by
  induction xs generalizing s t with
  | nil => exact ⟨hst, rfl⟩
  | cons a rest ih =>
    have hconst := V.constant s a
    cases hc : V.concerns (V.part s) a with
    | false =>
      obtain ⟨hpart, hout⟩ := V.silent s a hc
      have hrest := ih (hpart.trans hst)
      rw [hpart] at hrest
      rw [List.filter_cons_of_neg (by simp [hc])]
      constructor
      · exact hrest.1
      · rw [serve, List.filter_append, hout, List.nil_append]
        exact hrest.2
    | true =>
      obtain ⟨hpart, hout⟩ := V.determined s t a hst hc
      have hrest := ih hpart
      rw [hconst] at hrest
      rw [List.filter_cons_of_pos hc]
      constructor
      · exact hrest.1
      · rw [serve, serve, List.filter_append, List.filter_append, hout, hrest.2]

/-- Runs that agree on the inputs that concern the observer look the same to it. -/
theorem isolated {s : σ} {xs ys : List α}
    (h : xs.filter (V.concerns (V.part s)) = ys.filter (V.concerns (V.part s))) :
    V.part (serve step s xs).1 = V.part (serve step s ys).1 ∧
      (serve step s xs).2.filter V.mine = (serve step s ys).2.filter V.mine := by
  obtain ⟨hpart, hout⟩ := V.serve_filter rfl xs
  obtain ⟨hpart', hout'⟩ := V.serve_filter rfl ys
  rw [h] at hpart hout
  constructor
  · rw [hpart, hpart']
  · rw [hout, hout']

end View

end MatterRsServer.Lib.Isolation
