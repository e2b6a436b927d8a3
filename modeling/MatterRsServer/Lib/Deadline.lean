import Mathlib.Algebra.BigOperators.Group.List.Basic
import Mathlib.Algebra.GroupWithZero.Nat

/-!
# Waits that share one deadline

Each wait starts before the deadline and is bounded by what is left of it, but by no less than
the grain of the clock. Together they outlast the deadline by less than one grain, however the
time between them passes.
-/
namespace MatterRsServer.Lib

/-- The waits from `now` on, by how long each took. -/
inductive Spends (grain deadline : Nat) : Nat → List Nat → Prop
  | nil {now : Nat} : Spends grain deadline now []
  | cons {now start took : Nat} {rest : List Nat} : now ≤ start → start < deadline →
      took ≤ max (deadline - start) grain → Spends grain deadline (start + took) rest →
      Spends grain deadline now (took :: rest)

namespace Spends
variable {grain deadline now : Nat} {spent : List Nat}

/-- With the deadline behind, nothing more is spent. -/
theorem eq_nil (h : Spends grain deadline now spent) (hlate : deadline ≤ now) : spent = [] := by
  cases h with
  | nil => rfl
  | cons hle hlt => omega

theorem sum_lt (h : Spends grain deadline now spent) (hgrain : 0 < grain) :
    spent.sum < deadline - now + grain := by
  induction h with
  | nil =>
    rw [List.sum_nil]
    omega
  | @cons now start took rest hle hlt htook hrest ih =>
    rw [List.sum_cons]
    -- a wait that reaches the deadline is the last one
    rcases Nat.lt_or_ge took (deadline - start) with hshort | hlong
    · omega
    · rw [hrest.eq_nil (by omega), List.sum_nil]
      omega

end Spends

end MatterRsServer.Lib
