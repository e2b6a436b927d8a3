import Mathlib.Data.List.Basic
import Mathlib.Data.List.Infix
import Mathlib.Data.List.Nodup

/-!
# Serial executions

Operations that each take the state from where it is to where it will be and return a
result. What concurrent clients get is serial when one order of the whole operations
explains the state, every result and every state that anyone looked at. The order
grows at its end as the operations take effect.
-/
namespace MatterRsServer.Lib.Serial

variable {κ σ : Type} {ρ : κ → Type} (op : (k : κ) → σ → ρ k × σ) (s : σ)

/-- The state after the operations in `order`, one whole operation after the other. -/
def after (order : List κ) : σ := order.foldl (fun s k => (op k s).2) s

/-- `k` stands in the order, and its result there is `r`. -/
def Ran (order : List κ) (k : κ) (r : ρ k) : Prop :=
  ∃ before rest, order = before ++ k :: rest ∧ r = (op k (after op s before)).1

/-- At some point along the order the state is `x`. -/
def Passes (order : List κ) (x : σ) : Prop := ∃ before, before <+: order ∧ x = after op s before

variable {op s} {order : List κ} {k k' : κ}

theorem after_concat : after op s (order ++ [k]) = (op k (after op s order)).2 :=
  List.foldl_concat ..

theorem Ran.mem {r : ρ k} (h : Ran op s order k r) : k ∈ order := by
  obtain ⟨before, rest, rfl, -⟩ := h
  simp

theorem Ran.concat {r : ρ k} (h : Ran op s order k r) : Ran op s (order ++ [k']) k r := by
  obtain ⟨before, rest, rfl, hr⟩ := h
  exact ⟨before, rest ++ [k'], by simp, hr⟩

theorem ran_last : Ran op s (order ++ [k]) k (op k (after op s order)).1 := ⟨order, [], rfl, rfl⟩

/-- A call that stands in the order once has one result. -/
theorem Ran.eq {r : ρ k} (h : Ran op s order k r) (hnodup : order.Nodup) {before rest : List κ}
    (horder : order = before ++ k :: rest) : r = (op k (after op s before)).1 := by
  obtain ⟨before', rest', rfl, hr⟩ := h
  have hmiddle := (List.nodup_middle.mp hnodup).notMem
  rw [List.mem_append, not_or] at hmiddle
  obtain ⟨rfl, -, -⟩ := (List.append_cons_inj_of_notMem hmiddle.1 hmiddle.2).mp horder
  exact hr

theorem Passes.concat {x : σ} (h : Passes op s order x) : Passes op s (order ++ [k]) x := by
  obtain ⟨before, hbefore, hx⟩ := h
  exact ⟨before, hbefore.trans (List.prefix_append _ _), hx⟩

theorem passes_self : Passes op s order (after op s order) := ⟨order, List.prefix_rfl, rfl⟩

end MatterRsServer.Lib.Serial
