import Mathlib.Data.List.Basic

/-!
# A bounded broadcast channel

The channel keeps its last `capacity` messages. A receiver that falls behind is told how many
messages it has missed and goes on with the oldest one that is kept. What a receiver was told
accounts for every message it has passed, in order.
-/
namespace MatterRsServer.Lib.Broadcast

variable {μ : Type}

/-- What a receiver is told. -/
inductive Receipt (μ : Type) where
  | message (m : μ)
  | lagged (missed : Nat)

/-- The position of the oldest message that is kept. -/
def oldest (capacity : Nat) (sent : List μ) : Nat := sent.length - capacity

/-- One attempt to receive, by a receiver that has passed `next` messages; `none` when there is
nothing to receive. -/
def tryRecv (capacity : Nat) (sent : List μ) (next : Nat) : Option (Receipt μ × Nat) :=
  if next < oldest capacity sent then
    some (.lagged (oldest capacity sent - next), oldest capacity sent)
  else (sent[next]?).map fun m => (.message m, next + 1)

/-- The messages received, in order. -/
def received (receipts : List (Receipt μ)) : List μ :=
  receipts.filterMap fun
    | .message m => some m
    | .lagged _ => none

/-- Every message is received, or counted among those missed at its place. -/
inductive Accounts : List (Receipt μ) → List μ → Prop
  | nil : Accounts [] []
  | message {m : μ} {rs : List (Receipt μ)} {l : List μ} :
      Accounts rs l → Accounts (.message m :: rs) (m :: l)
  | lagged {gap : List μ} {rs : List (Receipt μ)} {l : List μ} :
      Accounts rs l → Accounts (.lagged gap.length :: rs) (gap ++ l)

/-- What the receiver has passed since it stood at `start`. -/
def passedSince (sent : List μ) (start next : Nat) : List μ := (sent.take next).drop start

namespace Accounts

variable {rs qs : List (Receipt μ)} {l k : List μ}

theorem append (h : Accounts rs l) (h' : Accounts qs k) : Accounts (rs ++ qs) (l ++ k) := by
  induction h with
  | nil => exact h'
  | message _ ih => exact ih.message
  | @lagged gap _ _ _ ih =>
    rw [List.append_assoc]
    exact ih.lagged

end Accounts

variable {capacity next next' : Nat} {sent : List μ} {r : Receipt μ}

theorem tryRecv_cases (h : tryRecv capacity sent next = some (r, next')) :
    (next < oldest capacity sent ∧ r = .lagged (oldest capacity sent - next) ∧
      next' = oldest capacity sent) ∨
    (oldest capacity sent ≤ next ∧ next' = next + 1 ∧ ∃ m, sent[next]? = some m ∧
      r = .message m) := by
  unfold tryRecv at h
  split at h
  next hlag =>
    cases h
    exact .inl ⟨hlag, rfl, rfl⟩
  next hlag =>
    obtain ⟨m, hm, heq⟩ := Option.map_eq_some_iff.mp h
    cases heq
    exact .inr ⟨Nat.le_of_not_lt hlag, rfl, m, hm, rfl⟩

/-- The receiver moves on, and not past what was sent. -/
theorem tryRecv_next (h : tryRecv capacity sent next = some (r, next')) :
    next < next' ∧ next' ≤ sent.length := by
  rcases tryRecv_cases h with ⟨hlag, -, rfl⟩ | ⟨-, rfl, m, hm, -⟩
  · exact ⟨hlag, Nat.sub_le _ _⟩
  · have hlt := (List.getElem?_eq_some_iff.mp hm).1
    omega

/-- A receiver that has everything there is. -/
theorem tryRecv_eq_none_iff : tryRecv capacity sent next = none ↔ sent.length ≤ next := by
  unfold tryRecv
  split
  next hlag =>
    have hoff : next < sent.length := Nat.lt_of_lt_of_le hlag (Nat.sub_le _ _)
    simp only [reduceCtorEq, false_iff]
    omega
  · rw [Option.map_eq_none_iff, List.getElem?_eq_none_iff]

/-- One receipt accounts for what the receiver passed with it. -/
theorem accounts_tryRecv (h : tryRecv capacity sent next = some (r, next')) :
    Accounts [r] (passedSince sent next next') := by
  have hnext := tryRecv_next h
  rcases tryRecv_cases h with ⟨hlag, rfl, rfl⟩ | ⟨-, rfl, m, hm, rfl⟩
  · have hlength : (passedSince sent next (oldest capacity sent)).length =
        oldest capacity sent - next := by
      rw [passedSince, List.length_drop, List.length_take]
      omega
    have haccounts : Accounts [.lagged (passedSince sent next (oldest capacity sent)).length]
        (passedSince sent next (oldest capacity sent) ++ []) := Accounts.nil.lagged
    rw [hlength, List.append_nil] at haccounts
    exact haccounts
  · obtain ⟨hlt, hget⟩ := List.getElem?_eq_some_iff.mp hm
    have hpassed : passedSince sent next (next + 1) = [m] := by
      rw [passedSince, List.take_add_one, hm, List.drop_append_of_le_length (by simp; omega),
        List.drop_of_length_le (List.length_take_le _ _)]
      rfl
    rw [hpassed]
    exact .message .nil

theorem passedSince_append {start : Nat} (hstart : start ≤ next) (hnext : next ≤ next') :
    passedSince sent start next ++ passedSince sent next next' = passedSince sent start next' := by
  have htake : (sent.take next').take next = sent.take next := by
    rw [List.take_take, Nat.min_eq_left hnext]
  have hsplit := List.take_append_drop next (sent.take next')
  rw [htake] at hsplit
  unfold passedSince
  rw [← hsplit]
  by_cases hlength : next ≤ sent.length
  · rw [List.drop_append_of_le_length (by simp; omega), List.drop_append_of_le_length (by simp; omega)]
    simp
  · have hempty : (sent.take next').drop next = [] :=
      List.drop_of_length_le (by simp; omega)
    simp [hempty]

/-- The receipts go on accounting for what the receiver has passed. -/
theorem Accounts.receive {start : Nat} {rs : List (Receipt μ)}
    (hrs : Accounts rs (passedSince sent start next)) (hstart : start ≤ next)
    (h : tryRecv capacity sent next = some (r, next')) :
    Accounts (rs ++ [r]) (passedSince sent start next') := by
  have hall := hrs.append (accounts_tryRecv h)
  rwa [passedSince_append hstart (Nat.le_of_lt (tryRecv_next h).1)] at hall

/-- What is sent later has not been passed. -/
theorem passedSince_send {start : Nat} (hnext : next ≤ sent.length) (m : μ) :
    passedSince (sent ++ [m]) start next = passedSince sent start next := by
  rw [passedSince, List.take_append_of_le_length hnext]
  rfl

end MatterRsServer.Lib.Broadcast
