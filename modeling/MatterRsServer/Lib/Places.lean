import Mathlib.Data.List.Basic
import Mathlib.Data.List.Perm.Basic
import Mathlib.Data.List.Range

/-!
# Numbered jobs

Jobs are numbered in the order in which they are handed in. Each one waits in a queue, runs or
is over, and is in one place only; the queue holds the ones handed in last, in order.
-/
namespace MatterRsServer.Lib

/-- Where the first `n` jobs are. -/
structure Places (n : Nat) (waiting running gone : List Nat) : Prop where
  once : (waiting ++ running ++ gone).Perm (List.range n)
  queued : waiting = List.range' (n - waiting.length) waiting.length

namespace Places

variable {n job : Nat} {waiting running gone : List Nat}

theorem start : Places 0 [] [] [] := ⟨.refl _, rfl⟩

theorem length_le (h : Places n waiting running gone) : waiting.length ≤ n := by
  have hlength := h.once.length_eq
  simp only [List.length_append, List.length_range] at hlength
  omega

theorem lt (h : Places n waiting running gone) (hjob : job ∈ waiting ++ running ++ gone) :
    job < n :=
  List.mem_range.mp (h.once.mem_iff.mp hjob)

/-- A job is handed in. -/
theorem submit (h : Places n waiting running gone) : Places (n + 1) (waiting ++ [n]) running gone where
  once := by
    rw [List.range_succ, List.append_assoc, List.append_assoc]
    have hmoved : (waiting ++ ([n] ++ (running ++ gone))).Perm (waiting ++ ((running ++ gone) ++ [n])) :=
      List.perm_append_comm.append_left waiting
    refine hmoved.trans ?_
    rw [← List.append_assoc, ← List.append_assoc]
    exact h.once.append_right [n]
  queued := by
    have hle := h.length_le
    have hstart : n + 1 - (waiting ++ [n]).length = n - waiting.length := by
      rw [List.length_append, List.length_singleton]
      omega
    rw [hstart, List.length_append, List.length_singleton, List.range'_concat, ← h.queued]
    congr 2
    omega

/-- A job is turned away. -/
theorem refuse (h : Places n [] running gone) : Places (n + 1) [] running (gone ++ [n]) where
  once := by
    rw [List.range_succ, ← List.append_assoc]
    exact h.once.append_right [n]
  queued := rfl

theorem queued_tail (h : Places n (job :: waiting) running gone) :
    waiting = List.range' (n - waiting.length) waiting.length := by
  have hle := h.length_le
  have hqueued := h.queued
  rw [List.length_cons] at hle hqueued
  rw [List.range'_succ] at hqueued
  have htail := (List.cons.inj hqueued).2
  have hstart : n - (waiting.length + 1) + 1 = n - waiting.length := by omega
  rw [hstart] at htail
  exact htail

/-- The job that waits longest is the one whose turn it is by the order of handing in. -/
theorem head_eq (h : Places n (job :: waiting) running gone) : job = n - (waiting.length + 1) := by
  have hqueued := h.queued
  rw [List.length_cons, List.range'_succ] at hqueued
  exact (List.cons.inj hqueued).1

/-- The first job of the queue begins to run. -/
theorem begin (h : Places n (job :: waiting) running gone) :
    Places n waiting (running ++ [job]) gone where
  once := by
    refine List.Perm.trans ?_ h.once
    have hmoved : (waiting ++ (running ++ [job])).Perm (job :: (waiting ++ running)) := by
      rw [← List.append_assoc]
      exact List.perm_append_singleton job _
    exact hmoved.append_right gone
  queued := h.queued_tail

/-- The first job of the queue is over at once. -/
theorem serve (h : Places n (job :: waiting) running gone) :
    Places n waiting running (gone ++ [job]) where
  once := by
    refine List.Perm.trans ?_ h.once
    rw [← List.append_assoc]
    exact List.perm_append_singleton job _
  queued := h.queued_tail

/-- A running job is over. -/
theorem finish (h : Places n waiting running gone) (hjob : job ∈ running) :
    Places n waiting (running.erase job) (gone ++ [job]) where
  once := by
    refine List.Perm.trans ?_ h.once
    have hmoved : (running.erase job ++ (gone ++ [job])).Perm (running ++ gone) := by
      rw [← List.append_assoc]
      refine (List.perm_append_singleton job _).trans ?_
      exact (List.perm_cons_erase hjob).symm.append_right gone
    rw [List.append_assoc, List.append_assoc]
    exact hmoved.append_left waiting
  queued := h.queued

/-- All that waits is dropped. -/
theorem dropWaiting (h : Places n waiting running gone) : Places n [] running (gone ++ waiting) where
  once := by
    refine List.Perm.trans ?_ h.once
    rw [List.nil_append, ← List.append_assoc, List.append_assoc waiting]
    exact List.perm_append_comm
  queued := rfl

/-- All that runs is dropped. -/
theorem dropRunning (h : Places n waiting running gone) : Places n waiting [] (gone ++ running) where
  once := by
    refine List.Perm.trans ?_ h.once
    rw [List.append_nil, List.append_assoc]
    exact List.perm_append_comm.append_left waiting
  queued := h.queued

theorem nodup (h : Places n waiting running gone) : (waiting ++ running ++ gone).Nodup :=
  h.once.nodup_iff.mpr List.nodup_range

end Places

end MatterRsServer.Lib
