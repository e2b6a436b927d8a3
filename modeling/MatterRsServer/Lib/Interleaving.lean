import MatterRsServer.Lib.Transition
import Mathlib.Logic.Function.Basic
import Mathlib.Data.List.Basic

/-!
# Interleaving of tasks over one shared memory

A task is a tree of atomic steps: an access to the lock-protected memory, whose
continuation may depend on what the access read, or one output. Tasks that
await something else in between do nothing observable, so an await is not a
step. A schedule lists which task moves next; every interleaving of the tasks
is a schedule that `Config.run` accepts.
-/
namespace MatterRsServer.Lib

/-- A task over memory `σ` with outputs `ε`. `ready` blocks an access until the
memory allows it (a mutex that must be free first). -/
inductive Prog (σ ε : Type) where
  | done
  | access (ready : σ → Bool) (upd : σ → σ) (next : σ → Prog σ ε)
  | emit (e : ε) (rest : Prog σ ε)

namespace Prog

variable {σ ε α : Type}

/-- Read the memory in one step. -/
def read (f : σ → α) (k : α → Prog σ ε) : Prog σ ε := .access (fun _ => true) id fun s => k (f s)

/-- Change the memory in one step. -/
def modify (f : σ → σ) (k : Prog σ ε) : Prog σ ε := .access (fun _ => true) f fun _ => k

/-- Change the memory and return a value, in one step. -/
def modifyGet (f : σ → α × σ) (k : α → Prog σ ε) : Prog σ ε :=
  .access (fun _ => true) (fun s => (f s).2) fun s => k (f s).1

/-- Wait until the memory allows the change. -/
def await (ready : σ → Bool) (f : σ → σ) (k : Prog σ ε) : Prog σ ε := .access ready f fun _ => k

/-- Outputs the task is already committed to: those before its next access. -/
def pending : Prog σ ε → List ε
  | .emit e rest => e :: rest.pending
  | _ => []

@[simp] theorem pending_done : (Prog.done : Prog σ ε).pending = [] := rfl
@[simp] theorem pending_access (r : σ → Bool) (u : σ → σ) (n : σ → Prog σ ε) :
    (Prog.access r u n).pending = [] := rfl
@[simp] theorem pending_emit (e : ε) (p : Prog σ ε) :
    (Prog.emit e p).pending = e :: p.pending := rfl
@[simp] theorem pending_read (f : σ → α) (k : α → Prog σ ε) : (read f k).pending = [] := rfl
@[simp] theorem pending_modify (f : σ → σ) (k : Prog σ ε) : (modify f k).pending = [] := rfl
@[simp] theorem pending_modifyGet (f : σ → α × σ) (k : α → Prog σ ε) :
    (modifyGet f k).pending = [] := rfl
@[simp] theorem pending_await (r : σ → Bool) (f : σ → σ) (k : Prog σ ε) :
    (await r f k).pending = [] := rfl

/-- The task runs to its end with nothing in between: final memory and outputs. -/
def exec : Prog σ ε → σ → σ × List ε
  | .done, s => (s, [])
  | .access _ u n, s => (n s).exec (u s)
  | .emit e rest, s => ((rest.exec s).1, e :: (rest.exec s).2)

end Prog

/-- Memory, the outputs so far in order, and what every task has left to do. -/
structure Config (ι σ ε : Type) where
  mem : σ
  log : List ε
  task : ι → Prog σ ε

namespace Config

variable {ι σ ε : Type} [DecidableEq ι]

/-- Task `i` performs its next step; `none` when it is finished or blocked. -/
def step (c : Config ι σ ε) (i : ι) : Option (Config ι σ ε) :=
  match c.task i with
  | .done => none
  | .access ready upd next =>
    if ready c.mem then
      some ⟨upd c.mem, c.log, Function.update c.task i (next c.mem)⟩
    else none
  | .emit e rest => some ⟨c.mem, c.log ++ [e], Function.update c.task i rest⟩

abbrev run (c : Config ι σ ε) (sched : List ι) : Option (Config ι σ ε) :=
  Transition.run step c sched

/-- Every step the schedule takes from `c` meets `P`. -/
abbrev Along (P : Config ι σ ε → ι → Config ι σ ε → Prop) (c : Config ι σ ε) (sched : List ι) :
    Prop := Transition.Along step P c sched

/-- No task has anything left to do. -/
def Quiescent (c : Config ι σ ε) : Prop := ∀ i, c.task i = .done

/-- What one step can be: an access of a ready task, or one output. -/
theorem step_cases {c c' : Config ι σ ε} {i : ι} (h : c.step i = some c') :
    (∃ ready upd next, c.task i = .access ready upd next ∧ ready c.mem = true ∧
      c' = ⟨upd c.mem, c.log, Function.update c.task i (next c.mem)⟩) ∨
    (∃ e rest, c.task i = .emit e rest ∧
      c' = ⟨c.mem, c.log ++ [e], Function.update c.task i rest⟩) := by
  unfold step at h
  split at h
  · cases h
  next ready upd next htask =>
    split at h
    next hready => exact Or.inl ⟨ready, upd, next, htask, hready, (Option.some.inj h).symm⟩
    · cases h
  next e rest htask => exact Or.inr ⟨e, rest, htask, (Option.some.inj h).symm⟩

/-- A step leaves the other tasks where they are. -/
theorem step_other {c c' : Config ι σ ε} {i j : ι} (h : c.step i = some c') (hj : j ≠ i) :
    c'.task j = c.task j := by
  rcases step_cases h with ⟨_, _, _, _, _, rfl⟩ | ⟨_, _, _, rfl⟩ <;> exact Function.update_of_ne hj _ _

/-- A task that is not scheduled stays where it is. -/
theorem run_other {c c' : Config ι σ ε} {sched : List ι} {j : ι} (h : c.run sched = some c')
    (hj : j ∉ sched) : c'.task j = c.task j := by
  induction sched generalizing c with
  | nil => cases h; rfl
  | cons i rest ih =>
    obtain ⟨d, hd, hrest⟩ := Transition.run_cons h
    rw [List.mem_cons, not_or] at hj
    exact (ih hrest hj.2).trans (step_other hd hj.1)

/-- Nothing is ever taken back from the log. -/
theorem step_log {c c' : Config ι σ ε} {i : ι} (h : c.step i = some c') :
    ∃ new, c'.log = c.log ++ new := by
  rcases step_cases h with ⟨_, _, _, _, _, rfl⟩ | ⟨e, _, _, rfl⟩
  · exact ⟨[], (List.append_nil _).symm⟩
  · exact ⟨[e], rfl⟩

theorem run_log {c c' : Config ι σ ε} {sched : List ι} (h : c.run sched = some c') :
    ∃ new, c'.log = c.log ++ new := by
  induction sched generalizing c with
  | nil => cases h; exact ⟨[], (List.append_nil _).symm⟩
  | cons i rest ih =>
    obtain ⟨d, hd, hrest⟩ := Transition.run_cons h
    obtain ⟨l, hl⟩ := step_log hd
    obtain ⟨m, hm⟩ := ih hrest
    exact ⟨l ++ m, by rw [hm, hl, List.append_assoc]⟩

/-- A property of logs that holds at the end of a run and passes to prefixes held all along. -/
theorem along_log {Q : List ε → Prop} (hQ : ∀ l m, Q (l ++ m) → Q l) {c c' : Config ι σ ε}
    {sched : List ι} (h : c.run sched = some c') (hend : Q c'.log) :
    Along (fun _ _ d => Q d.log) c sched := by
  induction sched generalizing c with
  | nil => trivial
  | cons i rest ih =>
    obtain ⟨d, hd, hrest⟩ := Transition.run_cons h
    intro d' hd'
    obtain rfl : d = d' := Option.some.inj (hd.symm.trans hd')
    obtain ⟨new, hnew⟩ := run_log hrest
    exact ⟨hQ d.log new (hnew ▸ hend), ih hrest⟩

/-- While one task runs alone, nothing that the others are committed to appears. -/
theorem Along.solo {P : Config ι σ ε → ι → Config ι σ ε → Prop} {i : ι}
    (hP : ∀ c c', (∀ j, j ≠ i → (c'.task j).pending = []) → P c i c') (n : Nat)
    {c : Config ι σ ε} (h : ∀ j, j ≠ i → (c.task j).pending = []) :
    Along P c (List.replicate n i) := by
  induction n generalizing c with
  | zero => trivial
  | succ n ih =>
    intro d hd
    have hothers : ∀ j, j ≠ i → (d.task j).pending = [] := fun j hj => by
      rw [step_other hd hj]
      exact h j hj
    exact ⟨hP c d hothers, ih hothers⟩

end Config

end MatterRsServer.Lib
