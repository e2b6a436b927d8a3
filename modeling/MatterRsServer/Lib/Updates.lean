import MatterRsServer.Lib.Interleaving

/-!
# Tasks that update one value

Several tasks update a value kept in the memory, each in its own order. `Applies`
gives the updates a task still has to make; the value at the end of a run is then the
fold of a merge of the tasks' sequences, and a task's next update happens at one step
of the run.
-/
namespace MatterRsServer.Lib

/-- A value of the memory and what an update does to it, while the memory is `live`. -/
structure Updates (β υ σ : Type) where
  live : σ → Prop
  value : σ → β
  act : υ → β → β

namespace Updates

variable {ι β υ σ ε : Type} (U : Updates β υ σ)

/-- The task will make the updates `us`, one access each, and keeps the memory live. -/
def Applies : Prog σ ε → List υ → Prop
  | .done, us => us = []
  | .access ready upd next, us => ∀ s, U.live s → ready s = true → U.live (upd s) ∧
      ((U.value (upd s) = U.value s ∧ Applies (next s) us) ∨
        ∃ u rest, us = u :: rest ∧ U.value (upd s) = U.act u (U.value s) ∧ Applies (next s) rest)
  | .emit _ rest, us => Applies rest us

/-- Every task has the updates `todo` ahead of it. -/
structure Ahead (todo : ι → List υ) (c : Config ι σ ε) : Prop where
  live : U.live c.mem
  applies : ∀ i, U.Applies (c.task i) (todo i)

/-- The updates of one task within a merge. -/
def ofTask [DecidableEq ι] (i : ι) (applied : List (ι × υ)) : List υ :=
  (applied.filter fun p => p.1 = i).map Prod.snd

variable {U} {todo : ι → List υ}

/-- At rest nothing is ahead of any task. -/
theorem Ahead.quiescent {c : Config ι σ ε} (h : U.Ahead todo c) (hq : c.Quiescent) (i : ι) :
    todo i = [] := by
  have hi := h.applies i
  rw [hq i] at hi
  exact hi

variable [DecidableEq ι]

/-- A step makes no update, or the next one of the task that moves. -/
theorem Ahead.step {c c' : Config ι σ ε} (h : U.Ahead todo c) {i : ι} (hstep : c.step i = some c') :
    (U.value c'.mem = U.value c.mem ∧ U.Ahead todo c') ∨
      ∃ u rest, todo i = u :: rest ∧ U.value c'.mem = U.act u (U.value c.mem) ∧
        U.Ahead (Function.update todo i rest) c' := by
  have hi := h.applies i
  have hahead : ∀ (mem : σ) (log : List ε) (p : Prog σ ε) (us : List υ), U.live mem →
      U.Applies p us →
      U.Ahead (Function.update todo i us) ⟨mem, log, Function.update c.task i p⟩ := by
    intro mem log p us hlive hp
    refine ⟨hlive, fun j => ?_⟩
    by_cases hj : j = i
    · subst hj; simpa using hp
    · simpa [hj] using h.applies j
  rcases Config.step_cases hstep with ⟨ready, upd, next, htask, hready, rfl⟩ | ⟨e, rest, htask, rfl⟩
  · rw [htask] at hi
    obtain ⟨hlive, ⟨hsame, hnext⟩ | ⟨u, rest, hus, hact, hnext⟩⟩ := hi c.mem h.live hready
    · refine Or.inl ⟨hsame, ?_⟩
      simpa using hahead (upd c.mem) c.log (next c.mem) (todo i) hlive hnext
    · exact Or.inr ⟨u, rest, hus, hact, hahead _ _ _ rest hlive hnext⟩
  · rw [htask] at hi
    refine Or.inl ⟨rfl, ?_⟩
    simpa using hahead c.mem (c.log ++ [e]) rest (todo i) h.live hi

@[simp] theorem ofTask_append (i : ι) (a b : List (ι × υ)) :
    ofTask i (a ++ b) = ofTask i a ++ ofTask i b := by simp [ofTask]

@[simp] theorem ofTask_cons_self (i : ι) (u : υ) (a : List (ι × υ)) :
    ofTask i ((i, u) :: a) = u :: ofTask i a := by simp [ofTask]

theorem ofTask_cons_of_ne {i j : ι} (h : j ≠ i) (u : υ) (a : List (ι × υ)) :
    ofTask i ((j, u) :: a) = ofTask i a := by simp [ofTask, h]

/-- Putting a task's next update in front of a merge of what remains. -/
theorem merge_cons (tail : ι → List υ) {i : ι} {u : υ} {rest : List υ} (hi : todo i = u :: rest)
    {applied : List (ι × υ)}
    (h : ∀ j, Function.update todo i rest j = ofTask j applied ++ tail j) (j : ι) :
    todo j = ofTask j ((i, u) :: applied) ++ tail j := by
  have hj := h j
  by_cases hji : j = i
  · subst hji
    rw [Function.update_self] at hj
    simp [hi, hj]
  · rw [Function.update_of_ne hji] at hj
    simpa [ofTask_cons_of_ne (Ne.symm hji)] using hj

/-- The value after the updates `applied`. -/
def fold (U : Updates β υ σ) (applied : List (ι × υ)) (v : β) : β :=
  applied.foldl (fun v p => U.act p.2 v) v

/-- A run applies a merge of the tasks' sequences. -/
theorem Ahead.run {c c' : Config ι σ ε} {sched : List ι} (h : U.Ahead todo c)
    (hrun : c.run sched = some c') :
    ∃ todo' applied, U.Ahead todo' c' ∧ U.value c'.mem = U.fold applied (U.value c.mem) ∧
      ∀ i, todo i = ofTask i applied ++ todo' i := by
  induction sched generalizing c todo with
  | nil => cases hrun; exact ⟨todo, [], h, rfl, fun _ => rfl⟩
  | cons i sched ih =>
    obtain ⟨m, hm, hr⟩ := Transition.run_cons hrun
    rcases h.step hm with ⟨hsame, hahead⟩ | ⟨u, rest, hus, hact, hahead⟩
    · obtain ⟨todo', applied, h', hvalue, hmerge⟩ := ih hahead hr
      exact ⟨todo', applied, h', by rw [hvalue, hsame], hmerge⟩
    · obtain ⟨todo', applied, h', hvalue, hmerge⟩ := ih hahead hr
      exact ⟨todo', (i, u) :: applied, h', by rw [hvalue, hact]; rfl, merge_cons todo' hus hmerge⟩

/-- In a run that makes all updates, task `i` makes its next one at some step; the others'
updates land before it or after it. -/
theorem Ahead.exists_step {c c' : Config ι σ ε} {sched : List ι} (h : U.Ahead todo c) {i : ι} {u : υ}
    {us : List υ} (hi : todo i = u :: us) (hrun : c.run sched = some c') (hq : c'.Quiescent) :
    ∃ s₁ s₂ m m' before after, sched = s₁ ++ i :: s₂ ∧ c.run s₁ = some m ∧ m.step i = some m' ∧
      m'.run s₂ = some c' ∧ U.value m.mem = U.fold before (U.value c.mem) ∧
      U.value m'.mem = U.act u (U.value m.mem) ∧
      U.value c'.mem = U.fold after (U.value m'.mem) ∧ ofTask i before = [] ∧
      ∀ j, todo j = ofTask j (before ++ (i, u) :: after) := by
  induction sched generalizing c todo with
  | nil =>
    cases hrun
    have hnone := h.quiescent hq i
    rw [hi] at hnone
    cases hnone
  | cons j sched ih =>
    obtain ⟨m, hm, hr⟩ := Transition.run_cons hrun
    have hcons : ∀ {s₁ n}, m.run s₁ = some n → c.run (j :: s₁) = some n := by
      intro s₁ n hn
      simpa only [Config.run, Transition.run, hm, Option.bind_some] using hn
    rcases h.step hm with ⟨hsame, hahead⟩ | ⟨w, rest, hus, hact, hahead⟩
    · obtain ⟨s₁, s₂, n, n', before, after, rfl, hn, hstep, hn', hbefore, hu, hafter, hfirst, hmerge⟩ :=
        ih hahead hi hr
      exact ⟨j :: s₁, s₂, n, n', before, after, rfl, hcons hn, hstep, hn', by rw [hbefore, hsame],
        hu, hafter, hfirst, hmerge⟩
    · by_cases hji : j = i
      · subst hji
        rw [hi] at hus
        cases hus
        obtain ⟨todo', after, h', hafter, hmerge⟩ := hahead.run hr
        have hall : ∀ k, todo' k = [] := h'.quiescent hq
        refine ⟨[], sched, c, m, [], after, rfl, rfl, hm, hr, rfl, hact, hafter, rfl, fun k => ?_⟩
        simpa [hall] using merge_cons todo' hi hmerge k
      · have hi' : Function.update todo j rest i = u :: us := by
          rw [Function.update_of_ne (Ne.symm hji)]
          exact hi
        obtain ⟨s₁, s₂, n, n', before, after, rfl, hn, hstep, hn', hbefore, hu, hafter, hfirst,
          hmerge⟩ := ih hahead hi' hr
        refine ⟨j :: s₁, s₂, n, n', (j, w) :: before, after, rfl, hcons hn, hstep, hn',
          by rw [hbefore, hact]; rfl, hu, hafter, ?_, fun k => ?_⟩
        · rw [ofTask_cons_of_ne hji]
          exact hfirst
        · have hk : todo k = ofTask k ((j, w) :: (before ++ (i, u) :: after)) ++ [] :=
            merge_cons (fun _ => []) hus (fun k => by simpa using hmerge k) k
          simpa using hk

/-- A merge in which only one task takes part is that task's sequence. -/
theorem map_snd_eq_ofTask {i : ι} {applied : List (ι × υ)} (h : ∀ j, j ≠ i → ofTask j applied = []) :
    applied.map Prod.snd = ofTask i applied := by
  unfold ofTask
  rw [List.filter_eq_self.mpr]
  intro p hp
  by_contra hne
  have hmem : p.2 ∈ ofTask p.1 applied := List.mem_map.mpr ⟨p, by simp [hp], rfl⟩
  rw [h p.1 (by simpa using hne)] at hmem
  cases hmem

end Updates

end MatterRsServer.Lib
