import MatterRsServer.Lib.Interleaving
import Mathlib.Data.List.Induction

/-!
# Mirrors of a shared memory

A mirror (a directory of files, a subscriber's copy) is kept in step with a
memory by outputs that tasks send some time after they changed the memory.
`Mirror` says how an output overwrites the mirror's entry of a key; `Settles`
says of one task that every change it makes is followed by an output that
carries it. A mirror fed by settling tasks agrees with the memory whenever all
tasks have finished, provided that no change ever outdates an output that
another task is already committed to.

Outputs overwrite: of two outputs only the later one shows where both write
(`overwrite`, the left regular band law). That is all the argument needs to
know about them, so partial outputs (one attribute) and whole ones mix freely.
-/
namespace MatterRsServer.Lib

/-- `source` is what the memory holds under a key, `none` when nothing; `act` is
the effect of an output on a mirror's entry. -/
structure Mirror (κ ν σ ε : Type) where
  source : σ → κ → Option ν
  act : ε → κ → Option ν → Option ν
  overwrite : ∀ (e : ε) (l : List ε) (k : κ) (x : Option ν),
    act e k (l.foldl (fun y f => act f k y) (act e k x)) =
      act e k (l.foldl (fun y f => act f k y) x)

namespace Mirror

variable {ι κ ν σ ε : Type}

/-- The entry of `k` after the outputs `l`. -/
def fold (S : Mirror κ ν σ ε) (l : List ε) (k : κ) (x : Option ν) : Option ν :=
  l.foldl (fun y f => S.act f k y) x

/-- The mirror's contents after the outputs `l`. -/
def after (S : Mirror κ ν σ ε) (l : List ε) (view : κ → Option ν) : κ → Option ν :=
  fun k => S.fold l k (view k)

/-- The output says nothing that the memory does not hold. -/
def UpToDate (S : Mirror κ ν σ ε) (e : ε) (s : σ) : Prop := ∀ k, S.act e k (S.source s k) = S.source s k

@[simp] theorem fold_nil (S : Mirror κ ν σ ε) (k : κ) (x : Option ν) : S.fold [] k x = x := rfl

theorem fold_append (S : Mirror κ ν σ ε) (l m : List ε) (k : κ) (x : Option ν) :
    S.fold (l ++ m) k x = S.fold m k (S.fold l k x) := List.foldl_append

@[simp] theorem fold_concat (S : Mirror κ ν σ ε) (l : List ε) (e : ε) (k : κ) (x : Option ν) :
    S.fold (l ++ [e]) k x = S.act e k (S.fold l k x) := by simp [fold]

@[simp] theorem after_nil (S : Mirror κ ν σ ε) (v : κ → Option ν) : S.after [] v = v := rfl

theorem after_append (S : Mirror κ ν σ ε) (l m : List ε) (v : κ → Option ν) :
    S.after (l ++ m) v = S.after m (S.after l v) := funext fun k => S.fold_append l m k (v k)

/-- Outputs that all hold of a value leave it as it is. -/
theorem fold_fixed (S : Mirror κ ν σ ε) {l : List ε} {k : κ} {v : Option ν}
    (h : ∀ f ∈ l, S.act f k v = v) : S.fold l k v = v := by
  induction l with
  | nil => rfl
  | cons f l ih =>
    change S.fold l k (S.act f k v) = v
    rw [h f (by simp)]
    exact ih fun g hg => h g (by simp [hg])

/-- Seen through `e`, earlier occurrences of `e` make no difference. -/
theorem act_fold_filter [DecidableEq ε] (S : Mirror κ ν σ ε) (e : ε) (l : List ε) (k : κ)
    (x : Option ν) : S.act e k (S.fold l k x) = S.act e k (S.fold (l.filter (· ≠ e)) k x) := by
  induction l generalizing x with
  | nil => rfl
  | cons f l ih =>
    change S.act e k (S.fold l k (S.act f k x)) = _
    by_cases hf : f = e
    · subst hf
      have hfilter : (f :: l).filter (· ≠ f) = l.filter (· ≠ f) := by simp
      rw [hfilter, ← ih x]
      exact S.overwrite f l k x
    · have hfilter : (f :: l).filter (· ≠ e) = f :: l.filter (· ≠ e) := by simp [hf]
      rw [hfilter, ih]
      rfl

/-- The overwrite law for a list of outputs in the outer place. -/
theorem fold_overwrite (S : Mirror κ ν σ ε) (l m : List ε) (k : κ) (x : Option ν) :
    S.fold l k (S.fold m k (S.fold l k x)) = S.fold l k (S.fold m k x) := by
  induction l using List.reverseRecOn generalizing m with
  | nil => rfl
  | append_singleton l e ih =>
    simp only [fold_concat]
    have hinner := S.overwrite e (m ++ l) k (S.fold l k x)
    simp only [List.foldl_append] at hinner
    change S.act e k (S.fold l k (S.fold m k (S.act e k (S.fold l k x)))) =
      S.act e k (S.fold l k (S.fold m k (S.fold l k x))) at hinner
    rw [hinner, ih]

/-- Delivering one of several true outputs leaves the others to complete the value. -/
theorem fold_filter_act [DecidableEq ε] (S : Mirror κ ν σ ε) {e : ε} {l : List ε} {k : κ}
    {x v : Option ν} (hfold : S.fold l k x = v) (htrue : ∀ f ∈ l, S.act f k v = v)
    (he : S.act e k v = v) : S.fold (l.filter (· ≠ e)) k (S.act e k x) = v := by
  have hrest : S.fold (l.filter (· ≠ e)) k v = v :=
    S.fold_fixed fun f hf => htrue f (List.mem_filter.mp hf).1
  have hv : S.act e k (S.fold (l.filter (· ≠ e)) k x) = v := by
    rw [← act_fold_filter, hfold, he]
  have hband := S.fold_overwrite (l.filter (· ≠ e)) [e] k x
  change S.fold _ k (S.act e k (S.fold _ k x)) = S.fold _ k (S.act e k x) at hband
  rw [← hband, hv, hrest]

/-- What an access that turns `s` into `s'` and commits its task to the outputs
`es` must achieve, where `D` are the keys the task still had to report on before
the access and `D'` those after it. -/
structure Obliged (S : Mirror κ ν σ ε) (D D' : κ → Prop) (s s' : σ) (es : List ε) : Prop where
  upToDate : ∀ e ∈ es, S.UpToDate e s'
  changed : ∀ k, S.source s' k ≠ S.source s k → (D' k ∧ S.source s' k ≠ none) ∨
    ∃ e ∈ es, S.act e k (S.source s k) = S.source s' k ∧
      (S.source s' k = none → ∀ x, S.act e k x = none)
  discharged : ∀ k, D k → ¬ D' k → S.source s' k = none ∨ ∃ e ∈ es, ∀ x, S.act e k x = S.source s' k

/-- Every change the task makes is reported by a later output of the task. -/
def Settles (S : Mirror κ ν σ ε) : Prog σ ε → (κ → Prop) → Prop
  | .done, D => ∀ k, ¬ D k
  | .access ready upd next, D => ∀ s, ready s = true →
      ∃ D', Settles S (next s) D' ∧ S.Obliged D D' s (upd s) (next s).pending
  | .emit _ rest, D => Settles S rest D

/-- The output leaves every entry alone. -/
def Neutral (S : Mirror κ ν σ ε) (e : ε) : Prop := ∀ k x, S.act e k x = x

/-- The task is committed to nothing that the mirror could show. -/
def Quiet (S : Mirror κ ν σ ε) (p : Prog σ ε) : Prop := ∀ e ∈ p.pending, S.Neutral e

theorem Neutral.upToDate {S : Mirror κ ν σ ε} {e : ε} (h : S.Neutral e) (s : σ) : S.UpToDate e s :=
  fun k => h k _

theorem quiet_of_pending_nil {S : Mirror κ ν σ ε} {p : Prog σ ε} (h : p.pending = []) : S.Quiet p := by
  intro e he
  simp [h] at he

theorem Neutral.quiet_emit {S : Mirror κ ν σ ε} {e : ε} {p : Prog σ ε} (he : S.Neutral e)
    (hp : S.Quiet p) : S.Quiet (.emit e p) := by
  intro f hf
  rcases List.mem_cons.mp hf with rfl | hf
  · exact he
  · exact hp f hf

/-- An access that leaves the source alone keeps the task's debt as it is. -/
theorem settles_frame {S : Mirror κ ν σ ε} {D : κ → Prop} {ready : σ → Bool} {upd : σ → σ}
    {next : σ → Prog σ ε} (hsource : ∀ s, S.source (upd s) = S.source s)
    (hnext : ∀ s, S.Settles (next s) D)
    (hup : ∀ s, ∀ e ∈ (next s).pending, S.UpToDate e (upd s)) :
    S.Settles (.access ready upd next) D := by
  intro s _
  refine ⟨D, hnext s, hup s, ?_, ?_⟩
  · intro k hk
    exact absurd (congrFun (hsource s) k) hk
  · intro k hD hnD
    exact absurd hD hnD

/-- The mirror `view` lacks only what some task will still output. -/
structure Mirrored (S : Mirror κ ν σ ε) (view : κ → Option ν) (D : ι → κ → Prop)
    (c : Config ι σ ε) : Prop where
  settles : ∀ i, S.Settles (c.task i) (D i)
  upToDate : ∀ i, ∀ e ∈ (c.task i).pending, S.UpToDate e c.mem
  covered : ∀ k, (S.source c.mem k ≠ none ∧ ∃ i, D i k) ∨
    ∃ l : List ε, (∀ e ∈ l, ∃ i, e ∈ (c.task i).pending) ∧ S.fold l k (view k) = S.source c.mem k

/-- A step of `i` outdates no output that another task is committed to. -/
def KeepsPending (S : Mirror κ ν σ ε) (_ : Config ι σ ε) (i : ι) (c' : Config ι σ ε) : Prop :=
  ∀ j, j ≠ i → ∀ e ∈ (c'.task j).pending, S.UpToDate e c'.mem

/-- At rest the mirror shows exactly the memory. -/
theorem Mirrored.quiescent {S : Mirror κ ν σ ε} {view : κ → Option ν} {D : ι → κ → Prop}
    {c : Config ι σ ε} (h : S.Mirrored view D c) (hq : c.Quiescent) : view = S.source c.mem := by
  funext k
  rcases h.covered k with ⟨_, i, hD⟩ | ⟨l, hl, hfold⟩
  · have hset := h.settles i
    rw [hq i] at hset
    exact absurd hD (hset k)
  · cases l with
    | nil => exact hfold
    | cons e l =>
      obtain ⟨i, hi⟩ := hl e (by simp)
      simp [hq i] at hi

/-- Tasks that owe nothing yet: the mirror that shows the memory is covered. -/
theorem Mirrored.start {S : Mirror κ ν σ ε} {c : Config ι σ ε}
    (hsettles : ∀ i, S.Settles (c.task i) fun _ => False) (hnone : ∀ i, (c.task i).pending = []) :
    S.Mirrored (S.source c.mem) (fun _ _ => False) c :=
  ⟨hsettles, fun i e he => by simp [hnone i] at he, fun _ => Or.inr ⟨[], by simp, rfl⟩⟩

/-- A copy of the memory taken late, to which outputs that the mirror had already
received are applied once more, is covered too. -/
theorem Mirrored.rewind {S : Mirror κ ν σ ε} {view : κ → Option ν} {D : ι → κ → Prop}
    {c : Config ι σ ε} {q : List ε} (h : S.Mirrored (S.after q view) D c) :
    S.Mirrored (S.after q (S.source c.mem)) D c := by
  refine ⟨h.settles, h.upToDate, fun k => ?_⟩
  rcases h.covered k with howed | ⟨l, hl, hfold⟩
  · exact Or.inl howed
  · refine Or.inr ⟨l, hl, ?_⟩
    have htwice := S.fold_overwrite (q ++ l) [] k (view k)
    simp only [fold_append, fold_nil] at htwice
    change S.fold l k (S.fold q k (view k)) = S.source c.mem k at hfold
    rwa [hfold] at htwice

variable [DecidableEq ι]

theorem Mirrored.access {S : Mirror κ ν σ ε} {view : κ → Option ν} {D : ι → κ → Prop}
    {c : Config ι σ ε} (h : S.Mirrored view D c) {i : ι} {ready : σ → Bool} {upd : σ → σ}
    {next : σ → Prog σ ε} (htask : c.task i = .access ready upd next) (hready : ready c.mem = true)
    (hkeep : S.KeepsPending c i ⟨upd c.mem, c.log, Function.update c.task i (next c.mem)⟩) :
    ∃ D', S.Mirrored view D' ⟨upd c.mem, c.log, Function.update c.task i (next c.mem)⟩ := by
  have hset := h.settles i
  rw [htask] at hset
  obtain ⟨Di, hnext, hob⟩ := hset c.mem hready
  refine ⟨Function.update D i Di, ?_, ?_, ?_⟩
  · intro j
    by_cases hj : j = i
    · subst hj; simpa using hnext
    · simpa [hj] using h.settles j
  · intro j e he
    by_cases hj : j = i
    · subst hj; exact hob.upToDate e (by simpa using he)
    · exact hkeep j hj e he
  · intro k
    have hown : ∀ e ∈ (next c.mem).pending, ∃ j, e ∈ (Function.update c.task i (next c.mem) j).pending :=
      fun e he => ⟨i, by simpa using he⟩
    have hothers : ∀ e, (∃ j, e ∈ (c.task j).pending) →
        ∃ j, e ∈ (Function.update c.task i (next c.mem) j).pending := by
      rintro e ⟨j, hj⟩
      have hne : j ≠ i := by rintro rfl; simp [htask] at hj
      exact ⟨j, by simpa [hne] using hj⟩
    have hsingle : ∀ e ∈ (next c.mem).pending, ∀ v, S.act e k (view k) = v →
        ∃ l : List ε, (∀ f ∈ l, ∃ j, f ∈ (Function.update c.task i (next c.mem) j).pending) ∧
          S.fold l k (view k) = v := by
      intro e he v hv
      refine ⟨[e], ?_, hv⟩
      intro f hf
      rw [List.mem_singleton] at hf
      subst hf
      exact hown f he
    by_cases hsame : S.source (upd c.mem) k = S.source c.mem k
    · rcases h.covered k with ⟨hsome, j, hDj⟩ | ⟨l, hl, hfold⟩
      · by_cases hj : j = i
        · subst hj
          by_cases hD : Di k
          · exact Or.inl ⟨by simpa [hsame] using hsome, j, by simpa using hD⟩
          · rcases hob.discharged k hDj hD with hnone | ⟨e, he, hact⟩
            · exact absurd (hsame ▸ hnone) hsome
            · exact Or.inr (hsingle e he _ (hact _))
        · exact Or.inl ⟨by simpa [hsame] using hsome, j, by simpa [hj] using hDj⟩
      · exact Or.inr ⟨l, fun e he => hothers e (hl e he), by simpa [hsame] using hfold⟩
    · rcases hob.changed k hsame with ⟨hD, hsome⟩ | ⟨e, he, hact, hfull⟩
      · exact Or.inl ⟨hsome, i, by simpa using hD⟩
      · by_cases hnone : S.source (upd c.mem) k = none
        · refine Or.inr (hsingle e he _ ?_)
          rw [hfull hnone]
          exact hnone.symm
        · rcases h.covered k with ⟨_, j, hDj⟩ | ⟨l, hl, hfold⟩
          · by_cases hj : j = i
            · subst hj
              by_cases hD : Di k
              · exact Or.inl ⟨hnone, j, by simpa using hD⟩
              · rcases hob.discharged k hDj hD with habs | ⟨f, hf, hfact⟩
                · exact absurd habs hnone
                · exact Or.inr (hsingle f hf _ (hfact _))
            · exact Or.inl ⟨hnone, j, by simpa [hj] using hDj⟩
          · refine Or.inr ⟨l ++ [e], ?_, ?_⟩
            · intro f hf
              rcases List.mem_append.mp hf with hf | hf
              · exact hothers f (hl f hf)
              · rw [List.mem_singleton] at hf
                subst hf
                exact hown f he
            · rw [fold_concat, hfold, hact]

theorem Mirrored.emit {S : Mirror κ ν σ ε} {view : κ → Option ν} {D : ι → κ → Prop}
    {c : Config ι σ ε} (h : S.Mirrored view D c) {i : ι} {e : ε} {rest : Prog σ ε}
    (htask : c.task i = .emit e rest) :
    S.Mirrored (S.after [e] view) D ⟨c.mem, c.log ++ [e], Function.update c.task i rest⟩ := by
  classical
  have htrue : S.UpToDate e c.mem := h.upToDate i e (by simp [htask])
  refine ⟨?_, ?_, ?_⟩
  · intro j
    by_cases hj : j = i
    · subst hj
      have hset := h.settles j
      rw [htask] at hset
      simpa using show S.Settles rest (D j) from hset
    · simpa [hj] using h.settles j
  · intro j f hf
    by_cases hj : j = i
    · subst hj
      exact h.upToDate j f (by simp only [htask, Prog.pending_emit]; simp at hf; simp [hf])
    · exact h.upToDate j f (by simpa [hj] using hf)
  · intro k
    rcases h.covered k with ⟨hsome, j, hDj⟩ | ⟨l, hl, hfold⟩
    · exact Or.inl ⟨hsome, j, hDj⟩
    · refine Or.inr ⟨l.filter (· ≠ e), ?_, ?_⟩
      · intro f hf
        obtain ⟨hfl, hfe⟩ := List.mem_filter.mp hf
        have hfe' : f ≠ e := by simpa using hfe
        obtain ⟨j, hj⟩ := hl f hfl
        refine ⟨j, ?_⟩
        by_cases hji : j = i
        · subst hji
          rw [htask, Prog.pending_emit, List.mem_cons] at hj
          simpa using hj.resolve_left hfe'
        · simpa [hji] using hj
      · refine S.fold_filter_act hfold (fun f hf => ?_) (htrue k)
        obtain ⟨j, hj⟩ := hl f hf
        exact h.upToDate j f hj k

/-- One step keeps the mirror's debt covered; an output is delivered to the mirror. -/
theorem Mirrored.step {S : Mirror κ ν σ ε} {view : κ → Option ν} {D : ι → κ → Prop}
    {c c' : Config ι σ ε} (h : S.Mirrored view D c) {i : ι} (hstep : c.step i = some c')
    (hkeep : S.KeepsPending c i c') :
    ∃ D' new, c'.log = c.log ++ new ∧ S.Mirrored (S.after new view) D' c' := by
  rcases Config.step_cases hstep with ⟨ready, upd, next, htask, hready, rfl⟩ | ⟨e, rest, htask, rfl⟩
  · obtain ⟨D', h'⟩ := h.access htask hready hkeep
    exact ⟨D', [], by simp, h'⟩
  · exact ⟨D, [e], rfl, h.emit htask⟩

theorem Mirrored.run {S : Mirror κ ν σ ε} {view : κ → Option ν} {D : ι → κ → Prop}
    {c c' : Config ι σ ε} {sched : List ι} (h : S.Mirrored view D c)
    (halong : Config.Along S.KeepsPending c sched) (hrun : c.run sched = some c') :
    ∃ D' new, c'.log = c.log ++ new ∧ S.Mirrored (S.after new view) D' c' := by
  induction sched generalizing c view D with
  | nil => cases hrun; exact ⟨D, [], by simp, h⟩
  | cons i sched ih =>
    obtain ⟨m, hm, hr⟩ := Transition.run_cons hrun
    obtain ⟨hp, ha⟩ := halong m hm
    obtain ⟨D₁, new₁, hlog₁, h₁⟩ := h.step hm hp
    obtain ⟨D₂, new₂, hlog₂, h₂⟩ := ih h₁ ha hr
    refine ⟨D₂, new₁ ++ new₂, by rw [hlog₂, hlog₁, List.append_assoc], ?_⟩
    rw [after_append]
    exact h₂

end Mirror

end MatterRsServer.Lib
