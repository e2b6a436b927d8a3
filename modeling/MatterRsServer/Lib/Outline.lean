import MatterRsServer.Lib.Interleaving
import Mathlib.Logic.Nonempty

/-!
# Proof outlines

A protocol names the stages a task goes through and says what an access or an
output may do at each of them. Of a task that follows its protocol only the stage
matters: an invariant of the whole system is proved over the steps of the protocols,
and holds along every interleaving of the programs.
-/
namespace MatterRsServer.Lib

variable {ι σ ε γ : Type}

/-- `left` is what a task at a stage may have left to do, and `knows` what it may count
on there, whatever the others have done since. -/
structure Protocol (σ ε γ : Type) where
  left : γ → Prog σ ε → Prop
  knows : γ → σ → Prop
  access : γ → σ → σ → γ → Prop
  output : γ → ε → γ → Prop

namespace Protocol

/-- The task is at stage `g` of the protocol and keeps to it from there on. -/
def Follows (P : Protocol σ ε γ) : Prog σ ε → γ → Prop
  | .done, g => P.left g .done
  | .access ready upd next, g => P.left g (.access ready upd next) ∧
      ∀ s, ready s = true → P.knows g s →
        ∃ g', P.access g s (upd s) g' ∧ (P.knows g' (upd s) → Follows P (next s) g')
  | .emit e rest, g => P.left g (.emit e rest) ∧ ∃ g', P.output g e g' ∧ Follows P rest g'

variable {P : Protocol σ ε γ}

theorem Follows.left {p : Prog σ ε} {g : γ} (h : P.Follows p g) : P.left g p := by
  cases p with
  | done => exact h
  | access ready upd next => exact h.1
  | emit e rest => exact h.1

section Both

variable {δ : Type}

/-- Two protocols at once: what either allows on its own, and what both know. -/
def both (P : Protocol σ ε γ) (Q : Protocol σ ε δ) : Protocol σ ε (γ × δ) where
  left g t := P.left g.1 t ∧ Q.left g.2 t
  knows g s := P.knows g.1 s ∧ Q.knows g.2 s
  access g s s' g' := P.access g.1 s s' g'.1 ∧ Q.access g.2 s s' g'.2
  output g e g' := P.output g.1 e g'.1 ∧ Q.output g.2 e g'.2

theorem Follows.both {Q : Protocol σ ε δ} {p : Prog σ ε} {g : γ} {d : δ} (h : P.Follows p g)
    (h' : Q.Follows p d) : (P.both Q).Follows p (g, d) := by
  induction p generalizing g d with
  | done => exact ⟨h, h'⟩
  | access ready upd next ih =>
    refine ⟨⟨h.1, h'.1⟩, fun s hready hknows => ?_⟩
    obtain ⟨g', haccess, hnext⟩ := h.2 s hready hknows.1
    obtain ⟨d', haccess', hnext'⟩ := h'.2 s hready hknows.2
    exact ⟨(g', d'), ⟨haccess, haccess'⟩, fun hk => ih s (hnext hk.1) (hnext' hk.2)⟩
  | emit e rest ih =>
    obtain ⟨hleft, g', houtput, hrest⟩ := h
    obtain ⟨hleft', d', houtput', hrest'⟩ := h'
    exact ⟨⟨hleft, hleft'⟩, (g', d'), ⟨houtput, houtput'⟩, ih hrest hrest'⟩

end Both

variable [DecidableEq ι] {γ : ι → Type} {P : (i : ι) → Protocol σ ε (γ i)}

/-- One step of the system, seen through the stages. -/
inductive Step (P : (i : ι) → Protocol σ ε (γ i)) (i : ι) (stage : (i : ι) → γ i) (mem : σ)
    (log : List ε) : ((i : ι) → γ i) → σ → List ε → Prop where
  | access (mem' : σ) (g' : γ i) (h : (P i).access (stage i) mem mem' g') :
      Step P i stage mem log (Function.update stage i g') mem' log
  | output (e : ε) (g' : γ i) (h : (P i).output (stage i) e g') :
      Step P i stage mem log (Function.update stage i g') mem (log ++ [e])

theorem fst_update {δ : Type} {γ : Type} {stage : ι → γ × δ} {i : ι} {g : γ × δ} :
    (fun j => (Function.update stage i g j).1) = Function.update (fun j => (stage j).1) i g.1 := by
  funext j
  by_cases hj : j = i
  · subst hj
    simp
  · simp [hj]

theorem snd_update {δ : Type} {γ : Type} {stage : ι → γ × δ} {i : ι} {g : γ × δ} :
    (fun j => (Function.update stage i g j).2) = Function.update (fun j => (stage j).2) i g.2 := by
  funext j
  by_cases hj : j = i
  · subst hj
    simp
  · simp [hj]

/-- A step of two protocols is a step of the first. -/
theorem Step.fst {γ δ : Type} {P : Protocol σ ε γ} {Q : Protocol σ ε δ} {i : ι}
    {stage stage' : ι → γ × δ} {mem mem' : σ} {log log' : List ε}
    (h : Step (fun _ => P.both Q) i stage mem log stage' mem' log') :
    Step (fun _ => P) i (fun j => (stage j).1) mem log (fun j => (stage' j).1) mem' log' := by
  cases h with
  | access mem' g' haccess =>
    rw [fst_update]
    apply Step.access
    exact haccess.1
  | output e g' houtput =>
    rw [fst_update]
    apply Step.output
    exact houtput.1

/-- A step of two protocols is a step of the second. -/
theorem Step.snd {γ δ : Type} {P : Protocol σ ε γ} {Q : Protocol σ ε δ} {i : ι}
    {stage stage' : ι → γ × δ} {mem mem' : σ} {log log' : List ε}
    (h : Step (fun _ => P.both Q) i stage mem log stage' mem' log') :
    Step (fun _ => Q) i (fun j => (stage j).2) mem log (fun j => (stage' j).2) mem' log' := by
  cases h with
  | access mem' g' haccess =>
    rw [snd_update]
    apply Step.access
    exact haccess.2
  | output e g' houtput =>
    rw [snd_update]
    apply Step.output
    exact houtput.2

theorem Step.log {i : ι} {stage stage' : (i : ι) → γ i} {mem mem' : σ} {log log' : List ε}
    (h : Step P i stage mem log stage' mem' log') : ∃ new, log' = log ++ new := by
  cases h with
  | access => exact ⟨[], (List.append_nil _).symm⟩
  | output e => exact ⟨[e], rfl⟩

/-- Every task is at some stage, and the stages meet the invariant. -/
def Meets (P : (i : ι) → Protocol σ ε (γ i)) (Inv : ((i : ι) → γ i) → σ → List ε → Prop)
    (c : Config ι σ ε) : Prop :=
  ∃ stage : (i : ι) → γ i, (∀ i, (P i).Follows (c.task i) (stage i)) ∧ Inv stage c.mem c.log

variable {Inv : ((i : ι) → γ i) → σ → List ε → Prop}

theorem follows_update {task : ι → Prog σ ε} {stage : (i : ι) → γ i}
    (h : ∀ j, (P j).Follows (task j) (stage j)) {i : ι} {p : Prog σ ε} {g : γ i}
    (hp : (P i).Follows p g) (j : ι) :
    (P j).Follows (Function.update task i p j) (Function.update stage i g j) := by
  by_cases hj : j = i
  · subst hj
    simpa only [Function.update_self] using hp
  · simpa only [Function.update_of_ne hj] using h j

/-- A step of the programs is a step of the protocol. -/
theorem Meets.step {Cond : Config ι σ ε → ι → Config ι σ ε → Prop}
    (hknows : ∀ stage mem log, Inv stage mem log → ∀ i, (P i).knows (stage i) mem)
    (hkeeps : ∀ c i c' stage stage', (∀ j, (P j).Follows (c.task j) (stage j)) →
      Inv stage c.mem c.log → Cond c i c' →
      Step P i stage c.mem c.log stage' c'.mem c'.log → Inv stage' c'.mem c'.log)
    {c c' : Config ι σ ε} {i : ι} (h : Meets P Inv c) (hstep : c.step i = some c')
    (hcond : Cond c i c') : Meets P Inv c' := by
  obtain ⟨stage, hfollows, hinv⟩ := h
  have hi := hfollows i
  rcases Config.step_cases hstep with
    ⟨ready, upd, next, htask, hready, rfl⟩ | ⟨e, rest, htask, rfl⟩
  · rw [htask] at hi
    obtain ⟨g', haccess, hnext⟩ := hi.2 c.mem hready (hknows _ _ _ hinv i)
    have hinv' := hkeeps c i _ stage _ hfollows hinv hcond (.access (upd c.mem) g' haccess)
    have hg' : (P i).knows g' (upd c.mem) := by
      simpa only [Function.update_self] using hknows _ _ _ hinv' i
    exact ⟨_, follows_update hfollows (hnext hg'), hinv'⟩
  · rw [htask] at hi
    obtain ⟨g', houtput, hrest⟩ := hi.2
    exact ⟨_, follows_update hfollows hrest,
      hkeeps c i _ stage _ hfollows hinv hcond (.output e g' houtput)⟩

/-- What the protocol's steps keep holds after every run of the programs. -/
theorem Meets.run {Cond : Config ι σ ε → ι → Config ι σ ε → Prop}
    (hknows : ∀ stage mem log, Inv stage mem log → ∀ i, (P i).knows (stage i) mem)
    (hkeeps : ∀ c i c' stage stage', (∀ j, (P j).Follows (c.task j) (stage j)) →
      Inv stage c.mem c.log → Cond c i c' →
      Step P i stage c.mem c.log stage' c'.mem c'.log → Inv stage' c'.mem c'.log)
    {c c' : Config ι σ ε} {sched : List ι} (h : Meets P Inv c) (halong : Config.Along Cond c sched)
    (hrun : c.run sched = some c') : Meets P Inv c' :=
  Transition.run_invariant (fun _ _ _ hm hs hc => Meets.step hknows hkeeps hm hs hc) h halong hrun

/-- What every step from a state of the invariant does, every step of a run does. -/
theorem Meets.along {Cond Q : Config ι σ ε → ι → Config ι σ ε → Prop}
    (hknows : ∀ stage mem log, Inv stage mem log → ∀ i, (P i).knows (stage i) mem)
    (hkeeps : ∀ c i c' stage stage', (∀ j, (P j).Follows (c.task j) (stage j)) →
      Inv stage c.mem c.log → Cond c i c' →
      Step P i stage c.mem c.log stage' c'.mem c'.log → Inv stage' c'.mem c'.log)
    (hQ : ∀ c i c', Meets P Inv c → c.step i = some c' → Cond c i c' → Q c i c')
    {c : Config ι σ ε} {sched : List ι} (h : Meets P Inv c)
    (halong : Config.Along Cond c sched) : Config.Along Q c sched := by
  induction sched generalizing c with
  | nil => trivial
  | cons i rest ih =>
    intro c' hstep
    obtain ⟨hcond, hrest⟩ := halong c' hstep
    exact ⟨hQ c i c' h hstep hcond, ih (Meets.step hknows hkeeps h hstep hcond) hrest⟩

end Protocol

namespace Prog

/-- Every access the task makes can happen and is in `A`, every output is in `E`. -/
def Within (A : σ → σ → Prop) (E : ε → Prop) : Prog σ ε → Prop
  | .done => True
  | .access ready upd next => (∃ s, ready s = true) ∧
      ∀ s, ready s = true → A s (upd s) ∧ Within A E (next s)
  | .emit e rest => E e ∧ Within A E rest

variable {A : σ → σ → Prop} {E : ε → Prop}

theorem Within.step [Nonempty σ] {upd : σ → σ} {next : σ → Prog σ ε} (hupd : ∀ s, A s (upd s))
    (hnext : ∀ s, Within A E (next s)) : Within A E (.access (fun _ => true) upd next) :=
  ⟨⟨Classical.arbitrary σ, rfl⟩, fun s _ => ⟨hupd s, hnext s⟩⟩

theorem Within.mono {B : σ → σ → Prop} (hAB : ∀ s s', A s s' → B s s') {p : Prog σ ε}
    (h : Within A E p) : Within B E p := by
  induction p with
  | done => trivial
  | access ready upd next ih =>
    refine ⟨h.1, fun s hready => ?_⟩
    obtain ⟨hupd, hnext⟩ := h.2 s hready
    exact ⟨hAB s _ hupd, ih s hnext⟩
  | emit e rest ih => exact ⟨h.1, ih h.2⟩

/-- A task that does nothing of note stays at its stage. -/
theorem Within.follows {P : Protocol σ ε γ} {g : γ} (hleft : ∀ q, Within A E q → P.left g q)
    (haccess : ∀ s s', A s s' → P.access g s s' g) (houtput : ∀ e, E e → P.output g e g)
    {p : Prog σ ε} (h : Within A E p) : P.Follows p g := by
  induction p with
  | done => exact hleft _ h
  | access ready upd next ih =>
    refine ⟨hleft _ h, fun s hready _ => ?_⟩
    obtain ⟨hupd, hnext⟩ := h.2 s hready
    exact ⟨g, haccess s _ hupd, fun _ => ih s hnext⟩
  | emit e rest ih => exact ⟨hleft _ h, g, houtput e h.1, ih h.2⟩

end Prog

end MatterRsServer.Lib
