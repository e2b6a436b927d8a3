import MatterRsServer.Lib.Outline

/-!
# What one task does in an interleaved run

The steps of one task along a schedule, with the memory around each of them. `Does` reads
them off the program: between two steps the other tasks may do whatever the relation allows.
-/
namespace MatterRsServer.Lib

/-- One step of a task: an access, with the memory before and after it, or an output. -/
inductive Deed (σ ε : Type) where
  | access (before after : σ)
  | output (e : ε)

namespace Deed

variable {σ ε : Type}

/-- The outputs among the steps. -/
def outputs (deeds : List (Deed σ ε)) : List ε :=
  deeds.filterMap fun d => match d with
    | .access .. => none
    | .output e => some e

@[simp] theorem outputs_nil : outputs ([] : List (Deed σ ε)) = [] := rfl

@[simp] theorem outputs_access (s s' : σ) (deeds : List (Deed σ ε)) :
    outputs (.access s s' :: deeds) = outputs deeds := rfl

@[simp] theorem outputs_output (e : ε) (deeds : List (Deed σ ε)) :
    outputs (.output e :: deeds) = e :: outputs deeds := rfl

@[simp] theorem outputs_append (l m : List (Deed σ ε)) :
    outputs (l ++ m) = outputs l ++ outputs m := List.filterMap_append

/-- A step that changes the memory only as `R` has it. -/
def Within (R : σ → σ → Prop) : Deed σ ε → Prop
  | .access before after => R before after
  | .output _ => True

theorem Within.mono {R S : σ → σ → Prop} (h : ∀ s s', R s s' → S s s') {d : Deed σ ε}
    (hd : d.Within R) : d.Within S := by
  cases d with
  | access before after => exact h before after hd
  | output e => trivial

end Deed

namespace Config

variable {ι σ ε : Type} [DecidableEq ι]

/-- The next step of task `i`. -/
def deed (c : Config ι σ ε) (i : ι) : List (Deed σ ε) :=
  match c.task i with
  | .done => []
  | .access _ upd _ => [.access c.mem (upd c.mem)]
  | .emit e _ => [.output e]

/-- The steps of task `i` along a schedule. -/
def deeds (i : ι) (c : Config ι σ ε) : List ι → List (Deed σ ε)
  | [] => []
  | j :: rest =>
    match c.step j with
    | none => []
    | some d => (if j = i then c.deed i else []) ++ deeds i d rest

end Config

namespace Prog

variable {σ ε : Type}

/-- The task runs to its end: from memory `s` to memory `t` by these steps, with the others'
steps in `R` in between. -/
def Does (R : σ → σ → Prop) : Prog σ ε → σ → List (Deed σ ε) → σ → Prop
  | .done, s, deeds, t => deeds = [] ∧ R s t
  | .access ready upd next, s, deeds, t => ∃ m rest, R s m ∧ ready m = true ∧
      deeds = .access m (upd m) :: rest ∧ Does R (next m) (upd m) rest t
  | .emit e p, s, deeds, t => ∃ rest, deeds = .output e :: rest ∧ Does R p s rest t

variable {R : σ → σ → Prop}

/-- What the others do before the first step. -/
theorem Does.before (htrans : ∀ s m t, R s m → R m t → R s t) {p : Prog σ ε} {s m t : σ}
    {deeds : List (Deed σ ε)} (hR : R s m) (h : Does R p m deeds t) : Does R p s deeds t := by
  induction p generalizing s m deeds with
  | done => exact ⟨h.1, htrans s m t hR h.2⟩
  | access ready upd next _ =>
    obtain ⟨x, rest, hx, hready, hdeeds, hrest⟩ := h
    exact ⟨x, rest, htrans s m x hR hx, hready, hdeeds, hrest⟩
  | emit e p ih =>
    obtain ⟨rest, hdeeds, hrest⟩ := h
    exact ⟨rest, hdeeds, ih hR hrest⟩

/-- What every access and output of the program is, its steps are. -/
theorem Does.within {A : σ → σ → Prop} {E : ε → Prop} {p : Prog σ ε} {s t : σ}
    {deeds : List (Deed σ ε)} (hp : p.Within A E) (h : Does R p s deeds t) :
    (∀ d ∈ deeds, d.Within A) ∧ ∀ e ∈ Deed.outputs deeds, E e := by
  induction p generalizing s deeds with
  | done =>
    obtain ⟨rfl, -⟩ := h
    simp
  | access ready upd next ih =>
    obtain ⟨m, rest, -, hready, rfl, hrest⟩ := h
    obtain ⟨hupd, hnext⟩ := hp.2 m hready
    obtain ⟨hdeeds, houtputs⟩ := ih m hnext hrest
    exact ⟨List.forall_mem_cons.mpr ⟨hupd, hdeeds⟩, houtputs⟩
  | emit e p ih =>
    obtain ⟨rest, rfl, hrest⟩ := h
    obtain ⟨hdeeds, houtputs⟩ := ih hp.2 hrest
    exact ⟨List.forall_mem_cons.mpr ⟨trivial, hdeeds⟩, List.forall_mem_cons.mpr ⟨hp.1, houtputs⟩⟩

/-- The steps of a task in an interleaved run are steps of its program. -/
theorem does_of_run {ι : Type} [DecidableEq ι] (hrefl : ∀ s, R s s)
    (htrans : ∀ s m t, R s m → R m t → R s t) {c c' : Config ι σ ε} {i : ι} {sched : List ι}
    (hrun : c.run sched = some c') (hdone : c'.task i = .done)
    (hothers : Config.Along (fun c j c' => j ≠ i → R c.mem c'.mem) c sched) :
    Does R (c.task i) c.mem (Config.deeds i c sched) c'.mem := by
  induction sched generalizing c with
  | nil =>
    cases hrun
    rw [hdone]
    exact ⟨rfl, hrefl _⟩
  | cons j rest ih =>
    obtain ⟨d, hstep, hrest⟩ := Transition.run_cons hrun
    obtain ⟨hR, halong⟩ := hothers d hstep
    have hlater := ih hrest halong
    unfold Config.deeds
    rw [hstep]
    dsimp only
    by_cases hj : j = i
    · subst hj
      rw [if_pos rfl, Config.deed]
      rcases Config.step_cases hstep with ⟨ready, upd, next, htask, hready, rfl⟩ | ⟨e, p, htask, rfl⟩
      · simp only [Function.update_self] at hlater
        rw [htask]
        exact ⟨c.mem, _, hrefl _, hready, rfl, hlater⟩
      · simp only [Function.update_self] at hlater
        rw [htask]
        exact ⟨_, rfl, hlater⟩
    · rw [if_neg hj, List.nil_append]
      rw [Config.step_other hstep fun h => hj h.symm] at hlater
      exact hlater.before htrans (hR hj)

end Prog

end MatterRsServer.Lib
