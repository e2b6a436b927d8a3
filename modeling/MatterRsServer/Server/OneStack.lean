import MatterRsServer.Server.RequestLoop

/-!
# One stack per process

rs-matter keeps its state in statics of the process, which `claim_statics` of `runtime.rs` hands
to the first thread that asks. Any number of handles can be spawned; the requests to each of them
are accounted for, and only one of them has a running stack.
-/
namespace MatterRsServer.Server
open Lib Controller Stack

/-- All that one process has spawned, with the gate `STACK_CLAIMED`. -/
structure StackProcess (ρ : Type) where
  claimed : Bool
  threads : List (StackService ρ)

inductive ProcessStep (ω : Type) where
  | spawn
  | on (stack : Nat) (a : ServiceStep ω)

namespace StackProcess
open StackService

variable {ω ρ : Type}

/-- `STACK_CLAIMED.swap(true, ..)` tells the thread what it finds there. -/
def swapped (claimed : Bool) : ServiceStep ω → Option Bool
  | .claim taken => if taken = claimed then some true else none
  | _ => some claimed

def step (handle : ω → StackRequest → Except StackError ρ) (p : StackProcess ρ) :
    ProcessStep ω → Option (StackProcess ρ)
  | .spawn => some { p with threads := p.threads ++ [StackService.spawn] }
  | .on stack a =>
    match p.threads[stack]?, swapped p.claimed a with
    | some s, some claimed =>
      (s.step handle a).map fun s' => ⟨claimed, p.threads.set stack s'⟩
    | _, _ => none

/-- The steps that one of the threads takes. -/
def stepsOf (stack : Nat) (steps : List (ProcessStep ω)) : List (ServiceStep ω) :=
  steps.filterMap fun
    | .spawn => none
    | .on n a => if n = stack then some a else none

/-- The thread holds the process-wide statics, or has announced that it runs. -/
def Runs (s : StackService ρ) : Prop := s.stage = .starting ∨ ∃ info, s.ready = some (.ok info)

/-- Every stack of a process accounts for its requests, and at most one of them runs. -/
structure Shared (handle : ω → StackRequest → Except StackError ρ) (p : StackProcess ρ)
    (steps : List (ProcessStep ω)) : Prop where
  accounted : ∀ (stack : Nat) (s : StackService ρ), p.threads[stack]? = some s →
    s.Accounted handle (stepsOf stack steps)
  unspawned : ∀ stack, p.threads.length ≤ stack → stepsOf stack steps = []
  unclaimed : p.claimed = false → ∀ s ∈ p.threads, s.stage = .spawned ∧ s.ready = none
  single : ∀ (stack other : Nat) (s t : StackService ρ), p.threads[stack]? = some s →
    p.threads[other]? = some t → Runs s →
    Runs t → stack = other

variable {handle : ω → StackRequest → Except StackError ρ} {p p' : StackProcess ρ}
  {steps : List (ProcessStep ω)} {s s' : StackService ρ} {a : ServiceStep ω}

@[simp] theorem stepsOf_append (stack : Nat) (l m : List (ProcessStep ω)) :
    stepsOf stack (l ++ m) = stepsOf stack l ++ stepsOf stack m := List.filterMap_append

@[simp] theorem stepsOf_spawn (stack : Nat) : stepsOf stack [ProcessStep.spawn (ω := ω)] = [] := rfl

@[simp] theorem stepsOf_on (stack n : Nat) (a : ServiceStep ω) :
    stepsOf stack [.on n a] = if n = stack then [a] else [] := by
  unfold stepsOf
  by_cases h : n = stack <;> simp [h]

/-- A thread comes to run by claiming the statics while they are free. -/
theorem runs_step (h : s.step handle a = some s') (hruns : Runs s') :
    Runs s ∨ a = .claim false := by
  cases step_moves h with
  | send req =>
    refine .inl ?_
    unfold StackService.send at hruns
    split at hruns <;> exact hruns
  | claims hstage => exact .inr rfl
  | second hstage => rcases hruns with hruns | ⟨info, hruns⟩ <;> cases hruns
  | boots info hstage => exact .inl (.inl hstage)
  | fails e hstage => exact .inl (.inl hstage)
  | @receive call req rest hserving hqueue =>
    refine .inl ?_
    cases req with
    | shutdown =>
      rcases hruns with hruns | hruns
      · cases hruns
      · exact .inr hruns
    | _ => exact hruns
  | finish outcome hserving htask =>
    refine .inl ?_
    cases outcome <;> exact hruns
  | degrades future hserving hstays => exact .inl hruns
  | stops future hserving hstops =>
    rcases hruns with hruns | hruns
    · cases hruns
    · exact .inl (.inr hruns)
  | exit hstage =>
    rcases hruns with hruns | hruns
    · cases hruns
    · exact .inl (.inr hruns)

/-- Before it has claimed the statics a thread does nothing but queue requests. -/
theorem spawned_step (hstage : s.stage = .spawned) (hready : s.ready = none)
    (h : s.step handle a = some s') (hnot : ∀ taken, a ≠ .claim taken) :
    s'.stage = .spawned ∧ s'.ready = none := by
  cases step_moves h with
  | send req =>
    unfold StackService.send
    split <;> exact ⟨hstage, hready⟩
  | claims _ => exact absurd rfl (hnot false)
  | second _ => exact absurd rfl (hnot true)
  | boots info hold => cases hstage.symm.trans hold
  | fails e hold => cases hstage.symm.trans hold
  | receive hserving hqueue => cases hstage.symm.trans hserving
  | finish outcome hserving htask => cases hstage.symm.trans hserving
  | degrades future hserving hruns => cases hstage.symm.trans hserving
  | stops future hserving hstops => cases hstage.symm.trans hserving
  | exit hold => cases hstage.symm.trans hold

theorem runs_spawn : ¬ Runs (StackService.spawn : StackService ρ) := by
  rintro (hruns | ⟨info, hruns⟩) <;> cases hruns

theorem Shared.spawn (h : p.Shared handle steps) :
    Shared handle { p with threads := p.threads ++ [StackService.spawn] } (steps ++ [.spawn]) := by
  have hlast : ∀ (stack : Nat) (s : StackService ρ),
      (p.threads ++ [StackService.spawn])[stack]? = some s →
      p.threads[stack]? = some s ∨ stack = p.threads.length ∧ s = StackService.spawn := by
    intro stack s hs
    rw [List.getElem?_append] at hs
    split at hs
    · exact .inl hs
    next hle =>
      obtain ⟨hzero, heq⟩ := List.getElem?_eq_some_iff.mp hs
      rw [List.length_singleton] at hzero
      refine .inr ⟨by omega, ?_⟩
      simpa using heq.symm
  constructor
  · intro stack s hs
    rw [stepsOf_append, stepsOf_spawn, List.append_nil]
    rcases hlast stack s hs with hs | ⟨rfl, rfl⟩
    · exact h.accounted stack s hs
    · rw [h.unspawned _ (Nat.le_refl _)]
      exact accounted_spawn
  · intro stack hle
    rw [List.length_append] at hle
    simp [h.unspawned stack (by omega)]
  · intro hclaimed s hs
    rcases List.mem_append.mp hs with hs | hs
    · exact h.unclaimed hclaimed s hs
    · obtain rfl := List.mem_singleton.mp hs
      exact ⟨rfl, rfl⟩
  · intro stack other s t hs ht hsruns htruns
    rcases hlast stack s hs with hs | ⟨rfl, rfl⟩
    · rcases hlast other t ht with ht | ⟨rfl, rfl⟩
      · exact h.single stack other s t hs ht hsruns htruns
      · exact absurd htruns runs_spawn
    · exact absurd hsruns runs_spawn

/-- While nothing is claimed, nothing runs. -/
theorem Shared.not_runs (h : p.Shared handle steps) (hclaimed : p.claimed = false) {stack : Nat}
    (hs : p.threads[stack]? = some s) : ¬ Runs s := by
  obtain ⟨hstage, hready⟩ := h.unclaimed hclaimed s (List.mem_of_getElem? hs)
  rintro (hruns | ⟨info, hruns⟩)
  · cases hstage.symm.trans hruns
  · cases hready.symm.trans hruns

theorem swapped_claim {claimed now taken : Bool}
    (h : swapped claimed (.claim taken : ServiceStep ω) = some now) : taken = claimed ∧ now = true := by
  unfold swapped at h
  split at h
  next old heq =>
    cases heq
    by_cases hsame : taken = claimed
    · rw [if_pos hsame] at h
      exact ⟨hsame, (Option.some.inj h).symm⟩
    · rw [if_neg hsame] at h
      cases h
  next hnot => exact absurd rfl (hnot taken)

theorem swapped_other {claimed now : Bool} (h : swapped claimed a = some now)
    (hnot : ∀ taken, a ≠ .claim taken) : now = claimed := by
  cases a with
  | claim taken => exact absurd rfl (hnot taken)
  | _ => exact (Option.some.inj h).symm

theorem Shared.on (h : p.Shared handle steps) {stack : Nat} {claimed : Bool}
    (hs : p.threads[stack]? = some s) (hswap : swapped p.claimed a = some claimed)
    (hstep : s.step handle a = some s') :
    Shared handle ⟨claimed, p.threads.set stack s'⟩ (steps ++ [.on stack a]) := by
  have hlt := (List.getElem?_eq_some_iff.mp hs).1
  have hthread : ∀ (n : Nat) (t : StackService ρ), (p.threads.set stack s')[n]? = some t →
      (n = stack ∧ t = s') ∨ (n ≠ stack ∧ p.threads[n]? = some t) := by
    intro n t ht
    rw [List.getElem?_set] at ht
    split at ht
    next hsame =>
      exact .inl ⟨hsame.symm, (Option.some.inj ht).symm⟩
    next hne => exact .inr ⟨fun heq => hne heq.symm, ht⟩
  -- a thread that comes to run claims the statics, and then no other one runs
  have hfirst : Runs s' → Runs s ∨ p.claimed = false := by
    intro hruns
    rcases runs_step hstep hruns with hold | rfl
    · exact .inl hold
    · exact .inr (swapped_claim hswap).1.symm
  have hother : ∀ (n : Nat) (t : StackService ρ), p.threads[n]? = some t → n ≠ stack → Runs t →
      ¬ Runs s' := by
    intro n t ht hne htruns hruns
    rcases hfirst hruns with hold | hfree
    · exact hne (h.single n stack t s ht hs htruns hold)
    · exact h.not_runs hfree ht htruns
  constructor
  · intro n t ht
    rw [stepsOf_append, stepsOf_on]
    rcases hthread n t ht with ⟨rfl, rfl⟩ | ⟨hne, ht⟩
    · rw [if_pos rfl]
      exact (h.accounted n s hs).step hstep
    · rw [if_neg fun heq => hne heq.symm, List.append_nil]
      exact h.accounted n t ht
  · intro n hle
    rw [List.length_set] at hle
    rw [stepsOf_append, stepsOf_on, h.unspawned n hle, if_neg (by omega)]
    rfl
  · intro hclaimed t ht
    have hnot : ∀ taken, a ≠ .claim taken := by
      rintro taken rfl
      cases hclaimed.symm.trans (swapped_claim hswap).2
    have hfree : p.claimed = false := (swapped_other hswap hnot).symm.trans hclaimed
    obtain ⟨n, hn⟩ := List.getElem?_of_mem ht
    rcases hthread n t hn with ⟨rfl, rfl⟩ | ⟨hne, hn⟩
    · obtain ⟨hstage, hready⟩ := h.unclaimed hfree s (List.mem_of_getElem? hs)
      exact spawned_step hstage hready hstep hnot
    · exact h.unclaimed hfree t (List.mem_of_getElem? hn)
  · intro n m t u ht hu htruns huruns
    rcases hthread n t ht with ⟨rfl, rfl⟩ | ⟨hne, htold⟩
    · rcases hthread m u hu with ⟨rfl, rfl⟩ | ⟨hne', huold⟩
      · rfl
      · exact absurd htruns (hother m u huold hne' huruns)
    · rcases hthread m u hu with ⟨rfl, rfl⟩ | ⟨hne', huold⟩
      · exact absurd huruns (hother n t htold hne htruns)
      · exact h.single n m t u htold huold htruns huruns

theorem Shared.step (h : p.Shared handle steps) {b : ProcessStep ω}
    (hstep : p.step handle b = some p') : Shared handle p' (steps ++ [b]) := by
  cases b with
  | spawn =>
    cases hstep
    exact h.spawn
  | on stack a =>
    unfold StackProcess.step at hstep
    cases hs : p.threads[stack]? with
    | none => simp [hs] at hstep
    | some s =>
      cases hswap : swapped p.claimed a with
      | none => simp [hs, hswap] at hstep
      | some claimed =>
        simp only [hs, hswap] at hstep
        obtain ⟨s', hs', rfl⟩ := Option.map_eq_some_iff.mp hstep
        exact h.on hs hswap hs'

/-- Whatever the threads of a process do, in any order: each of them accounts for the requests sent
to it, and at most one has ever announced that it runs. -/
theorem one_stack_per_process
    (hrun : Transition.run (StackProcess.step handle) (⟨false, []⟩ : StackProcess ρ) steps = some p) :
    (∀ (stack : Nat) (s : StackService ρ), p.threads[stack]? = some s →
      s.Accounted handle (stepsOf stack steps)) ∧
    ∀ (stack other : Nat) (s t : StackService ρ), p.threads[stack]? = some s →
      p.threads[other]? = some t → (∃ info, s.ready = some (.ok info)) →
      (∃ info, t.ready = some (.ok info)) → stack = other := by
  have hkept : ∀ {rest done : List (ProcessStep ω)} {q : StackProcess ρ}, Shared handle q done →
      Transition.run (StackProcess.step handle) q rest = some p → Shared handle p (done ++ rest) := by
    intro rest
    induction rest with
    | nil =>
      intro done q hq hrest
      cases hrest
      rwa [List.append_nil]
    | cons b rest ih =>
      intro done q hq hrest
      obtain ⟨m, hm, hrest⟩ := Transition.run_cons hrest
      have hlast := ih (hq.step hm) hrest
      rwa [List.append_assoc] at hlast
  have hstart : Shared handle (⟨false, []⟩ : StackProcess ρ) ([] : List (ProcessStep ω)) :=
    ⟨by simp, fun _ _ => rfl, by simp, by simp⟩
  have h := hkept hstart hrun
  exact ⟨h.accounted, fun stack other s t hs ht hsruns htruns =>
    h.single stack other s t hs ht (.inr hsruns) (.inr htruns)⟩

/-- Two handles: the first one's thread runs, the second one's is turned away. -/
def twoSteps : List (ProcessStep (Except StackError Wire.Json)) :=
  [.spawn, .spawn, .on 1 (.send (.interview 7)), .on 0 (.claim false), .on 1 (.claim true),
    .on 0 (.boot (.ok someInfo)), .on 1 (.send (.interview 8))]

def twoThreads : StackProcess Wire.Json where
  claimed := true
  threads :=
    [{ (StackService.spawn : StackService Wire.Json) with
        stage := .serving
        ready := some (.ok someInfo) },
      { (StackService.spawn : StackService Wire.Json) with
        sent := [.interview 7, .interview 8]
        settled := [0, 1]
        answers := [(0, .error threadDown), (1, .error threadDown)]
        stage := .exited
        ready := some (.error secondStackMessage) }]

theorem one_stack_of_two :
    (∀ (stack : Nat) (s : StackService Wire.Json), twoThreads.threads[stack]? = some s →
      s.Accounted answerWith (stepsOf stack twoSteps)) ∧
    ∀ (stack other : Nat) (s t : StackService Wire.Json), twoThreads.threads[stack]? = some s →
      twoThreads.threads[other]? = some t → (∃ info, s.ready = some (.ok info)) →
      (∃ info, t.ready = some (.ok info)) → stack = other :=
  one_stack_per_process rfl

end StackProcess

end MatterRsServer.Server
