import MatterRsServer.Lib.Interleaving

/-!
# Mutual exclusion

Tasks that take a mutex kept in the memory, and outputs that only its holder
makes. `Guarded` states of one task that it follows the mutex; tasks that all
follow it are never two at once inside.
-/
namespace MatterRsServer.Lib.Mutex

variable {ι σ ε : Type}

/-- What an access does to the mutex of a task that holds it (`held`) or not. -/
inductive Move (locked : σ → Bool) (s s' : σ) : Bool → Bool → Prop where
  | keep (held : Bool) (h : locked s' = locked s) : Move locked s s' held held
  | acquire (hfree : locked s = false) (h : locked s' = true) : Move locked s s' false true
  | release (h : locked s' = false) : Move locked s s' true false

/-- The task makes its `inside` outputs only while it holds the mutex. -/
def Guarded (locked : σ → Bool) (inside : ε → Prop) : Prog σ ε → Bool → Prop
  | .done, held => held = false
  | .access ready upd next, held => ∀ s, ready s = true →
      ∃ held', Guarded locked inside (next s) held' ∧ Move locked s (upd s) held held'
  | .emit e rest, held => (inside e → held = true) ∧ Guarded locked inside rest held

/-- Who holds the mutex, if anyone. -/
structure Exclusive (locked : σ → Bool) (inside : ε → Prop) (held : ι → Bool)
    (c : Config ι σ ε) : Prop where
  guarded : ∀ i, Guarded locked inside (c.task i) (held i)
  unique : ∀ i j, held i = true → held j = true → i = j
  locked : ∀ i, held i = true → locked c.mem = true

variable {locked : σ → Bool} {inside : ε → Prop}

/-- An access outside the mutex. -/
theorem guarded_frame {held : Bool} {ready : σ → Bool} {upd : σ → σ} {next : σ → Prog σ ε}
    (hlocked : ∀ s, locked (upd s) = locked s) (hnext : ∀ s, Guarded locked inside (next s) held) :
    Guarded locked inside (.access ready upd next) held :=
  fun s _ => ⟨held, hnext s, .keep held (hlocked s)⟩

/-- Outputs made inside are those of the holder. -/
theorem Guarded.held_of_pending {p : Prog σ ε} {held : Bool} (h : Guarded locked inside p held)
    {e : ε} (he : e ∈ p.pending) (hin : inside e) : held = true := by
  induction p with
  | done => cases he
  | access ready upd next ih => cases he
  | emit f rest ih =>
    rcases List.mem_cons.mp he with rfl | he
    · exact h.1 hin
    · exact ih h.2 he

theorem Exclusive.start {c : Config ι σ ε} (h : ∀ i, Guarded locked inside (c.task i) false) :
    Exclusive locked inside (fun _ => false) c :=
  ⟨h, fun _ _ hi _ => absurd hi Bool.false_ne_true, fun _ hi => absurd hi Bool.false_ne_true⟩

/-- Two tasks are never both committed to outputs made inside. -/
theorem Exclusive.eq_of_pending {held : ι → Bool} {c : Config ι σ ε}
    (h : Exclusive locked inside held c) {i j : ι} {e f : ε} (he : e ∈ (c.task i).pending)
    (hf : f ∈ (c.task j).pending) (hine : inside e) (hinf : inside f) : i = j :=
  h.unique i j ((h.guarded i).held_of_pending he hine) ((h.guarded j).held_of_pending hf hinf)

/-- At most one task holds the mutex, and only while it is locked. -/
structure Sole (locked : σ → Bool) (held : ι → Bool) (s : σ) : Prop where
  unique : ∀ i j, held i = true → held j = true → i = j
  locked : ∀ i, held i = true → locked s = true

theorem Sole.start (s : σ) : Sole locked (fun _ : ι => false) s :=
  ⟨fun _ _ hi _ => absurd hi Bool.false_ne_true, fun _ hi => absurd hi Bool.false_ne_true⟩

variable [DecidableEq ι]

/-- A move of one task leaves the mutex in one hand. -/
theorem Sole.move {held : ι → Bool} {s s' : σ} (h : Sole locked held s) {i : ι} {held' : Bool}
    (hmove : Move locked s s' (held i) held') :
    Sole locked (Function.update held i held') s' := by
  have hothers : ∀ j, j ≠ i → Function.update held i held' j = held j :=
    fun j hj => Function.update_of_ne hj _ _
  -- Nobody else holds the mutex that `i` has just taken, kept or released.
  have halone : ∀ j, j ≠ i → held j = true → held' = false ∧ locked s' = locked s := by
    intro j hj hheld
    generalize hi : held i = heldi at hmove
    cases hmove with
    | keep _ hsame =>
      refine ⟨?_, hsame⟩
      cases held'
      · rfl
      · exact absurd (h.unique j i hheld hi) hj
    | acquire hfree _ => rw [h.locked j hheld] at hfree; cases hfree
    | release _ => exact absurd (h.unique j i hheld hi) hj
  constructor
  · intro j k hj hk
    by_cases hji : j = i
    · by_cases hki : k = i
      · rw [hji, hki]
      · rw [hothers k hki] at hk
        rw [hji, Function.update_self, (halone k hki hk).1] at hj
        cases hj
    · rw [hothers j hji] at hj
      by_cases hki : k = i
      · rw [hki, Function.update_self, (halone j hji hj).1] at hk
        cases hk
      · rw [hothers k hki] at hk
        exact h.unique j k hj hk
  · intro j hj
    by_cases hji : j = i
    · subst hji
      rw [Function.update_self] at hj
      subst hj
      generalize hi : held j = heldj at hmove
      cases hmove with
      | keep _ hsame => exact hsame.trans (h.locked j hi)
      | acquire _ htaken => exact htaken
    · rw [hothers j hji] at hj
      exact (halone j hji hj).2.trans (h.locked j hj)

/-- The same where a task's stage tells whether it holds the mutex. -/
theorem Sole.move_stage {γ : ι → Type} {holds : (i : ι) → γ i → Bool} {stage : (i : ι) → γ i}
    {s s' : σ} (h : Sole locked (fun i => holds i (stage i)) s) {i : ι} {g' : γ i}
    (hmove : Move locked s s' (holds i (stage i)) (holds i g')) :
    Sole locked (fun j => holds j (Function.update stage i g' j)) s' := by
  have hstage : (fun j => holds j (Function.update stage i g' j)) =
      Function.update (fun j => holds j (stage j)) i (holds i g') :=
    funext fun j => Function.apply_update holds stage i g' j
  rw [hstage]
  exact h.move hmove

theorem Exclusive.access {held : ι → Bool} {c : Config ι σ ε} (h : Exclusive locked inside held c)
    {i : ι} {held' : Bool} {s' : σ} {rest : Prog σ ε} (log : List ε)
    (hrest : Guarded locked inside rest held') (hmove : Move locked c.mem s' (held i) held') :
    Exclusive locked inside (Function.update held i held')
      ⟨s', log, Function.update c.task i rest⟩ := by
  have hguarded : ∀ j, Guarded locked inside (Function.update c.task i rest j)
      (Function.update held i held' j) := by
    intro j
    by_cases hj : j = i
    · subst hj; simpa using hrest
    · simpa [hj] using h.guarded j
  have hsole : Sole locked (Function.update held i held') s' :=
    (Sole.mk h.unique h.locked).move hmove
  exact ⟨hguarded, hsole.unique, hsole.locked⟩

/-- One step hands the mutex over as the task's program says. -/
theorem Exclusive.step {held : ι → Bool} {c c' : Config ι σ ε} (h : Exclusive locked inside held c)
    {i : ι} (hstep : c.step i = some c') : ∃ held', Exclusive locked inside held' c' := by
  have hi := h.guarded i
  rcases Config.step_cases hstep with ⟨ready, upd, next, htask, hready, rfl⟩ | ⟨e, rest, htask, rfl⟩
  · rw [htask] at hi
    obtain ⟨held', hrest, hmove⟩ := hi c.mem hready
    exact ⟨_, h.access c.log hrest hmove⟩
  · rw [htask] at hi
    exact ⟨_, h.access (c.log ++ [e]) hi.2 (.keep _ rfl)⟩

end MatterRsServer.Lib.Mutex
