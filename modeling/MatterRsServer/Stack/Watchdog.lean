import Mathlib.Algebra.GroupWithZero.Nat
import MatterRsServer.Stack.EventForwarding
import MatterRsServer.Stack.Futures

/-!
# The watchdog and the backoff

`supervise`, `watch_liveness`, `liveness_expired` and `backoff_delay` of `supervisor.rs`, as the
timing of the steps of the stack thread. The supervisor of a node looks at the last report every
few seconds and gives the subscription up when that is too long ago; it tries again after a delay
that grows with the failures in a row. Timers fire when they are due or later.
-/
namespace MatterRsServer.Stack
open Lib Wire Gen Controller

def livenessSlackSecs : Nat := 15

def livenessPollSecs : Nat := 5

def backoffScheduleSecs : List Nat := [2, 5, 10, 30, 60]

/-- Instants and durations are in microseconds. -/
def seconds (n : Nat) : Nat := n * 1000000

/-- `liveness_deadline`. -/
def livenessDeadline (maxInt : UInt16) : Nat := seconds (maxInt.toNat + livenessSlackSecs)

/-- `backoff_delay`. -/
def backoffDelay (idx : Nat) : Nat :=
  seconds (backoffScheduleSecs.getD (min idx (backoffScheduleSecs.length - 1)) 0)

/-- `liveness_expired`; the difference of instants saturates. -/
def livenessExpired (last : Option Nat) (establishedAt now deadline : Nat) : Bool :=
  decide (deadline ≤ now - last.getD establishedAt)

/-- The variables of `supervise` and `watch_liveness` in the task of one node: the instants at which
its timers are due, too. -/
structure Watch where
  backoffIdx : Nat
  retryAt : Nat
  deadline : Nat
  establishedAt : Nat
  checkAt : Nat

/-- The stack thread with its clock. -/
structure TimedThread where
  thread : StackThread
  clock : Nat
  watch : NodeId → Watch

/-- A step of the stack thread at an instant; a subscription goes silent by the poll of its
watchdog only. -/
inductive TimedStep where
  | act (now : Nat) (a : StackStep)
  | poll (now : Nat) (nodeId : NodeId)

/-- What a step does to the variables of the supervisor that takes it. -/
def Watch.rearm (w : Watch) (now : Nat) : StackStep → Watch
  | .start _ => { w with backoffIdx := 0, retryAt := now }
  | .established _ _ maxInt _ => { w with
      backoffIdx := 0
      deadline := livenessDeadline maxInt
      establishedAt := now
      checkAt := now + seconds livenessPollSecs }
  | .failed _ => { w with
      retryAt := now + backoffDelay w.backoffIdx
      backoffIdx := min (w.backoffIdx + 1) (2 ^ 64 - 1) }
  | _ => w

namespace TimedThread

/-- The step can be taken at this instant. -/
def due (s : TimedThread) (now : Nat) : StackStep → Bool
  | .begin nodeId => decide ((s.watch nodeId).retryAt ≤ now)
  | .established _ _ _ stamp => stamp == now
  | .report r => r.now == now
  | .silent _ => false
  | _ => true

def setWatch (s : TimedThread) (nodeId : NodeId) (w : Watch) : TimedThread :=
  { s with watch := Function.update s.watch nodeId w }

/-- The watchdog of the node wakes up. -/
def poll (gen : EventTables) (s : TimedThread) (now : Nat) (nodeId : NodeId) : Option TimedThread :=
  let w := s.watch nodeId
  if livenessExpired (s.thread.ctx.liveness.get? nodeId) w.establishedAt now w.deadline then
    (s.thread.step gen (.silent nodeId)).map fun thread =>
      TimedThread.setWatch ⟨thread, now, s.watch⟩ nodeId { w with retryAt := now }
  else
    some (TimedThread.setWatch ⟨s.thread, now, s.watch⟩ nodeId
      { w with checkAt := now + seconds livenessPollSecs })

def step (gen : EventTables) (s : TimedThread) : TimedStep → Option TimedThread
  | .act now a =>
    if s.clock ≤ now ∧ s.due now a = true then
      (s.thread.step gen a).map fun thread =>
        match a.node with
        | some nodeId =>
          TimedThread.setWatch ⟨thread, now, s.watch⟩ nodeId ((s.watch nodeId).rearm now a)
        | none => ⟨thread, now, s.watch⟩
    else none
  | .poll now nodeId =>
    match s.thread.phase nodeId with
    | .watching _ =>
      if s.clock ≤ now ∧ (s.watch nodeId).checkAt ≤ now then s.poll gen now nodeId else none
    | _ => none

end TimedThread

namespace StackCtx

theorem liveness_dropGuard_of_ne (ctx : StackCtx) {nodeId j : NodeId} (h : j ≠ nodeId)
    (subId : UInt32) : (ctx.dropGuard nodeId subId).liveness.get? j = ctx.liveness.get? j := by
  have hdisown : (ctx.disown nodeId subId).liveness = ctx.liveness := by
    unfold disown
    split <;> rfl
  have hlive : (ctx.dropGuard nodeId subId).liveness = ctx.liveness.erase nodeId := rfl
  rw [hlive, OrdMap.get?_erase, if_neg h]

end StackCtx

namespace StackThread

variable {gen : EventTables} {s s' : StackThread} {nodeId n : NodeId} {a : StackStep}

theorem phase_setPhase_of_ne (s : StackThread) (hne : nodeId ≠ n) (phase : SupervisorPhase) :
    (s.setPhase n phase).phase nodeId = s.phase nodeId := Function.update_of_ne hne _ _

@[simp] theorem phase_setPhase_self (s : StackThread) (phase : SupervisorPhase) :
    (s.setPhase n phase).phase n = phase := Function.update_self ..

/-- The supervisor of one node touches no entry of another one. -/
theorem step_other (hnode : a.node = some n) (hne : nodeId ≠ n) (h : s.step gen a = some s') :
    s'.phase nodeId = s.phase nodeId ∧
      s'.ctx.liveness.get? nodeId = s.ctx.liveness.get? nodeId := by
  cases a with
  | report r => cases hnode
  | stop m =>
    cases hnode
    cases h
    exact ⟨phase_setPhase_of_ne _ hne _, rfl⟩
  | start m =>
    cases hnode
    simp only [step] at h
    split at h <;> cases h
    exact ⟨phase_setPhase_of_ne _ hne _, rfl⟩
  | begin m =>
    cases hnode
    simp only [step] at h
    split at h <;> cases h
    exact ⟨phase_setPhase_of_ne _ hne _, rfl⟩
  | chunk m resp =>
    cases hnode
    simp only [step] at h
    split at h <;> cases h
    refine ⟨phase_setPhase_of_ne _ hne _, ?_⟩
    exact congrArg (·.get? nodeId) (StackCtx.liveness_notePriming s.ctx n _)
  | established m subId maxInt now =>
    cases hnode
    simp only [step] at h
    split at h <;> cases h
    exact ⟨phase_setPhase_of_ne _ hne _, OrdMap.get?_insert_of_ne _ hne _⟩
  | failed m =>
    cases hnode
    simp only [step] at h
    split at h <;> cases h
    exact ⟨phase_setPhase_of_ne _ hne _, rfl⟩
  | silent m =>
    cases hnode
    simp only [step] at h
    split at h <;> cases h
    exact ⟨phase_setPhase_of_ne _ hne _, StackCtx.liveness_dropGuard_of_ne s.ctx hne _⟩
  | release m =>
    cases hnode
    simp only [step] at h
    split at h <;> cases h
    exact ⟨phase_setPhase_of_ne _ hne _, StackCtx.liveness_dropGuard_of_ne s.ctx hne _⟩

/-- Where the supervisor of a node is after its own step. -/
inductive Steers (s s' : StackThread) (nodeId : NodeId) : StackStep → Prop
  | start (hphase : s'.phase nodeId = .idle) : Steers s s' nodeId (.start nodeId)
  | begin (hold : s.phase nodeId = .idle) (hphase : s'.phase nodeId = .priming ∅) :
      Steers s s' nodeId (.begin nodeId)
  | chunk {acc acc' : AttrAccumulator} (resp : Report) (hold : s.phase nodeId = .priming acc)
      (hphase : s'.phase nodeId = .priming acc') : Steers s s' nodeId (.chunk nodeId resp)
  | established (subId : UInt32) (maxInt : UInt16) (now : Nat)
      (hphase : s'.phase nodeId = .watching subId)
      (hlive : s'.ctx.liveness.get? nodeId = some now) :
      Steers s s' nodeId (.established nodeId subId maxInt now)
  | failed {acc : AttrAccumulator} (hold : s.phase nodeId = .priming acc)
      (hphase : s'.phase nodeId = .idle) : Steers s s' nodeId (.failed nodeId)
  | silent (hphase : s'.phase nodeId = .idle) : Steers s s' nodeId (.silent nodeId)
  | ended {a : StackStep} (ha : a = .stop nodeId ∨ a = .release nodeId)
      (hphase : s'.phase nodeId = .absent ∨ ∃ subId, s'.phase nodeId = .cancelled subId) :
      Steers s s' nodeId a

theorem step_steers (hnode : a.node = some nodeId) (h : s.step gen a = some s') :
    Steers s s' nodeId a := by
  cases a with
  | report r => cases hnode
  | start m =>
    cases hnode
    simp only [step] at h
    split at h <;> cases h
    exact .start (phase_setPhase_self _ _)
  | begin m =>
    cases hnode
    simp only [step] at h
    split at h
    next hold =>
      cases h
      exact .begin hold (phase_setPhase_self _ _)
    · cases h
  | chunk m resp =>
    cases hnode
    simp only [step] at h
    split at h
    next acc hold =>
      cases h
      exact .chunk resp hold (phase_setPhase_self _ _)
    · cases h
  | established m subId maxInt now =>
    cases hnode
    simp only [step] at h
    split at h <;> cases h
    exact .established subId maxInt now (phase_setPhase_self _ _) (OrdMap.get?_insert_self ..)
  | failed m =>
    cases hnode
    simp only [step] at h
    split at h
    next acc hold =>
      cases h
      exact .failed hold (phase_setPhase_self _ _)
    · cases h
  | silent m =>
    cases hnode
    simp only [step] at h
    split at h <;> cases h
    exact .silent (phase_setPhase_self _ _)
  | stop m =>
    cases hnode
    cases h
    refine .ended (.inl rfl) ?_
    rw [phase_setPhase_self]
    cases s.phase nodeId <;> simp [SupervisorPhase.cancel]
  | release m =>
    cases hnode
    simp only [step] at h
    split at h <;> cases h
    exact .ended (.inr rfl) (.inl (phase_setPhase_self _ _))

/-- A report of the tracked subscription is a sign of life of its node, and of no other one. -/
theorem step_report {r : Incoming} (h : s.step gen (.report r) = some s') (nodeId : NodeId) :
    s'.phase = s.phase ∧ s'.ctx.liveness.get? nodeId =
      if Tracked s.ctx.fabIdx (s.ctx.subs.get? nodeId) nodeId r then some r.now
      else s.ctx.liveness.get? nodeId := by
  cases h
  refine ⟨rfl, ?_⟩
  split
  next htracked =>
    change (handleReport gen s.ctx r).ctx.liveness.get? nodeId = some r.now
    rw [handleReport_tracked gen htracked]
    exact OrdMap.get?_insert_self ..
  next huntracked =>
    have hentries := (sink_silent gen nodeId s.ctx r huntracked).1
    simp only [nodeEntries, NodeEntries.mk.injEq, sink] at hentries
    exact hentries.2.2.1

end StackThread

/-- What a node was granted, and when it was heard from last. -/
structure Life where
  maxInt : UInt16
  last : Nat

/-- An establishment and every report of the tracked subscription are signs of life. -/
def noteLife (nodeId : NodeId) (s : TimedThread) (a : TimedStep) (_ : TimedThread)
    (life : Option Life) : Option Life :=
  match a with
  | .act now (.established n _ maxInt _) => if n = nodeId then some ⟨maxInt, now⟩ else life
  | .act now (.report r) =>
    if Tracked s.thread.ctx.fabIdx (s.thread.ctx.subs.get? nodeId) nodeId r then
      life.map fun l => { l with last := now }
    else life
  | _ => life

/-- What the task of a watched node knows of it. -/
structure Watches (nodeId : NodeId) (s : TimedThread) (l : Life) : Prop where
  heard : s.thread.ctx.liveness.get? nodeId = some l.last
  deadline : (s.watch nodeId).deadline = livenessDeadline l.maxInt
  past : l.last ≤ s.clock
  checked : (s.watch nodeId).checkAt < l.last + livenessDeadline l.maxInt + seconds livenessPollSecs

/-- What is noted of a watched node is what its task knows. -/
def Observed (nodeId : NodeId) (s : TimedThread) (life : Option Life) : Prop :=
  ∀ subId, s.thread.phase nodeId = .watching subId → ∃ l, life = some l ∧ Watches nodeId s l

namespace TimedThread

variable {gen : EventTables} {s s' : TimedThread} {nodeId n : NodeId} {now : Nat}

/-- What a step at an instant is. -/
inductive Moves (gen : EventTables) (s : TimedThread) : TimedStep → TimedThread → Prop
  | own {now : Nat} {a : StackStep} {n : NodeId} {thread : StackThread} (hclock : s.clock ≤ now)
      (hdue : s.due now a = true) (hnode : a.node = some n)
      (hstep : s.thread.step gen a = some thread) :
      Moves gen s (.act now a)
        (TimedThread.setWatch ⟨thread, now, s.watch⟩ n ((s.watch n).rearm now a))
  | report {r : Incoming} {thread : StackThread} (hclock : s.clock ≤ r.now)
      (hstep : s.thread.step gen (.report r) = some thread) :
      Moves gen s (.act r.now (.report r)) ⟨thread, r.now, s.watch⟩
  | gone {now : Nat} {n : NodeId} {subId : UInt32} {thread : StackThread} (hclock : s.clock ≤ now)
      (hcheck : (s.watch n).checkAt ≤ now) (hphase : s.thread.phase n = .watching subId)
      (hexpired : livenessExpired (s.thread.ctx.liveness.get? n) (s.watch n).establishedAt now
        (s.watch n).deadline = true)
      (hstep : s.thread.step gen (.silent n) = some thread) :
      Moves gen s (.poll now n)
        (TimedThread.setWatch ⟨thread, now, s.watch⟩ n { s.watch n with retryAt := now })
  | seen {now : Nat} {n : NodeId} {subId : UInt32} (hclock : s.clock ≤ now)
      (hcheck : (s.watch n).checkAt ≤ now) (hphase : s.thread.phase n = .watching subId)
      (halive : livenessExpired (s.thread.ctx.liveness.get? n) (s.watch n).establishedAt now
        (s.watch n).deadline = false) :
      Moves gen s (.poll now n)
        (TimedThread.setWatch ⟨s.thread, now, s.watch⟩ n
          { s.watch n with checkAt := now + seconds livenessPollSecs })

theorem step_moves {a : TimedStep} (h : s.step gen a = some s') : Moves gen s a s' := by
  cases a with
  | act now a =>
    simp only [step] at h
    split at h
    next hok =>
      obtain ⟨thread, hthread, rfl⟩ := Option.map_eq_some_iff.mp h
      cases hnode : a.node with
      | some n => exact .own hok.1 hok.2 hnode hthread
      | none =>
        cases a <;> simp only [StackStep.node, reduceCtorEq] at hnode
        obtain rfl : _ = now := beq_iff_eq.mp hok.2
        exact .report hok.1 hthread
    · cases h
  | poll now n =>
    simp only [step] at h
    split at h
    next subId hphase =>
      split at h
      next hok =>
        simp only [poll] at h
        split at h
        next hexpired =>
          obtain ⟨thread, hthread, rfl⟩ := Option.map_eq_some_iff.mp h
          exact .gone hok.1 hok.2 hphase hexpired hthread
        next halive =>
          cases h
          exact .seen hok.1 hok.2 hphase (Bool.not_eq_true _ ▸ halive)
      · cases h
    · cases h

@[simp] theorem watch_setWatch_self (s : TimedThread) (nodeId : NodeId) (w : Watch) :
    (s.setWatch nodeId w).watch nodeId = w := Function.update_self ..

theorem watch_setWatch_of_ne (s : TimedThread) (h : nodeId ≠ n) (w : Watch) :
    (s.setWatch n w).watch nodeId = s.watch nodeId := Function.update_of_ne h _ _

end TimedThread

/-- Nothing of the node has changed but the time. -/
theorem Watches.later {nodeId : NodeId} {s s' : TimedThread} {l : Life} (h : Watches nodeId s l)
    (hlive : s'.thread.ctx.liveness.get? nodeId = s.thread.ctx.liveness.get? nodeId)
    (hwatch : s'.watch nodeId = s.watch nodeId) (hclock : s.clock ≤ s'.clock) :
    Watches nodeId s' l where
  heard := hlive.trans h.heard
  deadline := (congrArg Watch.deadline hwatch).trans h.deadline
  past := h.past.trans hclock
  checked := by
    rw [hwatch]
    exact h.checked

section Observers

variable {gen : EventTables} {s s' : TimedThread} {nodeId n : NodeId} {now : Nat}

theorem noteLife_own {a : StackStep} {life : Option Life} (hnode : a.node = some n)
    (hother : n ≠ nodeId) : noteLife nodeId s (.act now a) s' life = life := by
  cases a with
  | report r => cases hnode
  | established m subId maxInt stamp =>
    cases hnode
    exact if_neg hother
  | _ => rfl

theorem Observed.other {a : StackStep} {thread : StackThread} {life : Option Life} {w : Watch}
    (h : Observed nodeId s life) (hclock : s.clock ≤ now) (hnode : a.node = some n)
    (hother : nodeId ≠ n) (hstep : s.thread.step gen a = some thread) :
    Observed nodeId (TimedThread.setWatch ⟨thread, now, s.watch⟩ n w) life := by
  obtain ⟨hphase, hlive⟩ := StackThread.step_other hnode hother hstep
  intro subId hwatching
  obtain ⟨l, hl, hw⟩ := h subId (hphase.symm.trans hwatching)
  exact ⟨l, hl, hw.later hlive (TimedThread.watch_setWatch_of_ne _ hother _) hclock⟩

theorem Observed.own {a : StackStep} {thread : StackThread} {life : Option Life}
    (hdue : s.due now a = true) (hnode : a.node = some nodeId)
    (hstep : s.thread.step gen a = some thread) :
    Observed nodeId
      (TimedThread.setWatch ⟨thread, now, s.watch⟩ nodeId ((s.watch nodeId).rearm now a))
      (noteLife nodeId s (.act now a) s' life) := by
  intro subId hwatching
  change thread.phase nodeId = .watching subId at hwatching
  cases StackThread.step_steers hnode hstep with
  | established sub maxInt stamp hphase hlive =>
    obtain rfl : stamp = now := beq_iff_eq.mp hdue
    refine ⟨⟨maxInt, stamp⟩, if_pos rfl, hlive, ?_, Nat.le_refl _, ?_⟩
    · rw [TimedThread.watch_setWatch_self]
      rfl
    · rw [TimedThread.watch_setWatch_self]
      simp only [Watch.rearm, livenessDeadline, seconds, livenessSlackSecs]
      omega
  | start hphase => cases hphase.symm.trans hwatching
  | begin hold hphase => cases hphase.symm.trans hwatching
  | chunk resp hold hphase => cases hphase.symm.trans hwatching
  | failed hold hphase => cases hphase.symm.trans hwatching
  | silent hphase => cases hphase.symm.trans hwatching
  | ended ha hphase =>
    rcases hphase with hphase | ⟨sub, hphase⟩ <;> cases hphase.symm.trans hwatching

theorem Observed.report {r : Incoming} {thread : StackThread} {life : Option Life}
    (h : Observed nodeId s life) (hclock : s.clock ≤ r.now)
    (hstep : s.thread.step gen (.report r) = some thread) :
    Observed nodeId ⟨thread, r.now, s.watch⟩ (noteLife nodeId s (.act r.now (.report r)) s' life) := by
  obtain ⟨hphase, hlive⟩ := StackThread.step_report hstep nodeId
  intro subId hwatching
  obtain ⟨l, rfl, hw⟩ := h subId ((congrFun hphase nodeId).symm.trans hwatching)
  by_cases htracked : Tracked s.thread.ctx.fabIdx (s.thread.ctx.subs.get? nodeId) nodeId r
  · rw [if_pos htracked] at hlive
    refine ⟨{ l with last := r.now }, if_pos htracked, hlive, hw.deadline, Nat.le_refl _, ?_⟩
    have hchecked := hw.checked
    have hpast := hw.past
    change (s.watch nodeId).checkAt < r.now + livenessDeadline l.maxInt + seconds livenessPollSecs
    omega
  · rw [if_neg htracked] at hlive
    exact ⟨l, if_neg htracked, hw.later hlive rfl hclock⟩

/-- A poll that finds the node alive. -/
theorem Observed.seen {life : Option Life} (h : Observed nodeId s life) (hclock : s.clock ≤ now)
    (halive : livenessExpired (s.thread.ctx.liveness.get? n) (s.watch n).establishedAt now
      (s.watch n).deadline = false) :
    Observed nodeId (TimedThread.setWatch ⟨s.thread, now, s.watch⟩ n
      { s.watch n with checkAt := now + seconds livenessPollSecs }) life := by
  intro subId hwatching
  obtain ⟨l, hl, hw⟩ := h subId hwatching
  by_cases hother : nodeId = n
  · subst hother
    have hlt : now - l.last < livenessDeadline l.maxInt := by
      rw [livenessExpired, hw.heard, hw.deadline] at halive
      exact Nat.lt_of_not_le (of_decide_eq_false halive)
    refine ⟨l, hl, hw.heard, ?_, hw.past.trans hclock, ?_⟩
    · rw [TimedThread.watch_setWatch_self]
      exact hw.deadline
    · rw [TimedThread.watch_setWatch_self]
      change now + seconds livenessPollSecs < _
      omega
  · exact ⟨l, hl, hw.later rfl (TimedThread.watch_setWatch_of_ne _ hother _) hclock⟩

theorem Observed.step {a : TimedStep} {life : Option Life} (h : Observed nodeId s life)
    (hstep : s.step gen a = some s') : Observed nodeId s' (noteLife nodeId s a s' life) := by
  cases TimedThread.step_moves hstep with
  | @own now a n thread hclock hdue hnode hthread =>
    by_cases hother : nodeId = n
    · subst hother
      exact .own hdue hnode hthread
    · rw [noteLife_own hnode (Ne.symm hother)]
      exact h.other hclock hnode hother hthread
  | report hclock hthread => exact h.report hclock hthread
  | @gone now n subId thread hclock hcheck hphase hexpired hthread =>
    change Observed nodeId _ life
    by_cases hother : nodeId = n
    · subst hother
      intro sub hwatching
      cases StackThread.step_steers rfl hthread with
      | silent hidle => cases hidle.symm.trans hwatching
      | ended ha hended => rcases ha with ha | ha <;> cases ha
    · exact h.other hclock rfl hother hthread
  | seen hclock hcheck hphase halive => exact h.seen hclock halive

/-- The attempts of a supervisor in a row: from when on, how many of them have failed, and when the
supervisor has last had to wait for the next one. -/
structure Streak where
  since : Nat
  failures : Nat
  last : Nat

def noteStreak (nodeId : NodeId) (_ : TimedThread) (a : TimedStep) (s' : TimedThread)
    (streak : Option Streak) : Option Streak :=
  match a with
  | .act now (.start n) => if n = nodeId then some ⟨now, 0, now⟩ else streak
  | .act now (.failed n) =>
    if n = nodeId then streak.map fun k => { k with failures := k.failures + 1, last := now }
    else streak
  | .poll now n =>
    if n = nodeId then
      match s'.thread.phase nodeId with
      | .idle => some ⟨now, 0, now⟩
      | _ => streak
    else streak
  | _ => streak

/-- The delays after this many failures in a row. -/
def backoffTotal : Nat → Nat
  | 0 => 0
  | failures + 1 => backoffTotal failures + backoffDelay failures

theorem backoffDelay_min (idx : Nat) : backoffDelay (min idx (2 ^ 64 - 1)) = backoffDelay idx := by
  have hclamp : min (min idx (2 ^ 64 - 1)) (backoffScheduleSecs.length - 1) =
      min idx (backoffScheduleSecs.length - 1) := by
    have hlast : backoffScheduleSecs.length - 1 = 4 := rfl
    omega
  rw [backoffDelay, hclamp, backoffDelay]

theorem backoffDelay_le (idx : Nat) : backoffDelay idx ≤ seconds 60 := by
  have hlt : min idx (backoffScheduleSecs.length - 1) < 5 := by
    have hlast : backoffScheduleSecs.length - 1 = 4 := rfl
    omega
  have hall : ∀ i < 5, seconds (backoffScheduleSecs.getD i 0) ≤ seconds 60 := by decide
  exact hall _ hlt

theorem backoffDelay_of_le {idx : Nat} (h : 4 ≤ idx) : backoffDelay idx = seconds 60 := by
  have hlast : min idx (backoffScheduleSecs.length - 1) = 4 := Nat.min_eq_right h
  rw [backoffDelay, hlast]
  rfl

/-- From the fifth failure on the delays are a minute each. -/
theorem backoffTotal_eq (failures : Nat) (h : 4 ≤ failures) :
    backoffTotal failures = seconds (47 + 60 * (failures - 4)) := by
  induction failures, h using Nat.le_induction with
  | base => rfl
  | succ failures hle ih =>
    rw [backoffTotal, ih, backoffDelay_of_le hle, seconds, seconds, seconds]
    omega

/-- `n` failures in a row take at least `n` minutes, less what the short delays save. -/
theorem minutes_le_backoffTotal (failures : Nat) :
    seconds (60 * failures) ≤ backoffTotal failures + seconds 193 := by
  by_cases h : 4 ≤ failures
  · rw [backoffTotal_eq failures h, seconds, seconds, seconds]
    omega
  · have hall : ∀ n < 4, seconds (60 * n) ≤ backoffTotal n + seconds 193 := by decide
    exact hall failures (Nat.lt_of_not_le h)

/-- The task of a node keeps to the schedule. -/
structure Paced (nodeId : NodeId) (s : TimedThread) (streak : Option Streak) : Prop where
  idle : s.thread.phase nodeId = .idle → ∃ k, streak = some k ∧
    (s.watch nodeId).backoffIdx = min k.failures (2 ^ 64 - 1) ∧
    k.since + backoffTotal k.failures ≤ (s.watch nodeId).retryAt ∧
    (s.watch nodeId).retryAt ≤ k.last + seconds 60
  priming : ∀ acc, s.thread.phase nodeId = .priming acc → ∃ k, streak = some k ∧
    (s.watch nodeId).backoffIdx = min k.failures (2 ^ 64 - 1) ∧
    k.since + backoffTotal k.failures ≤ s.clock
  watching : ∀ subId, s.thread.phase nodeId = .watching subId → (s.watch nodeId).backoffIdx = 0

/-- Nothing of the task has changed but the time. -/
theorem Paced.later {streak : Option Streak} (h : Paced nodeId s streak)
    (hphase : s'.thread.phase nodeId = s.thread.phase nodeId)
    (hwatch : s'.watch nodeId = s.watch nodeId) (hclock : s.clock ≤ s'.clock) :
    Paced nodeId s' streak where
  idle hidle := by
    rw [hwatch]
    exact h.idle (hphase.symm.trans hidle)
  priming acc hpriming := by
    obtain ⟨k, hk, hidx, hle⟩ := h.priming acc (hphase.symm.trans hpriming)
    rw [hwatch]
    exact ⟨k, hk, hidx, hle.trans hclock⟩
  watching subId hwatching := by
    rw [hwatch]
    exact h.watching subId (hphase.symm.trans hwatching)

theorem noteStreak_own {a : StackStep} {streak : Option Streak} (hnode : a.node = some n)
    (hother : n ≠ nodeId) : noteStreak nodeId s (.act now a) s' streak = streak := by
  cases a with
  | report r => cases hnode
  | start m =>
    cases hnode
    exact if_neg hother
  | failed m =>
    cases hnode
    exact if_neg hother
  | _ => rfl

theorem Paced.own {a : StackStep} {thread : StackThread} {streak : Option Streak}
    (h : Paced nodeId s streak) (hclock : s.clock ≤ now) (hdue : s.due now a = true)
    (hnode : a.node = some nodeId) (hstep : s.thread.step gen a = some thread) :
    Paced nodeId
      (TimedThread.setWatch ⟨thread, now, s.watch⟩ nodeId ((s.watch nodeId).rearm now a))
      (noteStreak nodeId s (.act now a) s' streak) := by
  have hself := TimedThread.watch_setWatch_self ⟨thread, now, s.watch⟩ nodeId
    ((s.watch nodeId).rearm now a)
  have hthread : (TimedThread.setWatch ⟨thread, now, s.watch⟩ nodeId
    ((s.watch nodeId).rearm now a)).thread = thread := rfl
  cases StackThread.step_steers hnode hstep with
  | start hphase =>
    constructor
    · intro _
      refine ⟨⟨now, 0, now⟩, if_pos rfl, ?_⟩
      rw [hself]
      exact ⟨rfl, Nat.le_refl _, Nat.le_add_right _ _⟩
    · intro acc hnew
      cases hphase.symm.trans hnew
    · intro subId hnew
      cases hphase.symm.trans hnew
  | begin hold hphase =>
    constructor
    · intro hnew
      cases hphase.symm.trans hnew
    · intro acc _
      obtain ⟨k, hk, hidx, hle, -⟩ := h.idle hold
      rw [hself]
      exact ⟨k, hk, hidx, hle.trans (of_decide_eq_true hdue)⟩
    · intro subId hnew
      cases hphase.symm.trans hnew
  | chunk resp hold hphase =>
    constructor
    · intro hnew
      cases hphase.symm.trans hnew
    · intro acc _
      obtain ⟨k, hk, hidx, hle⟩ := h.priming _ hold
      rw [hself]
      exact ⟨k, hk, hidx, hle.trans hclock⟩
    · intro subId hnew
      cases hphase.symm.trans hnew
  | established subId maxInt stamp hphase hlive =>
    constructor
    · intro hnew
      cases hphase.symm.trans hnew
    · intro acc hnew
      cases hphase.symm.trans hnew
    · intro _ _
      rw [hself]
      rfl
  | failed hold hphase =>
    constructor
    · intro _
      obtain ⟨k, rfl, hidx, hle⟩ := h.priming _ hold
      refine ⟨{ k with failures := k.failures + 1, last := now }, if_pos rfl, ?_⟩
      rw [hself]
      simp only [Watch.rearm, hidx, backoffTotal, backoffDelay_min]
      have hdelay := backoffDelay_le k.failures
      refine ⟨?_, ?_, ?_⟩
      · omega
      · omega
      · omega
    · intro acc hnew
      cases hphase.symm.trans hnew
    · intro subId hnew
      cases hphase.symm.trans hnew
  | silent hphase => cases hdue
  | ended ha hphase =>
    constructor
    · intro hnew
      rcases hphase with hphase | ⟨sub, hphase⟩ <;> cases hphase.symm.trans hnew
    · intro acc hnew
      rcases hphase with hphase | ⟨sub, hphase⟩ <;> cases hphase.symm.trans hnew
    · intro subId hnew
      rcases hphase with hphase | ⟨sub, hphase⟩ <;> cases hphase.symm.trans hnew

theorem Paced.step {a : TimedStep} {streak : Option Streak} (h : Paced nodeId s streak)
    (hstep : s.step gen a = some s') : Paced nodeId s' (noteStreak nodeId s a s' streak) := by
  cases TimedThread.step_moves hstep with
  | @own now a n thread hclock hdue hnode hthread =>
    by_cases hother : nodeId = n
    · subst hother
      exact h.own hclock hdue hnode hthread
    · rw [noteStreak_own hnode (Ne.symm hother)]
      exact h.later (StackThread.step_other hnode hother hthread).1
        (TimedThread.watch_setWatch_of_ne _ hother _) hclock
  | report hclock hthread =>
    exact h.later (congrFun (StackThread.step_report hthread nodeId).1 nodeId) rfl hclock
  | @gone now n subId thread hclock hcheck hphase hexpired hthread =>
    by_cases hother : nodeId = n
    · subst hother
      cases StackThread.step_steers rfl hthread with
      | ended ha hended => rcases ha with ha | ha <;> cases ha
      | silent hidle =>
        have hself := TimedThread.watch_setWatch_self ⟨thread, now, s.watch⟩ nodeId
          { s.watch nodeId with retryAt := now }
        constructor
        · intro hnow
          refine ⟨⟨now, 0, now⟩, ?_, ?_⟩
          · simp only [noteStreak, if_true]
            rw [hnow]
          · rw [hself]
            exact ⟨h.watching _ hphase, Nat.le_refl _, Nat.le_add_right _ _⟩
        · intro acc hnew
          cases hidle.symm.trans hnew
        · intro sub hnew
          cases hidle.symm.trans hnew
    · have hnote : ∀ t, noteStreak nodeId s (.poll now n) t streak = streak :=
        fun t => if_neg (Ne.symm hother)
      rw [hnote]
      exact h.later (StackThread.step_other rfl hother hthread).1
        (TimedThread.watch_setWatch_of_ne _ hother _) hclock
  | @seen now n subId hclock hcheck hphase halive =>
    by_cases hother : nodeId = n
    · subst hother
      constructor
      · intro hnew
        cases hphase.symm.trans hnew
      · intro acc hnew
        cases hphase.symm.trans hnew
      · intro sub hnew
        rw [TimedThread.watch_setWatch_self]
        exact h.watching _ hphase
    · have hnote : ∀ t, noteStreak nodeId s (.poll now n) t streak = streak :=
        fun t => if_neg (Ne.symm hother)
      rw [hnote]
      exact h.later rfl (TimedThread.watch_setWatch_of_ne _ hother _) hclock

/-- The timers of the node's task fire at most `late` after they are due. -/
def Prompt (nodeId : NodeId) (late : Nat) (s : TimedThread) (_ : TimedStep) (s' : TimedThread) :
    Prop :=
  (∀ subId, s.thread.phase nodeId = .watching subId →
    s'.clock ≤ (s.watch nodeId).checkAt + late) ∧
  (s.thread.phase nodeId = .idle → s'.clock ≤ (s.watch nodeId).retryAt + late)

theorem prompt_of_idle {late : Nat} {a : TimedStep} (hphase : s.thread.phase nodeId = .idle)
    (hle : s'.clock ≤ (s.watch nodeId).retryAt + late) : Prompt nodeId late s a s' := by
  refine ⟨fun subId hwatching => ?_, fun _ => hle⟩
  cases hphase.symm.trans hwatching

theorem prompt_of_neither {late : Nat} {a : TimedStep}
    (hwatching : ∀ subId, s.thread.phase nodeId ≠ .watching subId)
    (hidle : s.thread.phase nodeId ≠ .idle) : Prompt nodeId late s a s' :=
  ⟨fun subId h => absurd h (hwatching subId), fun h => absurd h hidle⟩

/-- No timer of the node's task is overdue. -/
def OnTime (nodeId : NodeId) (late : Nat) (s : TimedThread) : Prop := Prompt nodeId late s (.poll 0 0) s

theorem OnTime.later {late : Nat} (hprompt : Prompt nodeId late s (.poll 0 0) s')
    (hphase : s'.thread.phase nodeId = s.thread.phase nodeId)
    (hwatch : s'.watch nodeId = s.watch nodeId) : OnTime nodeId late s' := by
  refine ⟨fun subId hwatching => ?_, fun hidle => ?_⟩
  · rw [hwatch]
    exact hprompt.1 subId (hphase.symm.trans hwatching)
  · rw [hwatch]
    exact hprompt.2 (hphase.symm.trans hidle)

theorem OnTime.own {late : Nat} {a : StackStep} {thread : StackThread} (hdue : s.due now a = true)
    (hnode : a.node = some nodeId) (hstep : s.thread.step gen a = some thread) :
    OnTime nodeId late
      (TimedThread.setWatch ⟨thread, now, s.watch⟩ nodeId ((s.watch nodeId).rearm now a)) := by
  have hself := TimedThread.watch_setWatch_self ⟨thread, now, s.watch⟩ nodeId
    ((s.watch nodeId).rearm now a)
  constructor
  · intro subId hwatching
    rw [hself]
    cases StackThread.step_steers hnode hstep with
    | established sub maxInt stamp hphase hlive =>
      change now ≤ now + seconds livenessPollSecs + late
      omega
    | start hphase => cases hphase.symm.trans hwatching
    | begin hold hphase => cases hphase.symm.trans hwatching
    | chunk resp hold hphase => cases hphase.symm.trans hwatching
    | failed hold hphase => cases hphase.symm.trans hwatching
    | silent hphase => cases hphase.symm.trans hwatching
    | ended ha hphase =>
      rcases hphase with hphase | ⟨sub, hphase⟩ <;> cases hphase.symm.trans hwatching
  · intro hidle
    rw [hself]
    cases StackThread.step_steers hnode hstep with
    | start hphase => exact Nat.le_add_right _ _
    | failed hold hphase =>
      change now ≤ now + backoffDelay (s.watch nodeId).backoffIdx + late
      omega
    | silent hphase => cases hdue
    | established sub maxInt stamp hphase hlive => cases hphase.symm.trans hidle
    | begin hold hphase => cases hphase.symm.trans hidle
    | chunk resp hold hphase => cases hphase.symm.trans hidle
    | ended ha hphase =>
      rcases hphase with hphase | ⟨sub, hphase⟩ <;> cases hphase.symm.trans hidle

theorem OnTime.step {late : Nat} {a : TimedStep} (hstep : s.step gen a = some s')
    (hprompt : Prompt nodeId late s a s') : OnTime nodeId late s' := by
  cases TimedThread.step_moves hstep with
  | @own now a n thread hclock hdue hnode hthread =>
    by_cases hother : nodeId = n
    · subst hother
      exact .own hdue hnode hthread
    · exact .later hprompt (StackThread.step_other hnode hother hthread).1
        (TimedThread.watch_setWatch_of_ne _ hother _)
  | report hclock hthread =>
    exact .later hprompt
      (congrFun (StackThread.step_report hthread nodeId).1 nodeId) rfl
  | @gone now n subId thread hclock hcheck hphase hexpired hthread =>
    by_cases hother : nodeId = n
    · subst hother
      cases StackThread.step_steers rfl hthread with
      | ended ha hended => rcases ha with ha | ha <;> cases ha
      | silent hidle =>
        constructor
        · intro sub hnew
          cases hidle.symm.trans hnew
        · intro _
          rw [TimedThread.watch_setWatch_self]
          exact Nat.le_add_right _ _
    · exact .later hprompt (StackThread.step_other rfl hother hthread).1
        (TimedThread.watch_setWatch_of_ne _ hother _)
  | @seen now n subId hclock hcheck hphase halive =>
    by_cases hother : nodeId = n
    · subst hother
      constructor
      · intro sub _
        rw [TimedThread.watch_setWatch_self]
        change now ≤ now + seconds livenessPollSecs + late
        omega
      · intro hnew
        cases hphase.symm.trans hnew
    · exact .later hprompt rfl (TimedThread.watch_setWatch_of_ne _ hother _)

end Observers

open Transition (run observe Along)

/-- What has been noted of a node along a run from a fresh stack thread is what its task knows. -/
theorem observed_run (gen : EventTables) {s s' : TimedThread} {steps : List TimedStep}
    (hfresh : s.thread.Fresh) (hrun : run (TimedThread.step gen) s steps = some s')
    (nodeId : NodeId) :
    Observed nodeId s' (observe (TimedThread.step gen) (noteLife nodeId) s none steps) := by
  have hstart : Observed nodeId s none := by
    intro subId hwatching
    cases (hfresh.phase nodeId).symm.trans hwatching
  exact Transition.observe_invariant (P := fun _ _ _ => True) (fun _ _ _ _ h hstep _ => h.step hstep)
    hstart (.of_forall fun _ _ _ _ => trivial) hrun

theorem paced_run (gen : EventTables) {s s' : TimedThread} {steps : List TimedStep}
    (hfresh : s.thread.Fresh) (hrun : run (TimedThread.step gen) s steps = some s')
    (nodeId : NodeId) :
    Paced nodeId s' (observe (TimedThread.step gen) (noteStreak nodeId) s none steps) := by
  have hstart : Paced nodeId s none := by
    have habsent := hfresh.phase nodeId
    constructor
    · intro hidle
      cases habsent.symm.trans hidle
    · intro acc hpriming
      cases habsent.symm.trans hpriming
    · intro subId hwatching
      cases habsent.symm.trans hwatching
  exact Transition.observe_invariant (P := fun _ _ _ => True) (fun _ _ _ _ h hstep _ => h.step hstep)
    hstart (.of_forall fun _ _ _ _ => trivial) hrun

theorem onTime_run (gen : EventTables) {s s' : TimedThread} {steps : List TimedStep}
    (hfresh : s.thread.Fresh) (hrun : run (TimedThread.step gen) s steps = some s')
    {nodeId : NodeId} {late : Nat} (hprompt : Along (TimedThread.step gen) (Prompt nodeId late) s steps) :
    OnTime nodeId late s' := by
  have hstart : OnTime nodeId late s := by
    have habsent := hfresh.phase nodeId
    refine ⟨fun subId hwatching => ?_, fun hidle => ?_⟩
    · cases habsent.symm.trans hwatching
    · cases habsent.symm.trans hidle
  exact Transition.run_invariant (fun _ _ _ _ hstep hp => OnTime.step hstep hp) hstart hprompt hrun

/-- In every run, whatever the other nodes do, a poll of the watchdog gives a subscription up if and
only if the node has not been heard from for the interval it was granted and the slack. -/
theorem given_up_iff_silent (gen : EventTables) {s s' s'' : TimedThread} {steps : List TimedStep}
    (hfresh : s.thread.Fresh) (hrun : run (TimedThread.step gen) s steps = some s')
    {now : Nat} {nodeId : NodeId} (hpoll : s'.step gen (.poll now nodeId) = some s'') :
    ∃ l, observe (TimedThread.step gen) (noteLife nodeId) s none steps = some l ∧
      (s''.thread.phase nodeId = .idle ↔ l.last + livenessDeadline l.maxInt ≤ now) := by
  have hobserved := observed_run gen hfresh hrun nodeId
  cases TimedThread.step_moves hpoll with
  | gone hclock hcheck hphase hexpired hthread =>
    obtain ⟨l, hl, hw⟩ := hobserved _ hphase
    refine ⟨l, hl, ?_⟩
    rw [livenessExpired, hw.heard, hw.deadline] at hexpired
    have hle : livenessDeadline l.maxInt ≤ now - l.last := of_decide_eq_true hexpired
    have hpast := hw.past
    cases StackThread.step_steers rfl hthread with
    | ended ha hended => rcases ha with ha | ha <;> cases ha
    | silent hidle =>
      refine ⟨fun _ => ?_, fun _ => hidle⟩
      omega
  | seen hclock hcheck hphase halive =>
    obtain ⟨l, hl, hw⟩ := hobserved _ hphase
    refine ⟨l, hl, ?_⟩
    rw [livenessExpired, hw.heard, hw.deadline] at halive
    have hlt : ¬ livenessDeadline l.maxInt ≤ now - l.last := of_decide_eq_false halive
    constructor
    · intro hidle
      cases hphase.symm.trans hidle
    · intro hle
      exact absurd (Nat.le_sub_of_add_le' hle) hlt

/-- In every run in which the timers of a node's task fire within `late` of being due: a node that
still has its subscription was heard from within the granted interval, the slack, one poll and
`late`; a node that waits for its next attempt has waited no longer than a minute and `late`. -/
theorem silence_noticed (gen : EventTables) {s s' : TimedThread} {steps : List TimedStep}
    (hfresh : s.thread.Fresh) (hrun : run (TimedThread.step gen) s steps = some s')
    {nodeId : NodeId} {late : Nat}
    (hprompt : Along (TimedThread.step gen) (Prompt nodeId late) s steps) :
    (∀ subId, s'.thread.phase nodeId = .watching subId →
      ∃ l, observe (TimedThread.step gen) (noteLife nodeId) s none steps = some l ∧
        s'.clock < l.last + livenessDeadline l.maxInt + seconds livenessPollSecs + late) ∧
    (s'.thread.phase nodeId = .idle →
      ∃ k, observe (TimedThread.step gen) (noteStreak nodeId) s none steps = some k ∧
        s'.clock ≤ k.last + seconds 60 + late) := by
  have hontime := onTime_run gen hfresh hrun hprompt
  constructor
  · intro subId hwatching
    obtain ⟨l, hl, hw⟩ := observed_run gen hfresh hrun nodeId subId hwatching
    have hclock := hontime.1 subId hwatching
    have hchecked := hw.checked
    exact ⟨l, hl, by omega⟩
  · intro hidle
    obtain ⟨k, hk, -, -, hretry⟩ := (paced_run gen hfresh hrun nodeId).idle hidle
    have hclock := hontime.2 hidle
    exact ⟨k, hk, by omega⟩

/-- In every run, an attempt begins no sooner than the schedule has it: `n` failures in a row take at
least the sum of their delays, which is `n` minutes less 193 seconds or more. -/
theorem attempts_paced (gen : EventTables) {s s' s'' : TimedThread} {steps : List TimedStep}
    (hfresh : s.thread.Fresh) (hrun : run (TimedThread.step gen) s steps = some s')
    {now : Nat} {nodeId : NodeId} (hbegin : s'.step gen (.act now (.begin nodeId)) = some s'') :
    ∃ k, observe (TimedThread.step gen) (noteStreak nodeId) s none steps = some k ∧
      k.since + backoffTotal k.failures ≤ now ∧
      k.since + seconds (60 * k.failures) ≤ now + seconds 193 := by
  cases TimedThread.step_moves hbegin with
  | own hclock hdue hnode hthread =>
    cases hnode
    cases StackThread.step_steers rfl hthread with
    | ended ha hended => rcases ha with ha | ha <;> cases ha
    | begin hold hphase =>
      obtain ⟨k, hk, -, hle, -⟩ := (paced_run gen hfresh hrun nodeId).idle hold
      have hnow : (s'.watch nodeId).retryAt ≤ now := of_decide_eq_true hdue
      have hminutes := minutes_le_backoffTotal k.failures
      exact ⟨k, hk, hle.trans hnow, by omega⟩

section Lost

def unwatched : TimedThread := ⟨silentThread, 0, fun _ => ⟨0, 0, 0, 0, 0⟩⟩

/-- The first attempt fails, the second one is granted a minute and then nothing is heard. -/
def lostSteps : List TimedStep :=
  [.act 0 (.start 5), .act 0 (.begin 5), .act 0 (.failed 5), .act (seconds 2) (.begin 5),
    .act (seconds 3) (.established 5 7 60 (seconds 3)), .poll (seconds 8) 5]

theorem freshThread : unwatched.thread.Fresh := ⟨fun _ => rfl, fun _ => rfl, fun _ => rfl, rfl⟩

theorem given_up_lost : ∃ s s', run (TimedThread.step noEventTables) unwatched lostSteps = some s ∧
    s.step noEventTables (.poll (seconds 78) 5) = some s' ∧
    ∃ l, observe (TimedThread.step noEventTables) (noteLife 5) unwatched none lostSteps = some l ∧
      (s'.thread.phase 5 = .idle ↔ l.last + livenessDeadline l.maxInt ≤ seconds 78) :=
  ⟨_, _, rfl, rfl, given_up_iff_silent noEventTables freshThread rfl rfl⟩

theorem silence_noticed_lost : ∃ s, run (TimedThread.step noEventTables) unwatched lostSteps = some s ∧
    (∀ subId, s.thread.phase 5 = .watching subId →
      ∃ l, observe (TimedThread.step noEventTables) (noteLife 5) unwatched none lostSteps = some l ∧
        s.clock < l.last + livenessDeadline l.maxInt + seconds livenessPollSecs + 0) ∧
    (s.thread.phase 5 = .idle →
      ∃ k, observe (TimedThread.step noEventTables) (noteStreak 5) unwatched none lostSteps = some k ∧
        s.clock ≤ k.last + seconds 60 + 0) := by
  have hprompt : Along (TimedThread.step noEventTables) (Prompt 5 0) unwatched lostSteps := by
    intro s1 h1
    obtain rfl := Option.some.inj h1
    refine ⟨prompt_of_neither (fun _ h => nomatch h) (fun h => nomatch h), ?_⟩
    intro s2 h2
    obtain rfl := Option.some.inj h2
    refine ⟨prompt_of_idle rfl (Nat.le_refl _), ?_⟩
    intro s3 h3
    obtain rfl := Option.some.inj h3
    refine ⟨prompt_of_neither (fun _ h => nomatch h) (fun h => nomatch h), ?_⟩
    intro s4 h4
    obtain rfl := Option.some.inj h4
    refine ⟨prompt_of_idle rfl (Nat.le_refl _), ?_⟩
    intro s5 h5
    obtain rfl := Option.some.inj h5
    refine ⟨prompt_of_neither (fun _ h => nomatch h) (fun h => nomatch h), ?_⟩
    intro s6 h6
    obtain rfl := Option.some.inj h6
    exact ⟨⟨fun _ _ => Nat.le_refl _, fun h => nomatch h⟩, trivial⟩
  exact ⟨_, rfl, silence_noticed noEventTables freshThread rfl hprompt⟩

theorem attempts_paced_lost : ∃ s s',
    run (TimedThread.step noEventTables) unwatched (lostSteps.take 3) = some s ∧
    s.step noEventTables (.act (seconds 2) (.begin 5)) = some s' ∧
    ∃ k, observe (TimedThread.step noEventTables) (noteStreak 5) unwatched none (lostSteps.take 3) =
        some k ∧
      k.since + backoffTotal k.failures ≤ seconds 2 ∧
      k.since + seconds (60 * k.failures) ≤ seconds 2 + seconds 193 :=
  ⟨_, _, rfl, rfl, attempts_paced noEventTables freshThread rfl rfl⟩

end Lost

end MatterRsServer.Stack
