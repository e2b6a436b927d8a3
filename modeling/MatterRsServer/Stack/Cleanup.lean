import MatterRsServer.Stack.EventForwarding
import MatterRsServer.Stack.Futures

/-!
# What is left of a stopped node

The cleanup contract of `StackCtx::supervisors`: `forget_node` runs at once, the guard of the
subscription when the executor drops the future. In between the subscription is still matched,
so a report puts back what `forget_node` has cleared, and nothing clears it again.
-/
namespace MatterRsServer.Stack
open Lib Wire Gen Controller

/-- None of the maps has an entry for the node. -/
structure NoTrace (nodeId : NodeId) (ctx : StackCtx) : Prop where
  subs : ctx.subs.get? nodeId = none
  liveness : ctx.liveness.get? nodeId = none
  lastEvent : ctx.lastEvent.get? nodeId = none
  addrs : ctx.addrs.get? nodeId = none
  pendingReports : ctx.pendingReports.get? nodeId = none

namespace Executor

/-- Neither a supervisor nor a commissioning of the node is started. -/
def Unstarted (nodeId : NodeId) (a : ExecutorStep) : Prop :=
  a ≠ .startSupervisor nodeId ∧ a ≠ .commission nodeId

/-- The report that a step handles for the node. -/
def acceptedBy (nodeId : NodeId) (s : Executor) : ExecutorStep → List Incoming
  | .report r => if Tracked s.ctx.fabIdx (s.ctx.subs.get? nodeId) nodeId r then [r] else []
  | _ => []

/-- The reports that are handled for the node along the steps of a run. -/
def accepted (gen : EventTables) (nodeId : NodeId) (s : Executor) : List ExecutorStep → List Incoming
  | [] => []
  | a :: rest => acceptedBy nodeId s a ++
    match s.step gen a with
    | some s' => accepted gen nodeId s' rest
    | none => []

/-- No future of the node may be polled again. -/
def Stopped (nodeId : NodeId) (s : Executor) : Prop :=
  ∀ task f, s.futures task = some f → f.nodeId = nodeId → f.closed = true

/-- No future of the node holds the guard of its recorded subscription. -/
def Settled (nodeId : NodeId) (s : Executor) : Prop :=
  ∀ task f subId, s.futures task = some f → f.nodeId = nodeId → f.stage = .watching subId →
    s.ctx.subs.get? nodeId ≠ some subId

/-- The last of the messages is the last one of a report. -/
def Complete (rs : List Incoming) : Prop := ∀ r ∈ rs.getLast?, r.report.moreChunks ≠ some true

variable {gen : EventTables} {s s' : Executor} {nodeId : NodeId} {a : ExecutorStep}

theorem Invariant.stopped (h : s.Invariant) (nodeId : NodeId) :
    Stopped nodeId (s.stopSupervisor nodeId) := by
  intro task f hf hnode
  by_contra hopen
  obtain ⟨closed, hold, hkept⟩ := of_closeHandle_eq_some hf
  obtain ⟨hclosed, hother⟩ := hkept (Bool.eq_false_iff.mpr hopen)
  have hhandle := h.handled task _ hold hclosed
  rw [hnode] at hhandle
  exact hother hhandle

theorem Stopped.ne (h : Stopped nodeId s) {task : Nat} {f : SupervisorFuture}
    (hf : s.futures task = some f) (hopen : f.closed = false) : nodeId ≠ f.nodeId := by
  intro heq
  have hclosed := h task f hf heq.symm
  rw [hopen] at hclosed
  cases hclosed

theorem Stopped.setStage (h : Stopped nodeId s) {task : Nat} {f : SupervisorFuture}
    (hf : s.futures task = some f) (stage : SupervisorStage) :
    ∀ t f', Function.update s.futures task (some { f with stage := stage }) t = some f' →
      f'.nodeId = nodeId → f'.closed = true := by
  intro t f' hf' hnode
  rw [Function.update_apply] at hf'
  split at hf'
  · cases hf'
    exact h task f hf hnode
  · exact h t f' hf' hnode

theorem Stopped.closeHandle (h : Stopped nodeId s) (n : NodeId) :
    ∀ t f, s.closeHandle n t = some f → f.nodeId = nodeId → f.closed = true := by
  intro t f hf hnode
  by_contra hopen
  obtain ⟨closed, hold, hkept⟩ := of_closeHandle_eq_some hf
  obtain ⟨hclosed, -⟩ := hkept (Bool.eq_false_iff.mpr hopen)
  have hall := h t _ hold hnode
  rw [hclosed] at hall
  cases hall

theorem Stopped.step (h : Stopped nodeId s) (hstep : s.step gen a = some s')
    (ha : Unstarted nodeId a) : Stopped nodeId s' := by
  cases step_moved hstep with
  | startSupervisor n =>
    intro t f hf hnode
    change Function.update (s.closeHandle n) s.spawned _ t = some f at hf
    rw [Function.update_apply] at hf
    split at hf
    · cases hf
      exact absurd (congrArg ExecutorStep.startSupervisor hnode) ha.1
    · exact h.closeHandle n t f hf hnode
  | stopSupervisor n => exact h.closeHandle n
  | begin hf hopen hstage => exact h.setStage hf _
  | chunk resp hf hopen hstage => exact h.setStage hf _
  | established subId maxInt now hf hopen hstage => exact h.setStage hf _
  | failed hf hopen hstage => exact h.setStage hf _
  | silent hf hopen hstage => exact h.setStage hf _
  | @dropFuture task f hf hclosed =>
    intro t f' hf' hnode
    change Function.update s.futures task none t = some f' at hf'
    rw [Function.update_apply] at hf'
    split at hf'
    · cases hf'
    · exact h t f' hf' hnode
  | report r => exact h
  | commission n => exact h
  | commissioned address hmem => exact h
  | commissionFailed hmem => exact h

/-- The entries that `forget_node` clears. -/
structure SameCaches (nodeId : NodeId) (ctx ctx' : StackCtx) : Prop where
  lastEvent : ctx'.lastEvent.get? nodeId = ctx.lastEvent.get? nodeId
  addrs : ctx'.addrs.get? nodeId = ctx.addrs.get? nodeId
  pendingReports : ctx'.pendingReports.get? nodeId = ctx.pendingReports.get? nodeId

theorem sameCaches_dropGuard (ctx : StackCtx) (n nodeId : NodeId) (subId : UInt32) :
    SameCaches nodeId ctx (ctx.dropGuard n subId) := by
  unfold StackCtx.dropGuard StackCtx.disown
  split <;> exact ⟨rfl, rfl, rfl⟩

theorem sameCaches_releaseGuard (ctx : StackCtx) (f : SupervisorFuture) (nodeId : NodeId) :
    SameCaches nodeId ctx (releaseGuard ctx f) := by
  unfold releaseGuard
  split
  · exact sameCaches_dropGuard _ _ _ _
  · exact ⟨rfl, rfl, rfl⟩

theorem sameCaches_beginEstablish (ctx : StackCtx) {n nodeId : NodeId} (h : nodeId ≠ n) :
    SameCaches nodeId ctx (ctx.beginEstablish n) where
  lastEvent := (OrdMap.get?_erase _ _ _).trans (if_neg h)
  addrs := rfl
  pendingReports := (OrdMap.get?_erase _ _ _).trans (if_neg h)

theorem sameCaches_notePriming (ctx : StackCtx) {n nodeId : NodeId} (h : nodeId ≠ n)
    (events : List EventData) : SameCaches nodeId ctx (ctx.notePriming n events) where
  lastEvent := lastEvent_notePriming_of_ne h events ctx
  addrs := by rw [StackCtx.notePriming_eq]
  pendingReports := by rw [StackCtx.notePriming_eq]

theorem sameCaches_handleReport (ctx : StackCtx) {r : Incoming}
    (h : ¬ Tracked ctx.fabIdx (ctx.subs.get? nodeId) nodeId r) :
    SameCaches nodeId ctx (handleReport gen ctx r).ctx := by
  have hsilent := (sink_silent gen nodeId ctx r h).1
  simp only [nodeEntries, NodeEntries.mk.injEq] at hsilent
  obtain ⟨-, -, -, hpending, hlast⟩ := hsilent
  refine ⟨hlast, ?_, hpending⟩
  unfold handleReport
  split
  · rfl
  · split
    · rfl
    · split <;> rfl

/-- What a step does for a node that is stopped and not stopped again. -/
theorem Stopped.step_cases (h : Stopped nodeId s) (hstep : s.step gen a = some s')
    (ha : Unstarted nodeId a) (hstop : a ≠ .stopSupervisor nodeId) :
    (∃ r, a = .report r ∧ acceptedBy nodeId s a = [r] ∧
      Tracked s.ctx.fabIdx (s.ctx.subs.get? nodeId) nodeId r ∧
      s'.ctx = (handleReport gen s.ctx r).ctx) ∨
    (∃ address, a = .commissioned nodeId address ∧ acceptedBy nodeId s a = [] ∧
      s'.ctx = s.ctx.noteAddress nodeId address) ∨
    ((∀ address, a ≠ .commissioned nodeId address) ∧ acceptedBy nodeId s a = [] ∧
      SameCaches nodeId s.ctx s'.ctx) := by
  cases step_moved hstep with
  | startSupervisor n => exact Or.inr (Or.inr ⟨by simp, rfl, rfl, rfl, rfl⟩)
  | stopSupervisor n =>
    have hne : nodeId ≠ n := fun heq => hstop (heq ▸ rfl)
    exact Or.inr (Or.inr ⟨by simp, rfl, (OrdMap.get?_erase _ _ _).trans (if_neg hne),
      (OrdMap.get?_erase _ _ _).trans (if_neg hne), (OrdMap.get?_erase _ _ _).trans (if_neg hne)⟩)
  | begin hf hopen hstage =>
    exact Or.inr (Or.inr ⟨by simp, rfl, sameCaches_beginEstablish _ (h.ne hf hopen)⟩)
  | chunk resp hf hopen hstage =>
    exact Or.inr (Or.inr ⟨by simp, rfl, sameCaches_notePriming _ (h.ne hf hopen) _⟩)
  | established subId maxInt now hf hopen hstage =>
    exact Or.inr (Or.inr ⟨by simp, rfl, rfl, rfl, rfl⟩)
  | failed hf hopen hstage => exact Or.inr (Or.inr ⟨by simp, rfl, rfl, rfl, rfl⟩)
  | silent hf hopen hstage =>
    exact Or.inr (Or.inr ⟨by simp, rfl, sameCaches_dropGuard _ _ _ _⟩)
  | dropFuture hf hclosed => exact Or.inr (Or.inr ⟨by simp, rfl, sameCaches_releaseGuard _ _ _⟩)
  | report r =>
    by_cases htracked : Tracked s.ctx.fabIdx (s.ctx.subs.get? nodeId) nodeId r
    · exact Or.inl ⟨r, rfl, if_pos htracked, htracked, rfl⟩
    · exact Or.inr (Or.inr ⟨by simp, if_neg htracked, sameCaches_handleReport _ htracked⟩)
  | commission n => exact Or.inr (Or.inr ⟨by simp, rfl, rfl, rfl, rfl⟩)
  | @commissioned n address hmem =>
    by_cases hn : n = nodeId
    · subst hn
      exact Or.inr (Or.inl ⟨address, rfl, rfl, rfl⟩)
    · exact Or.inr (Or.inr ⟨by simp [hn], rfl, rfl, OrdMap.get?_insert_of_ne _ (Ne.symm hn) _, rfl⟩)
  | commissionFailed hmem => exact Or.inr (Or.inr ⟨by simp, rfl, rfl, rfl, rfl⟩)

theorem get?_noteEvent_ne_none (last : OrdMap NodeId UInt64) (nodeId : NodeId) (k : UInt64) :
    (noteEvent last nodeId k).2.get? nodeId ≠ none := by
  rw [get?_noteEvent_self]
  unfold HighWater.raise
  cases last.get? nodeId with
  | none => simp [HighWater.fresh]
  | some seen => split <;> simp

/-- A report leaves a mark exactly when it has an event, or one was there. -/
theorem lastEvent_forwardEvents (gen : EventTables) (nodeId : NodeId) (wall : Int)
    (events : List EventData) (last : OrdMap NodeId UInt64) :
    (forwardEvents gen nodeId wall events last).2.get? nodeId = none ↔
      last.get? nodeId = none ∧ events = [] := by
  induction events generalizing last with
  | nil => simp [forwardEvents]
  | cons d rest ih =>
    change (forwardEvents gen nodeId wall rest (noteEvent last nodeId d.eventNumber).2).2.get?
      nodeId = none ↔ _
    simp [ih, get?_noteEvent_ne_none]

theorem pending_absorbMessage (gen : Tables) (pending : PendingReports) (nodeId : NodeId)
    (report : ReportDataResp) : (pending.absorbMessage gen nodeId report).2.get? nodeId = none ↔
      report.moreChunks ≠ some true := by
  unfold PendingReports.absorbMessage
  split
  next hmore => simp [hmore]
  next hmore => simpa using hmore

/-- What a handled report leaves in the caches of its node. -/
theorem caches_handleReport (gen : EventTables) {ctx : StackCtx} {r : Incoming}
    (h : Tracked ctx.fabIdx (ctx.subs.get? nodeId) nodeId r) :
    ((handleReport gen ctx r).ctx.lastEvent.get? nodeId = none ↔
      ctx.lastEvent.get? nodeId = none ∧ walkEvents r.report = []) ∧
    ((handleReport gen ctx r).ctx.pendingReports.get? nodeId = none ↔
      r.report.moreChunks ≠ some true) ∧
    (handleReport gen ctx r).ctx.addrs = ctx.addrs := by
  rw [handleReport_tracked gen h]
  exact ⟨lastEvent_forwardEvents _ _ _ _ _, pending_absorbMessage _ _ _ _, rfl⟩

/-- What a run leaves in the caches of a node that stays stopped. -/
theorem Stopped.run_caches {gap : List ExecutorStep} (h : Stopped nodeId s)
    (hrun : Transition.run (Executor.step gen) s gap = some s')
    (hgap : ∀ a ∈ gap, Unstarted nodeId a ∧ a ≠ .stopSupervisor nodeId) :
    (s'.ctx.lastEvent.get? nodeId = none ↔ s.ctx.lastEvent.get? nodeId = none ∧
      ∀ r ∈ accepted gen nodeId s gap, walkEvents r.report = []) ∧
    (s'.ctx.pendingReports.get? nodeId = none ↔ (accepted gen nodeId s gap).getLast?.elim
      (s.ctx.pendingReports.get? nodeId = none) fun r => r.report.moreChunks ≠ some true) ∧
    (s'.ctx.addrs.get? nodeId = none ↔ s.ctx.addrs.get? nodeId = none ∧
      ∀ address, .commissioned nodeId address ∉ gap) := by
  induction gap generalizing s with
  | nil =>
    cases hrun
    simp [accepted]
  | cons a gap ih =>
    obtain ⟨m, hstep, hrest⟩ := Transition.run_cons hrun
    obtain ⟨ha, hstop⟩ := hgap a (by simp)
    obtain ⟨hlast, hpending, haddrs⟩ := ih (h.step hstep ha) hrest fun b hb => hgap b (by simp [hb])
    rw [hlast, hpending, haddrs]
    simp only [accepted, hstep, List.getLast?_append]
    rcases h.step_cases hstep ha hstop with
      ⟨r, rfl, hby, htracked, hctx⟩ | ⟨address, rfl, hby, hctx⟩ | ⟨hnot, hby, hsame⟩
    · obtain ⟨hlast', hpending', haddrs'⟩ := caches_handleReport gen htracked
      rw [hctx, hby, hlast', hpending', haddrs']
      refine ⟨by simp [and_assoc], ?_, by simp⟩
      cases (accepted gen nodeId m gap).getLast? <;> simp
    · rw [hctx, hby]
      refine ⟨by simp [StackCtx.noteAddress], ?_, ?_⟩
      · cases (accepted gen nodeId m gap).getLast? <;> simp [StackCtx.noteAddress]
      · refine iff_of_false (fun hnone => ?_) fun hnone => hnone.2 address (by simp)
        simp [StackCtx.noteAddress] at hnone
    · rw [hby, hsame.lastEvent, hsame.addrs, hsame.pendingReports]
      refine ⟨by simp, ?_, ?_⟩
      · cases (accepted gen nodeId m gap).getLast? <;> simp
      · simp [fun address => Ne.symm (hnot address)]

/-- What is not recorded for a stopped node stays so. -/
theorem Stopped.recorded (h : Stopped nodeId s) (hstep : s.step gen a = some s')
    (hsubs : s.ctx.subs.get? nodeId = none) (hlive : s.ctx.liveness.get? nodeId = none) :
    s'.ctx.subs.get? nodeId = none ∧ s'.ctx.liveness.get? nodeId = none := by
  have hguard : ∀ n subId, (s.ctx.dropGuard n subId).subs.get? nodeId = none ∧
      (s.ctx.dropGuard n subId).liveness.get? nodeId = none := by
    intro n subId
    simp [StackCtx.get?_subs_dropGuard, StackCtx.get?_liveness_dropGuard, hsubs, hlive]
  cases step_moved hstep with
  | startSupervisor n => exact ⟨hsubs, hlive⟩
  | stopSupervisor n => exact ⟨hsubs, hlive⟩
  | begin hf hopen hstage => exact ⟨hsubs, hlive⟩
  | chunk resp hf hopen hstage => simp [hsubs, hlive]
  | established subId maxInt now hf hopen hstage =>
    have hne := h.ne hf hopen
    exact ⟨(OrdMap.get?_insert_of_ne _ hne _).trans hsubs,
      (OrdMap.get?_insert_of_ne _ hne _).trans hlive⟩
  | failed hf hopen hstage => exact ⟨hsubs, hlive⟩
  | silent hf hopen hstage => exact hguard _ _
  | @dropFuture task f hf hclosed =>
    simp only [releaseGuard]
    split
    · exact hguard _ _
    · exact ⟨hsubs, hlive⟩
  | report r =>
    have hnot : ¬ Tracked s.ctx.fabIdx (s.ctx.subs.get? nodeId) nodeId r := by
      rintro ⟨-, -, subId, -, hrecorded⟩
      rw [hsubs] at hrecorded
      cases hrecorded
    have hsilent := (sink_silent gen nodeId s.ctx r hnot).1
    simp only [nodeEntries, NodeEntries.mk.injEq] at hsilent
    exact ⟨hsilent.2.1.trans hsubs, hsilent.2.2.1.trans hlive⟩
  | commission n => exact ⟨hsubs, hlive⟩
  | commissioned address hmem => exact ⟨hsubs, hlive⟩
  | commissionFailed hmem => exact ⟨hsubs, hlive⟩

/-- A node that is stopped, without a trace and without a commissioning under way. -/
structure Clean (nodeId : NodeId) (s : Executor) : Prop where
  stopped : Stopped nodeId s
  noTrace : NoTrace nodeId s.ctx
  uncommissioned : nodeId ∉ s.commissioning

theorem not_mem_commissioning (h : nodeId ∉ s.commissioning) (hstep : s.step gen a = some s')
    (ha : Unstarted nodeId a) : nodeId ∉ s'.commissioning := by
  cases step_moved hstep with
  | commission n =>
    intro hmem
    rcases List.mem_cons.mp hmem with heq | hmem
    · exact ha.2 (congrArg ExecutorStep.commission heq.symm)
    · exact h hmem
  | commissioned address hmem => exact fun hin => h (List.mem_of_mem_erase hin)
  | commissionFailed hmem => exact fun hin => h (List.mem_of_mem_erase hin)
  | _ => exact h

theorem Clean.step (h : Clean nodeId s) (hstep : s.step gen a = some s')
    (ha : Unstarted nodeId a) : Clean nodeId s' := by
  obtain ⟨hsubs, hlive⟩ := h.stopped.recorded hstep h.noTrace.subs h.noTrace.liveness
  refine ⟨h.stopped.step hstep ha, ?_, not_mem_commissioning h.uncommissioned hstep ha⟩
  by_cases hstop : a = .stopSupervisor nodeId
  · subst hstop
    cases hstep
    exact ⟨hsubs, hlive, OrdMap.get?_erase_self _ _, OrdMap.get?_erase_self _ _,
      OrdMap.get?_erase_self _ _⟩
  · rcases h.stopped.step_cases hstep ha hstop with
      ⟨r, -, -, htracked, -⟩ | ⟨address, rfl, -, -⟩ | ⟨-, -, hsame⟩
    · obtain ⟨-, -, subId, -, hrecorded⟩ := htracked
      rw [h.noTrace.subs] at hrecorded
      cases hrecorded
    · cases step_moved hstep with
      | commissioned address hmem => exact absurd hmem h.uncommissioned
    · exact ⟨hsubs, hlive, hsame.lastEvent.trans h.noTrace.lastEvent,
        hsame.addrs.trans h.noTrace.addrs, hsame.pendingReports.trans h.noTrace.pendingReports⟩

/-- Nothing puts back an entry of the node from its `StopSupervisor` on: its guards are dropped,
the reports handled meanwhile carry no events and end with a last message, and no commissioning
of it ends. -/
structure Undisturbed (gen : EventTables) (nodeId : NodeId) (s : Executor) (gap : List ExecutorStep)
    (s' : Executor) : Prop where
  settled : Settled nodeId s'
  eventless : ∀ r ∈ accepted gen nodeId s gap, walkEvents r.report = []
  complete : Complete (accepted gen nodeId s gap)
  unaddressed : ∀ address, .commissioned nodeId address ∉ gap
  uncommissioned : nodeId ∉ s'.commissioning

/-- For every run up to a `StopSupervisor` and every run after it: there is no trace of the node
from then on exactly when nothing has put one back. -/
theorem stop_leaves_no_trace {s₀ s₁ : Executor} {pre gap : List ExecutorStep} (hfresh : s.Fresh)
    (hpre : Transition.run (step gen) s pre = some s₀)
    (hgap : Transition.run (step gen) (s₀.stopSupervisor nodeId) gap = some s₁)
    (hafter : ∀ a ∈ gap, Unstarted nodeId a ∧ a ≠ .stopSupervisor nodeId) :
    (∀ later s₂, (∀ a ∈ later, Unstarted nodeId a) →
      Transition.run (step gen) s₁ later = some s₂ → NoTrace nodeId s₂.ctx) ↔
    Undisturbed gen nodeId (s₀.stopSupervisor nodeId) gap s₁ := by
  have hinv := (Invariant.fresh hfresh).run hpre
  have hstopped := hinv.stopped nodeId
  have hinv₁ := (hinv.stopSupervisor nodeId).run hgap
  obtain ⟨hlast, hpending, haddrs⟩ := hstopped.run_caches hgap hafter
  have hforgotten : (s₀.stopSupervisor nodeId).ctx.lastEvent.get? nodeId = none ∧
      (s₀.stopSupervisor nodeId).ctx.addrs.get? nodeId = none ∧
      (s₀.stopSupervisor nodeId).ctx.pendingReports.get? nodeId = none :=
    ⟨OrdMap.get?_erase_self _ _, OrdMap.get?_erase_self _ _, OrdMap.get?_erase_self _ _⟩
  have hcomplete : s₁.ctx.pendingReports.get? nodeId = none ↔
      Complete (accepted gen nodeId (s₀.stopSupervisor nodeId) gap) := by
    rw [hpending, Complete]
    cases (accepted gen nodeId (s₀.stopSupervisor nodeId) gap).getLast? <;>
      simp [hforgotten.2.2]
  constructor
  · intro hnever
    have hnow := hnever [] s₁ (by simp) rfl
    refine ⟨fun task f subId hf hnode hstage hsub => ?_, (hlast.mp hnow.lastEvent).2,
      hcomplete.mp hnow.pendingReports, (haddrs.mp hnow.addrs).2, fun hmem => ?_⟩
    · rw [hnow.subs] at hsub
      cases hsub
    · have hends : Transition.run (step gen) s₁ [.commissioned nodeId ""] = some { s₁ with
          ctx := s₁.ctx.noteAddress nodeId ""
          commissioning := s₁.commissioning.erase nodeId } := by
        simp [Transition.run, step, hmem]
      have hnoted := (hnever _ _ (by simp [Unstarted]) hends).addrs
      simp [StackCtx.noteAddress] at hnoted
  · intro h later s₂ hlater hrun
    have hsubs : s₁.ctx.subs.get? nodeId = none := by
      by_contra hsome
      obtain ⟨subId, hsub⟩ := Option.ne_none_iff_exists'.mp hsome
      obtain ⟨task, f, hf, hnode, hstage⟩ := hinv₁.owned nodeId subId hsub
      exact h.settled task f subId hf hnode hstage hsub
    have hlive : s₁.ctx.liveness.get? nodeId = none := by
      by_contra hheard
      exact hinv₁.heard nodeId hheard hsubs
    have hclean : Clean nodeId s₁ := {
      stopped := Transition.run_invariant (P := fun _ a _ => Unstarted nodeId a)
        (fun _ _ _ hstop hstep ha => hstop.step hstep ha) hstopped
        (Transition.Along.of_forall fun a ha _ _ => (hafter a ha).1) hgap
      noTrace := ⟨hsubs, hlive, hlast.mpr ⟨hforgotten.1, h.eventless⟩,
        haddrs.mpr ⟨hforgotten.2.1, h.unaddressed⟩, hcomplete.mpr h.complete⟩
      uncommissioned := h.uncommissioned }
    have hclean₂ : Clean nodeId s₂ :=
      Transition.run_invariant (P := fun _ a _ => Unstarted nodeId a)
        (fun _ _ _ hc hstep ha => hc.step hstep ha) hclean
        (Transition.Along.of_forall fun a ha _ _ => hlater a ha) hrun
    exact hclean₂.noTrace

section Gap

/-- Node 5 is subscribed under id 7. -/
def subscribeNode : List ExecutorStep := [.startSupervisor 5, .begin 0, .established 0 7 60 0]

/-- A report of node 5 that says nothing. -/
def heartbeat : Incoming := ⟨⟨some 7, 1, 5⟩, ⟨⟨none, none⟩, none⟩, 10, 0⟩

theorem stop_leaves_no_trace_heartbeat : ∃ s₀ s₁,
    Transition.run (step noEventTables) silentExecutor subscribeNode = some s₀ ∧
    Transition.run (step noEventTables) (s₀.stopSupervisor 5) [.report heartbeat, .dropFuture 0] =
      some s₁ ∧ NoTrace 5 s₁.ctx := by
  have hrun : ∃ s₀ s₁, Transition.run (step noEventTables) silentExecutor subscribeNode = some s₀ ∧
      Transition.run (step noEventTables) (s₀.stopSupervisor 5) [.report heartbeat, .dropFuture 0] =
        some s₁ ∧ s₁.ctx.subs.get? 5 = none ∧ s₁.commissioning = [] ∧
      accepted noEventTables 5 (s₀.stopSupervisor 5) [.report heartbeat, .dropFuture 0] =
        [heartbeat] := ⟨_, _, rfl, rfl, rfl, rfl, rfl⟩
  obtain ⟨s₀, s₁, hpre, hgap, hsubs, hcommissioning, haccepted⟩ := hrun
  refine ⟨s₀, s₁, hpre, hgap, ?_⟩
  have hnever := stop_leaves_no_trace silentExecutor_fresh hpre hgap (by simp [Unstarted])
  apply hnever.mpr ?_ [] s₁ (by simp) rfl
  constructor
  · intro task f subId _ _ _ hsub
    rw [hsubs] at hsub
    cases hsub
  · rw [haccepted]
    simp [heartbeat, walkEvents]
  · rw [haccepted]
    simp [Complete, heartbeat]
  · simp
  · simp [hcommissioning]

/-- Event 3 arrives between the stop and the drop of the future: its mark stays. -/
theorem event_outlives_stop : ∃ s₀ s₁,
    Transition.run (step noEventTables) silentExecutor subscribeNode = some s₀ ∧
    Transition.run (step noEventTables) (s₀.stopSupervisor 5)
      [.report (eventReport 5 (some 7) 3), .dropFuture 0] = some s₁ ∧
    s₁.futures 0 = none ∧ ¬ NoTrace 5 s₁.ctx := by
  refine ⟨_, _, rfl, rfl, rfl, fun h => ?_⟩
  cases h.lastEvent

end Gap

end Executor

end MatterRsServer.Stack
