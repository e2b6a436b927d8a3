import MatterRsServer.Stack.Cleanup

/-!
# Replacing a supervisor

`StartSupervisor` for a node that has one: the displaced future keeps its guard until the
executor drops it, and its subscription stays matched until the replacement records its own.
The guard gives up `subs` by comparing ids but `liveness` blindly, and the accumulator is
cleared when the replacement begins, not when it records.
-/
namespace MatterRsServer.Stack
open Lib Wire Gen Controller

namespace Executor

/-- The subscription that the node's supervisor has recorded. -/
def current (s : Executor) (nodeId : NodeId) : Option UInt32 :=
  (s.handles.get? nodeId).bind fun task => (s.futures task).bind SupervisorFuture.subscription

/-- What these messages accumulate to. -/
def merged (gen : EventTables) (messages : List Incoming) : AttrAccumulator :=
  messages.foldl (fun (acc : AttrAccumulator) m =>
    acc.absorb gen.toTables m.report.toReportDataResp) ∅

/-- The first changes released from here on come from messages handled from here on. -/
def ReleasesOwn (gen : EventTables) (nodeId : NodeId) (s : Executor) : Prop :=
  ∀ mid s' r changes, Transition.run (step gen) s mid = some s' →
    (∀ m ∈ accepted gen nodeId s mid, m.report.moreChunks = some true) →
    Tracked s'.ctx.fabIdx (s'.ctx.subs.get? nodeId) nodeId r →
    (s'.ctx.pendingReports.absorbMessage gen.toTables nodeId r.report.toReportDataResp).1 =
      some changes →
    ∃ own, own <:+ accepted gen nodeId s mid ++ [r] ∧ changes = (merged gen own).intoPairs

/-- The step does no damage to the newer subscription of a node. -/
def KeepsNewer (gen : EventTables) (s : Executor) (a : ExecutorStep) (s' : Executor) : Prop :=
  match a with
  | .dropFuture task => ∀ f old new, s.futures task = some f → f.subscription = some old →
      s.current f.nodeId = some new →
      s'.ctx.subs.get? f.nodeId = s.ctx.subs.get? f.nodeId ∧
        s'.ctx.liveness.get? f.nodeId = s.ctx.liveness.get? f.nodeId
  | .established task _ _ _ => ∀ f, s.futures task = some f → ReleasesOwn gen f.nodeId s'
  | _ => True

/-- A displaced guard is not dropped after the replacement has recorded its subscription (or
there is nothing of it left to harm), and nothing is accumulated when it records. -/
def Untangled (s : Executor) (a : ExecutorStep) : Prop :=
  match a with
  | .dropFuture task => ∀ f old new, s.futures task = some f → f.subscription = some old →
      s.current f.nodeId = some new →
      s.ctx.subs.get? f.nodeId ≠ some old ∧ s.ctx.liveness.get? f.nodeId = none
  | .established task _ _ _ => ∀ f, s.futures task = some f →
      ((s.ctx.pendingReports.get? f.nodeId).getD ∅).intoPairs = []
  | _ => True

variable {gen : EventTables} {s s' : Executor} {nodeId : NodeId} {a : ExecutorStep}

/-- A guard leaves no entry of the node that it could take. -/
theorem dropGuard_keeps_iff (ctx : StackCtx) (nodeId : NodeId) (subId : UInt32) :
    ((ctx.dropGuard nodeId subId).subs.get? nodeId = ctx.subs.get? nodeId ∧
      (ctx.dropGuard nodeId subId).liveness.get? nodeId = ctx.liveness.get? nodeId) ↔
    ctx.subs.get? nodeId ≠ some subId ∧ ctx.liveness.get? nodeId = none := by
  rw [StackCtx.get?_subs_dropGuard, StackCtx.get?_liveness_dropGuard, if_pos rfl]
  by_cases hown : ctx.subs.get? nodeId = some subId
  · simp [hown]
  · simp [hown, eq_comm]

theorem keepsNewer_dropFuture {task : Nat} (hstep : s.step gen (.dropFuture task) = some s') :
    KeepsNewer gen s (.dropFuture task) s' ↔ Untangled s (.dropFuture task) := by
  cases step_moved hstep with
  | @dropFuture task f hf hclosed =>
    refine forall_congr' fun f' => forall₂_congr fun old new => forall_congr' fun hf' =>
      forall₂_congr fun hold hnew => ?_
    obtain rfl := Option.some.inj (hf.symm.trans hf')
    unfold SupervisorFuture.subscription at hold
    unfold releaseGuard
    split at hold
    next subId hstage =>
      cases hold
      exact dropGuard_keeps_iff _ _ _
    · cases hold

/-- What a message is added to decides what it comes to by its pairs only. -/
theorem out_absorb_congr (gen : Tables) {acc acc' : AttrAccumulator} (h : acc.out = acc'.out)
    (report : ReportDataResp) : (acc.absorb gen report).out = (acc'.absorb gen report).out := by
  rw [AttrAccumulator.absorb_eq_foldl, AttrAccumulator.absorb_eq_foldl, AttrAccumulator.out_foldl,
    AttrAccumulator.out_foldl, h]

/-- The accumulator of the node holds what the last of these messages carried. -/
def Holds (gen : EventTables) (nodeId : NodeId) (pending : PendingReports)
    (messages : List Incoming) : Prop :=
  ∃ own, own <:+ messages ∧ ((pending.get? nodeId).getD ∅).out = (merged gen own).out

/-- What a step does to the accumulator of a node. -/
theorem step_pending (nodeId : NodeId) (hstep : s.step gen a = some s') :
    (∃ r, a = .report r ∧ acceptedBy nodeId s a = [r] ∧
      s'.ctx.pendingReports = (s.ctx.pendingReports.absorbMessage gen.toTables nodeId
        r.report.toReportDataResp).2) ∨
    (acceptedBy nodeId s a = [] ∧ (s'.ctx.pendingReports.get? nodeId =
      s.ctx.pendingReports.get? nodeId ∨ s'.ctx.pendingReports.get? nodeId = none)) := by
  have herase : ∀ n, (s.ctx.pendingReports.forget n).get? nodeId =
      s.ctx.pendingReports.get? nodeId ∨ (s.ctx.pendingReports.forget n).get? nodeId = none := by
    intro n
    unfold PendingReports.forget
    rw [OrdMap.get?_erase]
    split
    · exact Or.inr rfl
    · exact Or.inl rfl
  cases step_moved hstep with
  | startSupervisor n => exact Or.inr ⟨rfl, Or.inl rfl⟩
  | stopSupervisor n => exact Or.inr ⟨rfl, herase n⟩
  | begin hf hopen hstage => exact Or.inr ⟨rfl, herase _⟩
  | chunk resp hf hopen hstage =>
    refine Or.inr ⟨rfl, Or.inl ?_⟩
    rw [ctx_setStage, StackCtx.notePriming_eq]
  | established subId maxInt now hf hopen hstage => exact Or.inr ⟨rfl, Or.inl rfl⟩
  | failed hf hopen hstage => exact Or.inr ⟨rfl, Or.inl rfl⟩
  | silent hf hopen hstage =>
    exact Or.inr ⟨rfl, Or.inl (sameCaches_dropGuard _ _ _ _).pendingReports⟩
  | dropFuture hf hclosed =>
    exact Or.inr ⟨rfl, Or.inl (sameCaches_releaseGuard _ _ _).pendingReports⟩
  | report r =>
    by_cases htracked : Tracked s.ctx.fabIdx (s.ctx.subs.get? nodeId) nodeId r
    · refine Or.inl ⟨r, rfl, if_pos htracked, ?_⟩
      rw [ctx_send, handleReport_tracked gen htracked]
    · exact Or.inr ⟨if_neg htracked, Or.inl (sameCaches_handleReport _ htracked).pendingReports⟩
  | commission n => exact Or.inr ⟨rfl, Or.inl rfl⟩
  | commissioned address hmem => exact Or.inr ⟨rfl, Or.inl rfl⟩
  | commissionFailed hmem => exact Or.inr ⟨rfl, Or.inl rfl⟩

theorem Holds.absorb {pending : PendingReports} {messages : List Incoming}
    (h : Holds gen nodeId pending messages) (r : Incoming) : ∃ own, own <:+ messages ++ [r] ∧
      (((pending.get? nodeId).getD ∅).absorb gen.toTables r.report.toReportDataResp).out =
        (merged gen own).out := by
  obtain ⟨own, ⟨before, hbefore⟩, hout⟩ := h
  refine ⟨own ++ [r], ⟨before, by rw [← List.append_assoc, hbefore]⟩, ?_⟩
  rw [merged, List.foldl_append]
  exact out_absorb_congr _ hout _

theorem Holds.empty (gen : EventTables) {pending : PendingReports} (messages : List Incoming)
    (h : pending.get? nodeId = none) : Holds gen nodeId pending messages :=
  ⟨[], List.nil_suffix, by rw [h]; rfl⟩

theorem Holds.step {messages : List Incoming} (h : Holds gen nodeId s.ctx.pendingReports messages)
    (hstep : s.step gen a = some s') :
    Holds gen nodeId s'.ctx.pendingReports (messages ++ acceptedBy nodeId s a) := by
  rcases step_pending nodeId hstep with ⟨r, rfl, hby, hpending⟩ | ⟨hby, hsame | hnone⟩
  · rw [hby, hpending]
    unfold PendingReports.absorbMessage
    split
    · obtain ⟨own, hown, hout⟩ := h.absorb r
      exact ⟨own, hown, by rw [OrdMap.get?_insert_self]; exact hout⟩
    · exact .empty gen _ (OrdMap.get?_erase_self _ _)
  · obtain ⟨own, hown, hout⟩ := h
    rw [hby, List.append_nil]
    exact ⟨own, hown, by rw [hsame]; exact hout⟩
  · exact .empty gen _ hnone

theorem Holds.run {messages : List Incoming} {mid : List ExecutorStep}
    (h : Holds gen nodeId s.ctx.pendingReports messages)
    (hrun : Transition.run (Executor.step gen) s mid = some s') :
    Holds gen nodeId s'.ctx.pendingReports (messages ++ accepted gen nodeId s mid) := by
  induction mid generalizing s messages with
  | nil =>
    cases hrun
    simpa [accepted] using h
  | cons a mid ih =>
    obtain ⟨m, hstep, hrest⟩ := Transition.run_cons hrun
    have hnext := ih (h.step hstep) hrest
    simpa only [accepted, hstep, List.append_assoc] using hnext

/-- Nothing of another subscription is released exactly when nothing is accumulated. -/
theorem releasesOwn_iff (hrecorded : ∃ subId, s.ctx.subs.get? nodeId = some subId) :
    ReleasesOwn gen nodeId s ↔ ((s.ctx.pendingReports.get? nodeId).getD ∅).intoPairs = [] := by
  constructor
  · intro h
    obtain ⟨subId, hsub⟩ := hrecorded
    let last : Incoming := ⟨⟨some subId, s.ctx.fabIdx, nodeId⟩, ⟨⟨none, none⟩, none⟩, 0, 0⟩
    have htracked : Tracked s.ctx.fabIdx (s.ctx.subs.get? nodeId) nodeId last :=
      ⟨rfl, rfl, subId, rfl, hsub⟩
    obtain ⟨own, hown, hpairs⟩ := h [] s last _ rfl (by simp [accepted]) htracked rfl
    have hempty : (merged gen own).intoPairs = [] := by
      rcases List.suffix_cons_iff.mp hown with rfl | hnil
      · rfl
      · rw [List.suffix_nil.mp hnil]
        rfl
    exact hpairs.trans hempty
  · intro hnothing mid s' r changes hrun _ _ hchanges
    have hstart : Holds gen nodeId s.ctx.pendingReports [] := ⟨[], List.nil_suffix, hnothing⟩
    obtain ⟨own, hown, hout⟩ := (hstart.run hrun).absorb r
    refine ⟨own, hown, ?_⟩
    unfold PendingReports.absorbMessage at hchanges
    split at hchanges
    · cases hchanges
    · cases hchanges
      exact hout

theorem keepsNewer_established {task : Nat} {subId : UInt32} {maxInt : UInt16} {now : Nat}
    (hstep : s.step gen (.established task subId maxInt now) = some s') :
    KeepsNewer gen s (.established task subId maxInt now) s' ↔
      Untangled s (.established task subId maxInt now) := by
  cases step_moved hstep with
  | @established task f acc subId maxInt now hf hopen hstage =>
    refine forall_congr' fun f' => forall_congr' fun hf' => ?_
    obtain rfl := Option.some.inj (hf.symm.trans hf')
    exact releasesOwn_iff ⟨subId, OrdMap.get?_insert_self _ _ _⟩

/-- What a supervisor has recorded is there, and heard of. -/
def Intact (s : Executor) : Prop :=
  ∀ nodeId subId, s.current nodeId = some subId →
    s.ctx.subs.get? nodeId = some subId ∧ s.ctx.liveness.get? nodeId ≠ none

/-- The current subscription is that of the open future. -/
theorem Invariant.current_eq_some (h : s.Invariant) {subId : UInt32} :
    s.current nodeId = some subId ↔ ∃ t f, s.futures t = some f ∧ f.closed = false ∧
      f.nodeId = nodeId ∧ f.stage = .watching subId := by
  constructor
  · intro hcurrent
    obtain ⟨t, ht, hcurrent⟩ := Option.bind_eq_some_iff.mp hcurrent
    obtain ⟨f, hf, hsubscription⟩ := Option.bind_eq_some_iff.mp hcurrent
    obtain ⟨f', hf', hnode, hopen⟩ := h.pointed nodeId t ht
    obtain rfl := Option.some.inj (hf.symm.trans hf')
    refine ⟨t, f, hf, hopen, hnode, ?_⟩
    unfold SupervisorFuture.subscription at hsubscription
    split at hsubscription
    next sub hstage =>
      cases hsubscription
      exact hstage
    · cases hsubscription
  · rintro ⟨t, f, hf, hopen, rfl, hstage⟩
    simp [current, h.handled t f hf hopen, hf, SupervisorFuture.subscription, hstage]

/-- A node has one open future. -/
theorem Invariant.node_ne (h : s.Invariant) {t task : Nat} {f f' : SupervisorFuture}
    (hf : s.futures t = some f) (hopen : f.closed = false) (hf' : s.futures task = some f')
    (hopen' : f'.closed = false) (hne : t ≠ task) : f.nodeId ≠ f'.nodeId := by
  intro heq
  have hhandle := h.handled t f hf hopen
  rw [heq, h.handled task f' hf' hopen'] at hhandle
  exact hne (Option.some.inj hhandle).symm

/-- An untangled step keeps what the supervisors have recorded. -/
theorem Intact.step (h : Intact s) (hinv : s.Invariant) (hstep : s.step gen a = some s')
    (ha : Untangled s a) : Intact s' := by
  intro nodeId subId hcurrent
  obtain ⟨t, f', hf', hopen', hnode', hstage'⟩ := (hinv.step hstep).current_eq_some.mp hcurrent
  -- an open watcher that was there before the step
  have hbefore : ∀ f, s.futures t = some f → f.closed = false → f.nodeId = nodeId →
      f.stage = .watching subId →
      s.ctx.subs.get? nodeId = some subId ∧ s.ctx.liveness.get? nodeId ≠ none :=
    fun f hf hopen hnode hstage => h nodeId subId (hinv.current_eq_some.mpr ⟨t, f, hf, hopen, hnode, hstage⟩)
  have hguard : ∀ {n : NodeId} (old : UInt32), nodeId ≠ n →
      (s.ctx.subs.get? nodeId = some subId ∧ s.ctx.liveness.get? nodeId ≠ none) →
      (s.ctx.dropGuard n old).subs.get? nodeId = some subId ∧
        (s.ctx.dropGuard n old).liveness.get? nodeId ≠ none := by
    intro n old hne hintact
    rw [StackCtx.get?_subs_dropGuard, StackCtx.get?_liveness_dropGuard, if_neg hne,
      if_neg fun heq => hne heq.1]
    exact hintact
  have hpolled : ∀ {task : Nat} {f : SupervisorFuture} {stage : SupervisorStage},
      Function.update s.futures task (some { f with stage := stage }) t = some f' →
      stage ≠ .watching subId → t ≠ task ∧ s.futures t = some f' := by
    intro task f stage hf' hstage
    rw [Function.update_apply] at hf'
    split at hf'
    · cases hf'
      exact absurd hstage' hstage
    next hne => exact ⟨hne, hf'⟩
  cases step_moved hstep with
  | startSupervisor n =>
    change Function.update (s.closeHandle n) s.spawned _ t = some f' at hf'
    rw [Function.update_apply] at hf'
    split at hf'
    · cases hf'
      cases hstage'
    · obtain ⟨closed, hold, hkept⟩ := of_closeHandle_eq_some hf'
      exact hbefore _ hold (hkept hopen').1 hnode' hstage'
  | stopSupervisor n =>
    obtain ⟨closed, hold, hkept⟩ := of_closeHandle_eq_some hf'
    exact hbefore _ hold (hkept hopen').1 hnode' hstage'
  | begin hf hopen hstage =>
    exact hbefore f' (hpolled hf' (by simp)).2 hopen' hnode' hstage'
  | chunk resp hf hopen hstage =>
    have hintact := hbefore f' (hpolled hf' (by simp)).2 hopen' hnode' hstage'
    simpa using hintact
  | @established task f acc sub maxInt now hf hopen hstage =>
    change Function.update s.futures task (some { f with stage := .watching sub }) t = some f' at hf'
    change (s.ctx.subs.insert f.nodeId sub).get? nodeId = some subId ∧
      (s.ctx.liveness.insert f.nodeId now).get? nodeId ≠ none
    rw [Function.update_apply] at hf'
    split at hf'
    · cases hf'
      cases hstage'
      obtain rfl : f.nodeId = nodeId := hnode'
      simp
    next hne =>
      have hother := hinv.node_ne hf' hopen' hf hopen hne
      rw [hnode'] at hother
      rw [OrdMap.get?_insert_of_ne _ hother, OrdMap.get?_insert_of_ne _ hother]
      exact hbefore f' hf' hopen' hnode' hstage'
  | failed hf hopen hstage => exact hbefore f' (hpolled hf' (by simp)).2 hopen' hnode' hstage'
  | silent hf hopen hstage =>
    obtain ⟨hne, hold⟩ := hpolled hf' (by simp)
    have hother := hinv.node_ne hold hopen' hf hopen hne
    rw [hnode'] at hother
    exact hguard _ hother (hbefore f' hold hopen' hnode' hstage')
  | @dropFuture task f hf hclosed =>
    change Function.update s.futures task none t = some f' at hf'
    rw [Function.update_apply] at hf'
    split at hf'
    · cases hf'
    · have hintact := hbefore f' hf' hopen' hnode' hstage'
      simp only [releaseGuard]
      split
      next old hstage =>
        refine hguard old (fun heq => ?_) hintact
        have hnow : s.current f.nodeId = some subId :=
          heq ▸ hinv.current_eq_some.mpr ⟨t, f', hf', hopen', hnode', hstage'⟩
        have hgone := (ha f old subId hf (by simp [SupervisorFuture.subscription, hstage]) hnow).2
        exact hintact.2 (heq ▸ hgone)
      · exact hintact
  | report r =>
    have hintact := hbefore f' hf' hopen' hnode' hstage'
    by_cases htracked : Tracked s.ctx.fabIdx (s.ctx.subs.get? r.sub.peerNodeId) r.sub.peerNodeId r
    · rw [ctx_send, handleReport_tracked gen htracked]
      refine ⟨hintact.1, ?_⟩
      dsimp only
      rw [OrdMap.get?_insert]
      split
      · simp
      · exact hintact.2
    · rw [ctx_send, handleReport_untracked gen htracked]
      exact hintact
  | commission n => exact hbefore f' hf' hopen' hnode' hstage'
  | commissioned address hmem => exact hbefore f' hf' hopen' hnode' hstage'
  | commissionFailed hmem => exact hbefore f' hf' hopen' hnode' hstage'

/-- For every run of the stack thread: no step of it damages the newer subscription of a node
exactly when every step is untangled, and then what the supervisors have recorded is there. -/
theorem replacement_keeps_newer {steps : List ExecutorStep} (hfresh : s.Fresh)
    (hrun : Transition.run (step gen) s steps = some s') :
    (Transition.Along (step gen) (KeepsNewer gen) s steps ↔
      Transition.Along (step gen) (fun s a _ => Untangled s a) s steps) ∧
    (Transition.Along (step gen) (fun s a _ => Untangled s a) s steps → Intact s') := by
  constructor
  · apply Transition.Along.congr
    intro s a s' hstep
    cases a with
    | dropFuture task => exact keepsNewer_dropFuture hstep
    | established task subId maxInt now => exact keepsNewer_established hstep
    | _ => exact Iff.rfl
  · intro halong
    have hstart : s.Invariant ∧ Intact s := by
      refine ⟨Invariant.fresh hfresh, fun nodeId subId hcurrent => ?_⟩
      simp [current, hfresh.handles] at hcurrent
    have hstep : ∀ (s : Executor) a s', s.Invariant ∧ Intact s → s.step gen a = some s' →
        Untangled s a → s'.Invariant ∧ Intact s' :=
      fun _ _ _ hinv hstep ha => ⟨hinv.1.step hstep, hinv.2.step hinv.1 hstep ha⟩
    exact (Transition.run_invariant hstep hstart halong hrun).2

section Displaced

/-- Node 5 gets a second supervisor while the first one is subscribed under id 7. -/
def replaceNode : List ExecutorStep :=
  [.startSupervisor 5, .begin 0, .established 0 7 60 0, .startSupervisor 5, .begin 1]

/-- The old guard is dropped, and then the new subscription recorded. -/
def replaceInOrder : List ExecutorStep := replaceNode ++ [.dropFuture 0, .established 1 8 60 1]

theorem untangled_replaceInOrder : Transition.Along (step noEventTables) (fun s a _ => Untangled s a)
    silentExecutor replaceInOrder := by
  intro _ hstart
  cases hstart
  refine ⟨trivial, fun _ hbegin => ?_⟩
  cases hbegin
  refine ⟨trivial, fun _ hestablished => ?_⟩
  cases hestablished
  refine ⟨fun f hf => ?_, fun _ hstart => ?_⟩
  · cases hf
    rfl
  cases hstart
  refine ⟨trivial, fun _ hbegin => ?_⟩
  cases hbegin
  refine ⟨trivial, fun _ hdrop => ?_⟩
  cases hdrop
  refine ⟨fun f old new hf _ hcurrent => ?_, fun _ hestablished => ?_⟩
  · cases hf
    cases hcurrent
  cases hestablished
  refine ⟨fun f hf => ?_, trivial⟩
  cases hf
  rfl

theorem replacement_keeps_newer_inOrder : ∃ s,
    Transition.run (step noEventTables) silentExecutor replaceInOrder = some s ∧
    Transition.Along (step noEventTables) (KeepsNewer noEventTables) silentExecutor replaceInOrder ∧
    s.current 5 = some 8 ∧ Intact s := by
  obtain ⟨s, hrun, hcurrent⟩ : ∃ s, Transition.run (step noEventTables) silentExecutor
      replaceInOrder = some s ∧ s.current 5 = some 8 := ⟨_, rfl, rfl⟩
  obtain ⟨hkeeps, hintact⟩ := replacement_keeps_newer silentExecutor_fresh hrun
  exact ⟨s, hrun, hkeeps.mpr untangled_replaceInOrder, hcurrent, hintact untangled_replaceInOrder⟩

/-- The first half of a report of the old subscription: an attribute is on. -/
def halfReport : Incoming where
  sub := ⟨some 7, 1, 5⟩
  report := ⟨⟨some [some (.data ⟨⟨some 1, some 6, some 0, none⟩, .bool true⟩)], some true⟩, none⟩
  now := 10
  wall := 0

/-- Dropped late, the old guard takes the liveness entry of the new subscription with it; and
what the old subscription has half reported goes into the first changes of the new one. -/
theorem newer_damaged :
    (∃ s s', Transition.run (step noEventTables) silentExecutor
        (replaceNode ++ [.established 1 8 60 1]) = some s ∧
      step noEventTables s (.dropFuture 0) = some s' ∧
      ¬ KeepsNewer noEventTables s (.dropFuture 0) s') ∧
    ∃ s s', Transition.run (step noEventTables) silentExecutor
        (replaceNode ++ [.report halfReport, .dropFuture 0]) = some s ∧
      step noEventTables s (.established 1 8 60 1) = some s' ∧
      ¬ KeepsNewer noEventTables s (.established 1 8 60 1) s' := by
  constructor
  · refine ⟨_, _, rfl, rfl, fun h => ?_⟩
    cases (h _ 7 8 rfl rfl rfl).2
  · refine ⟨_, _, rfl, rfl, fun h => ?_⟩
    cases (keepsNewer_established rfl).mp h _ rfl

end Displaced

end Executor

end MatterRsServer.Stack
