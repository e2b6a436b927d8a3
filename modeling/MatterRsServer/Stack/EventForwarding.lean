import MatterRsServer.Lib.HighWater
import MatterRsServer.Stack.ReportIsolation
import MatterRsServer.Stack.Supervisor

/-!
# Forwarded events

The high-water mark of a node is written by priming and by reports, and cleared by every
establishment and by node removal. The history of a node lists these in order; a report
is handled for the node only between an establishment and the loss of its subscription, so
each establishment opens one window of the node's high-water filter.
-/
namespace MatterRsServer.Stack
open Lib Wire Gen Controller HighWater

theorem noteEvent_eq_fresh (last : OrdMap NodeId UInt64) (nodeId : NodeId) (k : UInt64) :
    (noteEvent last nodeId k).1 = fresh (last.get? nodeId) k := by
  unfold noteEvent fresh
  cases last.get? nodeId with
  | none => rfl
  | some seen =>
    by_cases h : k ≤ seen
    · simp [h, not_lt.mpr h]
    · simp [h, not_le.mp h]

theorem get?_noteEvent_self (last : OrdMap NodeId UInt64) (nodeId : NodeId) (k : UInt64) :
    (noteEvent last nodeId k).2.get? nodeId = raise (last.get? nodeId) k := by
  unfold noteEvent raise fresh
  cases hseen : last.get? nodeId with
  | none => simp
  | some seen =>
    by_cases h : k ≤ seen
    · simp [h, not_lt.mpr h, hseen]
    · simp [h, not_le.mp h]

/-- What the events of a tracked report are to the filter of the node. -/
def judgedEvents (nodeId : NodeId) : List EventData → OrdMap NodeId UInt64 → List (Mark UInt64)
  | [], _ => []
  | d :: rest, last =>
    .judged d.eventNumber (noteEvent last nodeId d.eventNumber).1 ::
      judgedEvents nodeId rest (noteEvent last nodeId d.eventNumber).2

/-- What a step of the stack thread is to the filter of a node. -/
def marksOf (nodeId : NodeId) (s : StackThread) : StackStep → List (Mark UInt64)
  | .begin n => if n = nodeId then [.reset] else []
  | .chunk n resp =>
    if n = nodeId then (walkEvents resp).map fun d => .seen d.eventNumber else []
  | .established n _ _ _ => if n = nodeId then [.opened] else []
  | .report r =>
    if Tracked s.ctx.fabIdx (s.ctx.subs.get? nodeId) nodeId r then
      judgedEvents nodeId (walkEvents r.report) s.ctx.lastEvent
    else []
  | .stop n => if n = nodeId then [.forget] else []
  | _ => []

/-- Resets, priming events, establishments and events of accepted reports of a node, along the
steps that the stack thread takes. -/
def history (gen : EventTables) (nodeId : NodeId) (s : StackThread) :
    List StackStep → List (Mark UInt64)
  | [] => []
  | a :: rest =>
    marksOf nodeId s a ++
      match s.step gen a with
      | some s' => history gen nodeId s' rest
      | none => []

/-- The numbers of the events forwarded on behalf of a node, in order. -/
def forwardedNumbers (nodeId : NodeId) (sent : List StackEvent) : List UInt64 :=
  sent.filterMap fun
    | .nodeEvent n ev => if n = nodeId then some ev.eventNumber else none
    | _ => none

theorem forwardedNumbers_append (nodeId : NodeId) (a b : List StackEvent) :
    forwardedNumbers nodeId (a ++ b) = forwardedNumbers nodeId a ++ forwardedNumbers nodeId b := by
  simp [forwardedNumbers]

/-- Messages about other nodes forward no event of this one. -/
theorem forwardedNumbers_of_others {nodeId : NodeId} {sent : List StackEvent}
    (h : ∀ ev ∈ sent, eventNode ev ≠ nodeId) : forwardedNumbers nodeId sent = [] := by
  unfold forwardedNumbers
  rw [List.filterMap_eq_nil_iff]
  intro ev hev
  have hne := h ev hev
  cases ev with
  | nodeEvent n e => exact if_neg hne
  | nodeState n state => rfl
  | primingSnapshot n attributes => rfl
  | attributesChanged n changes => rfl

theorem forwardedNumbers_changesMessage (nodeId n : NodeId)
    (changes : Option (List (String × Json))) :
    forwardedNumbers nodeId (changesMessage n changes) = [] := by
  unfold changesMessage
  split <;> rfl

/-- The events forwarded are those that the filter lets through. -/
theorem forwardedNumbers_forwardEvents (gen : EventTables) (nodeId : NodeId) (wall : Int)
    (events : List EventData) (last : OrdMap NodeId UInt64) :
    forwardedNumbers nodeId (forwardEvents gen nodeId wall events last).1 =
      passed (judgedEvents nodeId events last) := by
  induction events generalizing last with
  | nil => rfl
  | cons d rest ih =>
    simp only [forwardEvents, forwardedNumbers_append, ih, judgedEvents]
    cases (noteEvent last nodeId d.eventNumber).1 with
    | false => rfl
    | true =>
      simp only [if_true]
      have hnumber : forwardedNumbers nodeId [.nodeEvent nodeId (nodeEvent gen wall d)] =
          [d.eventNumber] := by simp [forwardedNumbers, nodeEvent]
      rw [hnumber]
      rfl

/-- The events of a tracked report are judged by the node's mark, which ends at their level. -/
theorem judged_judgedEvents (gen : EventTables) (nodeId : NodeId) (wall : Int)
    (events : List EventData) (last : OrdMap NodeId UInt64) :
    Judged (last.get? nodeId) true (judgedEvents nodeId events last) ∧
      (forwardEvents gen nodeId wall events last).2.get? nodeId =
        (judgedEvents nodeId events last).foldl levelAfter (last.get? nodeId) ∧
      (judgedEvents nodeId events last).foldl openAfter true = true := by
  induction events generalizing last with
  | nil => exact ⟨trivial, rfl, rfl⟩
  | cons d rest ih =>
    obtain ⟨hjudged, hlevel, hopen⟩ := ih (noteEvent last nodeId d.eventNumber).2
    rw [get?_noteEvent_self] at hjudged hlevel
    refine ⟨⟨?_, hjudged⟩, hlevel, hopen⟩
    intro k f heq
    cases heq
    exact ⟨rfl, noteEvent_eq_fresh last nodeId d.eventNumber⟩

/-- Priming raises the mark by every number it sees. -/
theorem lastEvent_notePriming (nodeId : NodeId) (events : List EventData) (ctx : StackCtx) :
    (ctx.notePriming nodeId events).lastEvent.get? nodeId =
      (events.map fun d => Mark.seen d.eventNumber).foldl levelAfter
        (ctx.lastEvent.get? nodeId) := by
  induction events generalizing ctx with
  | nil => rfl
  | cons d rest ih =>
    have hrest := ih (ctx.noteEvent nodeId d.eventNumber)
    rw [StackCtx.get?_noteEvent_lastEvent, get?_noteEvent_self] at hrest
    exact hrest

theorem lastEvent_notePriming_of_ne {nodeId j : NodeId} (h : j ≠ nodeId) (events : List EventData)
    (ctx : StackCtx) :
    (ctx.notePriming nodeId events).lastEvent.get? j = ctx.lastEvent.get? j := by
  induction events generalizing ctx with
  | nil => rfl
  | cons d rest ih =>
    exact (ih (ctx.noteEvent nodeId d.eventNumber)).trans
      (get?_noteEvent_of_ne h ctx.lastEvent d.eventNumber)

/-- What has happened to a node, and where its entries and its supervisor are after that. -/
structure Traced (nodeId : NodeId) (past : List (Mark UInt64)) (s : StackThread) : Prop where
  judged : Judged none false past
  mark : s.ctx.lastEvent.get? nodeId = level past
  recorded : s.ctx.subs.get? nodeId = (s.phase nodeId).subscription
  window : (s.phase nodeId).subscription ≠ none → isOpen past = true
  sent : forwardedNumbers nodeId s.sent = passed past

namespace Traced

variable {nodeId : NodeId} {past : List (Mark UInt64)} {s s' : StackThread}

/-- A step that is none of the node's. -/
theorem keep (h : Traced nodeId past s)
    (hmark : s'.ctx.lastEvent.get? nodeId = s.ctx.lastEvent.get? nodeId)
    (hrecorded : s'.ctx.subs.get? nodeId = s.ctx.subs.get? nodeId)
    (hphase : s'.phase nodeId = s.phase nodeId)
    (hsent : forwardedNumbers nodeId s'.sent = forwardedNumbers nodeId s.sent) :
    Traced nodeId past s' where
  judged := h.judged
  mark := hmark.trans h.mark
  recorded := by rw [hrecorded, hphase, h.recorded]
  window := by rw [hphase]; exact h.window
  sent := hsent.trans h.sent

/-- A step of the node that judges no event. -/
theorem extend (h : Traced nodeId past s) (marks : List (Mark UInt64))
    (hjudges : ∀ m ∈ marks, ∀ k f, m ≠ .judged k f)
    (hmark : s'.ctx.lastEvent.get? nodeId =
      marks.foldl levelAfter (s.ctx.lastEvent.get? nodeId))
    (hrecorded : s'.ctx.subs.get? nodeId = (s'.phase nodeId).subscription)
    (hwindow : (s'.phase nodeId).subscription ≠ none →
      marks.foldl openAfter (isOpen past) = true)
    (hsent : forwardedNumbers nodeId s'.sent = forwardedNumbers nodeId s.sent) :
    Traced nodeId (past ++ marks) s' where
  judged := by
    have hmarks : ∀ (marks : List (Mark UInt64)) (w : Option UInt64) (o : Bool),
        (∀ m ∈ marks, ∀ k f, m ≠ .judged k f) → Judged w o marks := by
      intro marks
      induction marks with
      | nil => intro w o _; trivial
      | cons m rest ih =>
        intro w o hm
        constructor
        · intro k f heq
          exact absurd heq (hm m List.mem_cons_self k f)
        · exact ih _ _ fun m' hmem => hm m' (List.mem_cons_of_mem _ hmem)
    exact Judged.append.mpr ⟨h.judged, hmarks marks _ _ hjudges⟩
  mark := by rw [hmark, h.mark, level, level, List.foldl_append]
  recorded := hrecorded
  window := by
    intro hsub
    rw [isOpen, List.foldl_append]
    exact hwindow hsub
  sent := by
    have hnone : passed marks = [] := by
      unfold passed
      rw [List.filterMap_eq_nil_iff]
      intro m hm
      cases m with
      | judged k f => exact absurd rfl (hjudges _ hm k f)
      | reset => rfl
      | forget => rfl
      | opened => rfl
      | seen k => rfl
    rw [hsent, h.sent, passed_append, hnone, List.append_nil]

/-- A report, handled or not. -/
theorem report (gen : EventTables) (h : Traced nodeId past s) (r : Incoming) :
    Traced nodeId (past ++ marksOf nodeId s (.report r))
      ({ s with ctx := (handleReport gen s.ctx r).ctx }.send (handleReport gen s.ctx r).sent) := by
  by_cases htracked : Tracked s.ctx.fabIdx (s.ctx.subs.get? nodeId) nodeId r
  · have hopen : isOpen past = true := by
      obtain ⟨_, _, subId, _, hrecorded⟩ := htracked
      apply h.window
      rw [← h.recorded, hrecorded]
      exact Option.some_ne_none subId
    obtain ⟨hjudged, hlevel, hstays⟩ :=
      judged_judgedEvents gen nodeId r.wall (walkEvents r.report) s.ctx.lastEvent
    rw [h.mark] at hjudged hlevel
    simp only [marksOf, htracked, if_true]
    rw [handleReport_tracked gen htracked]
    constructor
    · apply Judged.append.mpr
      exact ⟨h.judged, by rw [← isOpen, hopen]; exact hjudged⟩
    · exact hlevel.trans (by rw [level, level, List.foldl_append])
    · exact h.recorded
    · intro _
      rw [isOpen, List.foldl_append, ← isOpen, hopen]
      exact hstays
    · simp only [StackThread.send, forwardedNumbers_append, forwardedNumbers_changesMessage,
        forwardedNumbers_forwardEvents, List.nil_append, passed_append, h.sent]
  · obtain ⟨hentries, hsilent⟩ := sink_silent gen nodeId s.ctx r htracked
    simp only [nodeEntries, NodeEntries.mk.injEq, sink] at hentries
    obtain ⟨_, hsubs, _, _, hlast⟩ := hentries
    have hothers : forwardedNumbers nodeId (handleReport gen s.ctx r).sent = [] := by
      apply forwardedNumbers_of_others
      intro ev hev heq
      have hmem : ev ∈ (sink gen s.ctx r).2.filter (fun ev => eventNode ev = nodeId) :=
        List.mem_filter.mpr ⟨hev, by simpa using heq⟩
      rw [hsilent] at hmem
      cases hmem
    simp only [marksOf, htracked, if_false, List.append_nil]
    exact h.keep hlast hsubs rfl (by
      simp only [StackThread.send, forwardedNumbers_append, hothers, List.append_nil])

/-- A step of another node. -/
theorem step_other (gen : EventTables) (h : Traced nodeId past s) {a : StackStep} {n : NodeId}
    (hnode : a.node = some n) (hn : n ≠ nodeId) (hstep : s.step gen a = some s') :
    Traced nodeId (past ++ marksOf nodeId s a) s' := by
  have hne : nodeId ≠ n := Ne.symm hn
  have hphase : ∀ phase, Function.update s.phase n phase nodeId = s.phase nodeId :=
    fun phase => Function.update_of_ne hne _ _
  have hsent : ∀ evs, (∀ ev ∈ evs, eventNode ev = n) →
      forwardedNumbers nodeId (s.sent ++ evs) = forwardedNumbers nodeId s.sent := by
    intro evs hevs
    have hothers : forwardedNumbers nodeId evs = [] :=
      forwardedNumbers_of_others fun ev hev heq => hn ((hevs ev hev).symm.trans heq)
    rw [forwardedNumbers_append, hothers, List.append_nil]
  have herase : ∀ last : OrdMap NodeId UInt64, (last.erase n).get? nodeId = last.get? nodeId :=
    fun last => (OrdMap.get?_erase _ _ _).trans (if_neg hne)
  cases a with
  | report r => cases hnode
  | start m =>
    cases hnode
    simp only [marksOf, List.append_nil]
    simp only [StackThread.step] at hstep
    split at hstep
    · cases hstep
      exact h.keep rfl rfl (hphase _) rfl
    · cases hstep
  | begin m =>
    cases hnode
    simp only [marksOf, hn, if_false, List.append_nil]
    simp only [StackThread.step] at hstep
    split at hstep
    · cases hstep
      exact h.keep (herase _) rfl (hphase _) rfl
    · cases hstep
  | chunk m resp =>
    cases hnode
    simp only [marksOf, hn, if_false, List.append_nil]
    simp only [StackThread.step] at hstep
    split at hstep
    · cases hstep
      exact h.keep (lastEvent_notePriming_of_ne hne (walkEvents resp) s.ctx)
        (congrArg (·.get? nodeId) (StackCtx.subs_notePriming s.ctx n (walkEvents resp)))
        (hphase _) rfl
    · cases hstep
  | established m subId maxInt now =>
    cases hnode
    simp only [marksOf, hn, if_false, List.append_nil]
    simp only [StackThread.step] at hstep
    split at hstep
    next acc _ =>
      cases hstep
      exact h.keep rfl (OrdMap.get?_insert_of_ne _ hne _) (hphase _)
        (hsent (establishedMessages n maxInt acc) (by simp [establishedMessages, eventNode]))
    · cases hstep
  | failed m =>
    cases hnode
    simp only [marksOf, List.append_nil]
    simp only [StackThread.step] at hstep
    split at hstep
    · cases hstep
      exact h.keep rfl rfl (hphase _) (hsent [.nodeState n .reconnecting] (by simp [eventNode]))
    · cases hstep
  | silent m =>
    cases hnode
    simp only [marksOf, List.append_nil]
    simp only [StackThread.step] at hstep
    split at hstep
    next subId _ =>
      cases hstep
      exact h.keep (congrArg (·.get? nodeId) (StackCtx.lastEvent_dropGuard s.ctx n subId))
        (StackCtx.subs_dropGuard_of_ne s.ctx hne subId) (hphase _)
        (hsent [.nodeState n .reconnecting] (by simp [eventNode]))
    · cases hstep
  | stop m =>
    cases hnode
    simp only [marksOf, hn, if_false, List.append_nil]
    cases hstep
    exact h.keep (herase _) rfl (hphase _) rfl
  | release m =>
    cases hnode
    simp only [marksOf, List.append_nil]
    simp only [StackThread.step] at hstep
    split at hstep
    next subId _ =>
      cases hstep
      exact h.keep (congrArg (·.get? nodeId) (StackCtx.lastEvent_dropGuard s.ctx n subId))
        (StackCtx.subs_dropGuard_of_ne s.ctx hne subId) (hphase _) rfl
    · cases hstep

/-- A step of the node's own supervisor. -/
theorem step_own (gen : EventTables) (h : Traced nodeId past s) {a : StackStep}
    (hnode : a.node = some nodeId) (hstep : s.step gen a = some s') :
    Traced nodeId (past ++ marksOf nodeId s a) s' := by
  have hsubs : ∀ {phase : SupervisorPhase}, s.phase nodeId = phase →
      s.ctx.subs.get? nodeId = phase.subscription := fun hphase => by rw [h.recorded, hphase]
  have hquiet : ∀ {m : Mark UInt64}, (∀ k f, m ≠ .judged k f) →
      ∀ m' ∈ [m], ∀ k f, m' ≠ .judged k f := by
    intro m hm m' hmem
    rw [List.mem_singleton.mp hmem]
    exact hm
  cases a with
  | report r => cases hnode
  | start m =>
    cases hnode
    simp only [StackThread.step] at hstep
    split at hstep
    next hphase =>
      cases hstep
      refine h.extend [] (fun m hm => by cases hm) rfl ?_ ?_ rfl
      · simpa [StackThread.setPhase] using hsubs hphase
      · simp [StackThread.setPhase]
    · cases hstep
  | begin m =>
    cases hnode
    simp only [StackThread.step] at hstep
    split at hstep
    next hphase =>
      cases hstep
      have hmarks : marksOf nodeId s (.begin nodeId) = [.reset] := if_pos rfl
      rw [hmarks]
      refine h.extend _ (hquiet (by simp)) (OrdMap.get?_erase_self _ _) ?_ ?_ rfl
      · simpa [StackThread.setPhase] using hsubs hphase
      · simp [StackThread.setPhase]
    · cases hstep
  | chunk m resp =>
    cases hnode
    simp only [StackThread.step] at hstep
    split at hstep
    next acc hphase =>
      cases hstep
      have hmarks : marksOf nodeId s (.chunk nodeId resp) =
          (walkEvents resp).map fun d => .seen d.eventNumber := if_pos rfl
      rw [hmarks]
      refine h.extend _ (by simp) (lastEvent_notePriming nodeId (walkEvents resp) s.ctx) ?_ ?_ rfl
      · simpa [StackThread.setPhase] using hsubs hphase
      · simp [StackThread.setPhase]
    · cases hstep
  | established m subId maxInt now =>
    cases hnode
    simp only [StackThread.step] at hstep
    split at hstep
    next acc _ =>
      cases hstep
      have hmarks : marksOf nodeId s (.established nodeId subId maxInt now) = [.opened] := if_pos rfl
      rw [hmarks]
      refine h.extend _ (hquiet (by simp)) rfl ?_ ?_ ?_
      · simp [StackThread.setPhase, StackThread.send, StackCtx.finishEstablish]
      · intro _
        rfl
      · rw [StackThread.send, forwardedNumbers_append]
        exact List.append_nil _
    · cases hstep
  | failed m =>
    cases hnode
    simp only [StackThread.step] at hstep
    split at hstep
    next acc hphase =>
      cases hstep
      refine h.extend [] (fun m hm => by cases hm) rfl ?_ ?_ ?_
      · simpa [StackThread.setPhase, StackThread.send] using hsubs hphase
      · simp [StackThread.setPhase, StackThread.send]
      · rw [StackThread.send, forwardedNumbers_append]
        exact List.append_nil _
    · cases hstep
  | silent m =>
    cases hnode
    simp only [StackThread.step] at hstep
    split at hstep
    next subId hphase =>
      cases hstep
      refine h.extend [] (fun m hm => by cases hm)
        (congrArg (·.get? nodeId) (StackCtx.lastEvent_dropGuard s.ctx nodeId subId)) ?_ ?_ ?_
      · simpa [StackThread.setPhase, StackThread.send] using
          StackCtx.subs_dropGuard_self (hsubs hphase)
      · simp [StackThread.setPhase, StackThread.send]
      · rw [StackThread.send, forwardedNumbers_append]
        exact List.append_nil _
    · cases hstep
  | stop m =>
    cases hnode
    cases hstep
    have hmarks : marksOf nodeId s (.stop nodeId) = [.forget] := if_pos rfl
    rw [hmarks]
    refine h.extend _ (hquiet (by simp)) (OrdMap.get?_erase_self _ _) ?_ ?_ rfl
    · simp only [StackThread.setPhase, Function.update_self, SupervisorPhase.subscription_cancel]
      exact h.recorded
    · simp only [StackThread.setPhase, Function.update_self, SupervisorPhase.subscription_cancel]
      exact h.window
  | release m =>
    cases hnode
    simp only [StackThread.step] at hstep
    split at hstep
    next subId hphase =>
      cases hstep
      refine h.extend [] (fun m hm => by cases hm)
        (congrArg (·.get? nodeId) (StackCtx.lastEvent_dropGuard s.ctx nodeId subId)) ?_ ?_ rfl
      · simpa [StackThread.setPhase] using
          StackCtx.subs_dropGuard_self (hsubs hphase)
      · simp [StackThread.setPhase]
    · cases hstep

/-- What one step of the stack thread adds to the history of a node. -/
theorem step (gen : EventTables) (h : Traced nodeId past s) {a : StackStep}
    (hstep : s.step gen a = some s') : Traced nodeId (past ++ marksOf nodeId s a) s' := by
  cases hnode : a.node with
  | none =>
    cases a <;> simp only [StackStep.node, reduceCtorEq] at hnode
    cases hstep
    exact h.report gen _
  | some n =>
    by_cases hn : n = nodeId
    · subst hn
      exact h.step_own gen hnode hstep
    · exact h.step_other gen hnode hn hstep

/-- The history of a whole run. -/
theorem run (gen : EventTables) {steps : List StackStep} (h : Traced nodeId past s)
    (hrun : Transition.run (StackThread.step gen) s steps = some s') :
    Traced nodeId (past ++ history gen nodeId s steps) s' := by
  induction steps generalizing s past with
  | nil =>
    cases hrun
    simpa [history] using h
  | cons a rest ih =>
    obtain ⟨m, hm, hrest⟩ := Transition.run_cons hrun
    have hrest' := ih (h.step gen hm) hrest
    rw [List.append_assoc] at hrest'
    simpa only [history, hm] using hrest'

theorem fresh {s : StackThread} (h : s.Fresh) (nodeId : NodeId) : Traced nodeId [] s where
  judged := trivial
  mark := h.lastEvent nodeId
  recorded := by rw [h.subs, h.phase]; rfl
  window := by
    intro hsub
    rw [h.phase] at hsub
    exact absurd rfl hsub
  sent := by rw [h.sent]; rfl

end Traced

/-- Over every run of the stack thread, for every node: the events forwarded are those that
passed in its history; between two establishments they are strictly increasing and above
everything noted since the reset that the first one began with, priming included; and an
event of an accepted report passes exactly when its number is above everything noted since
the last reset. -/
theorem events_forwarded_once (gen : EventTables) {s s' : StackThread} (steps : List StackStep)
    (hfresh : s.Fresh) (hrun : Transition.run (StackThread.step gen) s steps = some s')
    (nodeId : NodeId) :
    forwardedNumbers nodeId s'.sent = passed (history gen nodeId s steps) ∧
      (∀ pre mid post, history gen nodeId s steps = pre ++ .opened :: (mid ++ post) →
        .opened ∉ mid → .forget ∉ mid →
        (passed mid).Pairwise (· < ·) ∧ (passed mid).Nodup ∧
          ∀ k ∈ passed mid, ∀ j ∈ noted (sinceClear pre), j < k) ∧
      ∀ pre k f post, history gen nodeId s steps = pre ++ .judged k f :: post →
        (f = true ↔ ∀ j ∈ noted (sinceClear pre), j < k) := by
  have htraced := (Traced.fresh hfresh nodeId).run gen hrun
  rw [List.nil_append] at htraced
  refine ⟨htraced.sent, ?_, ?_⟩
  · intro pre mid post hsplit hopened hforget
    have hjudged := htraced.judged
    rw [hsplit] at hjudged
    obtain ⟨_, _, hwindow⟩ := Judged.append.mp hjudged
    obtain ⟨hincreasing, habove⟩ := (Judged.append.mp hwindow).1.increasing hopened hforget
    refine ⟨hincreasing, hincreasing.imp ne_of_lt, ?_⟩
    intro k hk
    exact fresh_level.mp (habove k hk)
  · intro pre k f post hsplit
    have hjudged := htraced.judged
    rw [hsplit] at hjudged
    exact hjudged.passed_iff

section Replayed

def silentThread : StackThread where
  ctx := ⟨1, ∅, ∅, ∅, ∅, ∅, ∅⟩
  phase := fun _ => .absent
  sent := []

/-- Node 5 primes with event 3, then reports 3 again and 4 twice. -/
def replayedSteps : List StackStep :=
  [.start 5, .begin 5, .chunk 5 (eventReport 5 none 3).report, .established 5 7 60 0,
    .report (eventReport 5 (some 7) 3), .report (eventReport 5 (some 7) 4),
    .report (eventReport 5 (some 7) 4)]

/-- Only the first report of event 4 is news. -/
theorem events_forwarded_once_replayed :
    ∃ s', Transition.run (StackThread.step noEventTables) silentThread replayedSteps = some s' ∧
      forwardedNumbers 5 s'.sent = [4] :=
  have hfresh : silentThread.Fresh := ⟨fun _ => rfl, fun _ => rfl, fun _ => rfl, rfl⟩
  ⟨_, rfl, (events_forwarded_once noEventTables replayedSteps hfresh rfl 5).1⟩

end Replayed

end MatterRsServer.Stack
