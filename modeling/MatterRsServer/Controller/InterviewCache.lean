import MatterRsServer.Controller.Commands
import MatterRsServer.Lib.Updates

/-!
# The cached attributes across an interview

`interview_node` replaces the whole attribute map while the node manager applies
subscription reports, with no version that would tell which of the two read the
device later. The cache is the fold of the updates in the order in which they land;
what it shows of an attribute is the reading of the last update that carries it.
-/
namespace MatterRsServer.Controller
open Lib Wire

/-- The served cache of a node; empty for an unknown node. -/
def cachedAttributes (id : NodeId) (s : Memory) : Attributes :=
  ((s.registry.get? id).map fun e => e.record.attributes).getD ∅

/-- The values of a device's attributes over time, as the controller would convert them. -/
abbrev Device := String → Nat → Option Json

/-- One change of a node's cache, with the moment at which the device was read. -/
inductive CacheUpdate where
  | replace (attributes : Attributes) (readAt : String → Nat)
  | set (path : String) (value : Json) (readAt : Nat)

namespace CacheUpdate

def act : CacheUpdate → Attributes → Attributes
  | replace attributes _, _ => attributes
  | set path value _, m => m.insert path value

/-- When the update read `p`; `none` when it does not carry `p`. -/
def readAt : CacheUpdate → String → Option Nat
  | replace _ t, p => some (t p)
  | set path _ t, p => if p = path then some t else none

/-- The value it leaves under a path it carries. -/
def value : CacheUpdate → String → Option Json
  | replace attributes _, p => attributes.get? p
  | set _ v _, _ => some v

/-- It carries what the device had at that moment. -/
def Truthful (device : Device) (u : CacheUpdate) : Prop :=
  ∀ p t, u.readAt p = some t → u.value p = device p t

theorem get?_act (u : CacheUpdate) (m : Attributes) (p : String) :
    (u.act m).get? p = if (u.readAt p).isSome then u.value p else m.get? p := by
  cases u with
  | replace attributes t => rfl
  | set path v t =>
    by_cases hp : p = path
    · subst hp; simp [act, readAt, value]
    · simp [act, readAt, hp, OrdMap.get?_insert_of_ne]

end CacheUpdate

/-- A report with the moments at which it read the device. -/
structure Report where
  input : Input
  readAt : String → Nat

/-- What a report changes in the cache of node `id`. -/
def Report.updates (id : NodeId) (r : Report) : List CacheUpdate :=
  match r.input with
  | .event (.primingSnapshot nodeId attributes) _ =>
    if nodeId = id then [.replace attributes r.readAt] else []
  | .event (.attributesChanged nodeId changes) _ =>
    if nodeId = id then changes.map fun c => .set c.1 c.2 (r.readAt c.1) else []
  | _ => []

/-- The updates of all reports, in the order of delivery. -/
def reportUpdates (id : NodeId) (reports : List Report) : List CacheUpdate :=
  reports.flatMap (Report.updates id)

/-- Later updates read every attribute they carry no earlier. -/
def ReadInOrder (us : List CacheUpdate) : Prop :=
  us.Pairwise fun u v => ∀ p a b, u.readAt p = some a → v.readAt p = some b → a ≤ b

/-- `v` is the value of `p` observed latest by the updates `us`. -/
def ObservedLatest (device : Device) (us : List CacheUpdate) (p : String) (v : Option Json) : Prop :=
  ∃ t, (∃ u ∈ us, u.readAt p = some t) ∧ v = device p t ∧
    ∀ u ∈ us, ∀ t', u.readAt p = some t' → t' ≤ t

/-- Updates of the cache of node `id`, while it is registered. -/
def cacheUpdates (id : NodeId) : Updates Attributes CacheUpdate Memory where
  live s := s.registry.contains id = true
  value := cachedAttributes id
  act := CacheUpdate.act

/-- Updates in the order of their reading leave the latest observation of each attribute. -/
theorem observedLatest_foldl {device : Device} {us : List CacheUpdate} {p : String}
    (htruthful : ∀ u ∈ us, u.Truthful device) (horder : ReadInOrder us) (m : Attributes) :
    ((∀ u ∈ us, u.readAt p = none) ∧
        (us.foldl (fun m u => u.act m) m).get? p = m.get? p) ∨
      ObservedLatest device us p ((us.foldl (fun m u => u.act m) m).get? p) := by
  induction us generalizing m with
  | nil => exact Or.inl ⟨by simp, rfl⟩
  | cons u us ih =>
    obtain ⟨hfirst, horder⟩ := List.pairwise_cons.mp horder
    rcases ih (fun v hv => htruthful v (by simp [hv])) horder (u.act m) with
      ⟨hnone, heq⟩ | ⟨t, ⟨v, hv, hvt⟩, hvalue, hmax⟩
    · rw [List.foldl_cons, heq, u.get?_act]
      cases hu : u.readAt p with
      | none => exact Or.inl ⟨by simpa [hu] using hnone, rfl⟩
      | some t =>
        refine Or.inr ⟨t, ⟨u, by simp, hu⟩, htruthful u (by simp) p t hu, ?_⟩
        intro w hw t' ht'
        rcases List.mem_cons.mp hw with rfl | hw
        · rw [hu] at ht'
          exact le_of_eq (Option.some.inj ht').symm
        · rw [hnone w hw] at ht'
          cases ht'
    · refine Or.inr ⟨t, ⟨v, by simp [hv], hvt⟩, hvalue, ?_⟩
      intro w hw t' ht'
      rcases List.mem_cons.mp hw with rfl | hw
      · exact hfirst v hv p t' t ht' hvt
      · exact hmax w hw t' ht'

namespace InterviewCache

variable {id : NodeId} {us : List CacheUpdate}

/-- A step that leaves the node's registry entry as it is. -/
theorem applies_frame {ready : Memory → Bool} {upd : Memory → Memory} {next : Memory → Task}
    (hframe : ∀ s, (cacheUpdates id).live s →
      (cacheUpdates id).live (upd s) ∧ cachedAttributes id (upd s) = cachedAttributes id s)
    (hnext : ∀ s, (cacheUpdates id).live s → (cacheUpdates id).Applies (next s) us) :
    (cacheUpdates id).Applies (.access ready upd next) us := by
  intro s hlive _
  obtain ⟨hlive', hsame⟩ := hframe s hlive
  exact ⟨hlive', Or.inl ⟨hsame, hnext s hlive⟩⟩

theorem frame_of_get? {s s' : Memory} (h : s'.registry.get? id = s.registry.get? id)
    (hlive : (cacheUpdates id).live s) :
    (cacheUpdates id).live s' ∧ cachedAttributes id s' = cachedAttributes id s := by
  unfold cachedAttributes
  rw [h]
  refine ⟨?_, rfl⟩
  change s'.registry.contains id = true
  rw [Registry.contains_eq, h, ← Registry.contains_eq]
  exact hlive

theorem frame_of_registry {s s' : Memory} (h : s'.registry = s.registry)
    (hlive : (cacheUpdates id).live s) :
    (cacheUpdates id).live s' ∧ cachedAttributes id s' = cachedAttributes id s :=
  frame_of_get? (by rw [h]) hlive

/-- A read with two outcomes, both of which lead to the same updates. -/
theorem applies_read {α : Type} {f : Memory → α} {next : α → Task}
    (hnext : ∀ s, (cacheUpdates id).live s → (cacheUpdates id).Applies (next (f s)) us) :
    (cacheUpdates id).Applies (.read f next) us :=
  applies_frame (fun _ hlive => frame_of_registry rfl hlive) hnext

theorem frame_setAvailable (nodeId : NodeId) (available : Bool) {s : Memory}
    (hlive : (cacheUpdates id).live s) :
    (cacheUpdates id).live (s.setAvailable nodeId available).2 ∧
      cachedAttributes id (s.setAvailable nodeId available).2 = cachedAttributes id s := by
  by_cases h : id = nodeId
  · subst h
    obtain ⟨e, he⟩ := Option.isSome_iff_exists.mp hlive
    constructor
    · change ((s.setAvailable id available).2.registry.get? id).isSome = true
      have he' : s.registry.get? id = some e := he
      simp [Memory.get?_setAvailable, he']
    · have he' : s.registry.get? id = some e := he
      simp [cachedAttributes, Memory.get?_setAvailable, he']
  · exact frame_of_get? (by simp [Memory.get?_setAvailable, h]) hlive

theorem applies_emitNodeUpdated {nodeId : NodeId} {k : Task}
    (hk : (cacheUpdates id).Applies k us) :
    (cacheUpdates id).Applies (emitNodeUpdated nodeId k) us := by
  refine applies_read fun s _ => ?_
  split
  · exact hk
  · exact hk

theorem applies_persist {nodeId : NodeId} {k : Task} (hk : (cacheUpdates id).Applies k us) :
    (cacheUpdates id).Applies (persist nodeId k) us := by
  refine applies_read fun s _ => ?_
  split
  · exact hk
  · exact hk

theorem applies_setAvailable {nodeId : NodeId} {available : Bool} {k : Task}
    (hk : (cacheUpdates id).Applies k us) :
    (cacheUpdates id).Applies (.modifyGet (fun s => s.setAvailable nodeId available) fun changed =>
      if changed = some true then emitNodeUpdated nodeId k else k) us := by
  refine applies_frame (fun s hlive => frame_setAvailable nodeId available hlive) fun s _ => ?_
  dsimp only
  split
  · exact applies_emitNodeUpdated hk
  · exact hk

/-- The replacement of a registered node's attributes is one update. -/
theorem applies_replaceAttributes {attributes : Attributes} {now : String} {k : Task}
    (readAt : String → Nat) (hk : (cacheUpdates id).Applies k us) :
    (cacheUpdates id).Applies (.modify (fun s => s.replaceAttributes id attributes now) k)
      (.replace attributes readAt :: us) := by
  intro s hlive _
  obtain ⟨e, he⟩ := Option.isSome_iff_exists.mp hlive
  have he' : s.registry.get? id = some e := he
  constructor
  · change ((s.replaceAttributes id attributes now).registry.get? id).isSome = true
    simp [Memory.get?_replaceAttributes, he']
  · refine Or.inr ⟨_, _, rfl, ?_, hk⟩
    change cachedAttributes id (s.replaceAttributes id attributes now) = attributes
    simp [cachedAttributes, Memory.get?_replaceAttributes, he']

/-- So is every change of an `AttributesChanged` report. -/
theorem applies_applyChanges (readAt : String → Nat) {k : Task} (hk : (cacheUpdates id).Applies k us)
    (changes : List (String × Json)) : (cacheUpdates id).Applies (applyChanges id changes k)
      ((changes.map fun c => .set c.1 c.2 (readAt c.1)) ++ us) := by
  induction changes with
  | nil => exact hk
  | cons change changes ih =>
    intro s hlive _
    obtain ⟨e, he⟩ := Option.isSome_iff_exists.mp hlive
    have he' : s.registry.get? id = some e := he
    constructor
    · change ((s.setAttribute id change.1 change.2).registry.get? id).isSome = true
      simp [Memory.get?_setAttribute, he']
    · refine Or.inr ⟨_, _, rfl, ?_, ih⟩
      change cachedAttributes id (s.setAttribute id change.1 change.2) =
        (cachedAttributes id s).insert change.1 change.2
      simp [cachedAttributes, Memory.get?_setAttribute, he']

theorem applies_applyChanges_other {nodeId : NodeId} (h : id ≠ nodeId) {k : Task}
    (hk : (cacheUpdates id).Applies k us) (changes : List (String × Json)) :
    (cacheUpdates id).Applies (applyChanges nodeId changes k) us := by
  induction changes with
  | nil => exact hk
  | cons change changes ih =>
    exact applies_frame
      (fun s hlive => frame_of_get? (by simp [Memory.get?_setAttribute, h]) hlive) fun _ _ => ih

/-- An event's arm runs for registered nodes only, and node `id` is one. -/
theorem applies_ifKnown {nodeId : NodeId} {arm k : Task}
    (harm : (cacheUpdates id).Applies arm us)
    (hk : nodeId ≠ id → (cacheUpdates id).Applies k us) :
    (cacheUpdates id).Applies (ifKnown nodeId arm k) us := by
  refine applies_read fun s hlive => ?_
  by_cases h : s.registry.contains nodeId
  · rw [if_pos h]
    exact harm
  · rw [if_neg h]
    exact hk fun heq => h (heq ▸ hlive)

theorem applies_handleNodeState {nodeId : NodeId} {k : Task} (state : NodeConnState)
    (hk : (cacheUpdates id).Applies k us) :
    (cacheUpdates id).Applies (handleNodeState nodeId k state) us := by
  cases state with
  | connected maxIntervalSecs =>
    exact applies_frame (fun s hlive => frame_of_registry (s.registry_cancelGrace nodeId) hlive)
      fun _ _ => applies_setAvailable hk
  | reconnecting =>
    refine applies_frame (fun _ hlive => frame_of_registry rfl hlive) fun s _ => ?_
    dsimp only
    split
    · exact applies_frame (fun s hlive => frame_of_registry (s.registry_startGrace nodeId) hlive)
        fun _ _ => hk
    · exact hk

theorem applies_handleEvent (ev : StackEvent) (now : String) (readAt : String → Nat) {k : Task}
    (hk : (cacheUpdates id).Applies k us) : (cacheUpdates id).Applies (handleEvent ev now k)
      (Report.updates id ⟨.event ev now, readAt⟩ ++ us) := by
  cases ev with
  | nodeState nodeId state =>
    exact applies_ifKnown (applies_handleNodeState state hk) fun _ => hk
  | primingSnapshot nodeId attributes =>
    by_cases h : nodeId = id
    · subst h
      simp only [Report.updates, if_true]
      exact applies_ifKnown
        (applies_replaceAttributes readAt (applies_persist (applies_emitNodeUpdated hk)))
        fun hne => absurd rfl hne
    · simp only [Report.updates, if_neg h, List.nil_append]
      refine applies_ifKnown ?_ fun _ => hk
      exact applies_frame
        (fun s hlive => frame_of_get? (by simp [Memory.get?_replaceAttributes, Ne.symm h]) hlive)
        fun _ _ => applies_persist (applies_emitNodeUpdated hk)
  | attributesChanged nodeId changes =>
    by_cases h : nodeId = id
    · subst h
      simp only [Report.updates, if_true]
      exact applies_ifKnown (applies_applyChanges readAt (applies_persist hk) changes)
        fun hne => absurd rfl hne
    · simp only [Report.updates, if_neg h, List.nil_append]
      exact applies_ifKnown (applies_applyChanges_other (Ne.symm h) (applies_persist hk) changes)
        fun _ => hk
  | nodeEvent nodeId event =>
    exact applies_ifKnown (applies_frame (fun s hlive => frame_of_registry rfl hlive) fun _ _ => hk)
      fun _ => hk

theorem applies_handleGraceExpiry {nodeId : NodeId} {k : Task}
    (hk : (cacheUpdates id).Applies k us) :
    (cacheUpdates id).Applies (handleGraceExpiry nodeId k) us := by
  refine applies_frame (fun s hlive => frame_of_registry (s.registry_takeGrace nodeId) hlive)
    fun s _ => ?_
  dsimp only
  split
  · exact hk
  · exact applies_setAvailable hk

/-- The node manager makes the reports' updates in the order of their delivery. -/
theorem applies_nodeManager (id : NodeId) (reports : List Report) :
    (cacheUpdates id).Applies (nodeManager (reports.map Report.input)) (reportUpdates id reports) := by
  induction reports with
  | nil => exact applies_frame (fun s hlive => frame_of_registry s.registry_abortAll hlive) fun _ _ => rfl
  | cons r reports ih =>
    obtain ⟨input, readAt⟩ := r
    cases input with
    | event ev now => exact applies_handleEvent ev now readAt ih
    | graceExpired nodeId => exact applies_handleGraceExpiry ih

/-- An interview that succeeds makes one update. -/
theorem applies_interviewNode (id : NodeId) (attributes : Attributes) (now : String)
    (readAt : String → Nat) : (cacheUpdates id).Applies (interviewNode id (.ok attributes) now)
      [.replace attributes readAt] := by
  refine applies_frame (fun _ hlive => frame_of_registry rfl hlive) fun s hlive => ?_
  dsimp only
  rw [if_pos (show s.registry.contains id = true from hlive)]
  exact applies_replaceAttributes readAt (applies_persist (applies_emitNodeUpdated rfl))

end InterviewCache

open InterviewCache

/-- The node manager (`false`) serves the reports while a command (`true`) interviews node `id`. -/
structure Interviewing (id : NodeId) (interview : Attributes) (reports : List Report)
    (c : Config Bool Memory Effect) : Prop where
  registered : c.mem.registry.contains id = true
  nodeManager : c.task false = nodeManager (reports.map Report.input)
  interviewNode : ∃ now, c.task true = interviewNode id (.ok interview) now

/-- What the two tasks of `Interviewing` have ahead of them. -/
def bothUpdates (id : NodeId) (interview : Attributes) (readAt : String → Nat)
    (reports : List Report) : Bool → List CacheUpdate
  | true => [.replace interview readAt]
  | false => reportUpdates id reports

theorem Interviewing.ahead {id : NodeId} {interview : Attributes} {reports : List Report}
    {c : Config Bool Memory Effect} (h : Interviewing id interview reports c)
    (readAt : String → Nat) :
    (cacheUpdates id).Ahead (bothUpdates id interview readAt reports) c where
  live := h.registered
  applies
    | true => by
      obtain ⟨now, htask⟩ := h.interviewNode
      rw [htask]
      exact applies_interviewNode id interview now readAt
    | false => by
      rw [h.nodeManager]
      exact applies_nodeManager id reports

/-- Every update of the run: the interview's and the reports'. -/
def allUpdates (id : NodeId) (interview : Attributes) (readAt : String → Nat)
    (reports : List Report) : List CacheUpdate :=
  .replace interview readAt :: reportUpdates id reports

/-- Of the updates that carry `p`, the last one to land read it no earlier than the others;
`before` and `after` landed on the two sides of the interview's replacement. -/
def LastLandedReadLast (readAt : String → Nat) (before after : List CacheUpdate) (p : String) :
    Prop :=
  (∃ u ∈ after, ∃ t, u.readAt p = some t ∧ readAt p ≤ t) ∨
    ((∀ u ∈ after, u.readAt p = none) ∧ ∀ u ∈ before, ∀ t, u.readAt p = some t → t ≤ readAt p)

/-- What the fold after the replacement shows of `p`, and when no reading is newer. -/
theorem replaced_then_folded {device : Device} {interview : Attributes} {readAt : String → Nat}
    {before after : List CacheUpdate} (hinterview : ∀ p, interview.get? p = device p (readAt p))
    (htruthful : ∀ u ∈ after, u.Truthful device) (horder : ReadInOrder (before ++ after))
    (p : String) :
    ∃ t, (t = readAt p ∨ ∃ u ∈ after, u.readAt p = some t) ∧
      (after.foldl (fun m u => u.act m) interview).get? p = device p t ∧
      ((readAt p ≤ t ∧ ∀ u ∈ before ++ after, ∀ t', u.readAt p = some t' → t' ≤ t) ↔
        LastLandedReadLast readAt before after p) := by
  obtain ⟨_, hafter, hcross⟩ := List.pairwise_append.mp horder
  rcases observedLatest_foldl (p := p) htruthful hafter interview with
    ⟨hnone, hvalue⟩ | ⟨t, ⟨v, hv, hvt⟩, hvalue, hmax⟩
  · refine ⟨readAt p, Or.inl rfl, by rw [hvalue, hinterview], fun h => ?_, fun h => ?_⟩
    · exact Or.inr ⟨hnone, fun u hu t ht => h.2 u (List.mem_append_left _ hu) t ht⟩
    · rcases h with ⟨u, hu, t, ht, _⟩ | ⟨_, hbefore⟩
      · rw [hnone u hu] at ht
        cases ht
      · refine ⟨le_rfl, fun u hu t ht => ?_⟩
        rcases List.mem_append.mp hu with hu | hu
        · exact hbefore u hu t ht
        · rw [hnone u hu] at ht
          cases ht
  · refine ⟨t, Or.inr ⟨v, hv, hvt⟩, hvalue, fun h => Or.inl ⟨v, hv, t, hvt, h.1⟩, fun h => ?_⟩
    rcases h with ⟨u, hu, t', ht', hle⟩ | ⟨hnone, _⟩
    · refine ⟨hle.trans (hmax u hu t' ht'), fun w hw b hb => ?_⟩
      rcases List.mem_append.mp hw with hw | hw
      · exact hcross w hw v hv p b t hb hvt
      · exact hmax w hw b hb
    · rw [hnone v hv] at hvt
      cases hvt

/-- Over every interleaving the reports split into those that land before the interview's
replacement and those that land after it. The cache then shows, of every attribute, the
reading of the update that landed last, and no reading is newer exactly when that update
read last. -/
theorem interviewed_cache {id : NodeId} {device : Device} {interview : Attributes}
    {readAt : String → Nat} {reports : List Report} {c c' : Config Bool Memory Effect}
    {sched : List Bool} (hstart : Interviewing id interview reports c)
    (hinterview : ∀ p, interview.get? p = device p (readAt p))
    (htruthful : ∀ u ∈ reportUpdates id reports, u.Truthful device)
    (horder : ReadInOrder (reportUpdates id reports)) (hrun : c.run sched = some c')
    (hquiescent : c'.Quiescent) :
    ∃ s₁ s₂ m m' before after, sched = s₁ ++ true :: s₂ ∧ c.run s₁ = some m ∧
      m.step true = some m' ∧ m'.run s₂ = some c' ∧ reportUpdates id reports = before ++ after ∧
      cachedAttributes id m.mem = before.foldl (fun a u => u.act a) (cachedAttributes id c.mem) ∧
      cachedAttributes id m'.mem = interview ∧
      cachedAttributes id c'.mem = after.foldl (fun a u => u.act a) interview ∧
      ∀ p, ∃ t, (∃ u ∈ allUpdates id interview readAt reports, u.readAt p = some t) ∧
        (cachedAttributes id c'.mem).get? p = device p t ∧
        ((∀ u ∈ allUpdates id interview readAt reports, ∀ t', u.readAt p = some t' → t' ≤ t) ↔
          LastLandedReadLast readAt before after p) := by
  obtain ⟨s₁, s₂, m, m', before, after, hsched, hm, hstep, hrest, hbefore, hreplace, hafter, hfirst,
    hmerge⟩ := (hstart.ahead readAt).exists_step (i := true) rfl hrun hquiescent
  have hlast : Updates.ofTask true after = [] := by
    have h := hmerge true
    rw [Updates.ofTask_append, hfirst, Updates.ofTask_cons_self, List.nil_append] at h
    exact (List.cons.inj h).2.symm
  have honly : ∀ {applied : List (Bool × CacheUpdate)}, Updates.ofTask true applied = [] →
      applied.map Prod.snd = Updates.ofTask false applied := by
    intro applied h
    exact Updates.map_snd_eq_ofTask fun j hj => by cases j <;> simp_all
  have hsplit : reportUpdates id reports = before.map Prod.snd ++ after.map Prod.snd := by
    have h := hmerge false
    rw [Updates.ofTask_append, Updates.ofTask_cons_of_ne (by simp)] at h
    rw [honly hfirst, honly hlast]
    exact h
  have hfold : ∀ (applied : List (Bool × CacheUpdate)) (a : Attributes),
      (cacheUpdates id).fold applied a = (applied.map Prod.snd).foldl (fun a u => u.act a) a :=
    fun applied a => by rw [List.foldl_map]; rfl
  have hm' : cachedAttributes id m'.mem = interview := hreplace
  have hc' : cachedAttributes id c'.mem = (after.map Prod.snd).foldl (fun a u => u.act a) interview := by
    rw [← hm', ← hfold]
    exact hafter
  refine ⟨s₁, s₂, m, m', before.map Prod.snd, after.map Prod.snd, hsched, hm, hstep, hrest, hsplit,
    hbefore.trans (hfold _ _), hm', hc', fun p => ?_⟩
  rw [hsplit] at horder htruthful
  obtain ⟨t, hread, hvalue, hiff⟩ := replaced_then_folded hinterview
    (fun u hu => htruthful u (List.mem_append_right _ hu)) horder p
  refine ⟨t, ?_, by rw [hc', hvalue], ?_⟩
  · unfold allUpdates
    rw [hsplit]
    rcases hread with rfl | ⟨u, hu, hut⟩
    · exact ⟨_, List.mem_cons_self, rfl⟩
    · exact ⟨u, List.mem_cons_of_mem _ (List.mem_append_right _ hu), hut⟩
  · rw [← hiff]
    unfold allUpdates
    rw [hsplit, List.forall_mem_cons]
    exact and_congr_left fun _ => ⟨fun h => h _ rfl, fun h t' ht' => by
      cases ht'
      exact h⟩

section Race

/-- Node 7's lamp is switched on at moment 1. -/
def switchedOn : Device := fun p t => if p = "1/6/0" then some (.bool (decide (1 ≤ t))) else none

def switchedOff : Attributes := .ofList [("1/6/0", .bool false)]

/-- The report of the switch. -/
def switchReport : Report := ⟨.event (.attributesChanged 7 [("1/6/0", .bool true)]) "", fun _ => 1⟩

/-- The interview has read the lamp while it was off. -/
def interviewRace : Config Bool Memory Effect where
  mem := lampMemory
  log := []
  task
    | true => interviewNode 7 (.ok switchedOff) ""
    | false => nodeManager [switchReport.input]

theorem interviewRace_interviewing : Interviewing 7 switchedOff [switchReport] interviewRace :=
  ⟨rfl, rfl, "", rfl⟩

theorem switchedOff_truthful (p : String) : switchedOff.get? p = switchedOn p 0 := by
  by_cases h : p = "1/6/0"
  · subst h; rfl
  · simp [switchedOff, switchedOn, h, OrdMap.ofList, OrdMap.get?, Entries.insertAll, Entries.insert,
      Entries.get?]

theorem switchReport_truthful :
    ∀ u ∈ reportUpdates 7 [switchReport], u.Truthful switchedOn := by
  intro u hu p t ht
  rw [show u = .set "1/6/0" (.bool true) 1 by simpa [reportUpdates, Report.updates, switchReport] using hu]
    at ht ⊢
  simp only [CacheUpdate.readAt] at ht
  split at ht
  next h => cases ht; subst h; rfl
  · cases ht

/-- The report lands first and the interview's older reading replaces it. -/
theorem newerReport_overwritten :
    Interviewing 7 switchedOff [switchReport] interviewRace ∧
      (∀ p, switchedOff.get? p = switchedOn p 0) ∧
      (∀ u ∈ reportUpdates 7 [switchReport], u.Truthful switchedOn) ∧
      ReadInOrder (reportUpdates 7 [switchReport]) ∧
      ∃ c', interviewRace.run (List.replicate 6 false ++ List.replicate 8 true) = some c' ∧
        c'.Quiescent ∧
        ¬ ObservedLatest switchedOn (allUpdates 7 switchedOff (fun _ => 0) [switchReport]) "1/6/0"
          ((cachedAttributes 7 c'.mem).get? "1/6/0") := by
  obtain ⟨c', hrun, hquiescent, hcached⟩ : ∃ c',
      interviewRace.run (List.replicate 6 false ++ List.replicate 8 true) = some c' ∧
        c'.Quiescent ∧ cachedAttributes 7 c'.mem = switchedOff :=
    ⟨_, rfl, by intro i; cases i <;> rfl, rfl⟩
  refine ⟨interviewRace_interviewing, switchedOff_truthful, switchReport_truthful,
    List.pairwise_singleton _ _, c', hrun, hquiescent, ?_⟩
  rintro ⟨t, -, hvalue, hmax⟩
  have ht : 1 ≤ t := hmax (.set "1/6/0" (.bool true) 1)
    (by simp [allUpdates, reportUpdates, Report.updates, switchReport]) 1 rfl
  rw [hcached, switchedOff_truthful] at hvalue
  simp [switchedOn, show t ≠ 0 by omega] at hvalue

/-- With the interview's replacement first, the report's reading stays. -/
theorem interviewed_cache_in_order : ∃ c',
    interviewRace.run (List.replicate 8 true ++ List.replicate 6 false) = some c' ∧
      ∃ before after, reportUpdates 7 [switchReport] = before ++ after ∧
        ∀ p, ∃ t, (cachedAttributes 7 c'.mem).get? p = switchedOn p t := by
  obtain ⟨c', hrun, hquiescent⟩ : ∃ c',
      interviewRace.run (List.replicate 8 true ++ List.replicate 6 false) = some c' ∧
        c'.Quiescent := ⟨_, rfl, by intro i; cases i <;> rfl⟩
  obtain ⟨_, _, _, _, before, after, _, _, _, _, hsplit, _, _, _, hlatest⟩ :=
    interviewed_cache interviewRace_interviewing switchedOff_truthful switchReport_truthful
      (List.pairwise_singleton _ _) hrun hquiescent
  refine ⟨c', hrun, before, after, hsplit, fun p => ?_⟩
  obtain ⟨t, _, hvalue, _⟩ := hlatest p
  exact ⟨t, hvalue⟩

end Race

end MatterRsServer.Controller
