import MatterRsServer.Controller.Grace
import MatterRsServer.Stack.ReportIsolation

/-!
# Incremental list reports and the cached list

A list element that is set by index or appended is merged into the accumulator of the
report, which knows nothing of the list that the registry has cached; the released value
then replaces the cached list as a whole. The cached list comes out as the report means it
only where it holds no more than the accumulator starts from.
-/
namespace MatterRsServer.Stack
open Lib Wire Gen Controller Grouping

/-- The cached value of an attribute. -/
def cached (m : Memory) (nodeId : NodeId) (key : String) : Option Json :=
  (m.registry.get? nodeId).bind fun e => e.record.attributes.get? key

/-- The node manager handles the stack events one after the other. -/
def handleAll (now : String) (m : Memory) (evs : List StackEvent) : Memory :=
  evs.foldl (fun m ev => runHandler (handleEvent ev now .done) m) m

/-- The value of a key after the assignments. -/
def assign (key : String) (v : Option Json) (changes : List (String × Json)) : Option Json :=
  changes.foldl (fun v c => if c.1 = key then some c.2 else v) v

/-- The changes that the messages make to a node. -/
def changesOf (nodeId : NodeId) (evs : List StackEvent) : List (String × Json) :=
  evs.flatMap fun
    | .attributesChanged n changes => if n = nodeId then changes else []
    | _ => []

/-- The messages that a sink sends. -/
def FromSink (ev : StackEvent) : Prop :=
  (∃ n changes, ev = .attributesChanged n changes) ∨ ∃ n e, ev = .nodeEvent n e

theorem assign_append (key : String) (v : Option Json) (a b : List (String × Json)) :
    assign key v (a ++ b) = assign key (assign key v a) b := List.foldl_append

theorem assign_of_not_mem {key : String} {changes : List (String × Json)}
    (h : key ∉ changes.map Prod.fst) (v : Option Json) : assign key v changes = v := by
  induction changes generalizing v with
  | nil => rfl
  | cons c rest ih =>
    simp only [List.map_cons, List.mem_cons, not_or] at h
    unfold assign
    rw [List.foldl_cons, if_neg (Ne.symm h.1)]
    exact ih h.2 v

/-- Where no key is assigned twice, the assignment of the key decides. -/
theorem assign_eq_lookup {changes : List (String × Json)} (hnodup : (changes.map Prod.fst).Nodup)
    (key : String) (v : Option Json) : assign key v changes = (changes.lookup key).or v := by
  induction changes generalizing v with
  | nil => rfl
  | cons c rest ih =>
    obtain ⟨hc, hrest⟩ := List.nodup_cons.mp hnodup
    unfold assign
    rw [List.foldl_cons]
    by_cases hkey : c.1 = key
    · have hnot : key ∉ rest.map Prod.fst := hkey ▸ hc
      rw [if_pos hkey, List.lookup_cons, beq_iff_eq.mpr hkey.symm]
      exact assign_of_not_mem hnot _
    · rw [if_neg hkey, lookup_cons_of_ne (Ne.symm hkey)]
      exact ih hrest v

theorem cached_setAttribute {m : Memory} {nodeId : NodeId}
    (hknown : m.registry.contains nodeId = true) (path key : String) (value : Json) :
    cached (m.setAttribute nodeId path value) nodeId key =
        (if path = key then some value else cached m nodeId key) ∧
      (m.setAttribute nodeId path value).registry.contains nodeId = true := by
  rw [Registry.contains_eq] at hknown
  obtain ⟨e, he⟩ := Option.isSome_iff_exists.mp hknown
  constructor
  · simp only [cached, Memory.get?_setAttribute, if_true, he, Option.map_some, Option.bind_some,
      OrdMap.get?_insert, eq_comm]
  · rw [Registry.contains_eq, Memory.get?_setAttribute, if_pos rfl, he]
    rfl

/-- The changes of a registered node, applied. -/
theorem cached_applyChanges {nodeId : NodeId} {k : Task} (hk : ∀ m, runHandler k m = m)
    (key : String) (changes : List (String × Json)) {m : Memory}
    (hknown : m.registry.contains nodeId = true) :
    cached (runHandler (applyChanges nodeId changes k) m) nodeId key =
        assign key (cached m nodeId key) changes ∧
      (runHandler (applyChanges nodeId changes k) m).registry.contains nodeId = true := by
  induction changes generalizing m with
  | nil =>
    change cached (runHandler k m) nodeId key = cached m nodeId key ∧ _
    rw [applyChanges, hk]
    exact ⟨rfl, hknown⟩
  | cons change rest ih =>
    obtain ⟨path, value⟩ := change
    obtain ⟨hcached, hknown'⟩ := cached_setAttribute hknown path key value
    obtain ⟨hrest, hstays⟩ := ih hknown'
    rw [hcached] at hrest
    exact ⟨hrest, hstays⟩

theorem get?_applyChanges_of_ne {nodeId j : NodeId} (h : j ≠ nodeId) {k : Task}
    (hk : ∀ m, runHandler k m = m) (changes : List (String × Json)) (m : Memory) :
    (runHandler (applyChanges nodeId changes k) m).registry.get? j = m.registry.get? j := by
  induction changes generalizing m with
  | nil => rw [applyChanges, hk]
  | cons change rest ih =>
    have hset : (m.setAttribute nodeId change.1 change.2).registry.get? j = m.registry.get? j := by
      rw [Memory.get?_setAttribute, if_neg h]
    exact (ih _).trans hset

/-- What a message of a sink does to a registered node. -/
theorem cached_handleEvent {ev : StackEvent} (hev : FromSink ev) (now : String) {m : Memory}
    {nodeId : NodeId} (hknown : m.registry.contains nodeId = true) (key : String) :
    cached (runHandler (handleEvent ev now .done) m) nodeId key =
        assign key (cached m nodeId key) (changesOf nodeId [ev]) ∧
      (runHandler (handleEvent ev now .done) m).registry.contains nodeId = true := by
  have hpersist : ∀ n m, runHandler (persist n .done) m = m := fun n m => runHandler_persist n _ m
  rcases hev with ⟨n, changes, rfl⟩ | ⟨n, e, rfl⟩
  · unfold handleEvent
    rw [runHandler_ifKnown]
    by_cases hn : n = nodeId
    · subst hn
      rw [if_pos hknown]
      simpa [changesOf] using cached_applyChanges (hpersist n) key changes hknown
    · have hsame : changesOf nodeId [.attributesChanged n changes] = [] := by simp [changesOf, hn]
      rw [hsame]
      split
      · have hget := get?_applyChanges_of_ne (Ne.symm hn) (hpersist n) changes m
        constructor
        · exact congrArg (fun e : Option NodeEntry => e.bind fun e => e.record.attributes.get? key) hget
        · rw [Registry.contains_eq, hget, ← Registry.contains_eq]
          exact hknown
      · exact ⟨rfl, hknown⟩
  · unfold handleEvent
    rw [runHandler_ifKnown]
    split
    · exact ⟨rfl, hknown⟩
    · exact ⟨rfl, hknown⟩

/-- What the messages of a sink do to a registered node. -/
theorem cached_handleAll (now : String) {evs : List StackEvent} (hevs : ∀ ev ∈ evs, FromSink ev)
    {m : Memory} {nodeId : NodeId} (hknown : m.registry.contains nodeId = true) (key : String) :
    cached (handleAll now m evs) nodeId key =
      assign key (cached m nodeId key) (changesOf nodeId evs) := by
  induction evs generalizing m with
  | nil => rfl
  | cons ev rest ih =>
    obtain ⟨hcached, hknown'⟩ := cached_handleEvent (hevs ev List.mem_cons_self) now hknown key
    have hrest := ih (fun e he => hevs e (List.mem_cons_of_mem _ he)) hknown'
    have hsplit : changesOf nodeId (ev :: rest) = changesOf nodeId [ev] ++ changesOf nodeId rest := by
      simp [changesOf]
    rw [hsplit, assign_append, ← hcached]
    exact hrest

theorem changesOf_append (nodeId : NodeId) (a b : List StackEvent) :
    changesOf nodeId (a ++ b) = changesOf nodeId a ++ changesOf nodeId b := List.flatMap_append

/-- Only the messages about the node matter. -/
theorem changesOf_filter (nodeId : NodeId) (evs : List StackEvent) :
    changesOf nodeId (evs.filter fun ev => eventNode ev = nodeId) = changesOf nodeId evs := by
  induction evs with
  | nil => rfl
  | cons ev rest ih =>
    by_cases hnode : eventNode ev = nodeId
    · rw [List.filter_cons_of_pos (by simpa using hnode)]
      simpa [changesOf] using ih
    · have hnone : changesOf nodeId [ev] = [] := by
        cases ev with
        | attributesChanged n changes => simp [changesOf, show ¬ n = nodeId from hnode]
        | nodeState n state => rfl
        | primingSnapshot n attributes => rfl
        | nodeEvent n e => rfl
      rw [List.filter_cons_of_neg (by simpa using hnode), ih,
        show ev :: rest = [ev] ++ rest from rfl, changesOf_append, hnone, List.nil_append]

theorem fromSink_forwardEvents (gen : EventTables) (nodeId : NodeId) (wall : Int)
    (events : List EventData) (last : OrdMap NodeId UInt64) :
    ∀ ev ∈ (forwardEvents gen nodeId wall events last).1, ∃ e, ev = .nodeEvent nodeId e := by
  induction events generalizing last with
  | nil => intro ev hev; cases hev
  | cons d rest ih =>
    intro ev hev
    rcases List.mem_append.mp hev with hev | hev
    · split at hev
      · exact ⟨_, List.mem_singleton.mp hev⟩
      · cases hev
    · exact ih _ ev hev

theorem fromSink_sink (gen : EventTables) (ctx : StackCtx) (r : Incoming) :
    ∀ ev ∈ (sink gen ctx r).2, FromSink ev := by
  intro ev hev
  unfold sink at hev
  by_cases h : Tracked ctx.fabIdx (ctx.subs.get? r.sub.peerNodeId) r.sub.peerNodeId r
  · rw [handleReport_tracked gen h] at hev
    rcases List.mem_append.mp hev with hev | hev
    · unfold changesMessage at hev
      split at hev
      · exact Or.inl ⟨_, _, List.mem_singleton.mp hev⟩
      · cases hev
    · obtain ⟨e, he⟩ := fromSink_forwardEvents gen _ _ _ _ ev hev
      exact Or.inr ⟨_, e, he⟩
  · rw [handleReport_untracked gen h] at hev
    cases hev

theorem fromSink_serve (gen : EventTables) (ctx : StackCtx) (xs : List Incoming) :
    ∀ ev ∈ (Isolation.serve (sink gen) ctx xs).2, FromSink ev := by
  induction xs generalizing ctx with
  | nil => intro ev hev; cases hev
  | cons r rest ih =>
    intro ev hev
    rcases List.mem_append.mp hev with hev | hev
    · exact fromSink_sink gen ctx r ev hev
    · exact ih _ ev hev

/-- The changes that a tracked report completes. -/
theorem changesOf_sink (gen : EventTables) {ctx : StackCtx} {nodeId : NodeId} {r : Incoming}
    (h : Tracked ctx.fabIdx (ctx.subs.get? nodeId) nodeId r) :
    changesOf nodeId (sink gen ctx r).2 = ((ctx.pendingReports.absorbMessage gen.toTables nodeId
      r.report.toReportDataResp).1).getD [] := by
  have hevents : ∀ (events : List EventData),
      changesOf nodeId (forwardEvents gen nodeId r.wall events ctx.lastEvent).1 = [] := by
    intro events
    unfold changesOf
    rw [List.flatMap_eq_nil_iff]
    intro ev hev
    obtain ⟨e, rfl⟩ := fromSink_forwardEvents gen nodeId r.wall events ctx.lastEvent ev hev
    rfl
  unfold sink
  rw [handleReport_tracked gen h, changesOf_append, hevents, List.append_nil]
  generalize (ctx.pendingReports.absorbMessage gen.toTables nodeId r.report.toReportDataResp).1 = o
  rcases o with _ | _ | ⟨change, rest⟩
  · rfl
  · rfl
  · simp [changesMessage, changesOf]

/-- The messages of one report release what its reports add up to. -/
theorem changesOf_report (gen : EventTables) {ctx : StackCtx} {nodeId : NodeId}
    {init : List Incoming} {last : Incoming}
    (htracked : ∀ r ∈ init ++ [last], Tracked ctx.fabIdx (ctx.subs.get? nodeId) nodeId r)
    (hmore : ∀ r ∈ init, r.report.moreChunks = some true)
    (hlast : last.report.moreChunks ≠ some true) :
    changesOf nodeId (Isolation.serve (sink gen) ctx (init ++ [last])).2 =
      (((init ++ [last]).map fun r => r.report.toReportDataResp).foldl
        (AttrAccumulator.absorb gen.toTables) ((ctx.pendingReports.get? nodeId).getD ∅)).intoPairs := by
  induction init generalizing ctx with
  | nil =>
    have hsink := changesOf_sink gen (htracked last (by simp))
    simp only [List.nil_append, Isolation.serve, List.append_nil, List.map_cons, List.map_nil,
      List.foldl_cons, List.foldl_nil]
    rw [hsink]
    simp [PendingReports.absorbMessage, hlast]
  | cons r init ih =>
    have hr := htracked r (by simp)
    obtain ⟨hfab, hsubs⟩ := sink_constant gen ctx r
    have hpending : (sink gen ctx r).1.pendingReports.get? nodeId =
        some (((ctx.pendingReports.get? nodeId).getD ∅).absorb gen.toTables
          r.report.toReportDataResp) := by
      unfold sink
      rw [handleReport_tracked gen hr]
      simp [PendingReports.absorbMessage, hmore r (by simp)]
    have hnothing : changesOf nodeId (sink gen ctx r).2 = [] := by
      rw [changesOf_sink gen hr]
      simp [PendingReports.absorbMessage, hmore r (by simp)]
    have hrest := @ih (sink gen ctx r).1
      (fun r' hr' => by rw [hfab, hsubs]; exact htracked r' (List.mem_cons_of_mem _ hr'))
      (fun r' hr' => hmore r' (List.mem_cons_of_mem _ hr'))
    rw [hpending, Option.getD_some] at hrest
    simp only [List.cons_append, Isolation.serve, changesOf_append, hnothing, List.nil_append,
      List.map_cons, List.foldl_cons]
    exact hrest

/-- What a report makes of one attribute. -/
inductive Increment where
  | setIndex (i : UInt16) (v : Json)
  | appends (elements : List Json)

namespace Increment

/-- The operations of the report on the attribute. -/
def ops : Increment → List (ListOp × Json)
  | .setIndex i v => [(.setIndex i, v)]
  | .appends elements => elements.map fun v => (.append, v)

/-- An index lies inside the cached list. -/
def Inside (items : List Json) : Increment → Prop
  | .setIndex i _ => i.toNat < items.length
  | .appends _ => True

/-- The cached list comes out as the report means it. -/
def Kept (items : List Json) (after : Option Json) : Increment → Prop
  | .setIndex i v => after = some (.arr (items.set i.toNat v))
  | .appends elements => after = some (.arr (items ++ elements)) ∨ after = some (.arr items)

/-- What the code needs of the cached list: the index is its last and everything before it
is null; or there is nothing to append, nothing cached, or the very list cached that is
appended. -/
def Tolerates (items : List Json) : Increment → Prop
  | .setIndex i _ => items.length = i.toNat + 1 ∧ ∀ x ∈ items.take i.toNat, x = .null
  | .appends elements => elements = [] ∨ items = [] ∨ items = elements

/-- What the accumulator releases for the attribute. -/
def released : Increment → Option Json
  | .setIndex i v => some (.arr (List.replicate i.toNat .null ++ [v]))
  | .appends [] => none
  | .appends (e :: es) => some (.arr (e :: es))

theorem foldOps_ops (inc : Increment) : foldOps applyOp inc.ops = inc.released := by
  cases inc with
  | setIndex i v =>
    simp only [ops, foldOps, List.foldl_cons, List.foldl_nil, applyOp, released, setElement,
      arrayItems, Option.getD_none, List.length_nil, List.nil_append, Option.some.injEq,
      Json.arr.injEq, Nat.sub_zero]
    rw [List.replicate_succ', List.set_append_right _ _ (by simp)]
    simp
  | appends elements =>
    cases elements with
    | nil => rfl
    | cons e es => exact foldOps_appends (e :: es)

/-- Overwriting the cached list with the released value is right exactly where it is
tolerated. -/
theorem kept_iff {inc : Increment} {items : List Json} (hinside : inc.Inside items) :
    inc.Kept items (inc.released.or (some (.arr items))) ↔ inc.Tolerates items := by
  cases inc with
  | setIndex i v =>
    change i.toNat < items.length at hinside
    simp only [Kept, released, Option.some_or, Option.some.injEq, Json.arr.injEq, Tolerates]
    constructor
    · intro heq
      have hlen := congrArg List.length heq
      simp only [List.length_append, List.length_replicate, List.length_singleton,
        List.length_set] at hlen
      refine ⟨hlen.symm, ?_⟩
      have htake := congrArg (List.take i.toNat) heq
      rw [List.take_set_of_le (Nat.le_refl _)] at htake
      rw [← htake]
      intro x hx
      rw [List.take_left' (by simp)] at hx
      exact List.eq_of_mem_replicate hx
    · rintro ⟨hlen, hnull⟩
      have hnulls : items.take i.toNat = List.replicate i.toNat .null := by
        rw [List.eq_replicate_iff]
        exact ⟨by rw [List.length_take]; omega, hnull⟩
      rw [List.set_eq_take_append_cons_drop, if_pos hinside, hnulls,
        List.drop_eq_nil_of_le (by omega)]
  | appends elements =>
    cases elements with
    | nil => simp [Kept, released, Tolerates]
    | cons e es =>
      simp only [Kept, released, Option.some_or, Option.some.injEq, Json.arr.injEq, Tolerates,
        reduceCtorEq, false_or]
      constructor
      · rintro (heq | heq)
        · exact Or.inl (List.self_eq_append_left.mp heq)
        · exact Or.inr heq.symm
      · rintro (rfl | rfl)
        · exact Or.inl rfl
        · exact Or.inr rfl

end Increment

/-- The cached value after a report has gone through the sink and the node manager. -/
theorem cached_afterReport (gen : EventTables) {ctx : StackCtx} {m : Memory} {nodeId : NodeId}
    {xs : List Incoming} (init : List Incoming) (last : Incoming) (path : Path) (inc : Increment) (now : String)
    (hcut : xs.filter (fun r => Tracked ctx.fabIdx (ctx.subs.get? nodeId) nodeId r) =
      init ++ [last])
    (hmore : ∀ r ∈ init, r.report.moreChunks = some true)
    (hlast : last.report.moreChunks ≠ some true)
    (hidle : ((ctx.pendingReports.get? nodeId).getD ∅).out.lookup (pathKey path) = none)
    (hown : own path (operations gen.toTables ((init ++ [last]).flatMap fun r =>
      r.report.toReportDataResp.entries)) = inc.ops)
    (hknown : m.registry.contains nodeId = true) :
    cached (handleAll now m (Isolation.serve (sink gen) ctx xs).2) nodeId (pathKey path) =
      inc.released.or (cached m nodeId (pathKey path)) := by
  have htracked : ∀ r ∈ init ++ [last], Tracked ctx.fabIdx (ctx.subs.get? nodeId) nodeId r := by
    intro r hr
    rw [← hcut] at hr
    simpa using (List.mem_filter.mp hr).2
  obtain ⟨_, hsame⟩ := (nodeView gen nodeId).serve_filter (s := ctx) (t := ctx) rfl xs
  have hchanges : changesOf nodeId (Isolation.serve (sink gen) ctx xs).2 =
      changesOf nodeId (Isolation.serve (sink gen) ctx (init ++ [last])).2 := by
    rw [← hcut, ← changesOf_filter nodeId (Isolation.serve (sink gen) ctx xs).2]
    exact (congrArg (changesOf nodeId) hsame).trans (changesOf_filter nodeId _)
  rw [cached_handleAll now (fromSink_serve gen ctx xs) hknown, hchanges,
    changesOf_report gen htracked hmore hlast, foldl_absorb, List.flatMap_map]
  set acc := (ctx.pendingReports.get? nodeId).getD ∅ with hacc
  have hlookup := lookup_group applyOp ((operations gen.toTables ((init ++ [last]).flatMap fun r =>
      r.report.toReportDataResp.entries)).map fun o => (pathKey o.1, o.2)) acc.out (pathKey path)
  rw [own_map_key (fun _ _ h => pathKey_injective h), hown, hidle] at hlookup
  rw [AttrAccumulator.intoPairs, assign_eq_lookup (AttrAccumulator.indexed _).nodup,
    AttrAccumulator.out_foldl, hlookup, ← inc.foldOps_ops]
  rfl

/-- A report that sets one element of a cached list, or only appends to it, leaves the list as
it means it exactly where the cached list holds nothing that the accumulator does not start
from. -/
theorem increment_cached (gen : EventTables) {ctx : StackCtx} {m : Memory} {nodeId : NodeId}
    {xs : List Incoming} (init : List Incoming) (last : Incoming) (path : Path) (inc : Increment) (now : String)
    (items : List Json)
    (hcut : xs.filter (fun r => Tracked ctx.fabIdx (ctx.subs.get? nodeId) nodeId r) =
      init ++ [last])
    (hmore : ∀ r ∈ init, r.report.moreChunks = some true)
    (hlast : last.report.moreChunks ≠ some true)
    (hidle : ((ctx.pendingReports.get? nodeId).getD ∅).out.lookup (pathKey path) = none)
    (hown : own path (operations gen.toTables ((init ++ [last]).flatMap fun r =>
      r.report.toReportDataResp.entries)) = inc.ops)
    (hcached : cached m nodeId (pathKey path) = some (.arr items)) (hinside : inc.Inside items) :
    inc.Kept items (cached (handleAll now m (Isolation.serve (sink gen) ctx xs).2) nodeId
      (pathKey path)) ↔ inc.Tolerates items := by
  have hknown : m.registry.contains nodeId = true := by
    obtain ⟨e, he, _⟩ := Option.bind_eq_some_iff.mp hcached
    rw [Registry.contains_eq, he]
    rfl
  rw [cached_afterReport gen init last path inc now hcut hmore hlast hidle hown hknown, hcached]
  exact inc.kept_iff hinside

section PartsList

/-- Node 7 with its parts list cached. -/
def partsMemory (items : List Json) : Memory :=
  ⟨.new [⟨7, "", "", 1, [], .ofList [("0/29/3", .arr items)]⟩], ⟨"HomeAssistant", 8, ∅, ∅⟩, false, false,
    ∅, [], 0, []⟩

def partsCtx : StackCtx := ⟨1, .ofList [(7, 3)], ∅, ∅, ∅, ∅, ∅⟩

/-- Node 7 sets element `i` of the parts list. -/
def partsIndexed (i : UInt16) (v : UInt64) : Incoming :=
  ⟨⟨some 3, 1, 7⟩, ⟨⟨some [partsReport (some (some i)) (.uint v)], none⟩, none⟩, 0, 0⟩

/-- Setting element 1 of the cached list 1, 2, 3 leaves null and the new element. -/
theorem indexedReport_wipesList :
    cached (handleAll "" (partsMemory [.ofU64 1, .ofU64 2, .ofU64 3])
        (Isolation.serve (sink noEventTables) partsCtx [partsIndexed 1 9]).2) 7 "0/29/3" =
      some (.arr [.null, .ofU64 9]) ∧
    ¬ (Increment.setIndex 1 (.ofU64 9)).Kept [.ofU64 1, .ofU64 2, .ofU64 3]
      (some (.arr [.null, .ofU64 9])) := by
  constructor
  · exact cached_afterReport noEventTables [] (partsIndexed 1 9) ⟨0, 29, 3⟩
      (.setIndex 1 (.ofU64 9)) "" rfl (by simp) (by simp [partsIndexed]) rfl rfl rfl
  · intro hkept
    have hlen := congrArg (fun j : Option Json => (j.map fun j => (arrayItems j).length)) hkept
    simp [arrayItems] at hlen

/-- The last of two elements, the first one being null, can be set. -/
theorem increment_cached_last :
    cached (handleAll "" (partsMemory [.null, .ofU64 2])
        (Isolation.serve (sink noEventTables) partsCtx [partsIndexed 1 9]).2) 7 "0/29/3" =
      some (.arr [.null, .ofU64 9]) :=
  (increment_cached noEventTables [] (partsIndexed 1 9) ⟨0, 29, 3⟩
    (.setIndex 1 (.ofU64 9)) "" [.null, .ofU64 2] rfl (by simp) (by simp [partsIndexed]) rfl rfl rfl
    (show (1 : UInt16).toNat < 2 by decide)).mpr ⟨rfl, by simp⟩

end PartsList

end MatterRsServer.Stack
