import MatterRsServer.Stack.Reports

/-!
# Reports that span several messages

`PendingReports` under any interleaving of messages and of nodes that are forgotten: the
messages of one node release nothing until the final one, which releases the grouping of
all their reports by path.
-/
namespace MatterRsServer.Stack
open Lib Wire Gen Grouping

/-- What happens to `PendingReports`: messages of any node, and nodes that are forgotten. -/
inductive Action where
  | message (nodeId : UInt64) (report : ReportDataResp)
  | forget (nodeId : UInt64)

def Action.node : Action → UInt64
  | .message nodeId _ => nodeId
  | .forget nodeId => nodeId

/-- What one message of a node releases. -/
abbrev Release := UInt64 × Option (List (String × Json))

def PendingReports.step (gen : Tables) (pending : PendingReports) :
    Action → Option Release × PendingReports
  | .message nodeId report =>
    (some (nodeId, (pending.absorbMessage gen nodeId report).1),
      (pending.absorbMessage gen nodeId report).2)
  | .forget nodeId => (none, pending.forget nodeId)

def PendingReports.run (gen : Tables) (pending : PendingReports) :
    List Action → List Release × PendingReports
  | [] => ([], pending)
  | a :: rest =>
    ((pending.step gen a).1.toList ++ (run gen (pending.step gen a).2 rest).1,
      (run gen (pending.step gen a).2 rest).2)

namespace PendingReports

variable {gen : Tables}

/-- A step of another node leaves a node's accumulator alone. -/
theorem get?_step_of_ne {n : UInt64} {a : Action} (h : a.node ≠ n) (pending : PendingReports) :
    (pending.step gen a).2.get? n = pending.get? n := by
  have hne : n ≠ a.node := Ne.symm h
  cases a with
  | message nodeId report =>
    change n ≠ nodeId at hne
    simp only [step, absorbMessage]
    split
    · simp [OrdMap.get?_insert, OrdMap.get?_erase, hne]
    · simp [OrdMap.get?_erase, hne]
  | forget nodeId =>
    change n ≠ nodeId at hne
    simp [step, forget, OrdMap.get?_erase, hne]

/-- What the messages of node `n` released, in order. -/
def releases (n : UInt64) (rs : List Release) : List (Option (List (String × Json))) :=
  (rs.filter fun r => r.1 = n).map Prod.snd

theorem releases_step_of_ne {n : UInt64} {a : Action} (h : a.node ≠ n) (pending : PendingReports) :
    releases n (pending.step gen a).1.toList = [] := by
  cases a with
  | message nodeId report =>
    change nodeId ≠ n at h
    simp [releases, step, h]
  | forget nodeId => rfl

theorem releases_run_cons (n : UInt64) (a : Action) (rest : List Action)
    (pending : PendingReports) : releases n (pending.run gen (a :: rest)).1 =
      releases n (pending.step gen a).1.toList ++
        releases n ((pending.step gen a).2.run gen rest).1 := by
  simp [releases, run]

/-- Actions of other nodes release nothing of node `n` and leave its accumulator alone. -/
theorem run_of_others {n : UInt64} {actions : List Action}
    (h : actions.filter (fun a => a.node = n) = []) (pending : PendingReports) :
    releases n (pending.run gen actions).1 = [] ∧
      (pending.run gen actions).2.get? n = pending.get? n := by
  induction actions generalizing pending with
  | nil => exact ⟨rfl, rfl⟩
  | cons a rest ih =>
    have hne : a.node ≠ n := by
      intro heq
      simp [heq] at h
    rw [List.filter_cons_of_neg (by simpa using hne)] at h
    obtain ⟨hrel, hget⟩ := ih h (pending.step gen a).2
    rw [releases_run_cons, releases_step_of_ne hne, hrel]
    exact ⟨rfl, hget.trans (get?_step_of_ne hne pending)⟩

/-- The messages of one report, with anything of other nodes in between. -/
theorem run_of_report (gen : Tables) (pending : PendingReports) {n : UInt64}
    {actions : List Action} {init : List ReportDataResp} {last : ReportDataResp}
    (hcut : actions.filter (fun a => a.node = n) = (init ++ [last]).map (.message n))
    (hmore : ∀ r ∈ init, r.moreChunks = some true) (hlast : last.moreChunks ≠ some true) :
    releases n (pending.run gen actions).1 = init.map (fun _ => none) ++
        [some ((init ++ [last]).foldl (AttrAccumulator.absorb gen)
          ((pending.get? n).getD ∅)).intoPairs] ∧
      (pending.run gen actions).2.get? n = none := by
  induction actions generalizing pending init with
  | nil => simp at hcut
  | cons a rest ih =>
    rw [releases_run_cons]
    by_cases hnode : a.node = n
    · rw [List.filter_cons_of_pos (by simpa using hnode)] at hcut
      cases init with
      | nil =>
        obtain ⟨rfl, hrest⟩ := List.cons.inj hcut
        obtain ⟨hrel, hget⟩ := run_of_others hrest (pending.step gen (.message n last)).2
        have hget' : (pending.step gen (.message n last)).2.get? n = none := by
          simp [step, absorbMessage, hlast]
        refine ⟨?_, hget.trans hget'⟩
        rw [hrel]
        simp [releases, step, absorbMessage, hlast]
      | cons m init =>
        obtain ⟨rfl, hrest⟩ := List.cons.inj hcut
        have hm : m.moreChunks = some true := hmore m (by simp)
        obtain ⟨hrel, hget⟩ := ih (pending.step gen (.message n m)).2 hrest
          fun r hr => hmore r (by simp [hr])
        refine ⟨?_, hget⟩
        rw [hrel]
        simp [releases, step, absorbMessage, hm]
    · rw [List.filter_cons_of_neg (by simpa using hnode)] at hcut
      obtain ⟨hrel, hget⟩ := ih (pending.step gen a).2 hcut hmore
      rw [hrel, releases_step_of_ne hnode, get?_step_of_ne hnode]
      exact ⟨rfl, hget⟩

end PendingReports

/-- Absorbing messages one after the other is absorbing their reports. -/
theorem foldl_absorb (gen : Tables) (msgs : List ReportDataResp) (acc : AttrAccumulator) :
    msgs.foldl (AttrAccumulator.absorb gen) acc =
      (msgs.flatMap ReportDataResp.entries).foldl (AttrAccumulator.absorbReport gen) acc := by
  induction msgs generalizing acc with
  | nil => rfl
  | cons m msgs ih =>
    rw [List.foldl_cons, ih, AttrAccumulator.absorb_eq_foldl, List.flatMap_cons, List.foldl_append]

/-- A report of node `n`, cut into messages in any way and interleaved with anything of other
nodes, from a state in which nothing is pending for `n` or `n` has just been forgotten: only
the final message releases changes, every path once, in the order of its first report
that is not skipped, with the fold of its own operations. -/
theorem report_reassembled (gen : Tables) {n : UInt64} {pending : PendingReports}
    {actions : List Action} {init : List ReportDataResp} {last : ReportDataResp}
    (hidle : pending.get? n = none ∨ ∃ earlier : PendingReports, pending = earlier.forget n)
    (hcut : actions.filter (fun a => a.node = n) = (init ++ [last]).map (.message n))
    (hmore : ∀ r ∈ init, r.moreChunks = some true) (hlast : last.moreChunks ≠ some true) :
    ∃ changes : List (Path × Json),
      PendingReports.releases n (pending.run gen actions).1 = init.map (fun _ => none) ++
        [some (changes.map fun e => (pathKey e.1, e.2))] ∧
      (pending.run gen actions).2.get? n = none ∧
      (changes.map fun e => pathKey e.1).Nodup ∧
      changes.map Prod.fst = ((operations gen ((init ++ [last]).flatMap
        ReportDataResp.entries)).map Prod.fst).eraseDups ∧
      (∀ path, changes.lookup path = foldOps applyOp (own path
        (operations gen ((init ++ [last]).flatMap ReportDataResp.entries)))) ∧
      ∀ path elements, own path (operations gen ((init ++ [last]).flatMap
          ReportDataResp.entries)) =
        (.replace, .arr []) :: elements.map (fun json => (.append, json)) →
        changes.lookup path = some (.arr elements) := by
  have hnone : pending.get? n = none := by
    rcases hidle with h | ⟨earlier, rfl⟩
    · exact h
    · exact OrdMap.get?_erase_self _ _
  obtain ⟨hrel, hget⟩ := PendingReports.run_of_report gen pending hcut hmore hlast
  rw [hnone, Option.getD_none, foldl_absorb] at hrel
  have hout := AttrAccumulator.out_foldl gen ((init ++ [last]).flatMap ReportDataResp.entries) ∅
  have hkeys := group_map_key (g := pathKey) (fun _ _ h => pathKey_injective h) applyOp
    (operations gen ((init ++ [last]).flatMap ReportDataResp.entries)) []
  have hchanges := hout.trans hkeys
  have hnodup := ((init ++ [last]).flatMap ReportDataResp.entries).foldl
    (AttrAccumulator.absorbReport gen) ∅ |>.indexed.nodup
  rw [hchanges, List.map_map] at hnodup
  have hlookup := fun path => lookup_group applyOp
    (operations gen ((init ++ [last]).flatMap ReportDataResp.entries)) [] path
  refine ⟨_, ?_, hget, hnodup, keys_group applyOp _, hlookup, fun path elements hown => ?_⟩
  · rw [hrel, AttrAccumulator.intoPairs, hchanges]
  · rw [hlookup, hown]
    exact foldOps_appends elements

section Split

/-- `gen` without any cluster. -/
def noTables : Tables := ⟨[], List.Pairwise.nil⟩

/-- A report of `0/29/3`. -/
def partsReport (listIndex : Option (Option UInt16)) (data : Tlv) : Option AttrResp :=
  some (.data ⟨⟨some 0, some 29, some 3, listIndex⟩, data⟩)

/-- The list is opened and gets its first element. -/
def partsOpened : ReportDataResp :=
  ⟨some [partsReport none (.array []), partsReport (some none) (.uint 11)], some true⟩

/-- An entry that does not parse, then the second element. -/
def partsContinued : ReportDataResp := ⟨some [none, partsReport (some none) (.uint 22)], none⟩

/-- The two messages of node 9, with a message of node 2 in between. -/
theorem report_reassembled_split : ∃ changes : List (Path × Json),
    PendingReports.releases 9 ((∅ : PendingReports).run noTables
        [.message 9 partsOpened, .message 2 partsContinued, .message 9 partsContinued]).1 =
      [none, some (changes.map fun e => (pathKey e.1, e.2))] ∧
    changes.lookup ⟨0, 29, 3⟩ = some (.arr [.ofU64 11, .ofU64 22]) := by
  have hcut : ([.message 9 partsOpened, .message 2 partsContinued, .message 9 partsContinued] :
        List Action).filter (fun a => a.node = 9) =
      ([partsOpened] ++ [partsContinued]).map (.message 9) := rfl
  obtain ⟨changes, hrel, _, _, _, _, hlist⟩ := report_reassembled noTables
    (Or.inl (OrdMap.get?_empty 9)) hcut (by simp [partsOpened]) (by simp [partsContinued])
  exact ⟨changes, hrel, hlist ⟨0, 29, 3⟩ [.ofU64 11, .ofU64 22] rfl⟩

end Split

end MatterRsServer.Stack
