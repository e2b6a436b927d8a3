import MatterRsServer.Controller.Allocation
import MatterRsServer.Migrate.Migration
import Mathlib.Data.List.Dedup

/-!
# What a migration preserves

The destination of a migration that reports success, read back with the functions that the
server starts with. The recount compares numbers only, so a store that lists a node twice
makes room for a leftover file.
-/
namespace MatterRsServer.Migrate
open Lib Wire Controller

/-- The identity has the keys and the ids of the fabric. -/
structure KeepsFabric (identity : ServerIdentity) (source : SourceFabric) : Prop where
  caPrivateKey : identity.caPrivateKey = source.caPrivateKey
  rcacTlv : identity.rcacTlv = source.rcacTlv
  ipk : identity.ipk = source.ipkEpochKey
  fabricId : identity.fabricId = source.fabricId
  vendorId : identity.vendorId = source.vendorId
  controllerNodeId : identity.controllerNodeId = source.controllerNodeId

/-- The ids of the records that are loaded from the directory. -/
def loadedIds (dir : StorageDir) : List NodeId :=
  (dir.loadNodes fun _ => true).map NodeRecord.nodeId

/-- Reading the directory back gives the fabric and the nodes of the store, and the next
commissioning gets an id of its own. -/
structure Preserved (texts : Texts) (db : Data) (source : SourceFabric) (dir : StorageDir) : Prop where
  identity : ∃ identity, dir.loadIdentity = .ok (some identity) ∧ KeepsFabric identity source
  once : (loadedIds dir).Nodup
  nodes : ∀ id, id ∈ loadedIds dir ↔ id ∈ listedIds texts db
  nextNodeId : ∀ id ∈ listedIds texts db, id < dir.loadConfig.nextNodeId
  fresh : ∀ id, (Memory.ofStorage dir).HandsOut source.controllerNodeId id →
    id ∉ listedIds texts db ∧ id ≠ source.controllerNodeId
  allocates : (∃ id, id ∉ listedIds texts db ∧ id ≠ source.controllerNodeId) →
    ∃ id, (Memory.ofStorage dir).HandsOut source.controllerNodeId id

/-- Every file that is loaded as a record has the name of a listed node. -/
def Unlittered (texts : Texts) (db : Data) (dir : StorageDir) : Prop :=
  ∀ name text, dir.nodes.get? name = some text → StorageDir.hasJsonExtension name = true →
    (text.bind NodeRecord.fromJson).isSome = true → ∃ id ∈ listedIds texts db, name = nodeFileName id

/-- What the migration reads of the source. -/
structure Opens (env : Env) (root : StoreRoot) (db : Data) (source : SourceFabric) : Prop where
  opened : ∃ name, openStore env.dec root = .ok (db, name)
  read : readSourceFabric env.texts db = .ok source

section Accounting

variable {kept stale listed : List NodeId}

/-- Next to every listed id, once, there is room for nothing else. -/
theorem accounted_iff (hkept : kept.Nodup) (hmem : ∀ id, id ∈ kept ↔ id ∈ listed) :
    ((kept ++ stale).Nodup ∧ ∀ id, id ∈ kept ++ stale ↔ id ∈ listed) ↔ stale = [] := by
  constructor
  · rintro ⟨hnodup, hall⟩
    apply List.eq_nil_iff_forall_not_mem.mpr
    intro id hid
    have hlisted : id ∈ kept := (hmem id).mpr ((hall id).mp (List.mem_append_right _ hid))
    exact List.disjoint_of_nodup_append hnodup hlisted hid
  · rintro rfl
    rw [List.append_nil]
    exact ⟨hkept, hmem⟩

/-- When the numbers agree, only a repeated id can make room. -/
theorem stale_eq_nil_iff (hkept : kept.Nodup) (hmem : ∀ id, id ∈ kept ↔ id ∈ listed)
    (hlength : (kept ++ stale).length = listed.length) : stale = [] ↔ listed.Nodup := by
  have hperm : kept.Perm listed.dedup :=
    (List.perm_ext_iff_of_nodup hkept (List.nodup_dedup listed)).mpr fun id => by
      rw [hmem, List.mem_dedup]
  have hkeptLength := hperm.length_eq
  rw [List.length_append] at hlength
  rw [← List.dedup_eq_self]
  constructor
  · rintro rfl
    apply (List.dedup_sublist listed).eq_of_length
    rw [← hkeptLength]
    exact hlength
  · intro hdedup
    rw [hdedup] at hkeptLength
    apply List.eq_nil_of_length_eq_zero
    omega

end Accounting

section Files

/-- The record of a file that `load_nodes` takes. -/
def fileRecord (file : String × FileText) : Option NodeRecord :=
  if StorageDir.hasJsonExtension file.1 then file.2.bind NodeRecord.fromJson else none

theorem readNodes_eq (dir : StorageDir) :
    (dir.readNodes fun _ => true) = dir.nodes.entries.filterMap fileRecord := by
  have hindexed : ∀ files : List (String × FileText),
      ((files.zipIdx 1).filterMap fun e => e.1.2.bind NodeRecord.fromJson) =
        files.filterMap fun file => file.2.bind NodeRecord.fromJson := by
    intro files
    rw [← List.zipIdx_map_fst 1 files, List.filterMap_map, List.zipIdx_map_fst]
    rfl
  simp only [StorageDir.readNodes, if_true, hindexed, List.filterMap_filter]
  rfl

theorem map_filterMap_of_eq {α β γ : Type} {f : α → Option β} {g : β → γ} {h : α → γ} {l : List α}
    (heq : ∀ a ∈ l, ∃ b, f a = some b ∧ g b = h a) : (l.filterMap f).map g = l.map h := by
  induction l with
  | nil => rfl
  | cons a l ih =>
    obtain ⟨b, hb, hgb⟩ := heq a (by simp)
    simp [hb, hgb, ih fun a' ha' => heq a' (by simp [ha'])]

variable {nodes : OrdMap String FileText} {records : List NodeRecord}

/-- A planned file holds a record of the node that its name says. -/
theorem fileRecord_planned {file : String × FileText}
    (hfile : file ∈ (withRecords nodes records).entries)
    (hname : file.1 ∈ records.map fun r => nodeFileName r.nodeId) :
    ∃ q, fileRecord file = some q ∧ nodeFileName q.nodeId = file.1 := by
  obtain ⟨r, hr, hrname⟩ := List.mem_map.mp hname
  obtain ⟨q, _, hid, hget⟩ := get?_withRecords hr nodes
  have hself := (withRecords nodes records).sorted.get?_of_mem hfile
  rw [← hrname] at hself
  have htext : file.2 = some q.toJson := Option.some.inj (hself.symm.trans hget)
  refine ⟨q, ?_, by rw [hid, hrname]⟩
  rw [fileRecord, ← hrname, if_pos (hasJsonExtension_nodeFileName _), htext]
  exact NodeRecord.fromJson_toJson q

/-- The file has the name of a planned node. -/
def isPlanned (records : List NodeRecord) (file : String × FileText) : Bool :=
  decide (file.1 ∈ records.map fun r => nodeFileName r.nodeId)

/-- The records of the planned files, after the write. -/
def keptRecords (nodes : OrdMap String FileText) (records : List NodeRecord) : List NodeRecord :=
  ((withRecords nodes records).entries.filter (isPlanned records)).filterMap fileRecord

/-- The records of the files that were there under another name. -/
def staleRecords (nodes : OrdMap String FileText) (records : List NodeRecord) : List NodeRecord :=
  ((withRecords nodes records).entries.filter fun file => !isPlanned records file).filterMap fileRecord

theorem readNodes_perm (nodes : OrdMap String FileText) (records : List NodeRecord) :
    ((withRecords nodes records).entries.filterMap fileRecord).Perm
      (keptRecords nodes records ++ staleRecords nodes records) := by
  unfold keptRecords staleRecords
  rw [← List.filterMap_append]
  exact ((List.filter_append_perm (isPlanned records) _).filterMap fileRecord).symm

/-- The kept records name the planned files. -/
theorem map_keptRecords (nodes : OrdMap String FileText) (records : List NodeRecord) :
    (keptRecords nodes records).map (fun q => nodeFileName q.nodeId) =
      ((withRecords nodes records).entries.filter (isPlanned records)).map Prod.fst := by
  apply map_filterMap_of_eq
  intro file hfile
  obtain ⟨hmem, hname⟩ := List.mem_filter.mp hfile
  exact fileRecord_planned hmem (of_decide_eq_true hname)

theorem nodup_keptRecords (nodes : OrdMap String FileText) (records : List NodeRecord) :
    ((keptRecords nodes records).map NodeRecord.nodeId).Nodup := by
  have hnodup : ((keptRecords nodes records).map fun q => nodeFileName q.nodeId).Nodup := by
    rw [map_keptRecords]
    exact (withRecords nodes records).sorted.nodup_keys.sublist (List.filter_sublist.map Prod.fst)
  exact List.Nodup.of_map nodeFileName (by rwa [List.map_map])

theorem mem_keptRecords {id : NodeId} : id ∈ (keptRecords nodes records).map NodeRecord.nodeId ↔
    id ∈ records.map NodeRecord.nodeId := by
  have hfile : id ∈ (keptRecords nodes records).map NodeRecord.nodeId ↔
      nodeFileName id ∈ (keptRecords nodes records).map fun q => nodeFileName q.nodeId := by
    simp only [List.mem_map]
    exact exists_congr fun q => and_congr_right fun _ =>
      ⟨congrArg nodeFileName, fun h => nodeFileName_injective h⟩
  rw [hfile, map_keptRecords]
  constructor
  · intro h
    obtain ⟨file, hfile, hname⟩ := List.mem_map.mp h
    obtain ⟨r, hr, hid⟩ := List.mem_map.mp (of_decide_eq_true (List.mem_filter.mp hfile).2)
    exact List.mem_map.mpr ⟨r, hr, nodeFileName_injective (hid.trans hname)⟩
  · intro h
    obtain ⟨r, hr, rfl⟩ := List.mem_map.mp h
    obtain ⟨q, _, _, hget⟩ := get?_withRecords hr nodes
    have hplanned : isPlanned records (nodeFileName r.nodeId, some q.toJson) = true :=
      decide_eq_true (List.mem_map_of_mem hr)
    exact List.mem_map_of_mem (f := Prod.fst)
      (List.mem_filter.mpr ⟨Entries.mem_of_get? hget, hplanned⟩)

/-- A file of another name is one that was there before. -/
theorem staleRecords_eq_nil : staleRecords nodes records = [] ↔
    ∀ name text, nodes.get? name = some text → (fileRecord (name, text)).isSome = true →
      ∃ id ∈ records.map NodeRecord.nodeId, name = nodeFileName id := by
  have hplanned : ∀ file : String × FileText, (!isPlanned records file) = true ↔
      ∀ q ∈ records, nodeFileName q.nodeId ≠ file.1 := by
    intro file
    simp [isPlanned]
  unfold staleRecords
  rw [List.filterMap_eq_nil_iff]
  constructor
  · intro h name text hget hsome
    by_contra hno
    have hother : ∀ q ∈ records, nodeFileName q.nodeId ≠ name := fun q hq heq =>
      hno ⟨q.nodeId, List.mem_map_of_mem hq, heq.symm⟩
    rw [← get?_withRecords_of_ne hother] at hget
    have hnone := h (name, text)
      (List.mem_filter.mpr ⟨Entries.mem_of_get? hget, (hplanned _).mpr hother⟩)
    rw [hnone] at hsome
    cases hsome
  · intro h file hfile
    obtain ⟨hmem, hname⟩ := List.mem_filter.mp hfile
    have hother := (hplanned file).mp hname
    have hget := (withRecords nodes records).sorted.get?_of_mem hmem
    rw [show Entries.get? file.1 (withRecords nodes records).entries = nodes.get? file.1 from
      get?_withRecords_of_ne hother nodes] at hget
    by_contra hsome
    obtain ⟨id, hid, heq⟩ := h file.1 file.2 hget (Option.isSome_iff_ne_none.mpr hsome)
    obtain ⟨q, hq, rfl⟩ := List.mem_map.mp hid
    exact hother q hq heq.symm

end Files

section Success

variable {env : Env} {opts : Options} {w : World} {db : Data} {source : SourceFabric} {report : Report}

/-- What a run that reports success has written. -/
structure Wrote (w : World) (plan : MigrationPlan) (dir : StorageDir) : Prop where
  holds : HoldsPlan dir plan
  nodes : dir.nodes = withRecords w.disk.state.dir.nodes plan.records
  counted : (recounted plan w.disk).length = plan.nodes.length

theorem wrote_of_run (hdest : w.disk.state.dir.server = none) (hrun : (run env opts w).1 = .ok report)
    (hwrote : report.wrote ≠ none) :
    ∃ plan, Reaches env opts w plan ∧ Wrote w plan (run env opts w).2.disk.state.dir := by
  by_cases hreaches : ∃ plan, Reaches env opts w plan
  · obtain ⟨plan, hplan⟩ := hreaches
    refine ⟨plan, hplan, ?_⟩
    rw [run_of_reaches hplan] at hrun ⊢
    rcases writePlan_cases opts plan hdest with
      ⟨_, e, s', hwrite, _⟩ | ⟨_, _, e, s', hwrite, _⟩ | ⟨_, s', hholds, hnodes, hwrite⟩
    · rw [hwrite] at hrun
      cases hrun
    · rw [hwrite] at hrun
      cases hrun
    · rw [hwrite] at hrun ⊢
      refine ⟨hholds, hnodes, ?_⟩
      by_contra hcount
      rw [if_pos hcount] at hrun
      cases hrun
  · exact absurd ((run_of_not_reaches fun plan h => hreaches ⟨plan, h⟩).2 report hrun) hwrote

theorem Opens.planned {plan : MigrationPlan} (hopen : Opens env w.source db source)
    (h : Reaches env opts w plan) : Planned env w.source plan db source := by
  obtain ⟨db', source', hplanned⟩ := prepare_eq_ok h.prepared
  obtain ⟨name, hname⟩ := hopen.opened
  obtain ⟨name', hname'⟩ := hplanned.opened
  obtain ⟨rfl, _⟩ := Prod.mk.inj (Except.ok.inj (hname.symm.trans hname'))
  obtain rfl := Except.ok.inj (hopen.read.symm.trans hplanned.read)
  exact hplanned

namespace Wrote

variable {plan : MigrationPlan} {dir : StorageDir}

theorem loadIdentity (h : Wrote w plan dir) : dir.loadIdentity = .ok (some plan.identity) := by
  simp [StorageDir.loadIdentity, h.holds.server, ServerIdentity.fromJson_toJson]

theorem loadConfig (h : Wrote w plan dir) : dir.loadConfig = plan.config := by
  simp [StorageDir.loadConfig, h.holds.config, ConfigData.fromJson_toJson]

/-- The loaded records, planned and leftover. -/
theorem loadedIds_perm (h : Wrote w plan dir) : (loadedIds dir).Perm
    ((keptRecords w.disk.state.dir.nodes plan.records).map NodeRecord.nodeId ++
      (staleRecords w.disk.state.dir.nodes plan.records).map NodeRecord.nodeId) := by
  have hread := readNodes_perm w.disk.state.dir.nodes plan.records
  rw [← h.nodes, ← readNodes_eq] at hread
  rw [← List.map_append]
  exact ((List.perm_insertionSort _ _).trans hread).map NodeRecord.nodeId

theorem length_loadedIds (h : Wrote w plan dir) (hclear : ∀ i, w.disk.faults i = none) :
    (loadedIds dir).length = plan.records.length := by
  have hcounted := h.counted
  simp only [recounted, hclear, Option.isNone_none] at hcounted
  rw [loadedIds, List.length_map]
  calc (dir.loadNodes fun _ => true).length
      = (StorageDir.loadNodes { w.disk.state.dir with
          nodes := withRecords w.disk.state.dir.nodes plan.records } fun _ => true).length :=
        congrArg List.length (loadNodes_congr h.nodes _)
    _ = plan.nodes.length := hcounted
    _ = plan.records.length := (List.length_map _).symm

end Wrote

namespace Planned

variable {plan : MigrationPlan} {dir : StorageDir}

theorem keepsFabric (h : Planned env w.source plan db source) : KeepsFabric plan.identity source := by
  obtain ⟨hkey, hrcac, hipk, hfabric, hvendor, hnode⟩ := identityFromPreservedCa_eq_ok h.identity
  exact ⟨hkey, hrcac, hipk, hfabric, hvendor, hnode⟩

theorem records_perm (h : Planned env w.source plan db source) :
    (plan.records.map NodeRecord.nodeId).Perm (listedIds env.texts db) := by
  obtain ⟨key, hnodes⟩ := h.nodes
  rw [MigrationPlan.records, List.map_map]
  exact planNodes_perm hnodes

/-- The fourth check, of the listed ids. -/
theorem lt_nextNodeId (h : Planned env w.source plan db source) (hchecked : plan.report.ok = true)
    {id : NodeId} (hid : id ∈ listedIds env.texts db) : id < plan.config.nextNodeId := by
  have hpassed : (checkNodeAccounting plan.config plan.nodes).passed = true := by
    apply List.all_eq_true.mp hchecked
    rw [h.checks]
    simp [runAll]
  obtain ⟨r, hr, rfl⟩ := List.mem_map.mp (h.records_perm.mem_iff.mpr hid)
  obtain ⟨n, hn, rfl⟩ := List.mem_map.mp hr
  exact passed_checkNodeAccounting.mp hpassed n hn

/-- The ids in use are the loaded ones and the controller's. -/
theorem inUse_ofStorage (controllerNodeId id : NodeId) :
    (Memory.ofStorage dir).inUse controllerNodeId id = true ↔
      id ∈ loadedIds dir ∨ id = controllerNodeId := by
  rw [Memory.inUse, Bool.or_eq_true, beq_iff_eq]
  exact or_congr_left Registry.contains_new

/-- Once the plan is written, only leftover records can spoil it. -/
theorem preserved_iff (h : Planned env w.source plan db source) (hchecked : plan.report.ok = true)
    (hwrote : Wrote w plan dir) : Preserved env.texts db source dir ↔
      staleRecords w.disk.state.dir.nodes plan.records = [] := by
  have hkept := nodup_keptRecords w.disk.state.dir.nodes plan.records
  have hmem : ∀ id, id ∈ (keptRecords w.disk.state.dir.nodes plan.records).map NodeRecord.nodeId ↔
      id ∈ listedIds env.texts db := fun id => mem_keptRecords.trans h.records_perm.mem_iff
  have haccounted := @accounted_iff _ ((staleRecords w.disk.state.dir.nodes plan.records).map
    NodeRecord.nodeId) _ hkept hmem
  rw [List.map_eq_nil_iff, ← hwrote.loadedIds_perm.nodup_iff] at haccounted
  simp only [← hwrote.loadedIds_perm.mem_iff] at haccounted
  rw [← haccounted]
  constructor
  · intro hpreserved
    exact ⟨hpreserved.once, hpreserved.nodes⟩
  · rintro ⟨honce, hnodes⟩
    refine ⟨⟨plan.identity, hwrote.loadIdentity, h.keepsFabric⟩, honce, hnodes, ?_, ?_, ?_⟩
    · intro id hid
      rw [hwrote.loadConfig]
      exact h.lt_nextNodeId hchecked hid
    · intro id hout
      have hfree := hout.not_inUse
      rw [← Bool.not_eq_true, inUse_ofStorage, hnodes] at hfree
      exact not_or.mp hfree
    · rintro ⟨id, hid, hne⟩
      apply Memory.exists_handsOut
      rw [← Bool.not_eq_true, inUse_ofStorage, hnodes]
      exact not_or.mpr ⟨hid, hne⟩

end Planned

/-- For every store, destination and failing operation: a migration that reports success has
preserved the fabric and its nodes exactly when no leftover record stays in the directory; and
when nothing failed, exactly when the store lists every node once. -/
theorem migration_preserves_fabric (hdest : w.disk.state.dir.server = none)
    (hopen : Opens env w.source db source) (hrun : (run env opts w).1 = .ok report)
    (hwrote : report.wrote ≠ none) :
    (Preserved env.texts db source (run env opts w).2.disk.state.dir ↔
      Unlittered env.texts db w.disk.state.dir) ∧
    ((∀ i, w.disk.faults i = none) →
      (Preserved env.texts db source (run env opts w).2.disk.state.dir ↔
        (listedIds env.texts db).Nodup)) := by
  obtain ⟨plan, hreaches, hdone⟩ := wrote_of_run hdest hrun hwrote
  have hplanned := hopen.planned hreaches
  rw [hplanned.preserved_iff hreaches.checked hdone]
  constructor
  · rw [staleRecords_eq_nil]
    simp only [hplanned.records_perm.mem_iff]
    refine forall₃_congr fun name text hget => ?_
    by_cases hjson : StorageDir.hasJsonExtension name <;> simp [fileRecord, hjson]
  · intro hclear
    have hlength : (loadedIds (run env opts w).2.disk.state.dir).length =
        (listedIds env.texts db).length := by
      rw [hdone.length_loadedIds hclear, ← hplanned.records_perm.length_eq, List.length_map]
    rw [hdone.loadedIds_perm.length_eq] at hlength
    rw [← stale_eq_nil_iff (nodup_keptRecords _ _)
      (fun id => mem_keptRecords.trans hplanned.records_perm.mem_iff) hlength, List.map_eq_nil_iff]

end Success

section Runs

theorem eq_ok_of_toOption {ε α : Type} {x : Except ε α} (h : x.toOption.isSome = true) :
    ∃ a, x = .ok a := by
  cases x with
  | error e => cases h
  | ok a => exact ⟨a, rfl⟩

/-- A store that lists node 5 as often as `copies` says. -/
def nodeFive (copies : Nat) : Data := zeroFabric (List.replicate copies (nodeEntry 5))

theorem opens_nodeFive {copies : Nat} (h : (readSourceFabric (zeroEnv (nodeFive copies)).texts
    (nodeFive copies)).toOption.isSome = true) :
    ∃ source, Opens (zeroEnv (nodeFive copies)) zeroRoot (nodeFive copies) source := by
  obtain ⟨source, hread⟩ := eq_ok_of_toOption h
  exact ⟨source, ⟨"server-1-fff1", rfl⟩, hread⟩

theorem report_of_wrote {x : Except MigrateError Report} {path : String}
    (h : x.toOption.bind Report.wrote = some path) : ∃ report, x = .ok report ∧ report.wrote ≠ none := by
  cases x with
  | error e => cases h
  | ok report =>
    refine ⟨report, rfl, fun hnone => ?_⟩
    simp [Except.toOption, hnone] at h

theorem node_preserved : ∃ source, Opens (zeroEnv (nodeFive 1)) zeroRoot (nodeFive 1) source ∧
    Preserved (zeroEnv (nodeFive 1)).texts (nodeFive 1) source
      (run (zeroEnv (nodeFive 1)) writeOptions (destination ∅ fun _ => none)).2.disk.state.dir := by
  obtain ⟨source, hopen⟩ := @opens_nodeFive 1 (by decide +kernel)
  have hwrote : (run (zeroEnv (nodeFive 1)) writeOptions
      (destination ∅ fun _ => none)).1.toOption.bind Report.wrote = some "matter-rs" := by
    decide +kernel
  have hlisted : listedIds (zeroEnv (nodeFive 1)).texts (nodeFive 1) = [5] := by decide +kernel
  obtain ⟨report, hrun, hreport⟩ := report_of_wrote hwrote
  have hiff := (migration_preserves_fabric rfl hopen hrun hreport).2 fun _ => rfl
  exact ⟨source, hopen, hiff.mpr (by simp [hlisted])⟩

/-- A node file of another fabric. -/
def leftover : NodeRecord := ⟨9, "2025-01-01T00:00:00.000000", "2025-01-01T00:00:00.000000", 1, [], ∅⟩

/-- A destination with that file, where nothing fails. -/
def littered : World :=
  destination ((∅ : OrdMap String FileText).insert "9.json" (some leftover.toJson)) fun _ => none

/-- The store lists node 5 twice, so the leftover node 9 makes up the number. -/
theorem leftover_not_preserved : littered.disk.state.dir.server = none ∧
    ∃ source report, Opens (zeroEnv (nodeFive 2)) littered.source (nodeFive 2) source ∧
      (run (zeroEnv (nodeFive 2)) writeOptions littered).1 = .ok report ∧ report.wrote ≠ none ∧
      ¬ Preserved (zeroEnv (nodeFive 2)).texts (nodeFive 2) source
        (run (zeroEnv (nodeFive 2)) writeOptions littered).2.disk.state.dir := by
  obtain ⟨source, hopen⟩ := @opens_nodeFive 2 (by decide +kernel)
  have hwrote : (run (zeroEnv (nodeFive 2)) writeOptions littered).1.toOption.bind Report.wrote =
      some "matter-rs" := by decide +kernel
  have hloaded : loadedIds (run (zeroEnv (nodeFive 2)) writeOptions littered).2.disk.state.dir =
      [5, 9] := by decide +kernel
  have hlisted : listedIds (zeroEnv (nodeFive 2)).texts (nodeFive 2) = [5, 5] := by decide +kernel
  obtain ⟨report, hrun, hreport⟩ := report_of_wrote hwrote
  refine ⟨rfl, source, report, hopen, hrun, hreport, fun h => ?_⟩
  have hnine := (h.nodes 9).mp (by simp [hloaded])
  rw [hlisted] at hnine
  revert hnine
  decide

end Runs

end MatterRsServer.Migrate
