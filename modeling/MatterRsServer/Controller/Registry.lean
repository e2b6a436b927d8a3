import MatterRsServer.Wire.Json

/-!
# Node registry

`crates/controller/src/registry.rs` with the record type of `storage.rs` and the wire
shape of `crates/wire/src/node.rs`. One call of a `Registry` method is one
section of its lock. The map is keyed by each record's own id; the structure
carries that, so a broadcast made from an entry names the node it was read for.
-/
namespace MatterRsServer.Controller
open Lib Wire

abbrev NodeId := UInt64
abbrev Attributes := OrdMap String Json

/-- `storage.rs`: the contents of `nodes/<id>.json`. -/
structure NodeRecord where
  nodeId : NodeId
  dateCommissioned : String
  lastInterview : String
  deviceFabricIndex : UInt8
  addresses : List String
  attributes : Attributes

structure NodeEntry where
  record : NodeRecord
  available : Bool

/-- `wire/src/node.rs`: the node as the clients see it. -/
structure MatterNodeData where
  nodeId : NodeId
  dateCommissioned : String
  lastInterview : String
  interviewVersion : UInt8
  available : Bool
  isBridge : Bool
  attributes : Attributes
  attributeSubscriptions : List Json
  matterVersion : Option String

/-- Endpoint 1's DeviceTypeList holds an Aggregator (14) entry. -/
def isBridge (attributes : Attributes) : Bool :=
  match (attributes.get? "1/29/0").bind Json.asArray with
  | some list => list.any fun e => (e.get "0").bind Json.asU64 == some 14
  | none => false

def matterVersion (attributes : Attributes) : Option String :=
  match (attributes.get? "0/40/21").bind Json.asU64 with
  | some v => some s!"{(v >>> 24) &&& 0xFF}.{(v >>> 16) &&& 0xFF}.{(v >>> 8) &&& 0xFF}"
  | none =>
    match (attributes.get? "0/40/0").bind Json.asU64 with
    | some r => if r ≤ 16 then some "<1.2.0" else if r = 17 then some "1.2.0" else none
    | none => none

def buildNodeData (record : NodeRecord) (available : Bool) : MatterNodeData where
  nodeId := record.nodeId
  dateCommissioned := record.dateCommissioned
  lastInterview := record.lastInterview
  interviewVersion := 6
  available := available
  isBridge := isBridge record.attributes
  attributes := record.attributes
  attributeSubscriptions := []
  matterVersion := matterVersion record.attributes

/-- Serialized node data: keys in the order of `serde_json::Map`. -/
def MatterNodeData.toJson (nd : MatterNodeData) : Json :=
  .ofMembers ([("node_id", .ofU64 nd.nodeId), ("date_commissioned", .str nd.dateCommissioned),
    ("last_interview", .str nd.lastInterview),
    ("interview_version", .ofU64 nd.interviewVersion.toUInt64),
    ("available", .bool nd.available), ("is_bridge", .bool nd.isBridge),
    ("attributes", .ofMap nd.attributes),
    ("attribute_subscriptions", .arr nd.attributeSubscriptions)] ++
    (nd.matterVersion.map fun v => ("matter_version", Json.str v)).toList)

/-- The lock-protected map; every entry sits under its own record's id. -/
structure Registry where
  inner : OrdMap NodeId NodeEntry
  keyed : ∀ id e, inner.get? id = some e → e.record.nodeId = id

namespace Registry

def get? (r : Registry) (id : NodeId) : Option NodeEntry := r.inner.get? id

def empty : Registry := ⟨∅, by intro id e h; simp at h⟩

def contains (r : Registry) (id : NodeId) : Bool := r.inner.contains id

def nodeIds (r : Registry) : List NodeId := r.inner.keys

def insert (r : Registry) (record : NodeRecord) : Registry where
  inner := r.inner.insert record.nodeId ⟨record, false⟩
  keyed id e h := by
    rw [OrdMap.get?_insert] at h
    split at h
    next heq => cases h; exact heq.symm
    · exact r.keyed id e h

/-- `Registry::new`: every loaded node starts unavailable. -/
def new (records : List NodeRecord) : Registry := records.foldl insert empty

def remove (r : Registry) (id : NodeId) : Bool × Registry :=
  (r.contains id, {
    inner := r.inner.erase id
    keyed := by
      intro j e h
      rw [OrdMap.get?_erase] at h
      split at h
      · cases h
      · exact r.keyed j e h })

/-- `f` on the entry of `id`, with what it returns; `none` when the node is unknown. -/
def withEntry {ρ : Type} (r : Registry) (id : NodeId) (f : NodeEntry → ρ × NodeEntry)
    (keeps : ∀ e, (f e).2.record.nodeId = e.record.nodeId := by intro _; rfl) :
    Option ρ × Registry :=
  ((r.get? id).map fun e => (f e).1, {
    inner := r.inner.modify id fun e => (f e).2
    keyed := by
      intro j e h
      rw [OrdMap.get?_modify] at h
      split at h
      next heq =>
        subst heq
        obtain ⟨e', he', rfl⟩ := Option.map_eq_some_iff.mp h
        rw [keeps]
        exact r.keyed j e' he'
      · exact r.keyed j e h })

/-- `Some(changed)`, or `None` when the node is unknown. -/
def setAvailable (r : Registry) (id : NodeId) (available : Bool) : Option Bool × Registry :=
  r.withEntry id fun e => (e.available != available, { e with available := available })

def nodeData (r : Registry) (id : NodeId) : Option MatterNodeData :=
  (r.get? id).map fun e => buildNodeData e.record e.available

def allNodeData (r : Registry) (onlyAvailable : Bool) : List MatterNodeData :=
  (r.inner.entries.filter fun e => !onlyAvailable || e.2.available).map fun e =>
    buildNodeData e.2.record e.2.available

def snapshotRecord (r : Registry) (id : NodeId) : Option NodeRecord :=
  (r.get? id).map NodeEntry.record

theorem nodeId_of_get? {r : Registry} {id : NodeId} {e : NodeEntry} (h : r.get? id = some e) :
    e.record.nodeId = id := r.keyed id e h

@[simp] theorem get?_empty (id : NodeId) : empty.get? id = none := rfl

theorem contains_eq (r : Registry) (id : NodeId) : r.contains id = (r.get? id).isSome := rfl

theorem mem_nodeIds {r : Registry} {id : NodeId} : id ∈ r.nodeIds ↔ r.contains id = true :=
  OrdMap.mem_keys

theorem get?_insert (r : Registry) (record : NodeRecord) (id : NodeId) :
    (r.insert record).get? id = if id = record.nodeId then some ⟨record, false⟩ else r.get? id :=
  OrdMap.get?_insert _ _ _ _

theorem get?_remove (r : Registry) (id j : NodeId) :
    (r.remove id).2.get? j = if j = id then none else r.get? j := OrdMap.get?_erase _ _ _

theorem get?_withEntry {ρ : Type} (r : Registry) (id j : NodeId) (f : NodeEntry → ρ × NodeEntry)
    (keeps : ∀ e, (f e).2.record.nodeId = e.record.nodeId) :
    (r.withEntry id f keeps).2.get? j =
      if j = id then (r.get? id).map fun e => (f e).2 else r.get? j := OrdMap.get?_modify _ _ _ _

theorem get?_setAvailable (r : Registry) (id j : NodeId) (available : Bool) :
    (r.setAvailable id available).2.get? j =
      if j = id then (r.get? id).map fun e => { e with available := available } else r.get? j :=
  get?_withEntry _ _ _ _ _

/-- An unchanged availability leaves every entry as it was. -/
theorem setAvailable_unchanged {r : Registry} {id : NodeId} {available : Bool}
    (h : (r.setAvailable id available).1 ≠ some true) (j : NodeId) :
    (r.setAvailable id available).2.get? j = r.get? j := by
  rw [get?_setAvailable]
  split
  next heq =>
    subst heq
    cases he : r.get? j with
    | none => rfl
    | some e =>
      have hchanged : (e.available != available) = false := by
        simpa [setAvailable, withEntry, he] using h
      have hsame : e.available = available := by simpa using hchanged
      simp [← hsame]
  · rfl

theorem setAvailable_changed {r : Registry} {id : NodeId} {available : Bool}
    (h : (r.setAvailable id available).1 = some true) :
    ∃ e, r.get? id = some e ∧ e.available = !available := by
  simp only [setAvailable, withEntry, Option.map_eq_some_iff, bne_iff_ne] at h
  obtain ⟨e, he, hne⟩ := h
  refine ⟨e, he, ?_⟩
  cases hv : e.available <;> cases available <;> simp_all

theorem nodeData_eq_some {r : Registry} {id : NodeId} {nd : MatterNodeData}
    (h : r.nodeData id = some nd) :
    ∃ e, r.get? id = some e ∧ nd = buildNodeData e.record e.available ∧ nd.nodeId = id := by
  obtain ⟨e, he, rfl⟩ := Option.map_eq_some_iff.mp h
  exact ⟨e, he, rfl, nodeId_of_get? he⟩

theorem contains_eq_isSome_nodeData (r : Registry) (id : NodeId) :
    r.contains id = (r.nodeData id).isSome := by
  rw [contains_eq, nodeData, Option.isSome_map]

theorem snapshotRecord_eq_some {r : Registry} {id : NodeId} {rec : NodeRecord}
    (h : r.snapshotRecord id = some rec) : ∃ e, r.get? id = some e ∧ rec = e.record ∧ rec.nodeId = id := by
  obtain ⟨e, he, rfl⟩ := Option.map_eq_some_iff.mp h
  exact ⟨e, he, rfl, nodeId_of_get? he⟩

theorem get?_foldl_insert_of_not_mem {id : NodeId} {records : List NodeRecord}
    (h : ∀ rec ∈ records, rec.nodeId ≠ id) (r : Registry) :
    (records.foldl insert r).get? id = r.get? id := by
  induction records generalizing r with
  | nil => rfl
  | cons rec records ih =>
    have hne : id ≠ rec.nodeId := fun heq => h rec (by simp) heq.symm
    rw [List.foldl_cons, ih (fun q hq => h q (by simp [hq])), get?_insert, if_neg hne]

/-- Every record of a boot with distinct ids is registered. -/
theorem snapshotRecord_foldl_insert {rec : NodeRecord} {records : List NodeRecord}
    (hdistinct : records.Pairwise fun a b => a.nodeId ≠ b.nodeId) (h : rec ∈ records)
    (r : Registry) : (records.foldl insert r).snapshotRecord rec.nodeId = some rec := by
  induction records generalizing r with
  | nil => cases h
  | cons head records ih =>
    obtain ⟨hhead, htail⟩ := List.pairwise_cons.mp hdistinct
    rw [List.foldl_cons]
    rcases List.mem_cons.mp h with rfl | h
    · simp [snapshotRecord, get?_foldl_insert_of_not_mem fun q hq => (hhead q hq).symm,
        get?_insert]
    · exact ih htail h _

/-- Without the availability filter the dump lists exactly the registered nodes. -/
theorem mem_allNodeData {r : Registry} {nd : MatterNodeData} :
    nd ∈ r.allNodeData false ↔ ∃ id, r.nodeData id = some nd := by
  simp only [allNodeData, Bool.not_false, Bool.true_or, List.filter_true, List.mem_map, nodeData]
  constructor
  · rintro ⟨⟨id, e⟩, hmem, rfl⟩
    exact ⟨id, by simp [get?, OrdMap.get?, r.inner.sorted.get?_of_mem hmem]⟩
  · rintro ⟨id, h⟩
    obtain ⟨e, he, rfl⟩ := Option.map_eq_some_iff.mp h
    exact ⟨(id, e), Entries.mem_of_get? he, rfl⟩

end Registry

end MatterRsServer.Controller
