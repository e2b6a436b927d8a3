import MatterRsServer.Lib.Grouping
import MatterRsServer.Stack.TlvJson

/-!
# Attribute reports

`AttrAccumulator`, `PendingReports` and `list_op` of `crates/stack/src/reports.rs`. The
accumulator's vector and its index map stay consistent by construction, so each operation
on them is an upsert under the path's key, and a whole report is the grouping of its
operations by path.
-/
namespace MatterRsServer.Stack
open Lib Wire Gen

/-- The fields of `AttrPath` that are read; a present but null list index is `some none`. -/
structure AttrPath where
  endpoint : Option UInt16
  cluster : Option UInt32
  attr : Option UInt32
  listIndex : Option (Option UInt16)

structure AttrData where
  path : AttrPath
  data : Tlv

inductive AttrResp where
  | data (d : AttrData)
  | status (path : AttrPath)

/-- One `ReportData` message; an entry that does not parse is `none`. -/
structure ReportDataResp where
  attrReports : Option (List (Option AttrResp))
  moreChunks : Option Bool

inductive ListOp where
  | replace
  | append
  | setIndex (i : UInt16)
deriving DecidableEq

/-- `list_op`. -/
def listOp (path : AttrPath) : ListOp :=
  match path.listIndex with
  | none => .replace
  | some none => .append
  | some (some i) => .setIndex i

/-- `index` finds the slot of every path in `out`. -/
def Indexed (out : List (String × Json)) (index : OrdMap String Nat) : Prop :=
  ∀ key i, index.get? key = some i ↔ (out.map Prod.fst)[i]? = some key

theorem Indexed.get?_eq_none {out : List (String × Json)} {index : OrdMap String Nat}
    (h : Indexed out index) {key : String} : index.get? key = none ↔ key ∉ out.map Prod.fst := by
  constructor
  · intro hnone hmem
    obtain ⟨i, hi⟩ := List.mem_iff_getElem?.mp hmem
    rw [(h key i).mpr hi] at hnone
    cases hnone
  · intro hmem
    cases hget : index.get? key with
    | none => rfl
    | some i => exact absurd (List.mem_of_getElem? ((h key i).mp hget)) hmem

/-- No path has two slots. -/
theorem Indexed.nodup {out : List (String × Json)} {index : OrdMap String Nat}
    (h : Indexed out index) : (out.map Prod.fst).Nodup := by
  rw [List.nodup_iff_getElem?_ne_getElem?]
  intro i j hij hj heq
  have hkey : (out.map Prod.fst)[j]? = some (out.map Prod.fst)[j] := List.getElem?_eq_getElem hj
  have hi := (h _ i).mpr (heq.trans hkey)
  rw [(h _ j).mpr hkey] at hi
  have hsame := Option.some.inj hi
  omega

/-- Changing the value of a slot moves no path. -/
theorem Indexed.modify {out : List (String × Json)} {index : OrdMap String Nat}
    (h : Indexed out index) (i : Nat) (f : Json → Json) :
    Indexed (out.modify i fun slot => (slot.1, f slot.2)) index := by
  have hkeys : (out.modify i fun slot => (slot.1, f slot.2)).map Prod.fst = out.map Prod.fst := by
    refine List.ext_getElem? fun j => ?_
    rw [List.getElem?_map, List.getElem?_map, List.getElem?_modify]
    cases out[j]? with
    | none => rfl
    | some e => by_cases hj : i = j <;> simp [hj]
  intro key j
  rw [hkeys]
  exact h key j

theorem Indexed.push {out : List (String × Json)} {index : OrdMap String Nat}
    (h : Indexed out index) {key : String} (hkey : index.get? key = none) (json : Json) :
    Indexed (out ++ [(key, json)]) (index.insert key out.length) := by
  have hmem := h.get?_eq_none.mp hkey
  intro k i
  rw [OrdMap.get?_insert, List.map_append, List.getElem?_append, List.length_map]
  by_cases hk : k = key
  · subst hk
    rw [if_pos rfl, Option.some.injEq]
    split
    next hlt =>
      refine ⟨by omega, fun hi => absurd (List.mem_of_getElem? hi) hmem⟩
    next hge =>
      rw [List.map_singleton, List.getElem?_singleton]
      split
      next hzero => exact ⟨fun _ => rfl, fun _ => by omega⟩
      next hzero => exact ⟨fun heq => absurd heq (by omega), fun hnone => by cases hnone⟩
  · rw [if_neg hk, h k i]
    split
    next hlt => exact Iff.rfl
    next hge =>
      rw [List.getElem?_eq_none (by rw [List.length_map]; omega), List.map_singleton,
        List.getElem?_singleton]
      split
      · exact ⟨fun hnone => (by cases hnone), fun heq => absurd (Option.some.inj heq).symm hk⟩
      · exact Iff.rfl

structure AttrAccumulator where
  out : List (String × Json)
  index : OrdMap String Nat
  orphanAppends : List String
  failures : Nat
  indexed : Indexed out index

/-- A concrete path. -/
structure Path where
  endpoint : UInt16
  cluster : UInt32
  attr : UInt32
deriving DecidableEq

/-- `format!("{e}/{cl}/{a}")`. -/
def pathKey (p : Path) : String :=
  p.endpoint.toNat.repr ++ "/" ++ p.cluster.toNat.repr ++ "/" ++ p.attr.toNat.repr

/-- The elements of an array; a value of another kind starts again from none. -/
def arrayItems : Json → List Json
  | .arr items => items
  | _ => []

/-- `arr.resize(idx + 1, Value::Null)` where the index is ahead, then `arr[idx] = json`. -/
def setElement (i : UInt16) (json v : Json) : Json :=
  let arr := arrayItems v
  .arr ((arr ++ List.replicate (i.toNat + 1 - arr.length) Json.null).set i.toNat json)

namespace AttrAccumulator

/-- `AttrAccumulator::default`. -/
def empty : AttrAccumulator := ⟨[], ∅, [], 0, by intro key i; simp⟩

instance : EmptyCollection AttrAccumulator := ⟨empty⟩

/-- Change the value in slot `i`, when there is one. -/
def setAt (acc : AttrAccumulator) (i : Nat) (f : Json → Json) : AttrAccumulator :=
  { acc with
    out := acc.out.modify i fun slot => (slot.1, f slot.2)
    indexed := acc.indexed.modify i f }

/-- `index.insert(key, out.len()); out.push((key, json));` -/
def push (acc : AttrAccumulator) (key : String) (json : Json) (h : acc.index.get? key = none) :
    AttrAccumulator :=
  { acc with
    out := acc.out ++ [(key, json)]
    index := acc.index.insert key acc.out.length
    indexed := acc.indexed.push h json }

/-- `put`. -/
def put (acc : AttrAccumulator) (key : String) (json : Json) : AttrAccumulator :=
  match h : acc.index.get? key with
  | some i => acc.setAt i fun _ => json
  | none => acc.push key json h

/-- `append`. -/
def append (acc : AttrAccumulator) (key : String) (json : Json) : AttrAccumulator :=
  match h : acc.index.get? key with
  | none =>
    { acc.push key (.arr [json]) h with orphanAppends := acc.orphanAppends ++ [key] }
  | some i => acc.setAt i fun
    | .arr items => .arr (items ++ [json])
    | _ => .arr [json]

/-- `set_index`. -/
def setIndex (acc : AttrAccumulator) (key : String) (i : UInt16) (json : Json) : AttrAccumulator :=
  match h : acc.index.get? key with
  | some slot => acc.setAt slot (setElement i json)
  | none => (acc.push key (.arr []) h).setAt acc.out.length (setElement i json)

/-- A report that is logged and skipped. -/
def fail (acc : AttrAccumulator) : AttrAccumulator := { acc with failures := acc.failures + 1 }

/-- One round of the loop in `absorb`. -/
def absorbReport (gen : Tables) (acc : AttrAccumulator) (r : Option AttrResp) : AttrAccumulator :=
  match r with
  | none => acc.fail
  | some (.status _) => acc
  | some (.data data) =>
    match data.path.endpoint, data.path.cluster, data.path.attr with
    | some e, some cl, some a =>
      match attrValueToJson gen cl a data.data with
      | none => acc.fail
      | some json =>
        let key := pathKey ⟨e, cl, a⟩
        match listOp data.path with
        | .replace => acc.put key json
        | .append => acc.append key json
        | .setIndex i => acc.setIndex key i json
    | _, _, _ => acc.fail

/-- `absorb`. -/
def absorb (gen : Tables) (acc : AttrAccumulator) (report : ReportDataResp) : AttrAccumulator :=
  match report.attrReports with
  | none => acc
  | some reports => reports.foldl (absorbReport gen) acc

def intoPairs (acc : AttrAccumulator) : List (String × Json) := acc.out

end AttrAccumulator

/-- Accumulators in progress, by node id. -/
abbrev PendingReports := OrdMap UInt64 AttrAccumulator

namespace PendingReports

/-- `absorb_message`. -/
def absorbMessage (gen : Tables) (pending : PendingReports) (nodeId : UInt64)
    (report : ReportDataResp) : Option (List (String × Json)) × PendingReports :=
  let acc := ((pending.get? nodeId).getD ∅).absorb gen report
  if report.moreChunks = some true then (none, (pending.erase nodeId).insert nodeId acc)
  else (some acc.intoPairs, pending.erase nodeId)

/-- `forget`. -/
def forget (pending : PendingReports) (nodeId : UInt64) : PendingReports := pending.erase nodeId

end PendingReports

/-- A report that is not skipped: its path, the operation and the converted value. -/
def operation (gen : Tables) (r : Option AttrResp) : Option (Path × ListOp × Json) :=
  match r with
  | some (.data data) =>
    match data.path.endpoint, data.path.cluster, data.path.attr with
    | some e, some cl, some a =>
      (attrValueToJson gen cl a data.data).map fun json => (⟨e, cl, a⟩, listOp data.path, json)
    | _, _, _ => none
  | _ => none

def ReportDataResp.entries (report : ReportDataResp) : List (Option AttrResp) :=
  report.attrReports.getD []

def operations (gen : Tables) (reports : List (Option AttrResp)) : List (Path × ListOp × Json) :=
  reports.filterMap (operation gen)

/-- What an operation makes of the value that its path has so far. -/
def applyOp (op : ListOp × Json) (v : Option Json) : Json :=
  match op, v with
  | (.replace, json), _ => json
  | (.append, json), some (.arr items) => .arr (items ++ [json])
  | (.append, json), _ => .arr [json]
  | (.setIndex i, json), v => setElement i json (v.getD (.arr []))

/-- Different paths have different keys. -/
theorem pathKey_injective {p q : Path} (h : pathKey p = pathKey q) : p = q := by
  obtain ⟨e, cl, a⟩ := p
  obtain ⟨e', cl', a'⟩ := q
  have hslash : ∀ n : Nat, '/' ∉ n.repr.toList := fun n hmem =>
    absurd (Text.isDigit_of_mem_repr hmem) (by decide)
  have hchars := congrArg String.toList h
  simp only [pathKey, String.toList_append, List.append_assoc, show "/".toList = ['/'] from rfl,
    List.singleton_append] at hchars
  obtain ⟨he, hrest⟩ := Text.append_cons_inj (hslash _) (hslash _) hchars
  obtain ⟨hcl, ha⟩ := Text.append_cons_inj (hslash _) (hslash _) hrest
  have hnum : ∀ {m n : Nat}, m.repr.toList = n.repr.toList → m = n := fun heq =>
    Text.repr_injective (String.toList_inj.mp heq)
  rw [UInt16.toNat_inj.mp (hnum he), UInt32.toNat_inj.mp (hnum hcl), UInt32.toNat_inj.mp (hnum ha)]

/-- Appends after an empty array give the array of the appended elements. -/
theorem foldOps_appends (elements : List Json) :
    Grouping.foldOps applyOp ((.replace, .arr []) :: elements.map fun json => (.append, json)) =
      some (.arr elements) := by
  have hgo : ∀ (elements items : List Json),
      (elements.map fun json => (ListOp.append, json)).foldl (fun v o => some (applyOp o v))
        (some (Json.arr items)) = some (.arr (items ++ elements)) := by
    intro elements
    induction elements with
    | nil => simp
    | cons json elements ih =>
      intro items
      rw [List.map_cons, List.foldl_cons]
      exact (ih (items ++ [json])).trans (by simp)
  simpa [Grouping.foldOps, applyOp] using hgo elements []

namespace AttrAccumulator

open Grouping

theorem out_setAt {acc : AttrAccumulator} {key : String} {i : Nat}
    (h : acc.index.get? key = some i) (f : Option Json → Json) :
    (acc.setAt i fun v => f (some v)).out = upsert key f acc.out :=
  (upsert_eq_modify acc.indexed.nodup ((acc.indexed key i).mp h) f).symm

theorem out_push {acc : AttrAccumulator} {key : String} (h : acc.index.get? key = none)
    (f : Option Json → Json) : (acc.push key (f none) h).out = upsert key f acc.out :=
  (upsert_of_not_mem (acc.indexed.get?_eq_none.mp h) f).symm

theorem out_put (acc : AttrAccumulator) (key : String) (json : Json) :
    (acc.put key json).out = upsert key (applyOp (.replace, json)) acc.out := by
  unfold put
  split
  next i h => exact out_setAt h (applyOp (.replace, json))
  next h => exact out_push h (applyOp (.replace, json))

theorem out_append (acc : AttrAccumulator) (key : String) (json : Json) :
    (acc.append key json).out = upsert key (applyOp (.append, json)) acc.out := by
  unfold append
  split
  next h => exact out_push h (applyOp (.append, json))
  next i h =>
    rw [← out_setAt h]
    congr 2
    funext v
    cases v <;> rfl

theorem modify_concat {α : Type} (l : List α) (e : α) (f : α → α) :
    (l ++ [e]).modify l.length f = l ++ [f e] := by
  induction l with
  | nil => rfl
  | cons a l ih => simpa using ih

theorem out_setIndex (acc : AttrAccumulator) (key : String) (i : UInt16) (json : Json) :
    (acc.setIndex key i json).out = upsert key (applyOp (.setIndex i, json)) acc.out := by
  unfold setIndex
  split
  next slot h => exact out_setAt h (applyOp (.setIndex i, json))
  next h =>
    rw [← out_push h]
    exact modify_concat _ _ _

/-- A report is its operation on the slot of its path, or nothing. -/
theorem out_absorbReport (gen : Tables) (acc : AttrAccumulator) (r : Option AttrResp) :
    (acc.absorbReport gen r).out = match operation gen r with
      | some (path, op) => upsert (pathKey path) (applyOp op) acc.out
      | none => acc.out := by
  unfold absorbReport operation
  cases r with
  | none => rfl
  | some resp =>
    cases resp with
    | status path => rfl
    | data data =>
      dsimp only
      split
      next e cl a _ _ _ =>
        cases attrValueToJson gen cl a data.data with
        | none => rfl
        | some json =>
          dsimp only [Option.map_some]
          split
          next hop => rw [hop]; exact out_put _ _ _
          next hop => rw [hop]; exact out_append _ _ _
          next i hop => rw [hop]; exact out_setIndex _ _ _ _
      · rfl

theorem out_foldl (gen : Tables) (reports : List (Option AttrResp)) (acc : AttrAccumulator) :
    (reports.foldl (absorbReport gen) acc).out =
      group applyOp ((operations gen reports).map fun o => (pathKey o.1, o.2)) acc.out := by
  induction reports generalizing acc with
  | nil => rfl
  | cons r reports ih =>
    rw [List.foldl_cons, ih, out_absorbReport]
    unfold operations
    rw [List.filterMap_cons]
    cases operation gen r <;> rfl

theorem absorb_eq_foldl (gen : Tables) (acc : AttrAccumulator) (report : ReportDataResp) :
    acc.absorb gen report = report.entries.foldl (absorbReport gen) acc := by
  unfold absorb ReportDataResp.entries
  cases report.attrReports <;> rfl

end AttrAccumulator

end MatterRsServer.Stack
