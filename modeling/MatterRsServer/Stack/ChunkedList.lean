import MatterRsServer.Stack.Reports
import MatterRsServer.Stack.TlvRead

/-!
# A list in one report or in chunks

The whole array is converted by one call, at depth 0; in chunks every element is a call of
its own, at depth 0 and with the epoch shift of the attribute's type, and an element that
does not convert is skipped alone. The two deliveries agree exactly when none of this shows.
-/
namespace MatterRsServer.Stack
open Lib Wire Gen Grouping

/-- The report that carries the whole array. -/
def wholeDelivery (p : Path) (elements : List Tlv) : List (Option AttrResp) :=
  [some (.data ⟨⟨some p.endpoint, some p.cluster, some p.attr, none⟩, .array elements⟩)]

/-- The empty array, then one report for each element. -/
def chunkedDelivery (p : Path) (elements : List Tlv) : List (Option AttrResp) :=
  some (.data ⟨⟨some p.endpoint, some p.cluster, some p.attr, none⟩, .array []⟩) ::
    elements.map fun e =>
      some (.data ⟨⟨some p.endpoint, some p.cluster, some p.attr, some none⟩, e⟩)

/-- The value of a path after a delivery. -/
def published (gen : Tables) (acc : AttrAccumulator) (p : Path) (delivery : List (Option AttrResp)) :
    Option Json :=
  (delivery.foldl (AttrAccumulator.absorbReport gen) acc).out.lookup (pathKey p)

/-- The element is an integer and not negative. -/
def Tlv.IsNatural : Tlv → Prop
  | .uint _ => True
  | .sint i => 0 ≤ i.toInt
  | _ => False

/-- Every element parses and nests less than `MAX_DEPTH` levels, and in a list of epochs none
is an unsigned number. -/
def ElementsAgree (ty : String) (elements : List Tlv) : Prop :=
  ∀ e ∈ elements, (e.wellFormed = true ∧ e.height < maxDepth) ∧ (IsEpoch ty → ¬ e.IsNatural)

theorem asU64_jsonOfF64 (f : Float) : (jsonOfF64 f).asU64 = none := by
  unfold jsonOfF64
  split <;> rfl

/-- The integers that are not negative are the ones that read as unsigned numbers. -/
theorem isSome_asU64_json {e : Tlv} : (e.json.asU64).isSome = true ↔ e.IsNatural := by
  cases e with
  | sint i =>
    rw [Tlv.json, jsonOfI64]
    by_cases h : i.toInt < 0
    · rw [dif_pos h]
      exact ⟨fun hsome => (by cases hsome), fun hn : 0 ≤ i.toInt => by omega⟩
    · rw [dif_neg h]
      exact ⟨fun _ => (show 0 ≤ i.toInt by omega), fun _ => rfl⟩
  | uint n => exact ⟨fun _ => trivial, fun _ => rfl⟩
  | f32 bits => simp [Tlv.json, asU64_jsonOfF64, Tlv.IsNatural]
  | f64 bits => simp [Tlv.json, asU64_jsonOfF64, Tlv.IsNatural]
  | bool | utf8 | octets | null | struct | array | list | malformed =>
    exact ⟨fun h => (by cases h), fun h => h.elim⟩

/-- One element converts alike at depth 1 and as a report of its own. -/
theorem element_agrees {ty : String} {e : Tlv} :
    ((tlvToJsonAt e 1).isSome = true ∧
        tlvToJsonAt e 1 = (tlvToJsonAt e 0).bind (applyEpoch ty)) ↔
      (e.wellFormed = true ∧ e.height < maxDepth) ∧ (IsEpoch ty → ¬ e.IsNatural) := by
  rw [tlvToJsonAt_eq e 1, tlvToJsonAt_eq e 0]
  by_cases h1 : e.wellFormed = true ∧ 1 + e.height ≤ maxDepth
  · rw [if_pos h1, if_pos ⟨h1.1, by omega⟩, Option.bind_some, eq_comm (a := some e.json),
      applyEpoch_eq_self, ← isSome_asU64_json]
    have hheight : e.height < maxDepth := by omega
    simp [h1.1, hheight]
  · rw [if_neg h1]
    exact ⟨fun h => (by cases h.1), fun h => absurd ⟨h.1.1, by omega⟩ h1⟩

/-- A filtered map loses nothing exactly when it agrees with a total one. -/
theorem map_eq_filterMap {α β : Type} {f g : α → Option β} {l : List α} :
    l.map f = (l.filterMap g).map some ↔ ∀ a ∈ l, (f a).isSome = true ∧ f a = g a := by
  induction l with
  | nil => simp
  | cons a l ih =>
    rw [List.map_cons, List.filterMap_cons, List.forall_mem_cons, ← ih]
    cases hg : g a with
    | none =>
      constructor
      · intro h
        have hlen := congrArg List.length h
        have hle := List.length_filterMap_le g l
        simp only [List.length_cons, List.length_map] at hlen
        omega
      · rintro ⟨⟨hsome, hnone⟩, _⟩
        rw [hnone] at hsome
        cases hsome
    | some b =>
      rw [List.map_cons, List.cons_eq_cons]
      refine and_congr_left fun _ => ⟨fun h => ⟨by rw [h]; rfl, h⟩, fun h => h.2⟩

theorem lookup_foldl (gen : Tables) (acc : AttrAccumulator) (p : Path)
    (delivery : List (Option AttrResp)) : published gen acc p delivery =
      (own (pathKey p) ((operations gen delivery).map fun o => (pathKey o.1, o.2))).foldl
        (fun v op => some (applyOp op v)) (acc.out.lookup (pathKey p)) := by
  unfold published
  rw [AttrAccumulator.out_foldl, lookup_group]

theorem operations_whole (gen : Tables) (p : Path) (elements : List Tlv) :
    operations gen (wholeDelivery p elements) =
      ((itemsToJson elements 1).map fun vs => (p, ListOp.replace, Json.arr vs)).toList := by
  have hconvert : attrValueToJson gen p.cluster p.attr (.array elements) =
      (itemsToJson elements 1).map Json.arr := by
    rw [attrValueToJson_eq, tlvToJsonAt, if_neg (by decide)]
    cases itemsToJson elements 1 with
    | none => rfl
    | some vs => exact applyEpoch_arr _ vs
  unfold operations wholeDelivery
  rw [List.filterMap_cons, operation]
  dsimp only
  rw [hconvert]
  cases itemsToJson elements 1 <;> rfl

theorem operations_chunked (gen : Tables) (p : Path) (elements : List Tlv) :
    operations gen (chunkedDelivery p elements) = ((ListOp.replace, Json.arr []) ::
      (elements.filterMap (attrValueToJson gen p.cluster p.attr)).map fun v =>
        (ListOp.append, v)).map fun op => (p, op) := by
  have hopen : attrValueToJson gen p.cluster p.attr (.array []) = some (.arr []) := by
    rw [attrValueToJson_eq]
    exact applyEpoch_arr _ []
  unfold operations chunkedDelivery
  rw [List.filterMap_cons, operation]
  dsimp only
  rw [hopen, Option.map_some, List.map_cons, List.map_map, List.filterMap_map, List.map_filterMap]
  rfl

theorem own_of_single (p : Path) (ops : List (ListOp × Json)) :
    own (pathKey p) ((ops.map fun o => (p, o)).map fun o => (pathKey o.1, o.2)) = ops := by
  induction ops with
  | nil => rfl
  | cons o ops ih =>
    unfold own at ih ⊢
    rw [List.map_cons, List.map_cons, List.filter_cons_of_pos (by simp), List.map_cons, ih]

/-- A whole array that does not convert leaves what was there. -/
theorem published_whole (gen : Tables) (acc : AttrAccumulator) (p : Path) (elements : List Tlv) :
    published gen acc p (wholeDelivery p elements) =
      ((itemsToJson elements 1).map Json.arr).or (acc.out.lookup (pathKey p)) := by
  rw [lookup_foldl, operations_whole]
  cases itemsToJson elements 1 with
  | none => rfl
  | some vs =>
    have hown := own_of_single p [(ListOp.replace, Json.arr vs)]
    exact congrArg (List.foldl (fun v op => some (applyOp op v)) _) hown

theorem published_chunked (gen : Tables) (acc : AttrAccumulator) (p : Path) (elements : List Tlv) :
    published gen acc p (chunkedDelivery p elements) =
      some (.arr (elements.filterMap (attrValueToJson gen p.cluster p.attr))) := by
  rw [lookup_foldl, operations_chunked, own_of_single]
  exact foldOps_appends _

/-- The element does not convert in one delivery or the other. -/
def Unconvertible (gen : Tables) (p : Path) (e : Tlv) : Prop :=
  tlvToJsonAt e 1 = none ∨ attrValueToJson gen p.cluster p.attr e = none

/-- The same value in both deliveries, and none where an element does not convert. -/
def DeliveriesAgree (gen : Tables) (acc : AttrAccumulator) (p : Path) (elements : List Tlv) : Prop :=
  published gen acc p (wholeDelivery p elements) = published gen acc p (chunkedDelivery p elements) ∧
  ((∃ e ∈ elements, Unconvertible gen p e) →
    published gen acc p (wholeDelivery p elements) = none ∧
    published gen acc p (chunkedDelivery p elements) = none)

theorem itemsToJson_eq_filterMap {gen : Tables} {p : Path} {elements : List Tlv} :
    itemsToJson elements 1 = some (elements.filterMap (attrValueToJson gen p.cluster p.attr)) ↔
      ElementsAgree (attrType gen p.cluster p.attr) elements := by
  rw [itemsToJson_eq_mapM, Result.mapM_eq_some_iff_map, map_eq_filterMap]
  exact forall₂_congr fun e _ => element_agrees

theorem not_unconvertible {gen : Tables} {p : Path} {elements : List Tlv}
    (h : ElementsAgree (attrType gen p.cluster p.attr) elements) :
    ¬ ∃ e ∈ elements, Unconvertible gen p e := by
  rintro ⟨e, he, hnone⟩
  obtain ⟨hsome, hsame⟩ := element_agrees.mpr (h e he)
  rcases hnone with hnone | hnone
  · rw [hnone] at hsome
    cases hsome
  · rw [hsame, ← attrValueToJson_eq, hnone] at hsome
    cases hsome

theorem isSome_itemsToJson {elements : List Tlv}
    (h : ∀ e ∈ elements, tlvToJsonAt e 1 ≠ none) : ∃ vs, itemsToJson elements 1 = some vs := by
  induction elements with
  | nil => exact ⟨[], rfl⟩
  | cons e rest ih =>
    obtain ⟨v, hv⟩ := Option.ne_none_iff_exists'.mp (h e (by simp))
    obtain ⟨vs, hvs⟩ := ih fun e' he' => h e' (by simp [he'])
    exact ⟨v :: vs, by rw [itemsToJson, hv, hvs]⟩

theorem elementsAgree_of_deliveriesAgree {gen : Tables} {acc : AttrAccumulator} {p : Path}
    {elements : List Tlv} (h : DeliveriesAgree gen acc p elements) :
    ElementsAgree (attrType gen p.cluster p.attr) elements := by
  obtain ⟨hsame, hnone⟩ := h
  rw [published_whole, published_chunked] at hsame
  by_cases hfail : ∃ e ∈ elements, Unconvertible gen p e
  · have hpublished := (hnone hfail).2
    rw [published_chunked] at hpublished
    cases hpublished
  · obtain ⟨vs, hvs⟩ := isSome_itemsToJson fun e he hnone => hfail ⟨e, he, .inl hnone⟩
    rw [hvs, Option.map_some, Option.some_or, Option.some_inj, Json.arr.injEq] at hsame
    exact itemsToJson_eq_filterMap.mp (hvs.trans (congrArg some hsame))

/-- For every table, accumulator, path and list of elements the two deliveries agree exactly
when the elements do; what they publish is then the array of all of them. -/
theorem whole_eq_chunked (gen : Tables) (acc : AttrAccumulator) (p : Path) (elements : List Tlv) :
    (DeliveriesAgree gen acc p elements ↔ ElementsAgree (attrType gen p.cluster p.attr) elements) ∧
    (ElementsAgree (attrType gen p.cluster p.attr) elements →
      published gen acc p (wholeDelivery p elements) = some (.arr (elements.map Tlv.json)) ∧
      published gen acc p (chunkedDelivery p elements) = some (.arr (elements.map Tlv.json))) := by
  have hpublished : ElementsAgree (attrType gen p.cluster p.attr) elements →
      published gen acc p (wholeDelivery p elements) = some (.arr (elements.map Tlv.json)) ∧
      published gen acc p (chunkedDelivery p elements) = some (.arr (elements.map Tlv.json)) := by
    intro hagree
    have hitems := itemsToJson_eq_filterMap.mpr hagree
    have hjson : itemsToJson elements 1 = some (elements.map Tlv.json) := by
      rw [itemsToJson_eq_mapM, Result.mapM_eq_some_iff_map, List.map_map]
      refine List.map_congr_left fun e he => ?_
      obtain ⟨⟨hwf, hheight⟩, _⟩ := hagree e he
      rw [tlvToJsonAt_eq, if_pos ⟨hwf, by omega⟩]
      rfl
    constructor
    · rw [published_whole, hjson]
      rfl
    · rw [hjson] at hitems
      rw [published_chunked, ← Option.some.inj hitems]
  refine ⟨⟨elementsAgree_of_deliveriesAgree, fun hagree => ?_⟩, hpublished⟩
  obtain ⟨hwhole, hchunked⟩ := hpublished hagree
  exact ⟨hwhole.trans hchunked.symm, fun hfail => absurd hfail (not_unconvertible hagree)⟩

section TooDeep

/-- `n` arrays in one another. -/
def nested : Nat → Tlv
  | 0 => .null
  | n + 1 => .array [nested n]

def partsList : Path := ⟨0, 29, 3⟩

/-- A list whose second element nests too deep: as a whole it is not published, in chunks it
is published without that element. -/
theorem chunkedList_missesElement :
    published ⟨[], List.Pairwise.nil⟩ ∅ partsList (wholeDelivery partsList [.uint 11, nested 33]) =
        none ∧
      published ⟨[], List.Pairwise.nil⟩ ∅ partsList
        (chunkedDelivery partsList [.uint 11, nested 33]) = some (.arr [.ofU64 11]) ∧
      ¬ DeliveriesAgree ⟨[], List.Pairwise.nil⟩ ∅ partsList [.uint 11, nested 33] := by
  refine ⟨?_, ?_, fun h => ?_⟩
  · rw [published_whole]
    rfl
  · rw [published_chunked]
    rfl
  · have hsame := h.1
    rw [published_whole, published_chunked] at hsame
    cases hsame

theorem whole_eq_chunked_parts :
    DeliveriesAgree ⟨[], List.Pairwise.nil⟩ ∅ partsList [.uint 11, .uint 22] := by
  refine (whole_eq_chunked _ _ _ _).1.mpr fun e he => ⟨?_, ?_⟩
  · simp only [List.mem_cons, List.not_mem_nil, or_false] at he
    rcases he with rfl | rfl <;> decide
  · rintro (h | h) <;> cases h

end TooDeep

end MatterRsServer.Stack
