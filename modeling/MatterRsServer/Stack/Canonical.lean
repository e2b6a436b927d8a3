import MatterRsServer.Stack.NamedRoundTrip
import MatterRsServer.Stack.TlvCalls

/-!
# Canonical structs

A value that the writer accepts becomes one element that mirrors it: an array item by item, a
struct with one member for every key, in ascending order of the tags. A value that it rejects
has a fault that can be named.
-/
namespace MatterRsServer.Stack
open Lib Wire Gen

def Tlv.isScalar : Tlv → Bool
  | .struct _ | .array _ | .list _ | .malformed => false
  | _ => true

mutual
/-- The element has the shape of the value that stands in the slot. -/
def Mirrors (hint : Option TypeHint) : Json → Tlv → Prop
  | .arr items, t => ∃ ts, t = .array ts ∧ ItemsMirror (itemHint hint) items ts
  | .obj members, t => ∃ ws sorted, MembersMirror (slotResolve hint members) members ws ∧
      sorted.Perm ws ∧ sorted.Pairwise (fun a b => a.1 < b.1) ∧ t = contextStruct sorted
  | .null, t => t = .null
  | .bool _, t => t.isScalar = true
  | .num _, t => t.isScalar = true
  | .str _, t => t.isScalar = true

/-- One element for each item, in order. -/
def ItemsMirror (hint : Option TypeHint) : List Json → List Tlv → Prop
  | [], ts => ts = []
  | item :: rest, ts => ∃ t ts', ts = t :: ts' ∧ Mirrors hint item t ∧ ItemsMirror hint rest ts'

/-- One element for each member, under the tag that its key resolves to. -/
def MembersMirror (resolve : Resolve) : List (String × Json) → List (UInt8 × Tlv) → Prop
  | [], ws => ws = []
  | (key, v) :: rest, ws => ∃ n hint t ws', ws = (n, t) :: ws' ∧ resolve key = some (n, hint) ∧
      Mirrors hint v t ∧ MembersMirror resolve rest ws'
end

/-- A value of the base type's kind, and within its range. -/
def fitsBase (v : Json) : Base → Bool
  | .bool => v.asBool.isSome
  | .unsigned bytes => v.asU64.any fun n => n < 2 ^ (8 * bytes)
  | .signed bytes => v.asI64.any fun n => -2 ^ (8 * bytes - 1) ≤ n ∧ n < 2 ^ (8 * bytes - 1)
  | .single => (asF64 v).any fun x => x.toFloat32.isFinite
  | .double => (asF64 v).isSome
  | .utf8 => v.asStr.isSome
  | .octets => (v.asStr.bind base64Decode).isSome
  | .epochS => v.asU64.any fun n => matterEpochOffsetS ≤ n ∧ n < matterEpochOffsetS + 2 ^ 32
  | .epochUs => v.asU64.any fun n => matterEpochOffsetUs ≤ n

/-- The struct type that a hint's cluster knows. -/
def hintStruct (h : TypeHint) : Option (Struct × Cluster) :=
  h.cluster.bind fun c => (c.findStruct h.ty).map fun nested => (nested, c)

def isObject : Json → Bool
  | .obj _ => true
  | _ => false

/-- The value is of the kind that its slot is hinted to take; its parts are not looked at. Null
fits everywhere, and everything fits where nothing is known. -/
def fits (hint : Option TypeHint) (v : Json) : Bool :=
  match hint with
  | none => true
  | some h =>
    v.isNull ||
      if h.isList then v.asArray.isSome
      else
        match baseType h.ty with
        | some base => fitsBase v base
        | none => (hintStruct h).isNone || isObject v

/-- The tag that a key resolves to. -/
def keyTag (resolve : Resolve) (key : String) : Option UInt8 := (resolve key).map Prod.fst

/-- What makes the writer reject a value: it does not fit its slot, two of its keys resolve to
one tag, a key resolves to none, or a part of it is rejected. -/
inductive Faulty : Option TypeHint → Json → Prop
  | unfit {hint : Option TypeHint} {v : Json} (h : fits hint v = false) : Faulty hint v
  | item {hint : Option TypeHint} {items : List Json} {item : Json} (hitem : item ∈ items)
      (h : Faulty (itemHint hint) item) : Faulty hint (.arr items)
  | unknownKey {hint : Option TypeHint} {members : List (String × Json)} {m : String × Json}
      (hm : m ∈ members) (h : keyTag (slotResolve hint members) m.1 = none) :
      Faulty hint (.obj members)
  | sameTag {hint : Option TypeHint} {members : List (String × Json)} {a b : String × Json}
      (hab : List.Sublist [a, b] members)
      (h : keyTag (slotResolve hint members) a.1 = keyTag (slotResolve hint members) b.1) :
      Faulty hint (.obj members)
  | member {hint : Option TypeHint} {members : List (String × Json)} {m : String × Json}
      (hm : m ∈ members) {n : UInt8} {memberHint : Option TypeHint}
      (hresolve : slotResolve hint members m.1 = some (n, memberHint))
      (h : Faulty memberHint m.2) : Faulty hint (.obj members)

/-- No base type has integers of no width. -/
theorem baseType_width {ty : String} {base : Base} (h : baseType ty = some base) :
    base ≠ .unsigned 0 ∧ base ≠ .signed 0 := by
  have htable : ∀ e ∈ baseTypes, e.2 ≠ .unsigned 0 ∧ e.2 ≠ .signed 0 := by decide
  obtain ⟨e, he, rfl⟩ := Option.map_eq_some_iff.mp h
  exact htable e (List.mem_of_find?_eq_some he)

theorem isSome_ite_none {α : Type} {p : Prop} [Decidable p] {x : α} :
    (if p then some x else none).isSome = decide p := by
  by_cases hp : p <;> simp [hp]

theorem isSome_none_ite {α : Type} {p : Prop} [Decidable p] {x : α} :
    (if p then none else some x).isSome = decide (¬ p) := by
  by_cases hp : p <;> simp [hp]

theorem writeUnsigned_isSome (v : Json) {bytes : Nat} (hbytes : bytes ≠ 0) :
    (writeUnsigned v bytes).isSome = v.asU64.any fun n => n < 2 ^ (8 * bytes) := by
  unfold writeUnsigned
  cases hn : v.asU64 with
  | none => rfl
  | some n =>
    match bytes with
    | 1 | 2 | 4 => exact isSome_ite_none
    | 3 | 5 | 6 | 7 =>
      refine isSome_none_ite.trans (decide_eq_decide.mpr ?_)
      omega
    | 0 => exact absurd rfl hbytes
    | k + 8 =>
      have hpow : 2 ^ 64 ≤ 2 ^ (8 * (k + 8)) := Nat.pow_le_pow_right (by decide) (by omega)
      have hn := lt_of_lt_of_le (asU64_lt hn) hpow
      rw [Option.any_some, decide_eq_true hn]
      rfl

theorem writeSigned_isSome (v : Json) {bytes : Nat} (hbytes : bytes ≠ 0) :
    (writeSigned v bytes).isSome =
      v.asI64.any fun n => -2 ^ (8 * bytes - 1) ≤ n ∧ n < 2 ^ (8 * bytes - 1) := by
  unfold writeSigned
  cases hn : v.asI64 with
  | none => rfl
  | some n =>
    match bytes with
    | 1 | 2 | 4 => exact isSome_ite_none
    | 3 | 5 | 6 | 7 =>
      refine isSome_none_ite.trans (decide_eq_decide.mpr ?_)
      omega
    | 0 => exact absurd rfl hbytes
    | k + 8 =>
      have hrange := asI64_range hn
      have hpow : (2 : Int) ^ 63 ≤ 2 ^ (8 * (k + 8) - 1) := by
        exact_mod_cast Nat.pow_le_pow_right (show 0 < 2 by decide) (show 63 ≤ 8 * (k + 8) - 1 by omega)
      have hn : -2 ^ (8 * (k + 8) - 1) ≤ n ∧ n < 2 ^ (8 * (k + 8) - 1) :=
        ⟨(Int.neg_le_neg hpow).trans hrange.1, lt_of_lt_of_le hrange.2 hpow⟩
      rw [Option.any_some, decide_eq_true hn]
      rfl

theorem writeBase_isSome {ty : String} {base : Base} (hbase : baseType ty = some base) (v : Json) :
    (writeBase v base).isSome = fitsBase v base := by
  have hwidth := baseType_width hbase
  cases base with
  | bool | utf8 | octets | double => exact Option.isSome_map
  | unsigned bytes => exact writeUnsigned_isSome v fun h => hwidth.1 (h ▸ rfl)
  | signed bytes => exact writeSigned_isSome v fun h => hwidth.2 (h ▸ rfl)
  | single =>
    unfold writeBase fitsBase
    cases asF64 v with
    | none => rfl
    | some x => simp [isSome_ite_none]
  | epochS =>
    unfold writeBase fitsBase toMatterEpoch
    cases v.asU64 with
    | none => rfl
    | some n =>
      by_cases hn : matterEpochOffsetS ≤ n
      · dsimp only
        rw [if_pos hn, Option.any_some]
        refine isSome_ite_none.trans (decide_eq_decide.mpr ?_)
        omega
      · simp [hn]
  | epochUs =>
    unfold writeBase fitsBase toMatterEpoch
    cases v.asU64 with
    | none => rfl
    | some n => simp [isSome_ite_none]

theorem writeBase_container {v : Json} (hv : v.asArray.isSome = true ∨ (∃ members, v = .obj members))
    {ty : String} {base : Base} (hbase : baseType ty = some base) :
    writeBase v base = none ∧ fitsBase v base = false := by
  have hfits : fitsBase v base = false := by
    rcases hv with harr | ⟨members, rfl⟩
    · cases v with
      | arr items => cases base <;> rfl
      | _ => cases harr
    · cases base <;> rfl
  refine ⟨?_, hfits⟩
  rw [← Option.isNone_iff_eq_none, ← Option.not_isSome, writeBase_isSome hbase, hfits]
  rfl

theorem writeHinted_eq {v : Json} (hv : v.isNull = false) (h : TypeHint) :
    writeHinted v h = match baseType h.ty with
      | some base => writeBase v base
      | none =>
        match hintStruct h with
        | some (nested, cluster) => writeHintedStruct v nested cluster
        | none => writeHeuristic v := by
  unfold writeHinted
  rw [if_neg (by simp [hv])]
  rfl

theorem fits_base {ty : String} {base : Base} (hbase : baseType ty = some base)
    (cluster : Option Cluster) {v : Json} (hv : v.isNull = false) :
    fits (some ⟨ty, false, cluster⟩) v = fitsBase v base := by
  unfold fits
  simp [hv, hbase]

theorem fits_struct {ty : String} {cluster : Option Cluster} (hbase : baseType ty = none)
    {found : Struct × Cluster} (hstruct : hintStruct ⟨ty, false, cluster⟩ = some found) {v : Json}
    (hv : v.isNull = false) : fits (some ⟨ty, false, cluster⟩) v = isObject v := by
  unfold fits
  simp [hv, hbase, hstruct]

theorem fits_open {ty : String} {cluster : Option Cluster} (hbase : baseType ty = none)
    (hstruct : hintStruct ⟨ty, false, cluster⟩ = none) (v : Json) :
    fits (some ⟨ty, false, cluster⟩) v = true := by
  unfold fits
  simp [hbase, hstruct]

theorem writeJson_arr (items : List Json) (hint : Option TypeHint) :
    writeJson (.arr items) hint = if fits hint (.arr items) then
      (writeItems items (itemHint hint)).map Tlv.array else none := by
  cases hint with
  | none =>
    unfold writeJson writeHeuristic
    rfl
  | some h =>
    obtain ⟨ty, isList, cluster⟩ := h
    cases isList with
    | true =>
      unfold writeJson
      rfl
    | false =>
      rw [writeJson_scalar, writeHinted_eq rfl]
      cases hbase : baseType ty with
      | some base =>
        obtain ⟨hnone, hfits⟩ := writeBase_container (v := .arr items) (.inl rfl) hbase
        rw [fits_base hbase _ rfl, hfits]
        exact hnone
      | none =>
        cases hstruct : hintStruct ⟨ty, false, cluster⟩ with
        | some found =>
          rw [fits_struct hbase hstruct rfl]
          dsimp only
          rw [writeHintedStruct]
          · rfl
          · simp
        | none =>
          rw [fits_open hbase hstruct]
          dsimp only
          unfold writeHeuristic
          rfl

theorem writeJson_obj (members : List (String × Json)) (hint : Option TypeHint) :
    writeJson (.obj members) hint = if fits hint (.obj members) then
      emitStruct members (slotResolve hint members) else none := by
  cases hint with
  | none =>
    unfold writeJson writeHeuristic writeTagBasedStruct
    rfl
  | some h =>
    obtain ⟨ty, isList, cluster⟩ := h
    cases isList with
    | true =>
      unfold writeJson
      rfl
    | false =>
      rw [writeJson_scalar, writeHinted_eq rfl]
      cases hbase : baseType ty with
      | some base =>
        obtain ⟨hnone, hfits⟩ := writeBase_container (v := .obj members) (.inr ⟨_, rfl⟩) hbase
        rw [fits_base hbase _ rfl, hfits]
        exact hnone
      | none =>
        have hslot : slotStruct (some ⟨ty, false, cluster⟩) = hintStruct ⟨ty, false, cluster⟩ := by
          simp only [slotStruct, hbase, hintStruct]
        unfold slotResolve
        rw [hslot]
        cases hstruct : hintStruct ⟨ty, false, cluster⟩ with
        | some found =>
          rw [fits_struct hbase hstruct rfl]
          dsimp only
          rw [writeHintedStruct, writeTagBasedStruct, writeJsonNamed]
          split <;> rfl
        | none =>
          rw [fits_open hbase hstruct]
          dsimp only
          unfold writeHeuristic writeTagBasedStruct
          rfl

theorem element_isScalar (s : Scalar) : s.element.isScalar = true := by cases s <;> rfl

theorem writeBase_isScalar {v : Json} {base : Base} {t : Tlv} (h : writeBase v base = some t) :
    t.isScalar = true := by
  rw [← Calls.writeBase_element] at h
  obtain ⟨s, _, rfl⟩ := Option.map_eq_some_iff.mp h
  exact element_isScalar s

/-- A value without parts. -/
def isLeaf : Json → Bool
  | .arr _ | .obj _ => false
  | _ => true

theorem writeHeuristic_leaf {v : Json} (hv : isLeaf v = true) :
    ∃ t, writeHeuristic v = some t ∧ t.isScalar = true := by
  unfold writeHeuristic
  cases v with
  | null | bool | str => exact ⟨_, rfl, rfl⟩
  | num n =>
    cases n with
    | posInt n hlt => exact ⟨_, rfl, rfl⟩
    | negInt m hpos hle => exact ⟨_, rfl, rfl⟩
    | float bits => exact ⟨_, rfl, rfl⟩
  | arr | obj => cases hv

/-- A value without parts is written when it fits, as a scalar. -/
theorem writeJson_leaf {v : Json} (hv : isLeaf v = true) (hint : Option TypeHint) :
    (writeJson v hint).isSome = fits hint v ∧
      ∀ t, writeJson v hint = some t → t.isScalar = true := by
  cases hint with
  | none =>
    obtain ⟨t, ht, hscalar⟩ := writeHeuristic_leaf hv
    have hwrite : writeJson v none = some t := by
      unfold writeJson
      exact ht
    rw [hwrite]
    refine ⟨rfl, fun t' ht' => ?_⟩
    cases ht'
    exact hscalar
  | some h =>
    obtain ⟨ty, isList, cluster⟩ := h
    cases hnull : v.isNull with
    | true =>
      cases v with
      | null =>
        rw [writeJson_null]
        refine ⟨rfl, fun t ht => ?_⟩
        cases ht
        rfl
      | _ => cases hnull
    | false =>
      cases isList with
      | true =>
        have harr : v.asArray = none := by
          cases v with
          | arr items => cases hv
          | _ => rfl
        rw [writeJson_list_scalar hnull harr]
        refine ⟨?_, fun t ht => (by cases ht)⟩
        unfold fits
        simp [hnull, harr]
      | false =>
        rw [writeJson_scalar, writeHinted_eq hnull]
        cases hbase : baseType ty with
        | some base =>
          rw [fits_base hbase _ hnull]
          exact ⟨writeBase_isSome hbase v, fun t ht => writeBase_isScalar ht⟩
        | none =>
          cases hstruct : hintStruct ⟨ty, false, cluster⟩ with
          | some found =>
            rw [fits_struct hbase hstruct hnull]
            dsimp only
            rw [writeHintedStruct]
            · cases v with
              | obj members => cases hv
              | _ => exact ⟨rfl, fun t ht => (by cases ht)⟩
            · rintro members rfl
              cases hv
          | none =>
            obtain ⟨t, ht, hscalar⟩ := writeHeuristic_leaf hv
            rw [fits_open hbase hstruct]
            dsimp only
            rw [ht]
            refine ⟨rfl, fun t' ht' => ?_⟩
            cases ht'
            exact hscalar

theorem itemsMirror_of_forall₂ {hint : Option TypeHint} {items : List Json} {ts : List Tlv}
    (h : List.Forall₂ (Mirrors hint) items ts) : ItemsMirror hint items ts := by
  induction h with
  | nil => rfl
  | cons ht _ ih => exact ⟨_, _, rfl, ht, ih⟩

theorem membersMirror_of_forall₂ {resolve : Resolve} {members : List (String × Json)}
    {ws : List (UInt8 × Tlv)}
    (h : List.Forall₂ (fun m w => ∃ hint, resolve m.1 = some (w.1, hint) ∧ Mirrors hint m.2 w.2)
      members ws) : MembersMirror resolve members ws := by
  induction h with
  | nil => rfl
  | cons hm _ ih =>
    obtain ⟨hint, hresolve, ht⟩ := hm
    exact ⟨_, hint, _, _, rfl, hresolve, ht, ih⟩

/-- Whatever is written of a value mirrors it. -/
theorem mirrors_of_write (v : Json) :
    ∀ hint t, writeJson v hint = some t → Mirrors hint v t := by
  induction v using Json.nestedInduction with
  | null =>
    intro hint t ht
    cases hint with
    | none =>
      unfold writeJson writeHeuristic at ht
      exact (Option.some.inj ht).symm
    | some h =>
      rw [writeJson_null] at ht
      exact (Option.some.inj ht).symm
  | bool b => exact fun hint t ht => (writeJson_leaf rfl hint).2 t ht
  | num n => exact fun hint t ht => (writeJson_leaf rfl hint).2 t ht
  | str s => exact fun hint t ht => (writeJson_leaf rfl hint).2 t ht
  | arr items ih =>
    intro hint t ht
    rw [writeJson_arr] at ht
    split at ht
    next =>
      obtain ⟨ts, hts, rfl⟩ := Option.map_eq_some_iff.mp ht
      rw [Mirrors]
      refine ⟨ts, rfl, itemsMirror_of_forall₂ ?_⟩
      have hitems := (List.forall₂_and_left _ _).mpr ⟨ih, writeItems_eq_some.mp hts⟩
      exact hitems.imp fun item t h => h.1 _ t h.2
    next => cases ht
  | obj members ih =>
    intro hint t ht
    rw [writeJson_obj] at ht
    split at ht
    next =>
      obtain ⟨ws, hws, hnd, rfl⟩ := emitStruct_eq_some.mp ht
      rw [Mirrors]
      refine ⟨ws, Entries.insertAll ws [], membersMirror_of_forall₂ ?_, Entries.perm_insertAll hnd,
        Entries.Sorted.insertAll ws List.Pairwise.nil, rfl⟩
      have hmembers := (List.forall₂_and_left _ _).mpr ⟨ih, hws⟩
      refine hmembers.imp fun m w h => ?_
      obtain ⟨hm, hint, hresolve, hwrite⟩ := h
      exact ⟨hint, hresolve, hm hint w.2 hwrite⟩
    next => cases ht

theorem writeItems_none_of_mem {items : List Json} {hint : Option TypeHint} {item : Json}
    (hitem : item ∈ items) (h : writeJson item hint = none) : writeItems items hint = none := by
  cases hts : writeItems items hint with
  | none => rfl
  | some ts =>
    obtain ⟨t, _, ht⟩ := exists_mem_of_forall₂ (writeItems_eq_some.mp hts) hitem
    rw [h] at ht
    cases ht

theorem forall₂_of_forall_exists {α β : Type} {r : α → β → Prop} {l : List α}
    (h : ∀ a ∈ l, ∃ b, r a b) : ∃ u, List.Forall₂ r l u := by
  induction l with
  | nil => exact ⟨[], .nil⟩
  | cons a l ih =>
    obtain ⟨b, hb⟩ := h a List.mem_cons_self
    obtain ⟨u, hu⟩ := ih fun a ha => h a (List.mem_cons_of_mem _ ha)
    exact ⟨b :: u, .cons hb hu⟩

/-- A list of items is written unless one of them is not. -/
theorem writeItems_eq_none {items : List Json} {hint : Option TypeHint} :
    writeItems items hint = none ↔ ∃ item ∈ items, writeJson item hint = none := by
  constructor
  · intro h
    by_contra hall
    push Not at hall
    obtain ⟨ts, hts⟩ := forall₂_of_forall_exists fun item hitem =>
      Option.ne_none_iff_exists'.mp (hall item hitem)
    rw [writeItems_eq_some.mpr hts] at h
    cases h
  · rintro ⟨item, hitem, h⟩
    exact writeItems_none_of_mem hitem h

theorem keyTag_of_writes {resolve : Resolve} {members : List (String × Json)}
    {ws : List (UInt8 × Tlv)} (h : List.Forall₂ (WritesMember resolve) members ws) :
    members.map (fun m => keyTag resolve m.1) = ws.map fun w => some w.1 := by
  induction h with
  | nil => rfl
  | cons hm _ ih =>
    obtain ⟨hint, hresolve, _⟩ := hm
    rw [List.map_cons, List.map_cons, ih]
    simp [keyTag, hresolve]

/-- A struct is written unless a key resolves to no tag, two keys resolve to one, or a member
is not written. -/
theorem emitStruct_eq_none {members : List (String × Json)} {resolve : Resolve} :
    emitStruct members resolve = none ↔ (∃ m ∈ members, keyTag resolve m.1 = none) ∨
      (∃ a b, List.Sublist [a, b] members ∧ keyTag resolve a.1 = keyTag resolve b.1) ∨
      ∃ m ∈ members, ∃ n hint, resolve m.1 = some (n, hint) ∧ writeJson m.2 hint = none := by
  constructor
  · intro h
    by_contra hall
    push Not at hall
    obtain ⟨hkeys, htags, hwrites⟩ := hall
    have hwritten : ∀ m ∈ members, ∃ w, WritesMember resolve m w := by
      intro m hm
      obtain ⟨⟨n, hint⟩, hresolve⟩ : ∃ slot, resolve m.1 = some slot := by
        refine Option.ne_none_iff_exists'.mp fun hnone => hkeys m hm ?_
        rw [keyTag, hnone, Option.map_none]
      obtain ⟨t, ht⟩ := Option.ne_none_iff_exists'.mp (hwrites m hm n hint hresolve)
      exact ⟨(n, t), hint, hresolve, ht⟩
    obtain ⟨ws, hws⟩ := forall₂_of_forall_exists hwritten
    have hnd : (ws.map Prod.fst).Nodup := by
      by_contra hdup
      rw [List.nodup_iff_sublist] at hdup
      push Not at hdup
      obtain ⟨n, hn⟩ := hdup
      have hsub := hn.map some
      rw [List.map_map] at hsub
      change List.Sublist [some n, some n] (ws.map fun w => some w.1) at hsub
      rw [← keyTag_of_writes hws] at hsub
      obtain ⟨pair, hpair, hkeys⟩ := List.sublist_map_iff.mp hsub
      have hlen : pair.length = 2 := by simpa using (congrArg List.length hkeys).symm
      obtain ⟨a, b, rfl⟩ := List.length_eq_two.mp hlen
      simp only [List.map_cons, List.map_nil, List.cons.injEq] at hkeys
      exact htags a b hpair (hkeys.1.symm.trans hkeys.2.1)
    rw [emitStruct_eq_some.mpr ⟨ws, hws, hnd, rfl⟩] at h
    cases h
  · intro h
    cases hemit : emitStruct members resolve with
    | none => rfl
    | some t =>
      obtain ⟨ws, hws, hnd, _⟩ := emitStruct_eq_some.mp hemit
      rcases h with ⟨m, hm, hkey⟩ | ⟨a, b, hab, hkey⟩ | ⟨m, hm, n, hint, hresolve, hwrite⟩
      · obtain ⟨w, _, hint, hresolve, _⟩ := exists_mem_of_forall₂ hws hm
        rw [keyTag, hresolve] at hkey
        cases hkey
      · have hsub := hab.map fun m => keyTag resolve m.1
        rw [keyTag_of_writes hws] at hsub
        have htags : (ws.map fun w => some w.1).Nodup := by
          have hsome := hnd.map fun _ _ => Option.some.inj
          rw [List.map_map] at hsome
          exact hsome
        have hpair := htags.sublist hsub
        rw [List.map_cons, hkey] at hpair
        simp at hpair
      · obtain ⟨w, _, hint', hresolve', hwrite'⟩ := exists_mem_of_forall₂ hws hm
        rw [hresolve] at hresolve'
        obtain ⟨_, rfl⟩ := Prod.mk.inj (Option.some.inj hresolve')
        rw [hwrite] at hwrite'
        cases hwrite'

/-- The writer rejects exactly the values with a fault. -/
theorem writeJson_eq_none (v : Json) : ∀ hint, writeJson v hint = none ↔ Faulty hint v := by
  have hsound : ∀ {hint v}, Faulty hint v → writeJson v hint = none := by
    intro hint v h
    induction h with
    | @unfit hint v h =>
      cases hleaf : isLeaf v with
      | true =>
        rw [← Option.isNone_iff_eq_none, ← Option.not_isSome, (writeJson_leaf hleaf hint).1, h]
        rfl
      | false =>
        cases v with
        | arr items => rw [writeJson_arr, h, if_neg (by simp)]
        | obj members => rw [writeJson_obj, h, if_neg (by simp)]
        | _ => cases hleaf
    | item hitem _ ih =>
      rw [writeJson_arr, writeItems_eq_none.mpr ⟨_, hitem, ih⟩]
      exact ite_self _
    | unknownKey hm h =>
      rw [writeJson_obj, emitStruct_eq_none.mpr (.inl ⟨_, hm, h⟩)]
      exact ite_self _
    | sameTag hab h =>
      rw [writeJson_obj, emitStruct_eq_none.mpr (.inr (.inl ⟨_, _, hab, h⟩))]
      exact ite_self _
    | member hm hresolve _ ih =>
      rw [writeJson_obj, emitStruct_eq_none.mpr (.inr (.inr ⟨_, hm, _, _, hresolve, ih⟩))]
      exact ite_self _
  have hleaf : ∀ {v}, isLeaf v = true → ∀ hint, writeJson v hint = none → Faulty hint v := by
    intro v hv hint h
    refine .unfit ?_
    rw [← (writeJson_leaf hv hint).1, h]
    rfl
  refine fun hint => ⟨?_, hsound⟩
  induction v using Json.nestedInduction generalizing hint with
  | null => exact hleaf rfl hint
  | bool b => exact hleaf rfl hint
  | num n => exact hleaf rfl hint
  | str s => exact hleaf rfl hint
  | arr items ih =>
    intro h
    rw [writeJson_arr] at h
    split at h
    next =>
      rw [Option.map_eq_none_iff] at h
      obtain ⟨item, hitem, hwrite⟩ := writeItems_eq_none.mp h
      exact .item hitem (ih item hitem _ hwrite)
    next hfits => exact .unfit (Bool.eq_false_iff.mpr hfits)
  | obj members ih =>
    intro h
    rw [writeJson_obj] at h
    split at h
    next =>
      rcases emitStruct_eq_none.mp h with ⟨m, hm, hkey⟩ | ⟨a, b, hab, hkey⟩ | ⟨m, hm, n, mh, hr, hw⟩
      · exact .unknownKey hm hkey
      · exact .sameTag hab hkey
      · exact .member hm hr (ih m hm _ hw)
    next hfits => exact .unfit (Bool.eq_false_iff.mpr hfits)

/-- For every value, hint and tag: the writer fails exactly when the value has a fault, at any
level; else its calls are one well-formed element under the tag, and it mirrors the value. -/
theorem writeJson_canonical (tag : CallTag) (v : Json) (hint : Option TypeHint) :
    (Calls.writeJson tag v hint = none ↔ Faulty hint v) ∧
    ∀ calls, Calls.writeJson tag v hint = some calls →
      ∃ t, readCalls calls = some (tag, t) ∧ Mirrors hint v t := by
  have hrel := writeJson_rel v tag hint
  rw [← writeJson_eq_none]
  cases hcalls : Calls.writeJson tag v hint with
  | none =>
    rw [hcalls] at hrel
    cases hwrite : writeJson v hint with
    | none => exact ⟨iff_of_true rfl rfl, fun calls h => (by cases h)⟩
    | some t =>
      rw [hwrite] at hrel
      cases hrel
  | some calls =>
    rw [hcalls] at hrel
    cases hwrite : writeJson v hint with
    | none =>
      rw [hwrite] at hrel
      cases hrel
    | some t =>
      rw [hwrite] at hrel
      refine ⟨iff_of_false (by simp) (by simp), fun calls' h => ?_⟩
      cases h
      cases hrel with
      | some hemits => exact ⟨t, hemits.readCalls, mirrors_of_write v hint t hwrite⟩

def tenTwoZero : Json := .obj [("0", .ofU64 0), ("10", .ofU64 10), ("2", .ofU64 2)]

/-- Keys come in the order of their texts, members go out in the order of their tags. -/
theorem writeJson_canonical_tenTwoZero : ∃ t,
    readCalls [.startStruct .anonymous, .scalar (.context 0) (.u64 0), .scalar (.context 2) (.u64 2),
      .scalar (.context 10) (.u64 10), .endContainer] = some (.anonymous, t) ∧
    Mirrors none tenTwoZero t := by
  have hscalar : ∀ n m, Calls.writeJson (.context n) (.ofU64 m) none =
      some [.scalar (.context n) (.u64 m)] := by
    intro n m
    unfold Calls.writeJson Calls.writeHeuristic
    simp [Json.ofU64, Json.asU64]
  have hcalls : Calls.writeJson .anonymous tenTwoZero none =
      some [.startStruct .anonymous, .scalar (.context 0) (.u64 0),
        .scalar (.context 2) (.u64 2), .scalar (.context 10) (.u64 10), .endContainer] := by
    have hcollect : collectMembers [("0", .ofU64 0), ("10", .ofU64 10), ("2", .ofU64 2)]
        (resolveTag none) = some [(0, none, .ofU64 0), (2, none, .ofU64 2), (10, none, .ofU64 10)] := by
      rfl
    unfold tenTwoZero Calls.writeJson Calls.writeHeuristic Calls.writeTagBasedStruct
    rw [Calls.emitStruct_eq, hcollect]
    simp [hscalar, structCalls]
  exact (writeJson_canonical .anonymous tenTwoZero none).2 _ hcalls

end MatterRsServer.Stack
