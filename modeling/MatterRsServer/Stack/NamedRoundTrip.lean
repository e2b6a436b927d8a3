import MatterRsServer.Stack.TlvWrite

/-!
# A command payload there and back

The writer follows the type of a slot, the reader only the table of field codes. Both walk
the same value, and what comes back differs from what was sent in three kinds of slots: the
elements of a list of epochs, an integer in a slot of a float type, and an epoch field whose
type name is also that of a struct of the cluster.
-/
namespace MatterRsServer.Stack
open Lib Wire Gen

/-- A field table as the IDL gives it. -/
structure TableOk (fields : List Field) : Prop where
  names : fields.Pairwise fun a b => Text.eqIgnoreAsciiCase a.name b.name = false
  notDecimal : ∀ f ∈ fields, parseU8 f.name = none
  codes : fields.Pairwise fun a b => a.code ≠ b.code
  codesFit : ∀ f ∈ fields, f.code.toNat < 256

/-- The declared name of a tag; of an undeclared one, the tag in decimal. -/
def memberName (fields : List Field) (n : UInt8) : String :=
  match fields.find? fun f => f.code = n.toUInt32 with
  | some f => f.name
  | none => n.toNat.repr

/-- The struct of the cluster that the values of a slot are. -/
def slotStruct : Option TypeHint → Option (Struct × Cluster)
  | some h =>
    match baseType h.ty with
    | some _ => none
    | none => h.cluster.bind fun c => (c.findStruct h.ty).map fun nested => (nested, c)
  | none => none

def slotFields (hint : Option TypeHint) : List Field :=
  ((slotStruct hint).map fun s => s.1.fields).getD []

/-- How the keys of an object in a slot resolve. -/
def slotResolve (hint : Option TypeHint) (members : List (String × Json)) : Resolve :=
  match slotStruct hint with
  | some (nested, cluster) =>
    if members.all fun m => (parseU8 m.1).isSome then resolveTag (some (nested.fields, cluster))
    else resolveNamed nested.fields cluster
  | none => resolveTag none

/-- What is known of the elements of an array in a slot. -/
def itemHint : Option TypeHint → Option TypeHint
  | some h => if h.isList then some { h with isList := false } else none
  | none => none

mutual
/-- The value with its keys normalised: a key that the table resolves becomes the declared
name, any other key a decimal in canonical form. -/
def normalised (hint : Option TypeHint) : Json → Json
  | .arr items => .arr (normalisedItems (itemHint hint) items)
  | .obj members =>
    .ofMembers (normalisedMembers (slotFields hint) (slotResolve hint members) members)
  | .null => .null
  | .bool b => .bool b
  | .num n => .num n
  | .str s => .str s

def normalisedItems (hint : Option TypeHint) : List Json → List Json
  | [] => []
  | item :: rest => normalised hint item :: normalisedItems hint rest

def normalisedMembers (fields : List Field) (resolve : Resolve) :
    List (String × Json) → List (String × Json)
  | [] => []
  | (key, v) :: rest =>
    match resolve key with
    | some (n, hint) => (memberName fields n, normalised hint v) :: normalisedMembers fields resolve rest
    | none => (key, v) :: normalisedMembers fields resolve rest
end

/-- The reader shifts an epoch only in a field whose type is no struct of the cluster. -/
def readerShifts : Option TypeHint → Bool
  | some h => (h.cluster.bind fun c => c.findStruct h.ty).isNone
  | none => true

def baseComesBack (base : Base) (shifts : Bool) : Bool :=
  match base with
  | .single | .double => false
  | .epochS | .epochUs => shifts
  | _ => true

def scalarComesBack (hint : Option TypeHint) (shifts : Bool) : Bool :=
  match hint.bind fun h => baseType h.ty with
  | some base => baseComesBack base shifts
  | none => true

mutual
/-- No part of the value lies in a slot from which it comes back changed. -/
def comesBack (hint : Option TypeHint) (shifts : Bool) : Json → Bool
  | .null => true
  | .arr items => itemsComeBack (itemHint hint) items
  | .obj members => membersComeBack (slotResolve hint members) members
  | .bool _ => scalarComesBack hint shifts
  | .num _ => scalarComesBack hint shifts
  | .str _ => scalarComesBack hint shifts

def itemsComeBack (hint : Option TypeHint) : List Json → Bool
  | [] => true
  | item :: rest => comesBack hint false item && itemsComeBack hint rest

def membersComeBack (resolve : Resolve) : List (String × Json) → Bool
  | [] => true
  | (key, v) :: rest =>
    (match resolve key with
      | some (_, hint) => comesBack hint (readerShifts hint) v
      | none => true) && membersComeBack resolve rest
end

/-- Distinct names, none of them the decimal form of a tag: all that the readers rely on. -/
structure NamesOk (fields : List Field) : Prop where
  names : fields.Pairwise fun a b => a.name ≠ b.name
  notDecimal : ∀ f ∈ fields, ∀ tag : UInt8, f.name ≠ tag.toNat.repr

theorem TableOk.namesOk {fields : List Field} (h : TableOk fields) : NamesOk fields where
  names := by
    refine h.names.imp fun hab heq => ?_
    rw [heq, ← Bool.not_eq_true, Text.eqIgnoreAsciiCase_iff] at hab
    exact hab rfl
  notDecimal := by
    intro f hf tag hname
    have hnone := h.notDecimal f hf
    rw [hname, parseU8_repr] at hnone
    cases hnone

theorem NamesOk.eq_of_name {fields : List Field} (h : NamesOk fields) {f g : Field} (hf : f ∈ fields)
    (hg : g ∈ fields) (hname : f.name = g.name) : f = g := by
  have hnodup : (fields.map Field.name).Nodup := List.pairwise_map.mpr h.names
  exact List.inj_on_of_nodup_map hnodup hf hg hname

/-- A field is found by its code. -/
theorem TableOk.find_code {fields : List Field} (h : TableOk fields) {f : Field} (hf : f ∈ fields) :
    (fields.find? fun g => g.code = f.code) = some f := by
  have hcodes := h.codes
  clear h
  induction fields with
  | nil => cases hf
  | cons g rest ih =>
    obtain ⟨hg, hrest⟩ := List.pairwise_cons.mp hcodes
    rcases List.mem_cons.mp hf with rfl | hf
    · simp
    · rw [List.find?_cons_of_neg (by simpa using hg f hf)]
      exact ih hf hrest

theorem mem_of_find_code {fields : List Field} {n : UInt8} {f : Field}
    (h : (fields.find? fun f => f.code = n.toUInt32) = some f) : f ∈ fields ∧ f.code = n.toUInt32 :=
  ⟨List.mem_of_find?_eq_some h, by simpa using List.find?_some h⟩

/-- Different tags have different names. -/
theorem NamesOk.memberName_injective {fields : List Field} (h : NamesOk fields) {m n : UInt8}
    (heq : memberName fields m = memberName fields n) : m = n := by
  unfold memberName at heq
  split at heq
  next f hf =>
    obtain ⟨hfmem, hfcode⟩ := mem_of_find_code hf
    split at heq
    next g hg =>
      obtain ⟨hgmem, hgcode⟩ := mem_of_find_code hg
      have hfg := h.eq_of_name hfmem hgmem heq
      rw [hfg, hgcode] at hfcode
      exact (UInt8.toUInt32_inj.mp hfcode).symm
    next => exact absurd heq (h.notDecimal f hfmem n)
  next =>
    split at heq
    next g hg => exact absurd heq.symm (h.notDecimal g (mem_of_find_code hg).1 m)
    next => exact repr_toNat_injective heq

/-- What the resolver of a table knows about a slot is what the reader finds under its tag. -/
def Resolves (fields : List Field) (cluster : Cluster) (resolve : Resolve) : Prop :=
  ∀ key n hint, resolve key = some (n, hint) →
    hint = (fields.find? fun f => f.code = n.toUInt32).map fun f => Field.hint f cluster

theorem TableOk.resolves_named {fields : List Field} (h : TableOk fields) (cluster : Cluster) :
    Resolves fields cluster (resolveNamed fields cluster) := by
  intro key n hint hkey
  unfold resolveNamed at hkey
  split at hkey
  next f hf =>
    have hmem := List.mem_of_find?_eq_some hf
    have hfit := h.codesFit f hmem
    rw [if_pos hfit] at hkey
    obtain ⟨rfl, rfl⟩ := Prod.mk.inj (Option.some.inj hkey)
    have hcode : (UInt8.ofNat f.code.toNat).toUInt32 = f.code := by
      rw [← UInt32.toNat_inj, UInt8.toNat_toUInt32, UInt8.toNat_ofNat']
      exact Nat.mod_eq_of_lt hfit
    rw [hcode, h.find_code hmem]
    rfl
  · cases hkey

theorem resolves_tag (fields : List Field) (cluster : Cluster) :
    Resolves fields cluster (resolveTag (some (fields, cluster))) := by
  intro key n hint hkey
  obtain ⟨ctx, _, heq⟩ := Option.map_eq_some_iff.mp hkey
  obtain ⟨rfl, rfl⟩ := Prod.mk.inj heq
  rfl

theorem resolves_none (cluster : Cluster) : Resolves [] cluster (resolveTag none) := by
  intro key n hint hkey
  obtain ⟨ctx, _, heq⟩ := Option.map_eq_some_iff.mp hkey
  obtain ⟨rfl, rfl⟩ := Prod.mk.inj heq
  rfl

/-- What the reader makes of one member. -/
def readMember (fields : List Field) (cluster : Cluster) (d : Nat) (n : UInt8) (t : Tlv) :
    Option Json :=
  match fields.find? fun f => f.code = n.toUInt32 with
  | some f => namedFieldToJson t f cluster d
  | none => tlvToJsonAt t d

/-- A member and what is read of it. -/
def ReadsMember (fields : List Field) (cluster : Cluster) (d : Nat) (w : UInt8 × Tlv)
    (e : String × Json) : Prop :=
  e.1 = memberName fields w.1 ∧ readMember fields cluster d w.1 w.2 = some e.2

theorem namedMembersToJson_cons (n : UInt8) (child : Tlv) (rest : List (Tag × Tlv))
    (fields : List Field) (cluster : Cluster) (d : Nat) :
    namedMembersToJson ((.context n, child) :: rest) fields cluster d =
      (readMember fields cluster d n child).bind fun v =>
        (namedMembersToJson rest fields cluster d).map fun vs => (memberName fields n, v) :: vs := by
  rw [namedMembersToJson]
  unfold readMember memberName
  cases fields.find? fun f => f.code = n.toUInt32 with
  | none =>
    dsimp only
    cases tlvToJsonAt child d <;> cases namedMembersToJson rest fields cluster d <;> rfl
  | some f =>
    dsimp only
    cases namedFieldToJson child f cluster d <;> cases namedMembersToJson rest fields cluster d <;> rfl

theorem namedMembersToJson_eq_some {fields : List Field} {cluster : Cluster} {d : Nat}
    {ws : List (UInt8 × Tlv)} {rs : List (String × Json)} :
    namedMembersToJson (ws.map fun w => (.context w.1, w.2)) fields cluster d = some rs ↔
      List.Forall₂ (ReadsMember fields cluster d) ws rs := by
  induction ws generalizing rs with
  | nil =>
    rw [List.map_nil, namedMembersToJson, List.forall₂_nil_left_iff, Option.some_inj]
    exact eq_comm
  | cons w rest ih =>
    rw [List.map_cons, namedMembersToJson_cons]
    constructor
    · intro h
      obtain ⟨v, hv, hrest⟩ := Option.bind_eq_some_iff.mp h
      obtain ⟨es, hes, rfl⟩ := Option.map_eq_some_iff.mp hrest
      exact .cons ⟨rfl, hv⟩ (ih.mp hes)
    · intro h
      cases h with
      | cons he hes =>
        obtain ⟨hname, hv⟩ := he
        rw [hv, ih.mpr hes, Option.bind_some, Option.map_some, ← hname]

/-- With no table the reader reads as it does without one. -/
theorem namedMembersToJson_nil (members : List (Tag × Tlv)) (cluster : Cluster) (d : Nat) :
    namedMembersToJson members [] cluster d = membersToJson members d := by
  induction members with
  | nil => rw [namedMembersToJson, membersToJson]
  | cons m rest ih =>
    obtain ⟨tag, child⟩ := m
    cases tag with
    | context n =>
      rw [namedMembersToJson_cons, membersToJson, ih]
      change (tlvToJsonAt child d).bind _ = _
      cases tlvToJsonAt child d <;> cases membersToJson rest d <;> rfl
    | other => rw [namedMembersToJson, membersToJson, ih]
    | malformed => rw [namedMembersToJson, membersToJson]

theorem tlvToJsonAt_of_depth {d : Nat} (h : d > maxDepth) (e : Tlv) : tlvToJsonAt e d = none := by
  rw [tlvToJsonAt_eq]
  exact if_neg fun hc => by omega

theorem tlvToJsonNamedAt_of_not_struct {e : Tlv} (h : ∀ members, e ≠ .struct members)
    (fields : List Field) (cluster : Cluster) (d : Nat) :
    tlvToJsonNamedAt e fields cluster d = tlvToJsonAt e d := by
  rw [tlvToJsonNamedAt]
  · by_cases hd : d > maxDepth
    · rw [if_pos hd, tlvToJsonAt_of_depth hd]
    · exact if_neg hd
  · exact h

theorem tlvToJsonNamedAt_nil (e : Tlv) (cluster : Cluster) (d : Nat) :
    tlvToJsonNamedAt e [] cluster d = tlvToJsonAt e d := by
  cases e with
  | struct members => rw [tlvToJsonNamedAt, namedMembersToJson_nil, tlvToJsonAt]
  | _ => exact tlvToJsonNamedAt_of_not_struct (by simp) _ _ _

theorem tlvToJsonNamedAt_struct {d : Nat} (hd : d ≤ maxDepth) (ws : List (UInt8 × Tlv))
    (fields : List Field) (cluster : Cluster) :
    tlvToJsonNamedAt (contextStruct ws) fields cluster d =
      (namedMembersToJson (ws.map fun w => (.context w.1, w.2)) fields cluster (d + 1)).map
        Json.ofMembers := by
  unfold contextStruct
  rw [tlvToJsonNamedAt]
  exact if_neg (by omega)

theorem namedItemsToJson_eq_mapM (items : List Tlv) (fields : List Field) (cluster : Cluster) (d : Nat) :
    namedItemsToJson items fields cluster d = items.mapM fun e => tlvToJsonNamedAt e fields cluster d := by
  induction items with
  | nil =>
    rw [namedItemsToJson]
    rfl
  | cons e rest ih =>
    rw [namedItemsToJson, ih, List.mapM_cons]
    cases tlvToJsonNamedAt e fields cluster d with
    | none => rfl
    | some v => cases rest.mapM fun e => tlvToJsonNamedAt e fields cluster d <;> rfl

/-- A list comes back when its elements do. -/
theorem items_read {hint : Option TypeHint} {items : List Json} {ts : List Tlv}
    (read : Tlv → Option Json)
    (hts : List.Forall₂ (fun item t => writeJson item hint = some t) items ts)
    (h : ∀ item ∈ items, ∀ t, writeJson item hint = some t → ∃ r, read t = some r ∧
      (r = normalised hint item ↔ comesBack hint false item = true)) :
    ∃ rs, List.Forall₂ (fun t r => read t = some r) ts rs ∧
      (rs = normalisedItems hint items ↔ itemsComeBack hint items = true) := by
  induction hts with
  | nil => exact ⟨[], .nil, by simp [normalisedItems, itemsComeBack]⟩
  | @cons item t items ts ht _ ih =>
    obtain ⟨r, hr, hback⟩ := h item (by simp) t ht
    obtain ⟨rs, hrs, hbacks⟩ := ih fun item' hitem' => h item' (by simp [hitem'])
    refine ⟨r :: rs, .cons hr hrs, ?_⟩
    rw [normalisedItems, itemsComeBack, List.cons_eq_cons, Bool.and_eq_true, hback, hbacks]

/-- The members of a struct come back when their values do, each under its name. -/
theorem members_read {fields : List Field} {cluster : Cluster} {d : Nat} {resolve : Resolve}
    {members : List (String × Json)} {ws : List (UInt8 × Tlv)}
    (hws : List.Forall₂ (WritesMember resolve) members ws)
    (h : ∀ m ∈ members, ∀ n hint t, resolve m.1 = some (n, hint) → writeJson m.2 hint = some t →
      ∃ r, readMember fields cluster d n t = some r ∧
        (r = normalised hint m.2 ↔ comesBack hint (readerShifts hint) m.2 = true)) :
    ∃ rs, List.Forall₂ (ReadsMember fields cluster d) ws rs ∧
      rs.map Prod.fst = ws.map (fun w => memberName fields w.1) ∧
      rs.map Prod.fst = (normalisedMembers fields resolve members).map Prod.fst ∧
      (rs = normalisedMembers fields resolve members ↔ membersComeBack resolve members = true) := by
  induction hws with
  | nil => exact ⟨[], .nil, rfl, rfl, by simp [normalisedMembers, membersComeBack]⟩
  | @cons m w members ws hw _ ih =>
    obtain ⟨key, v⟩ := m
    obtain ⟨n, t⟩ := w
    obtain ⟨hint, hresolve, ht⟩ := hw
    obtain ⟨r, hr, hback⟩ := h (key, v) (by simp) n hint t hresolve ht
    obtain ⟨rs, hrs, hnames, hkeys, hbacks⟩ := ih fun m' hm' => h m' (by simp [hm'])
    refine ⟨(memberName fields n, r) :: rs, .cons ⟨rfl, hr⟩ hrs, ?_, ?_, ?_⟩
    · rw [List.map_cons, List.map_cons, hnames]
    · rw [normalisedMembers, hresolve, List.map_cons, List.map_cons, hkeys]
    · rw [normalisedMembers, membersComeBack, hresolve]
      dsimp only
      rw [List.cons_eq_cons, Bool.and_eq_true, Prod.mk.injEq, eq_self, true_and, hback, hbacks]

/-- A struct comes back when its members do. -/
theorem emitStruct_read {fields : List Field} (htable : TableOk fields) (cluster : Cluster) {d : Nat}
    (hd : d ≤ maxDepth) {resolve : Resolve} {members : List (String × Json)} {t : Tlv}
    (ht : emitStruct members resolve = some t)
    (h : ∀ m ∈ members, ∀ n hint t, resolve m.1 = some (n, hint) → writeJson m.2 hint = some t →
      ∃ r, readMember fields cluster (d + 1) n t = some r ∧
        (r = normalised hint m.2 ↔ comesBack hint (readerShifts hint) m.2 = true)) :
    ∃ r, tlvToJsonNamedAt t fields cluster d = some r ∧
      (r = .ofMembers (normalisedMembers fields resolve members) ↔
        membersComeBack resolve members = true) := by
  obtain ⟨ws, hws, hnodup, rfl⟩ := emitStruct_eq_some.mp ht
  obtain ⟨rs, hrs, hnames, hkeys, hback⟩ := members_read hws h
  have hnd : (rs.map Prod.fst).Nodup := by
    have hinj := hnodup.map fun m n heq =>
      htable.namesOk.memberName_injective (m := m) (n := n) heq
    rw [List.map_map] at hinj
    rw [hnames]
    exact hinj
  obtain ⟨rs', hrs', hperm⟩ := List.perm_comp_forall₂ (Entries.perm_insertAll hnodup) hrs
  refine ⟨.ofMembers rs', ?_, ?_⟩
  · rw [tlvToJsonNamedAt_struct hd, namedMembersToJson_eq_some.mpr hrs']
    rfl
  · have hsorted := Entries.insertAll_congr hperm.symm hnd
    rw [← hback, Json.ofMembers, Json.ofMembers, ← hsorted]
    constructor
    · intro heq
      exact Entries.insertAll_injective hkeys hnd (Json.obj.inj heq)
    · intro heq
      rw [heq]

theorem ofU64_ofNat {v : Json} {n : Nat} (h : v.asU64 = some n) : Json.ofU64 (UInt64.ofNat n) = v := by
  unfold Json.asU64 at h
  split at h
  next m hlt =>
    obtain rfl := Option.some.inj h
    simp only [Json.ofU64, UInt64.toNat_ofNat', Json.num.injEq, Num.posInt.injEq]
    exact Nat.mod_eq_of_lt hlt
  · cases h

theorem jsonOfI64_ofInt {v : Json} {n : Int} (h : v.asI64 = some n) : jsonOfI64 (Int64.ofInt n) = v := by
  unfold Json.asI64 at h
  split at h
  next m hlt =>
    split at h
    next hm =>
      obtain rfl := Option.some.inj h
      have hn : (Int64.ofInt m).toInt = m := Int64.toInt_ofInt_of_le (by omega) (by omega)
      unfold jsonOfI64
      rw [dif_neg (by omega)]
      simp only [Json.num.injEq, Num.posInt.injEq]
      omega
    · cases h
  next m hpos hle =>
    obtain rfl := Option.some.inj h
    have hn : (Int64.ofInt (-m)).toInt = -m := Int64.toInt_ofInt_of_le (by omega) (by omega)
    unfold jsonOfI64
    rw [dif_pos (by omega)]
    simp only [Json.num.injEq, Num.negInt.injEq]
    omega
  · cases h

/-- Neither a container nor unparseable. -/
def Tlv.IsScalar : Tlv → Prop
  | .struct _ | .array _ | .list _ | .malformed => False
  | _ => True

theorem Tlv.IsScalar.read {t : Tlv} (h : t.IsScalar) {d : Nat} (hd : d ≤ maxDepth) :
    tlvToJsonAt t d = some t.json := by
  rw [tlvToJsonAt_eq]
  cases t with
  | struct | array | list | malformed => exact h.elim
  | uint | sint | bool | f32 | f64 | utf8 | octets | null => exact if_pos ⟨rfl, hd⟩

theorem writeUnsigned_eq {v : Json} {bytes : Nat} {t : Tlv} (h : writeUnsigned v bytes = some t) :
    ∃ n, v.asU64 = some n ∧ t = .uint (UInt64.ofNat n) := by
  unfold writeUnsigned at h
  cases hn : v.asU64 with
  | none =>
    rw [hn] at h
    cases h
  | some n =>
    refine ⟨n, rfl, ?_⟩
    rw [hn] at h
    dsimp only at h
    split at h
    all_goals first | exact (Option.some.inj h).symm | (split at h <;> cases h; rfl)

theorem writeUnsigned_read {v : Json} {bytes : Nat} {t : Tlv}
    (h : writeUnsigned v bytes = some t) : t.IsScalar ∧ t.json = v := by
  obtain ⟨n, hn, rfl⟩ := writeUnsigned_eq h
  exact ⟨trivial, ofU64_ofNat hn⟩

theorem writeSigned_eq {v : Json} {bytes : Nat} {t : Tlv} (h : writeSigned v bytes = some t) :
    ∃ n, v.asI64 = some n ∧ t = .sint (Int64.ofInt n) := by
  unfold writeSigned at h
  cases hn : v.asI64 with
  | none =>
    rw [hn] at h
    cases h
  | some n =>
    refine ⟨n, rfl, ?_⟩
    rw [hn] at h
    dsimp only at h
    split at h
    all_goals first | exact (Option.some.inj h).symm | (split at h <;> cases h; rfl)

theorem writeSigned_read {v : Json} {bytes : Nat} {t : Tlv}
    (h : writeSigned v bytes = some t) : t.IsScalar ∧ t.json = v := by
  obtain ⟨n, hn, rfl⟩ := writeSigned_eq h
  exact ⟨trivial, jsonOfI64_ofInt hn⟩

/-- An integer that was written as a float is read as one. -/
theorem jsonOfF64_ne {v : Json} {n : Float} (h : asF64 v = some n) (hf : v.NoFloats) (f : Float) :
    jsonOfF64 f ≠ v := by
  intro heq
  rw [← heq] at h hf
  unfold jsonOfF64 at h hf
  split at h
  next hfinite =>
    rw [if_pos hfinite] at hf
    exact hf
  · cases h

/-- A written epoch is the shifted number. -/
theorem asU64_of_toMatterEpoch {v : Json} {offset m : Nat} (h : toMatterEpoch v offset = some m) :
    (Json.ofU64 (UInt64.ofNat m)).asU64 = some m := by
  have hlt := asU64_lt (toMatterEpoch_eq_some.mp h)
  rw [asU64_ofU64, UInt64.toNat_ofNat', Nat.mod_eq_of_lt (by omega)]

theorem json_ne_of_toMatterEpoch {v : Json} {offset m : Nat} (h : toMatterEpoch v offset = some m)
    (hoffset : 0 < offset) : Json.ofU64 (UInt64.ofNat m) ≠ v := by
  intro heq
  have hm := asU64_of_toMatterEpoch h
  rw [heq, toMatterEpoch_eq_some.mp h] at hm
  have := Option.some.inj hm
  omega

theorem applyEpoch_of_base {ty : String} {base : Base} (hty : baseType ty = some base)
    (hbase : ¬ (base = .epochS ∨ base = .epochUs)) (v : Json) : applyEpoch ty v = some v := by
  refine applyEpoch_eq_self.mpr fun hepoch => ?_
  unfold IsEpoch at hepoch
  rw [hty, Option.some_inj, Option.some_inj] at hepoch
  exact absurd hepoch hbase

/-- What a base type writes is a scalar; read with or without the epoch shift it is the value
again, or it is not. -/
theorem writeBase_read {v : Json} {base : Base} {t : Tlv} (h : writeBase v base = some t)
    (hf : v.NoFloats) {ty : String} (hty : baseType ty = some base) : t.IsScalar ∧
      (t.json = v ↔ baseComesBack base false = true) ∧
      ∃ r, applyEpoch ty t.json = some r ∧ (r = v ↔ baseComesBack base true = true) := by
  have hplain : ∀ {t : Tlv}, ¬ (base = .epochS ∨ base = .epochUs) → t.IsScalar →
      (t.json = v ↔ baseComesBack base false = true) →
      (baseComesBack base true = baseComesBack base false) → t.IsScalar ∧
      (t.json = v ↔ baseComesBack base false = true) ∧
      ∃ r, applyEpoch ty t.json = some r ∧ (r = v ↔ baseComesBack base true = true) := by
    intro t hbase hscalar hiff heq
    exact ⟨hscalar, hiff, t.json, applyEpoch_of_base hty hbase _, by rw [heq]; exact hiff⟩
  cases base with
  | bool =>
    obtain ⟨b, hb, rfl⟩ := Option.map_eq_some_iff.mp h
    refine hplain (by simp) trivial (iff_of_true ?_ rfl) rfl
    cases v with
    | bool => cases hb; rfl
    | _ => cases hb
  | unsigned bytes =>
    obtain ⟨hscalar, hjson⟩ := writeUnsigned_read h
    exact hplain (by simp) hscalar (iff_of_true hjson rfl) rfl
  | signed bytes =>
    obtain ⟨hscalar, hjson⟩ := writeSigned_read h
    exact hplain (by simp) hscalar (iff_of_true hjson rfl) rfl
  | single =>
    rw [writeBase] at h
    split at h
    next n hn =>
      split at h
      · cases h
        exact hplain (by simp) trivial (iff_of_false (jsonOfF64_ne hn hf _) (by decide)) rfl
      · cases h
    · cases h
  | double =>
    obtain ⟨n, hn, rfl⟩ := Option.map_eq_some_iff.mp h
    exact hplain (by simp) trivial (iff_of_false (jsonOfF64_ne hn hf _) (by decide)) rfl
  | utf8 =>
    obtain ⟨s, hs, rfl⟩ := Option.map_eq_some_iff.mp h
    refine hplain (by simp) trivial (iff_of_true ?_ rfl) rfl
    cases v with
    | str =>
      cases hs
      rw [Tlv.json, Text.fromUtf8Lossy_toUTF8]
    | _ => cases hs
  | octets =>
    obtain ⟨bytes, hbytes, rfl⟩ := Option.map_eq_some_iff.mp h
    obtain ⟨s, hs, hdecode⟩ := Option.bind_eq_some_iff.mp hbytes
    refine hplain (by simp) trivial (iff_of_true ?_ rfl) rfl
    cases v with
    | str =>
      cases hs
      rw [Tlv.json, base64Encode_of_decode hdecode]
    | _ => cases hs
  | epochS =>
    rw [writeBase] at h
    split at h
    next m hm =>
      split at h
      · cases h
        refine ⟨trivial, iff_of_false (json_ne_of_toMatterEpoch hm (by decide)) (by decide), v, ?_,
          iff_of_true rfl rfl⟩
        rw [Tlv.json, applyEpoch, hty, asU64_of_toMatterEpoch hm]
        exact toMatterEpoch_iff_checkedAdd.mp hm
      · cases h
    · cases h
  | epochUs =>
    obtain ⟨m, hm, rfl⟩ := Option.map_eq_some_iff.mp h
    refine ⟨trivial, iff_of_false (json_ne_of_toMatterEpoch hm (by decide)) (by decide), v, ?_,
      iff_of_true rfl rfl⟩
    rw [Tlv.json, applyEpoch, hty, asU64_of_toMatterEpoch hm]
    exact toMatterEpoch_iff_checkedAdd.mp hm

theorem itemsComeBack_iff {hint : Option TypeHint} {items : List Json} :
    itemsComeBack hint items = true ↔ ∀ item ∈ items, comesBack hint false item = true := by
  induction items with
  | nil => simp [itemsComeBack]
  | cons item rest ih => simp [itemsComeBack, ih]

/-- Without a hint everything comes back. -/
theorem comesBack_none (v : Json) : ∀ shifts, comesBack none shifts v = true := by
  induction v using Json.nestedInduction with
  | null => exact fun _ => rfl
  | bool | num | str => exact fun _ => rfl
  | arr items ih => exact fun _ => itemsComeBack_iff.mpr fun item hitem => ih item hitem false
  | obj members ih =>
    intro _
    change membersComeBack (resolveTag none) members = true
    induction members with
    | nil => rfl
    | cons m rest ihrest =>
      obtain ⟨key, v⟩ := m
      rw [membersComeBack, ihrest fun e he => ih e (by simp [he]), Bool.and_true]
      unfold resolveTag
      cases parseU8 key with
      | none => rfl
      | some n => exact ih (key, v) (by simp) _

theorem writeJson_none (v : Json) : writeJson v none = writeHeuristic v := by
  rw [writeJson]

theorem tableOk_nil : TableOk [] :=
  ⟨.nil, fun _ h => (by cases h), .nil, fun _ h => (by cases h)⟩

/-- What the heuristics write is read as it was. -/
theorem writeHeuristic_read (v : Json) : ∀ t d, writeHeuristic v = some t → v.NoFloats →
    d + v.height ≤ maxDepth → tlvToJsonAt t d = some (normalised none v) := by
  induction v using Json.nestedInduction with
  | null =>
    intro t d ht _ hd
    rw [writeHeuristic] at ht
    cases ht
    have hscalar : Tlv.null.IsScalar := trivial
    exact hscalar.read (by omega)
  | bool b =>
    intro t d ht _ hd
    rw [writeHeuristic] at ht
    cases ht
    have hscalar : (Tlv.bool b).IsScalar := trivial
    exact hscalar.read (by omega)
  | num n =>
    intro t d ht hf hd
    have hscalar : t.IsScalar ∧ t.json = .num n := by
      rw [writeHeuristic] at ht
      split at ht
      next u _ hu =>
        cases ht
        exact ⟨trivial, ofU64_ofNat hu⟩
      next i _ hi =>
        cases ht
        exact ⟨trivial, jsonOfI64_ofInt hi⟩
      next hu hi =>
        cases n with
        | posInt m => exact (hu m rfl).elim
        | negInt m => exact (hi (-m) rfl rfl).elim
        | float => exact hf.elim
    rw [hscalar.1.read (by omega), hscalar.2]
    rfl
  | str s =>
    intro t d ht _ hd
    rw [writeHeuristic] at ht
    cases ht
    have hscalar : (Tlv.utf8 s.toUTF8).IsScalar := trivial
    rw [hscalar.read (by omega), Tlv.json, Text.fromUtf8Lossy_toUTF8]
    rfl
  | arr items ih =>
    intro t d ht hf hd
    rw [writeHeuristic] at ht
    obtain ⟨ts, hts, rfl⟩ := Option.map_eq_some_iff.mp ht
    rw [Json.height] at hd
    obtain ⟨rs, hrs, hback⟩ := items_read (fun t => tlvToJsonAt t (d + 1))
      (writeItems_eq_some.mp hts) fun item hitem t ht => by
        rw [writeJson_none] at ht
        have hheight := Json.height_lt_heightList hitem
        exact ⟨_, ih item hitem t (d + 1) ht (Json.noFloatsList_iff.mp hf item hitem) (by omega),
          iff_of_true rfl (comesBack_none item false)⟩
    rw [tlvToJsonAt, if_neg (by omega), itemsToJson_eq_mapM, Result.mapM_eq_some_iff.mpr hrs,
      hback.mpr (itemsComeBack_iff.mpr fun item _ => comesBack_none item false)]
    rfl
  | obj members ih =>
    intro t d ht hf hd
    rw [writeHeuristic, writeTagBasedStruct] at ht
    rw [Json.height] at hd
    obtain ⟨r, hr, hback⟩ := emitStruct_read tableOk_nil ⟨0, [], []⟩ (d := d) (by omega)
      ht fun m hm n hint t hresolve ht => by
        rw [resolves_none ⟨0, [], []⟩ _ _ _ hresolve] at ht ⊢
        have hheight := Json.height_lt_heightMembers hm
        exact ⟨_, ih m hm t (d + 1) (writeJson_none _ ▸ ht) (Json.noFloatsMembers_iff.mp hf m hm)
          (by omega), iff_of_true rfl (comesBack_none m.2 _)⟩
    rw [tlvToJsonNamedAt_nil] at hr
    have hall : comesBack none true (.obj members) = true := comesBack_none _ _
    rw [hr, hback.mpr hall]
    rfl

/-- A field whose type is no struct is read like any value, and shifted. -/
theorem namedField_plain {f : Field} {cluster : Cluster} (hstruct : cluster.findStruct f.ty = none)
    {t : Tlv} {d : Nat} {v : Json} (hread : tlvToJsonAt t d = some v) :
    namedFieldToJson t f cluster d = applyEpoch f.ty v := by
  rw [namedFieldToJson]
  cases t with
  | utf8 bytes =>
    rw [tlvToJsonAt_eq] at hread
    split at hread
    · cases hread
      exact (applyEpoch_eq_self.mpr fun _ => rfl).symm
    · cases hread
  | _ =>
    dsimp only [lossyUtf8]
    rw [hstruct, hread]
    rfl

theorem namedField_scalar {t : Tlv} (h : t.IsScalar) {d : Nat} (hd : d ≤ maxDepth) {f : Field}
    {cluster : Cluster} {nested : Struct} (hstruct : cluster.findStruct f.ty = some nested) :
    namedFieldToJson t f cluster d = some t.json := by
  have hread := h.read hd
  rw [namedFieldToJson]
  cases t with
  | struct | array | list | malformed => exact h.elim
  | utf8 bytes => rfl
  | uint | sint | bool | f32 | f64 | octets | null =>
    dsimp only [lossyUtf8]
    rw [hstruct]
    exact hread

/-- What the reader makes of an element of a list. -/
def readItem (ty : String) (cluster : Cluster) (d : Nat) (t : Tlv) : Option Json :=
  match cluster.findStruct ty with
  | some nested => tlvToJsonNamedAt t nested.fields cluster d
  | none => tlvToJsonAt t d

theorem readItem_scalar {t : Tlv} (h : t.IsScalar) {d : Nat} (hd : d ≤ maxDepth) (ty : String)
    (cluster : Cluster) : readItem ty cluster d t = some t.json := by
  have hstruct : ∀ members, t ≠ .struct members := by
    rintro members rfl
    exact h
  unfold readItem
  cases cluster.findStruct ty with
  | none => exact h.read hd
  | some nested => exact (tlvToJsonNamedAt_of_not_struct hstruct _ _ _).trans (h.read hd)

/-- As a field, the written value is read, and it comes back exactly when it should. -/
def FieldReads (cluster : Cluster) (h : TypeHint) (v : Json) (t : Tlv) (d : Nat) : Prop :=
  ∃ r, (∀ f : Field, f.ty = h.ty → namedFieldToJson t f cluster d = some r) ∧
    (r = normalised (some h) v ↔ comesBack (some h) (readerShifts (some h)) v = true)

/-- The same as an element of a list. -/
def ItemReads (cluster : Cluster) (h : TypeHint) (v : Json) (t : Tlv) (d : Nat) : Prop :=
  ∃ r, readItem h.ty cluster d t = some r ∧
    (r = normalised (some h) v ↔ comesBack (some h) false v = true)

theorem null_read {d : Nat} (hd : d ≤ maxDepth) (cluster : Cluster) (h : TypeHint) :
    FieldReads cluster h .null .null d ∧ ItemReads cluster h .null .null d := by
  have hscalar : Tlv.null.IsScalar := trivial
  refine ⟨⟨.null, fun f _ => ?_, iff_of_true rfl rfl⟩, ⟨.null, ?_, iff_of_true rfl rfl⟩⟩
  · cases hstruct : cluster.findStruct f.ty with
    | none =>
      rw [namedField_plain hstruct (hscalar.read hd)]
      exact applyEpoch_eq_self.mpr fun _ => rfl
    | some nested => exact namedField_scalar hscalar hd hstruct
  · exact readItem_scalar hscalar hd _ _

theorem base_read {ty : String} {base : Base} (hty : baseType ty = some base) {v : Json} {t : Tlv}
    (ht : writeBase v base = some t) (hf : v.NoFloats) {d : Nat} (hd : d ≤ maxDepth)
    (cluster : Cluster) : FieldReads cluster ⟨ty, false, some cluster⟩ v t d ∧
      ItemReads cluster ⟨ty, false, some cluster⟩ v t d := by
  obtain ⟨hscalar, hplain, r, hr, hshift⟩ := writeBase_read ht hf hty
  have hvalue : normalised (some ⟨ty, false, some cluster⟩) v = v ∧ ∀ shifts,
      comesBack (some ⟨ty, false, some cluster⟩) shifts v = baseComesBack base shifts := by
    cases v with
    | null | arr | obj => cases base <;> cases ht
    | bool | num | str =>
      refine ⟨rfl, fun shifts => ?_⟩
      change scalarComesBack _ _ = _
      unfold scalarComesBack
      rw [Option.bind_some, hty]
  unfold FieldReads ItemReads
  rw [hvalue.1, hvalue.2, hvalue.2]
  refine ⟨?_, t.json, readItem_scalar hscalar hd _ _, hplain⟩
  cases hstruct : cluster.findStruct ty with
  | none =>
    have hshifts : readerShifts (some ⟨ty, false, some cluster⟩) = true := by
      simp [readerShifts, hstruct]
    rw [hshifts]
    refine ⟨r, fun f hfty => ?_, hshift⟩
    rw [namedField_plain (hfty ▸ hstruct) (hscalar.read hd), hfty]
    exact hr
  | some nested =>
    have hshifts : readerShifts (some ⟨ty, false, some cluster⟩) = false := by
      simp [readerShifts, hstruct]
    rw [hshifts]
    refine ⟨t.json, fun f hfty => ?_, hplain⟩
    have hty' : f.ty = ty := hfty
    rw [← hty'] at hstruct
    exact namedField_scalar hscalar hd hstruct

/-- An unresolved type is written and read as a value without a hint. -/
theorem unresolved_read {cluster : Cluster} {ty : String} (hbase : baseType ty = none)
    (hstruct : cluster.findStruct ty = none) {v : Json} {t : Tlv} (ht : writeHeuristic v = some t)
    (hf : v.NoFloats) {d : Nat} (hd : d + v.height ≤ maxDepth) :
    FieldReads cluster ⟨ty, false, some cluster⟩ v t d ∧
      ItemReads cluster ⟨ty, false, some cluster⟩ v t d := by
  have hslot : slotStruct (some ⟨ty, false, some cluster⟩) = none := by
    simp [slotStruct, hbase, hstruct]
  have hscalar : ∀ shifts, scalarComesBack (some ⟨ty, false, some cluster⟩) shifts = true := by
    intro shifts
    unfold scalarComesBack
    rw [Option.bind_some, hbase]
  have hvalue : normalised (some ⟨ty, false, some cluster⟩) v = normalised none v ∧ ∀ shifts,
      comesBack (some ⟨ty, false, some cluster⟩) shifts v = true := by
    cases v with
    | null => exact ⟨rfl, fun _ => rfl⟩
    | bool | num | str => exact ⟨rfl, hscalar⟩
    | arr items => exact ⟨rfl, fun shifts => comesBack_none (.arr items) shifts⟩
    | obj members =>
      refine ⟨?_, fun shifts => ?_⟩
      · rw [normalised, normalised, slotFields, slotResolve, hslot]
        rfl
      · rw [comesBack, slotResolve, hslot]
        exact comesBack_none (.obj members) shifts
  have hread := writeHeuristic_read v t d ht hf hd
  unfold FieldReads ItemReads
  rw [hvalue.1, hvalue.2, hvalue.2]
  refine ⟨⟨_, fun f hfty => ?_, iff_of_true rfl rfl⟩, ⟨_, ?_, iff_of_true rfl rfl⟩⟩
  · rw [namedField_plain (hfty ▸ hstruct) hread, hfty]
    refine applyEpoch_eq_self.mpr fun hepoch => ?_
    simp [IsEpoch, hbase] at hepoch
  · unfold readItem
    rw [hstruct]
    exact hread

/-- The reader of a field finds under a tag what the writer knew about the slot. -/
theorem member_read {fields : List Field} {cluster : Cluster} {resolve : Resolve}
    (hresolves : Resolves fields cluster resolve) {key : String} {v : Json} {n : UInt8}
    {hint : Option TypeHint} {t : Tlv} (hresolve : resolve key = some (n, hint))
    (ht : writeJson v hint = some t) (hf : v.NoFloats) {d : Nat} (hd : d + v.height ≤ maxDepth)
    (ih : ∀ ty isList t, writeJson v (some ⟨ty, isList, some cluster⟩) = some t →
      FieldReads cluster ⟨ty, isList, some cluster⟩ v t d) :
    ∃ r, readMember fields cluster d n t = some r ∧
      (r = normalised hint v ↔ comesBack hint (readerShifts hint) v = true) := by
  have hhint := hresolves _ _ _ hresolve
  unfold readMember
  cases hfind : fields.find? fun f => f.code = n.toUInt32 with
  | none =>
    rw [hfind] at hhint
    subst hhint
    rw [Option.map_none, writeJson_none] at ht
    exact ⟨_, writeHeuristic_read v t d ht hf hd, iff_of_true rfl (comesBack_none v _)⟩
  | some f =>
    rw [hfind] at hhint
    subst hhint
    obtain ⟨r, hr, hback⟩ := ih f.ty f.isList t ht
    exact ⟨r, hr f rfl, hback⟩

theorem struct_read {cluster : Cluster} (hcluster : ∀ s ∈ cluster.structs, TableOk s.fields)
    {ty : String} {nested : Struct} (hbase : baseType ty = none)
    (hstruct : cluster.findStruct ty = some nested) {members : List (String × Json)} {t : Tlv}
    (ht : writeHintedStruct (.obj members) nested cluster = some t) {d : Nat} (hd : d ≤ maxDepth)
    (ih : ∀ m ∈ members, ∀ n hint t resolve, Resolves nested.fields cluster resolve →
      resolve m.1 = some (n, hint) → writeJson m.2 hint = some t →
      ∃ r, readMember nested.fields cluster (d + 1) n t = some r ∧
        (r = normalised hint m.2 ↔ comesBack hint (readerShifts hint) m.2 = true)) :
    FieldReads cluster ⟨ty, false, some cluster⟩ (.obj members) t d ∧
      ItemReads cluster ⟨ty, false, some cluster⟩ (.obj members) t d := by
  have htable := hcluster nested (List.mem_of_find?_eq_some hstruct)
  have hslot : slotStruct (some ⟨ty, false, some cluster⟩) = some (nested, cluster) := by
    simp [slotStruct, hbase, hstruct]
  have hresolve : ∃ resolve, slotResolve (some ⟨ty, false, some cluster⟩) members = resolve ∧
      Resolves nested.fields cluster resolve ∧ emitStruct members resolve = some t := by
    rw [writeHintedStruct] at ht
    unfold slotResolve
    rw [hslot]
    dsimp only
    split at ht
    next hdecimal =>
      rw [writeTagBasedStruct] at ht
      exact ⟨_, if_pos hdecimal, resolves_tag _ _, ht⟩
    next hdecimal =>
      rw [writeJsonNamed] at ht
      exact ⟨_, if_neg hdecimal, htable.resolves_named cluster, ht⟩
  obtain ⟨resolve, hslotResolve, hresolves, hemit⟩ := hresolve
  obtain ⟨r, hr, hback⟩ := emitStruct_read htable cluster hd hemit fun m hm n hint t hkey hwrite =>
    ih m hm n hint t resolve hresolves hkey hwrite
  obtain ⟨ws, _, _, rfl⟩ := emitStruct_eq_some.mp hemit
  unfold FieldReads ItemReads
  rw [normalised, comesBack, comesBack, hslotResolve, slotFields, hslot]
  refine ⟨⟨r, fun f hfty => ?_, hback⟩, ⟨r, ?_, hback⟩⟩
  · unfold contextStruct at hr ⊢
    rw [namedFieldToJson, hfty, hstruct]
    exact hr
  · unfold readItem
    rw [hstruct]
    exact hr

theorem list_read {cluster : Cluster} {ty : String} {items : List Json} {ts : List Tlv}
    (hts : writeItems items (some ⟨ty, false, some cluster⟩) = some ts) {d : Nat} (hd : d ≤ maxDepth)
    (ih : ∀ item ∈ items, ∀ t, writeJson item (some ⟨ty, false, some cluster⟩) = some t →
      ItemReads cluster ⟨ty, false, some cluster⟩ item t (d + 1)) :
    FieldReads cluster ⟨ty, true, some cluster⟩ (.arr items) (.array ts) d := by
  obtain ⟨rs, hrs, hback⟩ := items_read _ (writeItems_eq_some.mp hts) ih
  refine ⟨.arr rs, fun f hfty => ?_, ?_⟩
  · unfold readItem at hrs
    cases hstruct : cluster.findStruct ty with
    | none =>
      rw [hstruct] at hrs
      have hread : tlvToJsonAt (.array ts) d = some (.arr rs) := by
        rw [tlvToJsonAt, if_neg (by omega), itemsToJson_eq_mapM, Result.mapM_eq_some_iff.mpr hrs]
        rfl
      rw [namedField_plain (hfty ▸ hstruct) hread]
      exact applyEpoch_arr _ _
    | some nested =>
      rw [hstruct] at hrs
      rw [namedFieldToJson]
      dsimp only [lossyUtf8]
      rw [hfty, hstruct]
      dsimp only
      rw [namedItemsToJson_eq_mapM, Result.mapM_eq_some_iff.mpr hrs]
      rfl
  · rw [normalised, comesBack, Json.arr.injEq]
    exact hback

/-- The three kinds of types that a slot can have, with the case of a struct left open. -/
theorem hinted_read {cluster : Cluster} {v : Json} (hnull : v.isNull = false) {ty : String} {t : Tlv}
    (ht : writeHinted v ⟨ty, false, some cluster⟩ = some t) (hf : v.NoFloats) {d : Nat}
    (hd : d + v.height ≤ maxDepth)
    (hnested : ∀ nested, baseType ty = none → cluster.findStruct ty = some nested →
      writeHintedStruct v nested cluster = some t →
      FieldReads cluster ⟨ty, false, some cluster⟩ v t d ∧
        ItemReads cluster ⟨ty, false, some cluster⟩ v t d) :
    FieldReads cluster ⟨ty, false, some cluster⟩ v t d ∧
      ItemReads cluster ⟨ty, false, some cluster⟩ v t d := by
  cases hbase : baseType ty with
  | some base =>
    rw [writeHinted_base hnull hbase] at ht
    exact base_read hbase ht hf (by omega) cluster
  | none =>
    cases hstruct : cluster.findStruct ty with
    | none =>
      rw [writeHinted_unresolved hnull hbase hstruct] at ht
      exact unresolved_read hbase hstruct ht hf hd
    | some nested =>
      rw [writeHinted_struct hnull hbase hstruct] at ht
      exact hnested nested hbase hstruct ht

theorem writeJson_list_scalar {v : Json} (hnull : v.isNull = false) (harr : v.asArray = none)
    (ty : String) (cluster : Option Cluster) :
    writeJson v (some ⟨ty, true, cluster⟩) = none := by
  unfold writeJson
  cases v with
  | null => cases hnull
  | arr items => cases harr
  | bool | num | str | obj => rfl

/-- Whatever is written into a slot that the table describes is read, and comes back exactly
when it should: as the field itself, and as an element of a list. -/
theorem slot_read {cluster : Cluster} (hcluster : ∀ s ∈ cluster.structs, TableOk s.fields) (v : Json) :
    ∀ ty isList t d, writeJson v (some ⟨ty, isList, some cluster⟩) = some t → v.NoFloats →
      d + v.height ≤ maxDepth → FieldReads cluster ⟨ty, isList, some cluster⟩ v t d ∧
        (isList = false → ItemReads cluster ⟨ty, isList, some cluster⟩ v t d) := by
  have hscalar : ∀ v : Json, v.isNull = false → v.asArray = none →
      (∀ nested, writeHintedStruct v nested cluster = none) →
      ∀ ty isList t d, writeJson v (some ⟨ty, isList, some cluster⟩) = some t → v.NoFloats →
      d + v.height ≤ maxDepth → FieldReads cluster ⟨ty, isList, some cluster⟩ v t d ∧
        (isList = false → ItemReads cluster ⟨ty, isList, some cluster⟩ v t d) := by
    intro v hnull harr hnested ty isList t d ht hf hd
    cases isList with
    | true =>
      rw [writeJson_list_scalar hnull harr] at ht
      cases ht
    | false =>
      rw [writeJson_scalar] at ht
      have hread := hinted_read hnull ht hf hd fun nested _ _ hwrite => by
        rw [hnested] at hwrite
        cases hwrite
      exact ⟨hread.1, fun _ => hread.2⟩
  induction v using Json.nestedInduction with
  | null =>
    intro ty isList t d ht _ hd
    rw [writeJson_null] at ht
    cases ht
    have hread := null_read (d := d) (by omega) cluster ⟨ty, isList, some cluster⟩
    exact ⟨hread.1, fun _ => hread.2⟩
  | bool b => exact hscalar (.bool b) rfl rfl fun nested => by rw [writeHintedStruct]; simp
  | num n => exact hscalar (.num n) rfl rfl fun nested => by rw [writeHintedStruct]; simp
  | str s => exact hscalar (.str s) rfl rfl fun nested => by rw [writeHintedStruct]; simp
  | arr items ih =>
    intro ty isList t d ht hf hd
    cases isList with
    | true =>
      rw [writeJson_list] at ht
      obtain ⟨ts, hts, rfl⟩ := Option.map_eq_some_iff.mp ht
      rw [Json.height] at hd
      refine ⟨list_read hts (by omega) fun item hitem t ht => ?_, fun h => (by cases h)⟩
      have hheight := Json.height_lt_heightList hitem
      exact (ih item hitem ty false t (d + 1) ht (Json.noFloatsList_iff.mp hf item hitem)
        (by omega)).2 rfl
    | false =>
      rw [writeJson_scalar] at ht
      have hread := hinted_read rfl ht hf hd fun nested _ _ hwrite => by
        rw [writeHintedStruct] at hwrite
        · cases hwrite
        · simp
      exact ⟨hread.1, fun _ => hread.2⟩
  | obj members ih =>
    intro ty isList t d ht hf hd
    cases isList with
    | true =>
      rw [writeJson_list_scalar rfl rfl] at ht
      cases ht
    | false =>
      rw [writeJson_scalar] at ht
      have hread := hinted_read rfl ht hf hd fun nested hbase hstruct hwrite => by
        rw [Json.height] at hd
        refine struct_read hcluster hbase hstruct hwrite (by omega)
          fun m hm n hint t resolve hresolves hresolve hmember => ?_
        have hheight := Json.height_lt_heightMembers hm
        have hmf := Json.noFloatsMembers_iff.mp hf m hm
        exact member_read hresolves hresolve hmember hmf (by omega) fun ty isList t ht =>
          (ih m hm ty isList t (d + 1) ht hmf (by omega)).1
      exact ⟨hread.1, fun _ => hread.2⟩

/-- For every field table, cluster and payload without floats that the writer accepts and that
nests no deeper than the reader goes: the reader accepts what was written, and returns the
payload with its keys normalised exactly when none of its slots changes a value. -/
theorem named_roundTrip {cluster : Cluster} {fields : List Field} (htable : TableOk fields)
    (hcluster : ∀ s ∈ cluster.structs, TableOk s.fields) {members : List (String × Json)}
    (hf : (Json.obj members).NoFloats) (hheight : (Json.obj members).height ≤ maxDepth) {t : Tlv}
    (ht : writeJsonNamed members fields cluster = some t) :
    (tlvToJsonNamed t fields cluster).isSome = true ∧
    (tlvToJsonNamed t fields cluster =
        some (.ofMembers (normalisedMembers fields (resolveNamed fields cluster) members)) ↔
      membersComeBack (resolveNamed fields cluster) members = true) := by
  rw [writeJsonNamed] at ht
  rw [Json.height] at hheight
  obtain ⟨r, hr, hback⟩ := emitStruct_read htable cluster (d := 0) (by omega) ht
    fun m hm n hint t hresolve hmember => by
      have hlt := Json.height_lt_heightMembers hm
      have hmf := Json.noFloatsMembers_iff.mp hf m hm
      exact member_read (htable.resolves_named cluster) hresolve hmember hmf (by omega)
        fun ty isList t ht => (slot_read hcluster m.2 ty isList t _ ht hmf (by omega)).1
  unfold tlvToJsonNamed
  rw [hr, Option.some_inj]
  exact ⟨rfl, hback⟩

section Epochs

def epochCluster : Cluster := ⟨56, [], []⟩

/-- A field that lists epochs. -/
def startsFields : List Field := [⟨0, "starts", "epoch_s", true⟩]

def startsPayload : List (String × Json) := [("starts", .arr [.ofU64 946684805])]

theorem tableOk_starts : TableOk startsFields where
  names := List.pairwise_singleton _ _
  notDecimal := by decide
  codes := List.pairwise_singleton _ _
  codesFit := by decide

theorem baseType_epochS : baseType "epoch_s" = some .epochS := by decide

theorem baseType_epochUs : baseType "epoch_us" = some .epochUs := by decide

/-- The element of the list is shifted when it is written, and not when it is read. -/
theorem startsPayload_comesBackRaw : ∃ t,
    writeJsonNamed startsPayload startsFields epochCluster = some t ∧
    tlvToJsonNamed t startsFields epochCluster = some (.obj [("starts", .arr [.ofU64 5])]) ∧
    tlvToJsonNamed t startsFields epochCluster ≠ some (.ofMembers (normalisedMembers startsFields
      (resolveNamed startsFields epochCluster) startsPayload)) := by
  have hitem : writeJson (.ofU64 946684805) (some ⟨"epoch_s", false, some epochCluster⟩) =
      some (.uint 5) := by
    have hshift : toMatterEpoch (.ofU64 946684805) matterEpochOffsetS = some 5 :=
      toMatterEpoch_eq_some.mpr (by decide)
    rw [writeJson_scalar, writeHinted_base rfl baseType_epochS, writeBase, hshift]
    rfl
  have hlist : writeJson (.arr [.ofU64 946684805]) (some ⟨"epoch_s", true, some epochCluster⟩) =
      some (.array [.uint 5]) := by
    rw [writeJson_list, writeItems_eq_some.mpr (.cons hitem .nil)]
    rfl
  have hwrite : writeJsonNamed startsPayload startsFields epochCluster =
      some (contextStruct [(0, .array [.uint 5])]) := by
    rw [writeJsonNamed]
    refine emitStruct_eq_some.mpr ⟨[(0, .array [.uint 5])], .cons ⟨_, ?_, hlist⟩ .nil, by simp, rfl⟩
    rfl
  have hread : tlvToJsonNamed (contextStruct [(0, .array [.uint 5])]) startsFields epochCluster =
      some (.obj [("starts", .arr [.ofU64 5])]) := by
    have hfield : ReadsMember startsFields epochCluster 1 (0, .array [.uint 5])
        ("starts", .arr [.ofU64 5]) := by
      refine ⟨rfl, ?_⟩
      change namedFieldToJson _ ⟨0, "starts", "epoch_s", true⟩ _ _ = _
      rw [namedField_plain rfl rfl]
      exact applyEpoch_arr _ _
    unfold tlvToJsonNamed
    rw [tlvToJsonNamedAt_struct (by decide), namedMembersToJson_eq_some.mpr (.cons hfield .nil)]
    rfl
  refine ⟨_, hwrite, hread, ?_⟩
  rw [hread]
  intro heq
  cases heq

def utcTimeFields : List Field :=
  [⟨0, "utcTime", "epoch_us", false⟩, ⟨1, "granularity", "GranularityEnum", false⟩]

/-- An epoch field in another letter case. -/
theorem named_roundTrip_utcTime : ∃ t,
    writeJsonNamed [("UTCTime", .ofU64 946684800000100)] utcTimeFields epochCluster = some t ∧
    tlvToJsonNamed t utcTimeFields epochCluster =
      some (.obj [("utcTime", .ofU64 946684800000100)]) := by
  have htable : TableOk utcTimeFields :=
    ⟨by decide, by decide, by decide, by decide⟩
  have hvalue : writeJson (.ofU64 946684800000100) (some ⟨"epoch_us", false, some epochCluster⟩) =
      some (.uint 100) := by
    have hshift : toMatterEpoch (.ofU64 946684800000100) matterEpochOffsetUs = some 100 :=
      toMatterEpoch_eq_some.mpr (by decide)
    rw [writeJson_scalar, writeHinted_base rfl baseType_epochUs, writeBase, hshift]
    rfl
  have hwrite : writeJsonNamed [("UTCTime", .ofU64 946684800000100)] utcTimeFields epochCluster =
      some (contextStruct [(0, .uint 100)]) := by
    rw [writeJsonNamed]
    refine emitStruct_eq_some.mpr ⟨[(0, .uint 100)], .cons ⟨_, ?_, hvalue⟩ .nil, by simp, rfl⟩
    rfl
  have hback := (named_roundTrip htable (fun s hs => (by cases hs)) (by simp [Json.NoFloats,
    Json.NoFloatsMembers, Json.ofU64]) (by decide) hwrite).2.mpr (by decide)
  exact ⟨_, hwrite, hback⟩

end Epochs

end MatterRsServer.Stack
