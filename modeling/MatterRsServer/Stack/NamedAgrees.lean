import MatterRsServer.Stack.NamedRoundTrip

/-!
# The two readers agree

`tlv_to_json_named` walks an element with a field table in hand, `tlv_to_json` without one.
Named descent keeps within the depth limit where the table does, and its result is then the
plain result with the keys renamed and the epochs shifted.
-/
namespace MatterRsServer.Stack
open Lib Wire Gen

/-- No chain of struct-typed fields that starts in the table is longer than `k`. -/
def ChainAtMost (cluster : Cluster) : Nat → List Field → Prop
  | 0, fields => ∀ f ∈ fields, cluster.findStruct f.ty = none
  | k + 1, fields =>
    ∀ f ∈ fields, ∀ nested ∈ cluster.findStruct f.ty, ChainAtMost cluster k nested.fields

instance decidableChainAtMost (cluster : Cluster) :
    ∀ k fields, Decidable (ChainAtMost cluster k fields)
  | 0, fields => inferInstanceAs (Decidable (∀ f ∈ fields, cluster.findStruct f.ty = none))
  | k + 1, fields =>
    have := decidableChainAtMost cluster k
    inferInstanceAs (Decidable (∀ f ∈ fields, ∀ nested ∈ cluster.findStruct f.ty,
      ChainAtMost cluster k nested.fields))

/-- The offset of the type's epoch from the Unix epoch, in its own unit. -/
def epochOffset (ty : String) : Option Nat :=
  match baseType ty with
  | some .epochS => some matterEpochOffsetS
  | some .epochUs => some matterEpochOffsetUs
  | _ => none

/-- A value counted from the Unix epoch; what is not an unsigned number stays. -/
def shiftEpoch (ty : String) (v : Json) : Json :=
  match epochOffset ty, v.asU64 with
  | some offset, some m => .ofU64 (UInt64.ofNat (m + offset))
  | _, _ => v

/-- The shift leaves 64 bits. -/
def shiftOverflows (ty : String) (v : Json) : Bool :=
  match epochOffset ty, v.asU64 with
  | some offset, some m => 2 ^ 64 ≤ m + offset
  | _, _ => false

/-- The field that a decimal key stands for. -/
def fieldOfKey (fields : List Field) (key : String) : Option Field :=
  (parseU8 key).bind fun n => fields.find? fun f => f.code = n.toUInt32

def nameKey (fields : List Field) (key : String) : String :=
  ((fieldOfKey fields key).map Field.name).getD key

mutual
/-- The plain result read with a table: the keys that the table knows are renamed. -/
def nameFields (cluster : Cluster) (fields : List Field) : Json → Json
  | .obj kvs => .ofMembers (nameMembers cluster fields kvs)
  | .arr xs => .arr xs
  | .null => .null
  | .bool b => .bool b
  | .num n => .num n
  | .str s => .str s

def nameMembers (cluster : Cluster) (fields : List Field) :
    List (String × Json) → List (String × Json)
  | [] => []
  | (key, v) :: rest =>
    (nameKey fields key, match fieldOfKey fields key with
      | some f => nameField cluster f v
      | none => v) :: nameMembers cluster fields rest

/-- In the slot of a field: a struct, or every struct of a list, is renamed by its own table,
and an epoch that stands in no struct-typed slot is shifted. -/
def nameField (cluster : Cluster) (f : Field) (v : Json) : Json :=
  match cluster.findStruct f.ty with
  | none => shiftEpoch f.ty v
  | some nested =>
    match v with
    | .obj kvs => .ofMembers (nameMembers cluster nested.fields kvs)
    | .arr xs => .arr (nameItems cluster nested.fields xs)
    | v => v

def nameItems (cluster : Cluster) (fields : List Field) : List Json → List Json
  | [] => []
  | x :: xs => nameFields cluster fields x :: nameItems cluster fields xs
end

mutual
/-- An epoch that a table finds in the element leaves 64 bits when it is shifted; a repeated
tag counts, even where a later one takes its place. -/
def overflows (cluster : Cluster) (fields : List Field) : Tlv → Bool
  | .struct members => membersOverflow cluster fields members
  | _ => false

def membersOverflow (cluster : Cluster) (fields : List Field) : List (Tag × Tlv) → Bool
  | [] => false
  | (.context n, child) :: rest =>
    (match fields.find? fun f => f.code = n.toUInt32 with
      | some f => fieldOverflows cluster f child
      | none => false) || membersOverflow cluster fields rest
  | (.other, _) :: rest => membersOverflow cluster fields rest
  | (.malformed, _) :: rest => membersOverflow cluster fields rest

def fieldOverflows (cluster : Cluster) (f : Field) (elem : Tlv) : Bool :=
  match cluster.findStruct f.ty with
  | none => shiftOverflows f.ty elem.json
  | some nested =>
    match elem with
    | .struct members => membersOverflow cluster nested.fields members
    | .array items => itemsOverflow cluster nested.fields items
    | .list items => itemsOverflow cluster nested.fields items
    | _ => false

def itemsOverflow (cluster : Cluster) (fields : List Field) : List Tlv → Bool
  | [] => false
  | child :: rest => overflows cluster fields child || itemsOverflow cluster fields rest
end

theorem fieldOfKey_repr (fields : List Field) (n : UInt8) :
    fieldOfKey fields n.toNat.repr = fields.find? fun f => f.code = n.toUInt32 := by
  unfold fieldOfKey
  rw [parseU8_repr, Option.bind_some]

/-- What becomes of a member's value under its plain key. -/
def nameValue (cluster : Cluster) (fields : List Field) (key : String) (v : Json) : Json :=
  match fieldOfKey fields key with
  | some f => nameField cluster f v
  | none => v

theorem nameMembers_eq_map (cluster : Cluster) (fields : List Field) (kvs : List (String × Json)) :
    nameMembers cluster fields kvs =
      kvs.map fun e => (nameKey fields e.1, nameValue cluster fields e.1 e.2) := by
  induction kvs with
  | nil => rfl
  | cons e rest ih =>
    obtain ⟨key, v⟩ := e
    rw [nameMembers, ih]
    rfl

theorem nameKey_repr (fields : List Field) (n : UInt8) :
    nameKey fields n.toNat.repr = memberName fields n := by
  unfold nameKey memberName
  rw [fieldOfKey_repr]
  cases fields.find? fun f => f.code = n.toUInt32 <;> rfl

/-- Every key of a plain result is the decimal form of a tag. -/
theorem decimal_of_membersToJson {members : List (Tag × Tlv)} {d : Nat}
    {kvs : List (String × Json)} (h : membersToJson members d = some kvs) :
    ∀ e ∈ kvs, ∃ n : UInt8, e.1 = n.toNat.repr := by
  induction members generalizing kvs with
  | nil =>
    cases h
    simp
  | cons head rest ih =>
    obtain ⟨tag, child⟩ := head
    cases tag with
    | context n =>
      rw [membersToJson] at h
      split at h
      next v vs _ hvs =>
        cases h
        intro e he
        rcases List.mem_cons.mp he with rfl | he
        · exact ⟨n, rfl⟩
        · exact ih hvs e he
      next => cases h
    | other =>
      rw [membersToJson] at h
      exact ih h
    | malformed =>
      rw [membersToJson] at h
      cases h

/-- Renaming the members before or after they are collected into an object is the same. -/
theorem nameFields_ofMembers {fields : List Field} (hnames : NamesOk fields) (cluster : Cluster)
    {members : List (Tag × Tlv)} {d : Nat} {kvs : List (String × Json)}
    (hread : membersToJson members d = some kvs) :
    nameFields cluster fields (.ofMembers kvs) = .ofMembers (nameMembers cluster fields kvs) := by
  have hdecimal := decimal_of_membersToJson hread
  unfold Json.ofMembers
  rw [nameFields, nameMembers_eq_map, nameMembers_eq_map]
  refine congrArg Json.obj
    (Entries.insertAll_rename (nameKey fields) (nameValue cluster fields) fun p hp q hq heq => ?_)
  obtain ⟨m, hm⟩ := hdecimal p hp
  obtain ⟨n, hn⟩ := hdecimal q hq
  rw [hm, hn, nameKey_repr, nameKey_repr] at heq
  rw [hm, hn, hnames.memberName_injective heq]

theorem checkedAdd_eq (m offset : Nat) : checkedAdd m offset =
    if 2 ^ 64 ≤ m + offset then none else some (.ofU64 (UInt64.ofNat (m + offset))) := by
  unfold checkedAdd
  by_cases h : m + offset < 2 ^ 64
  · have hnat : (UInt64.ofNat (m + offset)).toNat = m + offset := UInt64.toNat_ofNat_of_lt h
    rw [dif_pos h, if_neg (by omega)]
    simp only [Json.ofU64, hnat]
  · rw [dif_neg h, if_pos (by omega)]

theorem applyEpoch_eq (ty : String) (v : Json) :
    applyEpoch ty v = if shiftOverflows ty v then none else some (shiftEpoch ty v) := by
  have hoffset : applyEpoch ty v = match epochOffset ty, v.asU64 with
      | some offset, some m => checkedAdd m offset
      | _, _ => some v := by
    unfold applyEpoch epochOffset
    split <;> cases v.asU64 <;> simp only [*]
  rw [hoffset]
  unfold shiftOverflows shiftEpoch
  cases epochOffset ty with
  | none => rfl
  | some offset =>
    cases v.asU64 with
    | none => rfl
    | some m => simp only [checkedAdd_eq, decide_eq_true_eq]

/-- What the named reader returns is what the plain one does, renamed, unless a shift
overflows. -/
def Agrees {α β : Type} (named : Option β) (overflow : Bool) (plain : Option α) (ren : α → β) :
    Prop :=
  named = if overflow then none else plain.map ren

/-- A field that is no struct is read plainly and then shifted. -/
theorem scalarField_agrees {cluster : Cluster} {f : Field}
    (hstruct : cluster.findStruct f.ty = none) (e : Tlv) {d : Nat} (hd : d ≤ maxDepth) :
    Agrees (namedFieldToJson e f cluster d) (fieldOverflows cluster f e) (tlvToJsonAt e d)
      (nameField cluster f) := by
  have hplain : namedFieldToJson e f cluster d = (tlvToJsonAt e d).bind (applyEpoch f.ty) := by
    cases hread : tlvToJsonAt e d with
    | some v => exact namedField_plain hstruct hread
    | none =>
      rw [namedFieldToJson, hstruct, hread]
      cases e with
      | utf8 bytes =>
        rw [tlvToJsonAt, if_neg (by omega)] at hread
        cases hread
      | _ => rfl
  have hname : nameField cluster f = shiftEpoch f.ty := by
    funext v
    unfold nameField
    rw [hstruct]
  have hover : fieldOverflows cluster f e = shiftOverflows f.ty e.json := by
    unfold fieldOverflows
    rw [hstruct]
  unfold Agrees
  rw [hplain, hname, hover, tlvToJsonAt_eq]
  by_cases hok : e.wellFormed = true ∧ d + e.height ≤ maxDepth
  · rw [if_pos hok, Option.bind_some, applyEpoch_eq, Option.map_some]
  · rw [if_neg hok]
    simp

/-- The loop over the items reads none that the plain loop does not, and renames each. -/
theorem items_agree {cluster : Cluster} {fields : List Field} {items : List Tlv} {d : Nat}
    (ih : ∀ item ∈ items, Agrees (tlvToJsonNamedAt item fields cluster d)
      (overflows cluster fields item) (tlvToJsonAt item d) (nameFields cluster fields)) :
    Agrees (namedItemsToJson items fields cluster d) (itemsOverflow cluster fields items)
      (itemsToJson items d) (nameItems cluster fields) := by
  unfold Agrees at *
  induction items with
  | nil => simp [namedItemsToJson, itemsOverflow, itemsToJson, nameItems]
  | cons item rest ihrest =>
    rw [namedItemsToJson, ih item List.mem_cons_self,
      ihrest fun item hitem => ih item (List.mem_cons_of_mem _ hitem), itemsOverflow, itemsToJson]
    cases overflows cluster fields item <;> cases itemsOverflow cluster fields rest <;>
      cases tlvToJsonAt item d <;> cases itemsToJson rest d <;> simp [nameItems]

/-- One more member: both loops go on in step. -/
theorem member_agrees {cluster : Cluster} {fields : List Field} {n : UInt8} {child : Tlv}
    {rest : List (Tag × Tlv)} {d : Nat} {overflow : Bool}
    (hchild : Agrees (readMember fields cluster d n child) overflow (tlvToJsonAt child d)
      (nameValue cluster fields n.toNat.repr))
    (hrest : Agrees (namedMembersToJson rest fields cluster d)
      (membersOverflow cluster fields rest) (membersToJson rest d) (nameMembers cluster fields)) :
    Agrees (namedMembersToJson ((.context n, child) :: rest) fields cluster d)
      (overflow || membersOverflow cluster fields rest)
      (membersToJson ((.context n, child) :: rest) d) (nameMembers cluster fields) := by
  unfold Agrees at *
  rw [namedMembersToJson_cons, hchild, hrest, membersToJson]
  cases overflow <;> cases membersOverflow cluster fields rest <;>
    cases tlvToJsonAt child d <;> cases membersToJson rest d <;>
    simp [nameMembers_eq_map, nameKey_repr]

theorem members_agree {cluster : Cluster} {fields : List Field} {members : List (Tag × Tlv)}
    {d : Nat} (ih : ∀ m ∈ members, ∀ f ∈ fields, Agrees (namedFieldToJson m.2 f cluster d)
      (fieldOverflows cluster f m.2) (tlvToJsonAt m.2 d) (nameField cluster f)) :
    Agrees (namedMembersToJson members fields cluster d) (membersOverflow cluster fields members)
      (membersToJson members d) (nameMembers cluster fields) := by
  induction members with
  | nil => simp [Agrees, namedMembersToJson, membersOverflow, membersToJson, nameMembers]
  | cons m rest ihrest =>
    have hrest := ihrest fun m hm => ih m (List.mem_cons_of_mem _ hm)
    obtain ⟨tag, child⟩ := m
    cases tag with
    | other =>
      unfold Agrees at hrest ⊢
      rw [namedMembersToJson, hrest, membersOverflow, membersToJson]
    | malformed =>
      unfold Agrees
      rw [namedMembersToJson, membersToJson, Option.map_none, ite_self]
    | context n =>
      rw [membersOverflow]
      refine member_agrees ?_ hrest
      unfold readMember nameValue
      rw [fieldOfKey_repr]
      cases hfind : fields.find? fun f => f.code = n.toUInt32 with
      | none => simp [Agrees]
      | some f => exact ih (.context n, child) List.mem_cons_self f (mem_of_find_code hfind).1

theorem struct_agrees {cluster : Cluster} {fields : List Field} (hnames : NamesOk fields)
    {members : List (Tag × Tlv)} {d : Nat}
    (hmembers : Agrees (namedMembersToJson members fields cluster (d + 1))
      (membersOverflow cluster fields members) (membersToJson members (d + 1))
      (nameMembers cluster fields)) :
    Agrees (tlvToJsonNamedAt (.struct members) fields cluster d)
      (membersOverflow cluster fields members) (tlvToJsonAt (.struct members) d)
      (nameFields cluster fields) := by
  unfold Agrees at *
  rw [tlvToJsonNamedAt, tlvToJsonAt]
  by_cases hd : d > maxDepth
  · simp [hd]
  · rw [if_neg hd, if_neg hd, hmembers]
    cases membersOverflow cluster fields members with
    | true => rfl
    | false =>
      cases hread : membersToJson members (d + 1) with
      | none => rfl
      | some kvs => simp [nameFields_ofMembers hnames cluster hread]

theorem json_ne_obj {e : Tlv} (he : ∀ members, e ≠ .struct members) (kvs : List (String × Json)) :
    e.json ≠ .obj kvs := by
  cases e with
  | struct members => exact absurd rfl (he members)
  | sint i =>
    unfold Tlv.json jsonOfI64
    split <;> simp
  | f32 bits | f64 bits =>
    unfold Tlv.json jsonOfF64
    split <;> simp
  | _ => simp [Tlv.json, Json.ofU64]

theorem json_ne_arr {e : Tlv} (harray : ∀ items, e ≠ .array items) (hlist : ∀ items, e ≠ .list items)
    (xs : List Json) : e.json ≠ .arr xs := by
  cases e with
  | array items => exact absurd rfl (harray items)
  | list items => exact absurd rfl (hlist items)
  | sint i =>
    unfold Tlv.json jsonOfI64
    split <;> simp
  | f32 bits | f64 bits =>
    unfold Tlv.json jsonOfF64
    split <;> simp
  | _ => simp [Tlv.json, Json.ofU64, Json.ofMembers]

/-- Only structs carry field ids: everything else is read as the plain reader does. -/
theorem notStruct_agrees {cluster : Cluster} {fields : List Field} {e : Tlv}
    (he : ∀ members, e ≠ .struct members) (d : Nat) :
    Agrees (tlvToJsonNamedAt e fields cluster d) (overflows cluster fields e) (tlvToJsonAt e d)
      (nameFields cluster fields) := by
  have hover : overflows cluster fields e = false := by
    cases e with
    | struct members => exact absurd rfl (he members)
    | _ => rfl
  have hname : nameFields cluster fields e.json = e.json := by
    cases hv : e.json with
    | obj kvs => exact absurd hv (json_ne_obj he kvs)
    | _ => rfl
  unfold Agrees
  rw [tlvToJsonNamedAt_of_not_struct he, hover, tlvToJsonAt_eq]
  by_cases hok : e.wellFormed = true ∧ d + e.height ≤ maxDepth
  · simp [if_pos hok, hname]
  · simp [if_neg hok]

/-- The field's type is no struct, or one whose table has room for its own chains below: the
struct may stand in a list, one level further down. -/
def SlotFits (cluster : Cluster) (f : Field) (d : Nat) : Prop :=
  ∀ nested, cluster.findStruct f.ty = some nested →
    ∃ k, ChainAtMost cluster k nested.fields ∧ d + 2 * k + 2 ≤ maxDepth

theorem ChainAtMost.slotFits {cluster : Cluster} {k : Nat} {fields : List Field}
    (h : ChainAtMost cluster k fields) {d : Nat} (hd : d + 2 * k + 1 ≤ maxDepth) {f : Field}
    (hf : f ∈ fields) : SlotFits cluster f (d + 1) := by
  intro nested hnested
  cases k with
  | zero =>
    rw [h f hf] at hnested
    cases hnested
  | succ k => exact ⟨k, h f hf nested hnested, by omega⟩

/-- In a struct-typed slot, a struct is renamed by the table of its own type. -/
theorem structField_agrees {cluster : Cluster} {f : Field} {nested : Struct}
    (hstruct : cluster.findStruct f.ty = some nested) {members : List (Tag × Tlv)} {d : Nat}
    (h : Agrees (tlvToJsonNamedAt (.struct members) nested.fields cluster d)
      (overflows cluster nested.fields (.struct members)) (tlvToJsonAt (.struct members) d)
      (nameFields cluster nested.fields)) :
    Agrees (namedFieldToJson (.struct members) f cluster d)
      (fieldOverflows cluster f (.struct members)) (tlvToJsonAt (.struct members) d)
      (nameField cluster f) := by
  have hread : namedFieldToJson (.struct members) f cluster d =
      tlvToJsonNamedAt (.struct members) nested.fields cluster d := by
    rw [namedFieldToJson, hstruct]
    rfl
  have hover : fieldOverflows cluster f (.struct members) =
      overflows cluster nested.fields (.struct members) := by
    unfold fieldOverflows
    rw [hstruct]
    rfl
  have hname : ∀ kvs, nameField cluster f (.ofMembers kvs) =
      nameFields cluster nested.fields (.ofMembers kvs) := by
    intro kvs
    unfold nameField Json.ofMembers
    rw [hstruct]
    rfl
  unfold Agrees at *
  rw [hread, hover, h, tlvToJsonAt]
  by_cases hd : d > maxDepth
  · simp [if_pos hd]
  · rw [if_neg hd, Option.map_map, Option.map_map]
    have hfun : nameField cluster f ∘ Json.ofMembers =
        nameFields cluster nested.fields ∘ Json.ofMembers := funext hname
    rw [hfun]

theorem listField_agrees {cluster : Cluster} {f : Field} {nested : Struct}
    (hstruct : cluster.findStruct f.ty = some nested) {items : List Tlv} {d : Nat}
    (hd : d ≤ maxDepth) (hitems : Agrees (namedItemsToJson items nested.fields cluster (d + 1))
      (itemsOverflow cluster nested.fields items) (itemsToJson items (d + 1))
      (nameItems cluster nested.fields)) {e : Tlv} (he : e = .array items ∨ e = .list items) :
    Agrees (namedFieldToJson e f cluster d) (fieldOverflows cluster f e) (tlvToJsonAt e d)
      (nameField cluster f) := by
  have hread : namedFieldToJson e f cluster d =
      (namedItemsToJson items nested.fields cluster (d + 1)).map Json.arr := by
    rcases he with rfl | rfl <;>
    · rw [namedFieldToJson, hstruct]
      rfl
  have hplain : tlvToJsonAt e d = (itemsToJson items (d + 1)).map Json.arr := by
    rcases he with rfl | rfl <;>
    · rw [tlvToJsonAt]
      exact if_neg (by omega)
  have hover : fieldOverflows cluster f e = itemsOverflow cluster nested.fields items := by
    unfold fieldOverflows
    rw [hstruct]
    rcases he with rfl | rfl <;> rfl
  have hname : ∀ vs, nameField cluster f (.arr vs) = .arr (nameItems cluster nested.fields vs) := by
    intro vs
    unfold nameField
    rw [hstruct]
  unfold Agrees at *
  rw [hread, hplain, hover, hitems]
  cases itemsOverflow cluster nested.fields items with
  | true => rfl
  | false => cases itemsToJson items (d + 1) <;> simp [hname]

/-- In a struct-typed slot, what is neither a struct nor a list is kept. -/
theorem otherField_agrees {cluster : Cluster} {f : Field} {nested : Struct}
    (hstruct : cluster.findStruct f.ty = some nested) {e : Tlv} {d : Nat} (hd : d ≤ maxDepth)
    (hmembers : ∀ members, e ≠ .struct members) (harray : ∀ items, e ≠ .array items)
    (hlist : ∀ items, e ≠ .list items) :
    Agrees (namedFieldToJson e f cluster d) (fieldOverflows cluster f e) (tlvToJsonAt e d)
      (nameField cluster f) := by
  have hread : namedFieldToJson e f cluster d = tlvToJsonAt e d ∧
      fieldOverflows cluster f e = false := by
    rw [namedFieldToJson]
    unfold fieldOverflows
    rw [hstruct]
    cases e with
    | struct members => exact absurd rfl (hmembers members)
    | array items => exact absurd rfl (harray items)
    | list items => exact absurd rfl (hlist items)
    | utf8 bytes =>
      rw [tlvToJsonAt, if_neg (by omega)]
      exact ⟨rfl, rfl⟩
    | _ => exact ⟨rfl, rfl⟩
  have hname : nameField cluster f e.json = e.json := by
    unfold nameField
    rw [hstruct]
    cases hv : e.json with
    | obj kvs => exact absurd hv (json_ne_obj hmembers kvs)
    | arr xs => exact absurd hv (json_ne_arr harray hlist xs)
    | _ => rfl
  unfold Agrees
  rw [hread.1, hread.2, tlvToJsonAt_eq]
  by_cases hok : e.wellFormed = true ∧ d + e.height ≤ maxDepth
  · simp [if_pos hok, hname]
  · simp [if_neg hok]

mutual
/-- The readers of an element, by induction on it: a struct by its members. -/
theorem tlvToJsonNamedAt_agrees {cluster : Cluster}
    (hstructs : ∀ s ∈ cluster.structs, NamesOk s.fields) (e : Tlv) {k : Nat} {fields : List Field}
    (hnames : NamesOk fields) (hchain : ChainAtMost cluster k fields) {d : Nat}
    (hd : d + 2 * k + 1 ≤ maxDepth) :
    Agrees (tlvToJsonNamedAt e fields cluster d) (overflows cluster fields e) (tlvToJsonAt e d)
      (nameFields cluster fields) := by
  match e with
  | .struct members =>
    refine struct_agrees hnames (members_agree fun m hm f hf => ?_)
    exact namedFieldToJson_agrees hstructs m.2 (hchain.slotFits hd hf) (by omega)
  | .array _ | .list _ | .malformed | .uint _ | .sint _ | .bool _ | .f32 _ | .f64 _ | .utf8 _
  | .octets _ | .null => exact notStruct_agrees (by simp) d
termination_by (sizeOf e, 0)
decreasing_by
  have hlt := List.sizeOf_lt_of_mem hm
  have hpair : sizeOf m.2 < sizeOf m := by
    obtain ⟨tag, child⟩ := m
    simp only [Prod.mk.sizeOf_spec]
    omega
  simp only [Tlv.struct.sizeOf_spec]
  exact Prod.Lex.left _ _ (by omega)

/-- The reader of a field, by the type of its slot and then by what stands in it. -/
theorem namedFieldToJson_agrees {cluster : Cluster}
    (hstructs : ∀ s ∈ cluster.structs, NamesOk s.fields) (e : Tlv) {f : Field} {d : Nat}
    (hslot : SlotFits cluster f d) (hd : d ≤ maxDepth) :
    Agrees (namedFieldToJson e f cluster d) (fieldOverflows cluster f e) (tlvToJsonAt e d)
      (nameField cluster f) := by
  cases hstruct : cluster.findStruct f.ty with
  | none => exact scalarField_agrees hstruct e hd
  | some nested =>
    have hnames := hstructs nested (List.mem_of_find?_eq_some hstruct)
    obtain ⟨k, hchain, hroom⟩ := hslot nested hstruct
    match e with
    | .struct members =>
      refine structField_agrees hstruct ?_
      exact tlvToJsonNamedAt_agrees hstructs (.struct members) hnames hchain (by omega)
    | .array items =>
      refine listField_agrees hstruct hd (items_agree fun item hitem => ?_) (.inl rfl)
      exact tlvToJsonNamedAt_agrees hstructs item hnames hchain (by omega)
    | .list items =>
      refine listField_agrees hstruct hd (items_agree fun item hitem => ?_) (.inr rfl)
      exact tlvToJsonNamedAt_agrees hstructs item hnames hchain (by omega)
    | .malformed | .uint _ | .sint _ | .bool _ | .f32 _ | .f64 _ | .utf8 _ | .octets _ | .null =>
      exact otherField_agrees hstruct hd (by simp) (by simp) (by simp)
termination_by (sizeOf e, 1)
decreasing_by
  · exact Prod.Lex.right _ (by omega)
  · have hlt := List.sizeOf_lt_of_mem hitem
    simp only [Tlv.array.sizeOf_spec]
    exact Prod.Lex.left _ _ (by omega)
  · have hlt := List.sizeOf_lt_of_mem hitem
    simp only [Tlv.list.sizeOf_spec]
    exact Prod.Lex.left _ _ (by omega)
end

/-- For every element, and every field table and cluster whose names are distinct and not
decimal and whose chains of struct-typed fields keep named descent within the depth limit:
unless an epoch overflows the shift, the named reader succeeds exactly when the plain one does,
and its result is the plain result renamed and shifted by the table. -/
theorem tlvToJsonNamed_agrees {cluster : Cluster}
    (hstructs : ∀ s ∈ cluster.structs, NamesOk s.fields) {fields : List Field}
    (hnames : NamesOk fields) (hchain : ChainAtMost cluster 15 fields) (elem : Tlv) :
    tlvToJsonNamed elem fields cluster =
      if overflows cluster fields elem then none
      else (tlvToJson elem).map (nameFields cluster fields) :=
  tlvToJsonNamedAt_agrees hstructs elem hnames hchain (by decide)

section AccessControl

def targetStruct : Struct :=
  ⟨"AccessControlTargetStruct", [⟨0, "cluster", "cluster_id", false⟩,
    ⟨1, "endpoint", "endpoint_no", false⟩, ⟨2, "deviceType", "devtype_id", false⟩]⟩

def entryStruct : Struct :=
  ⟨"AccessControlEntryStruct", [⟨1, "privilege", "AccessControlEntryPrivilegeEnum", false⟩,
    ⟨4, "targets", "AccessControlTargetStruct", true⟩, ⟨254, "fabricIndex", "fabric_idx", false⟩]⟩

def accessControl : Cluster := ⟨31, [], [targetStruct, entryStruct]⟩

def entryChangedFields : List Field :=
  [⟨1, "adminNodeID", "node_id", false⟩, ⟨4, "latestValue", "AccessControlEntryStruct", false⟩]

/-- An entry with one struct and one null among its targets, under a tag that occurs twice. -/
def entryChanged : Tlv :=
  .struct [(.context 4, .null), (.context 9, .bool true),
    (.context 4, .struct [(.context 1, .uint 5),
      (.context 4, .array [.struct [(.context 0, .uint 6)], .null])])]

theorem tableOk_accessControl : ∀ s ∈ accessControl.structs, TableOk s.fields := by
  have htarget : TableOk targetStruct.fields := ⟨by decide, by decide, by decide, by decide⟩
  have hentry : TableOk entryStruct.fields := ⟨by decide, by decide, by decide, by decide⟩
  intro s hs
  rcases List.mem_pair.mp hs with rfl | rfl
  · exact htarget
  · exact hentry

theorem tlvToJsonNamed_agrees_entryChanged :
    tlvToJsonNamed entryChanged entryChangedFields accessControl =
      some (.obj [("9", .bool true), ("latestValue", .obj [("privilege", .ofU64 5),
        ("targets", .arr [.obj [("cluster", .ofU64 6)], .null])])]) := by
  have hfields : TableOk entryChangedFields := ⟨by decide, by decide, by decide, by decide⟩
  rw [tlvToJsonNamed_agrees (fun s hs => (tableOk_accessControl s hs).namesOk) hfields.namesOk
    (by decide)]
  rfl

end AccessControl

end MatterRsServer.Stack
