import MatterRsServer.Stack.TlvWrite

/-!
# The calls that the writer makes

The functions of `tlv_json.rs` that write do so through the methods of `TLVWrite`: scalars,
the opening of a struct or an array, and the end of the innermost container. Here they
return the calls that they make, in order; a failure discards what was written. The reader of
calls pairs every end with the container that it closes.
-/
namespace MatterRsServer.Stack
open Lib Wire Gen

/-- `TLVTag`, of the tags that the writer passes. -/
inductive CallTag where
  | anonymous
  | context (n : UInt8)
deriving DecidableEq

/-- The methods of `TLVWrite` for scalars, with their arguments. -/
inductive Scalar where
  | null
  | bool (b : Bool)
  | u8 (n : UInt8)
  | u16 (n : UInt16)
  | u32 (n : UInt32)
  | u64 (n : UInt64)
  | i8 (n : Int8)
  | i16 (n : Int16)
  | i32 (n : Int32)
  | i64 (n : Int64)
  | f32 (bits : UInt32)
  | f64 (bits : UInt64)
  | utf8 (bytes : ByteArray)
  | str (bytes : ByteArray)

inductive Call where
  | scalar (tag : CallTag) (s : Scalar)
  | startStruct (tag : CallTag)
  | startArray (tag : CallTag)
  | endContainer

/-- The element that a scalar is read as, whatever the width of its encoding. -/
def Scalar.element : Scalar → Tlv
  | .null => .null
  | .bool b => .bool b
  | .u8 n => .uint n.toUInt64
  | .u16 n => .uint n.toUInt64
  | .u32 n => .uint n.toUInt64
  | .u64 n => .uint n
  | .i8 n => .sint n.toInt64
  | .i16 n => .sint n.toInt64
  | .i32 n => .sint n.toInt64
  | .i64 n => .sint n
  | .f32 bits => .f32 bits
  | .f64 bits => .f64 bits
  | .utf8 bytes => .utf8 bytes
  | .str bytes => .octets bytes

/-- The calls of an array, between its two ends. -/
def arrayCalls (tag : CallTag) (items : List (List Call)) : List Call :=
  .startArray tag :: (items.flatten ++ [.endContainer])

def structCalls (tag : CallTag) (members : List (List Call)) : List Call :=
  .startStruct tag :: (members.flatten ++ [.endContainer])

/-- The `BTreeMap` of `emit_struct`: the members under their tags, each with what is known of
its slot. -/
def collectMembers (members : List (String × Json)) (resolve : Resolve) :
    Option (List (UInt8 × Option TypeHint × Json)) :=
  members.foldlM (fun sorted m =>
    match resolve m.1 with
    | some (ctx, hint) => Entries.insertNew ctx (hint, m.2) sorted
    | none => none) []

theorem collectMembers_eq (members : List (String × Json)) (resolve : Resolve) :
    collectMembers members resolve = members.foldlM (fun sorted m =>
      (resolve m.1).bind fun slot => Entries.insertNew slot.1 (slot.2, m.2) sorted) [] := by
  unfold collectMembers
  congr 1
  funext sorted m
  cases resolve m.1 with
  | none => rfl
  | some slot => rfl

/-- A member as it is collected. -/
def Collects (resolve : Resolve) (m : String × Json) (e : UInt8 × Option TypeHint × Json) : Prop :=
  resolve m.1 = some (e.1, e.2.1) ∧ e.2.2 = m.2

theorem foldlM_collect {members : List (String × Json)} {resolve : Resolve}
    {acc s : List (UInt8 × Option TypeHint × Json)} :
    members.foldlM (fun sorted m =>
      match resolve m.1 with
      | some (ctx, hint) => Entries.insertNew ctx (hint, m.2) sorted
      | none => none) acc = some s ↔
    ∃ es, List.Forall₂ (Collects resolve) members es ∧
      es.foldlM (fun l p => Entries.insertNew p.1 p.2 l) acc = some s := by
  induction members generalizing acc with
  | nil =>
    constructor
    · intro h
      exact ⟨[], .nil, h⟩
    · rintro ⟨es, hes, h⟩
      cases hes
      exact h
  | cons m rest ih =>
    rw [List.foldlM_cons]
    constructor
    · intro h
      obtain ⟨acc', hacc, hrest⟩ := Option.bind_eq_some_iff.mp h
      obtain ⟨es, hes, hfold⟩ := ih.mp hrest
      split at hacc
      next ctx hint hresolve =>
        refine ⟨(ctx, hint, m.2) :: es, .cons ⟨hresolve, rfl⟩ hes, ?_⟩
        rw [List.foldlM_cons]
        exact Option.bind_eq_some_iff.mpr ⟨acc', hacc, hfold⟩
      next => cases hacc
    · rintro ⟨es, hes, hfold⟩
      cases hes with
      | @cons _ e _ es hcollects hes =>
        obtain ⟨hresolve, hvalue⟩ := hcollects
        rw [List.foldlM_cons] at hfold
        obtain ⟨acc', hacc, hfold⟩ := Option.bind_eq_some_iff.mp hfold
        refine Option.bind_eq_some_iff.mpr ⟨acc', ?_, ih.mpr ⟨es, hes, hfold⟩⟩
        rw [hresolve, ← hvalue]
        exact hacc

/-- The members are collected when every key resolves and no two resolve to one tag. -/
theorem collectMembers_eq_some {members : List (String × Json)} {resolve : Resolve}
    {s : List (UInt8 × Option TypeHint × Json)} :
    collectMembers members resolve = some s ↔ ∃ es, List.Forall₂ (Collects resolve) members es ∧
      (es.map Prod.fst).Nodup ∧ s = Entries.insertAll es [] := by
  unfold collectMembers
  rw [foldlM_collect]
  constructor
  · rintro ⟨es, hes, hfold⟩
    obtain ⟨hnd, _, rfl⟩ := Entries.foldlM_insertNew.mp hfold
    exact ⟨es, hes, hnd, rfl⟩
  · rintro ⟨es, hes, hnd, rfl⟩
    exact ⟨es, hes, Entries.foldlM_insertNew.mpr ⟨hnd, by simp [Entries.get?], rfl⟩⟩

theorem mem_of_collect {members : List (String × Json)} {resolve : Resolve}
    {s : List (UInt8 × Option TypeHint × Json)} (h : collectMembers members resolve = some s)
    {e : UInt8 × Option TypeHint × Json} (he : e ∈ s) : ∃ m ∈ members, m.2 = e.2.2 := by
  obtain ⟨es, hes, _, rfl⟩ := collectMembers_eq_some.mp h
  have hmem := (Entries.mem_of_mem_insertAll he).resolve_right (by simp)
  obtain ⟨m, hm, _, hvalue⟩ := exists_mem_of_forall₂ hes.flip hmem
  exact ⟨m, hm, hvalue.symm⟩

theorem sizeOf_collected {members : List (String × Json)} {resolve : Resolve}
    {s : List (UInt8 × Option TypeHint × Json)} (h : collectMembers members resolve = some s)
    {e : UInt8 × Option TypeHint × Json} (he : e ∈ s) : sizeOf e.2.2 < sizeOf members := by
  obtain ⟨⟨key, v⟩, hm, hvalue⟩ := mem_of_collect h he
  have hlt := List.sizeOf_lt_of_mem hm
  rw [← hvalue]
  simp only [Prod.mk.sizeOf_spec] at hlt ⊢
  omega

namespace Calls

def writeUnsigned (v : Json) (bytes : Nat) : Option Scalar :=
  match v.asU64 with
  | none => none
  | some n =>
    match bytes with
    | 1 => if n < 2 ^ 8 then some (.u8 (UInt8.ofNat n)) else none
    | 2 => if n < 2 ^ 16 then some (.u16 (UInt16.ofNat n)) else none
    | 4 => if n < 2 ^ 32 then some (.u32 (UInt32.ofNat n)) else none
    | 3 | 5 | 6 | 7 => if n ≥ 2 ^ (bytes * 8) then none else some (.u64 (UInt64.ofNat n))
    | _ => some (.u64 (UInt64.ofNat n))

def writeSigned (v : Json) (bytes : Nat) : Option Scalar :=
  match v.asI64 with
  | none => none
  | some n =>
    match bytes with
    | 1 => if -2 ^ 7 ≤ n ∧ n < 2 ^ 7 then some (.i8 (Int8.ofInt n)) else none
    | 2 => if -2 ^ 15 ≤ n ∧ n < 2 ^ 15 then some (.i16 (Int16.ofInt n)) else none
    | 4 => if -2 ^ 31 ≤ n ∧ n < 2 ^ 31 then some (.i32 (Int32.ofInt n)) else none
    | 3 | 5 | 6 | 7 =>
      if ¬ (-2 ^ (bytes * 8 - 1) ≤ n ∧ n < 2 ^ (bytes * 8 - 1)) then none
      else some (.i64 (Int64.ofInt n))
    | _ => some (.i64 (Int64.ofInt n))

def writeBase (v : Json) : Base → Option Scalar
  | .bool => v.asBool.map Scalar.bool
  | .single =>
    match asF64 v with
    | some n => if n.toFloat32.isFinite then some (.f32 n.toFloat32.toBits) else none
    | none => none
  | .double => (asF64 v).map fun n => .f64 n.toBits
  | .utf8 => v.asStr.map fun s => .utf8 s.toUTF8
  | .octets => (v.asStr.bind base64Decode).map Scalar.str
  | .epochS =>
    match toMatterEpoch v matterEpochOffsetS with
    | some matter => if matter < 2 ^ 32 then some (.u32 (UInt32.ofNat matter)) else none
    | none => none
  | .epochUs => (toMatterEpoch v matterEpochOffsetUs).map fun matter => .u64 (UInt64.ofNat matter)
  | .unsigned bytes => writeUnsigned v bytes
  | .signed bytes => writeSigned v bytes

mutual
/-- `write_json`. -/
def writeJson (tag : CallTag) (v : Json) (hint : Option TypeHint) : Option (List Call) :=
  match hint with
  | some h =>
    if h.isList then
      match v with
      | .null => some [.scalar tag .null]
      | .arr items =>
        (items.mapM fun item => writeJson .anonymous item (some { h with isList := false })).map
          (arrayCalls tag)
      | _ => none
    else writeHinted tag v h
  | none => writeHeuristic tag v
termination_by (sizeOf v, 4)

/-- `write_hinted`. -/
def writeHinted (tag : CallTag) (v : Json) (h : TypeHint) : Option (List Call) :=
  if v.isNull then some [.scalar tag .null]
  else
    match baseType h.ty with
    | some base => (writeBase v base).map fun s => [.scalar tag s]
    | none =>
      match h.cluster.bind fun c => (c.findStruct h.ty).map fun nested => (nested, c) with
      | some (nested, cluster) => writeHintedStruct tag v nested cluster
      | none => writeHeuristic tag v
termination_by (sizeOf v, 3)

/-- `write_hinted_struct`. -/
def writeHintedStruct (tag : CallTag) (v : Json) (nested : Struct) (cluster : Cluster) :
    Option (List Call) :=
  match v with
  | .obj members =>
    if members.all fun m => (parseU8 m.1).isSome then
      writeTagBasedStruct tag members (some (nested.fields, cluster))
    else writeJsonNamed tag members nested.fields cluster
  | _ => none
termination_by (sizeOf v, 2)

/-- `write_heuristic`. -/
def writeHeuristic (tag : CallTag) (v : Json) : Option (List Call) :=
  match v with
  | .null => some [.scalar tag .null]
  | .bool b => some [.scalar tag (.bool b)]
  | .num n =>
    match (Json.num n).asU64, (Json.num n).asI64 with
    | some u, _ => some [.scalar tag (.u64 (UInt64.ofNat u))]
    | none, some i => some [.scalar tag (.i64 (Int64.ofInt i))]
    | _, _ => (asF64 (.num n)).map fun f => [.scalar tag (.f64 f.toBits)]
  | .str s => some [.scalar tag (.utf8 s.toUTF8)]
  | .arr items => (items.mapM fun item => writeJson .anonymous item none).map (arrayCalls tag)
  | .obj members => writeTagBasedStruct tag members none
termination_by (sizeOf v, 2)

/-- `write_json_named`. -/
def writeJsonNamed (tag : CallTag) (members : List (String × Json)) (fields : List Field)
    (cluster : Cluster) : Option (List Call) :=
  emitStruct tag members (resolveNamed fields cluster)
termination_by (sizeOf members, 2)

/-- `write_tag_based_struct`. -/
def writeTagBasedStruct (tag : CallTag) (members : List (String × Json))
    (nested : Option (List Field × Cluster)) : Option (List Call) :=
  emitStruct tag members (resolveTag nested)
termination_by (sizeOf members, 2)

/-- `emit_struct`: first every key is resolved, then the members are written by tag. -/
def emitStruct (tag : CallTag) (members : List (String × Json)) (resolve : Resolve) :
    Option (List Call) :=
  match _h : collectMembers members resolve with
  | some sorted =>
    (sorted.attach.mapM fun e => writeJson (.context e.1.1) e.1.2.2 e.1.2.1).map (structCalls tag)
  | none => none
termination_by (sizeOf members, 1)
decreasing_by
  exact Prod.Lex.left _ _ (sizeOf_collected _h e.2)
end

theorem emitStruct_eq (tag : CallTag) (members : List (String × Json)) (resolve : Resolve) :
    emitStruct tag members resolve = (collectMembers members resolve).bind fun sorted =>
      (sorted.mapM fun e => writeJson (.context e.1) e.2.2 e.2.1).map (structCalls tag) := by
  rw [emitStruct]
  split
  next sorted h =>
    rw [h, Option.bind_some, List.mapM_subtype (g := fun e => writeJson (.context e.1) e.2.2 e.2.1)
      fun e he => rfl, List.unattach_attach]
  next h => rw [h, Option.bind_none]

end Calls

/-- An open container and what it holds so far. -/
structure Frame where
  tag : CallTag
  isStruct : Bool
  children : List (CallTag × Tlv)

def Frame.push (f : Frame) (tag : CallTag) (t : Tlv) : Frame :=
  { f with children := f.children ++ [(tag, t)] }

/-- A struct member has a context tag. -/
def asMember : CallTag × Tlv → Option (Tag × Tlv)
  | (.context n, t) => some (.context n, t)
  | (.anonymous, _) => none

/-- An array item has no tag. -/
def asItem : CallTag × Tlv → Option Tlv
  | (.anonymous, t) => some t
  | (.context _, _) => none

def Frame.close (f : Frame) : Option Tlv :=
  if f.isStruct then (f.children.mapM asMember).map Tlv.struct
  else (f.children.mapM asItem).map Tlv.array

/-- The innermost open container, and those around it. -/
structure Open where
  inner : Frame
  outer : List Frame

/-- What one call does: an end closes the innermost container and puts it into the next. -/
def readCall (o : Open) : Call → Option Open
  | .scalar tag s => some { o with inner := o.inner.push tag s.element }
  | .startStruct tag => some ⟨⟨tag, true, []⟩, o.inner :: o.outer⟩
  | .startArray tag => some ⟨⟨tag, false, []⟩, o.inner :: o.outer⟩
  | .endContainer =>
    match o.outer with
    | f :: outer => o.inner.close.map fun t => ⟨f.push o.inner.tag t, outer⟩
    | [] => none

/-- The element that a whole sequence of calls writes: one, with every container closed. -/
def readCalls (calls : List Call) : Option (CallTag × Tlv) :=
  match calls.foldlM readCall ⟨⟨.anonymous, false, []⟩, []⟩ with
  | some ⟨⟨_, _, [e]⟩, []⟩ => some e
  | _ => none

/-- Wherever the calls are made, they add the element under its tag and change nothing else. -/
def Emits (tag : CallTag) (calls : List Call) (t : Tlv) : Prop :=
  ∀ o : Open, calls.foldlM readCall o = some { o with inner := o.inner.push tag t }

theorem Emits.readCalls {tag : CallTag} {calls : List Call} {t : Tlv} (h : Emits tag calls t) :
    readCalls calls = some (tag, t) := by
  unfold Stack.readCalls
  rw [h]
  rfl

theorem emits_scalar (tag : CallTag) (s : Scalar) : Emits tag [.scalar tag s] s.element :=
  fun _ => rfl

/-- Elements one after another, each under its own tag. -/
theorem foldlM_emits {css : List (List Call)} {children : List (CallTag × Tlv)}
    (h : List.Forall₂ (fun cs c => Emits c.1 cs c.2) css children) (o : Open) :
    css.flatten.foldlM readCall o =
      some { o with inner := { o.inner with children := o.inner.children ++ children } } := by
  induction h generalizing o with
  | nil =>
    rw [List.append_nil]
    rfl
  | @cons cs c css children hc _ ih =>
    rw [List.flatten_cons, List.foldlM_append, hc, Option.bind_eq_bind, Option.bind_some, ih]
    simp [Frame.push]

theorem close_struct (tag : CallTag) (ws : List (UInt8 × Tlv)) :
    Frame.close ⟨tag, true, ws.map fun w => (.context w.1, w.2)⟩ = some (contextStruct ws) := by
  have hmembers : (ws.map fun w => (CallTag.context w.1, w.2)).mapM asMember =
      some (ws.map fun w => (Tag.context w.1, w.2)) := by
    induction ws with
    | nil => rfl
    | cons w ws ih =>
      rw [List.map_cons, List.mapM_cons, ih]
      rfl
  unfold Frame.close
  rw [if_pos rfl, hmembers]
  rfl

theorem close_array (tag : CallTag) (ts : List Tlv) :
    Frame.close ⟨tag, false, ts.map fun t => (.anonymous, t)⟩ = some (.array ts) := by
  have hitems : (ts.map fun t => (CallTag.anonymous, t)).mapM asItem = some ts := by
    induction ts with
    | nil => rfl
    | cons t ts ih =>
      rw [List.map_cons, List.mapM_cons, ih]
      rfl
  unfold Frame.close
  rw [if_neg (by simp), hitems]
  rfl

theorem emits_struct {tag : CallTag} {css : List (List Call)} {ws : List (UInt8 × Tlv)}
    (h : List.Forall₂ (fun cs w => Emits (.context w.1) cs w.2) css ws) :
    Emits tag (structCalls tag css) (contextStruct ws) := by
  intro o
  have hchildren : List.Forall₂ (fun cs c => Emits c.1 cs c.2) css
      (ws.map fun w => (CallTag.context w.1, w.2)) := List.forall₂_map_right_iff.mpr h
  unfold structCalls
  rw [List.foldlM_cons]
  change (css.flatten ++ [Call.endContainer]).foldlM readCall ⟨⟨tag, true, []⟩, o.inner :: o.outer⟩ = _
  rw [List.foldlM_append, foldlM_emits hchildren]
  simp only [List.nil_append, Option.bind_eq_bind, Option.bind_some, List.foldlM_cons,
    List.foldlM_nil, readCall, close_struct, Option.map_some]
  rfl

theorem emits_array {tag : CallTag} {css : List (List Call)} {ts : List Tlv}
    (h : List.Forall₂ (Emits .anonymous) css ts) :
    Emits tag (arrayCalls tag css) (.array ts) := by
  intro o
  have hchildren : List.Forall₂ (fun cs c => Emits c.1 cs c.2) css
      (ts.map fun t => (CallTag.anonymous, t)) := List.forall₂_map_right_iff.mpr h
  unfold arrayCalls
  rw [List.foldlM_cons]
  change (css.flatten ++ [Call.endContainer]).foldlM readCall ⟨⟨tag, false, []⟩, o.inner :: o.outer⟩ = _
  rw [List.foldlM_append, foldlM_emits hchildren]
  simp only [List.nil_append, Option.bind_eq_bind, Option.bind_some, List.foldlM_cons,
    List.foldlM_nil, readCall, close_array, Option.map_some]
  rfl

/-- Loops that fail at the first failure stay related. -/
theorem rel_mapM {α β γ δ : Type} {f : α → Option β} {g : γ → Option δ} {r : β → δ → Prop}
    {l : List α} {u : List γ} (h : List.Forall₂ (fun a c => Option.Rel r (f a) (g c)) l u) :
    Option.Rel (List.Forall₂ r) (l.mapM f) (u.mapM g) := by
  induction h with
  | nil => exact .some .nil
  | @cons a c l u hac _ ih =>
    rw [List.mapM_cons, List.mapM_cons]
    generalize f a = x at hac
    generalize g c = y at hac
    generalize l.mapM f = xs at ih
    generalize u.mapM g = ys at ih
    cases hac with
    | none => exact .none
    | some hxy =>
      cases ih with
      | none => exact .none
      | some hxys => exact .some (.cons hxy hxys)

theorem rel_map {α β γ δ : Type} {r : α → β → Prop} {s : γ → δ → Prop} {f : α → γ} {g : β → δ}
    (hfg : ∀ a b, r a b → s (f a) (g b)) {x : Option α} {y : Option β} (h : Option.Rel r x y) :
    Option.Rel s (x.map f) (y.map g) := by
  cases h with
  | none => exact .none
  | some hab => exact .some (hfg _ _ hab)

/-- What is written of a collected member. -/
def WritesSlot (slot : Option TypeHint × Json) (t : Tlv) : Prop :=
  writeJson slot.2 slot.1 = some t

theorem collects_of_writes {members : List (String × Json)} {resolve : Resolve}
    {ws : List (UInt8 × Tlv)} (h : List.Forall₂ (WritesMember resolve) members ws) :
    ∃ es, List.Forall₂ (Collects resolve) members es ∧
      List.Forall₂ (Entries.SameKey WritesSlot) es ws := by
  induction h with
  | nil => exact ⟨[], .nil, .nil⟩
  | @cons m w members ws hm _ ih =>
    obtain ⟨es, hes, hsame⟩ := ih
    obtain ⟨hint, hresolve, hwrite⟩ := hm
    exact ⟨(w.1, hint, m.2) :: es, .cons ⟨hresolve, rfl⟩ hes, .cons ⟨rfl, hwrite⟩ hsame⟩

theorem writes_of_slots {members : List (String × Json)} {resolve : Resolve}
    {es : List (UInt8 × Option TypeHint × Json)} {ws : List (UInt8 × Tlv)}
    (hes : List.Forall₂ (Collects resolve) members es)
    (hws : List.Forall₂ (Entries.SameKey WritesSlot) es ws) :
    List.Forall₂ (WritesMember resolve) members ws := by
  induction hes generalizing ws with
  | nil =>
    cases hws
    exact .nil
  | cons hcollects _ ih =>
    cases hws with
    | cons hwrites hrest =>
      obtain ⟨hresolve, hvalue⟩ := hcollects
      obtain ⟨hkey, hwrite⟩ := hwrites
      refine .cons ⟨_, hkey ▸ hresolve, ?_⟩ (ih hrest)
      rw [← hvalue]
      exact hwrite

/-- Each pair of the sorted list was written from the collected slot of its tag. -/
theorem writes_of_collects {es : List (UInt8 × Option TypeHint × Json)} {ws : List (UInt8 × Tlv)}
    (hnd : (es.map Prod.fst).Nodup)
    (h : List.Forall₂ (Entries.SameKey WritesSlot) (Entries.insertAll es []) ws) :
    ∃ ws', List.Forall₂ (Entries.SameKey WritesSlot) es ws' ∧ ws = Entries.insertAll ws' [] := by
  have hwritten : ∀ e ∈ es, ∃ w, Entries.SameKey WritesSlot e w := by
    intro e he
    obtain ⟨w, _, hw⟩ := exists_mem_of_forall₂ h ((Entries.mem_insertAll hnd).mpr he)
    exact ⟨w, hw⟩
  have hws : ∃ ws', List.Forall₂ (Entries.SameKey WritesSlot) es ws' := by
    clear h hnd
    induction es with
    | nil => exact ⟨[], .nil⟩
    | cons e es ih =>
      obtain ⟨w, hw⟩ := hwritten e List.mem_cons_self
      obtain ⟨ws', hws'⟩ := ih fun e he => hwritten e (List.mem_cons_of_mem _ he)
      exact ⟨w :: ws', .cons hw hws'⟩
  obtain ⟨ws', hws'⟩ := hws
  refine ⟨ws', hws', ?_⟩
  have hsorted := Entries.forall₂_insertAll hws' (l := []) (m := []) .nil
  -- what is written of a slot is determined, so both lists are the same
  have hunique : Relator.RightUnique (Entries.SameKey (κ := UInt8) WritesSlot) := by
    rintro e w w' ⟨hkey, hw⟩ ⟨hkey', hw'⟩
    refine Prod.ext (hkey.symm.trans hkey') (Option.some.inj ?_)
    exact Eq.trans hw.symm hw'
  exact hunique.forall₂ h hsorted

/-- To resolve every key before any member is written, or only as each is written, is the same. -/
theorem emitStruct_collects (members : List (String × Json)) (resolve : Resolve) :
    emitStruct members resolve = (collectMembers members resolve).bind fun sorted =>
      (sorted.mapM fun e => (writeJson e.2.2 e.2.1).map (Prod.mk e.1)).map contextStruct := by
  have hmapM : ∀ {es : List (UInt8 × Option TypeHint × Json)} {ws : List (UInt8 × Tlv)},
      es.mapM (fun e => (writeJson e.2.2 e.2.1).map (Prod.mk e.1)) = some ws ↔
        List.Forall₂ (Entries.SameKey WritesSlot) es ws := by
    intro es ws
    rw [Result.mapM_eq_some_iff]
    refine iff_of_eq (congrArg₂ (fun r (l : List _) => List.Forall₂ r l ws) ?_ rfl)
    funext e w
    simp only [Option.map_eq_some_iff, Entries.SameKey, WritesSlot, eq_iff_iff]
    constructor
    · rintro ⟨t, ht, rfl⟩
      exact ⟨rfl, ht⟩
    · rintro ⟨hkey, ht⟩
      exact ⟨w.2, ht, Prod.ext hkey rfl⟩
  refine Option.ext fun t => ?_
  rw [emitStruct_eq_some, Option.bind_eq_some_iff]
  constructor
  · rintro ⟨ws, hws, hnd, rfl⟩
    obtain ⟨es, hes, hsame⟩ := collects_of_writes hws
    have hkeys := Entries.map_fst_eq_of_sameKey hsame
    refine ⟨_, collectMembers_eq_some.mpr ⟨es, hes, hkeys ▸ hnd, rfl⟩, ?_⟩
    rw [hmapM.mpr (Entries.forall₂_insertAll hsame .nil)]
    rfl
  · rintro ⟨sorted, hsorted, ht⟩
    obtain ⟨es, hes, hnd, rfl⟩ := collectMembers_eq_some.mp hsorted
    obtain ⟨ws, hws, rfl⟩ := Option.map_eq_some_iff.mp ht
    obtain ⟨ws', hws', rfl⟩ := writes_of_collects hnd (hmapM.mp hws)
    have hkeys := Entries.map_fst_eq_of_sameKey hws'
    exact ⟨ws', writes_of_slots hes hws', hkeys ▸ hnd, rfl⟩

theorem ite_map {α β : Type} {p : Prop} [Decidable p] {f : α → β} {x : α} {y : β}
    (h : p → f x = y) : (if p then some x else none).map f = if p then some y else none := by
  split
  next hp => rw [Option.map_some, h hp]
  next => rfl

theorem ite_not_map {α β : Type} {p : Prop} [Decidable p] {f : α → β} {x : α} :
    (if p then none else some x).map f = if p then none else some (f x) := by
  split <;> rfl

theorem eq_ofNat_of_toNat {m : UInt64} {n : Nat} (h : m.toNat = n) : m = UInt64.ofNat n := by
  rw [← h]
  exact UInt64.ofNat_toNat.symm

theorem Calls.writeUnsigned_element (v : Json) (bytes : Nat) :
    (Calls.writeUnsigned v bytes).map Scalar.element = Stack.writeUnsigned v bytes := by
  unfold Calls.writeUnsigned Stack.writeUnsigned
  cases v.asU64 with
  | none => rfl
  | some n =>
    match bytes with
    | 1 =>
      refine ite_map fun hn => congrArg Tlv.uint (eq_ofNat_of_toNat ?_)
      exact UInt8.toNat_ofNat_of_lt hn
    | 2 =>
      refine ite_map fun hn => congrArg Tlv.uint (eq_ofNat_of_toNat ?_)
      exact UInt16.toNat_ofNat_of_lt hn
    | 4 =>
      refine ite_map fun hn => congrArg Tlv.uint (eq_ofNat_of_toNat ?_)
      exact UInt32.toNat_ofNat_of_lt hn
    | 3 | 5 | 6 | 7 => exact ite_not_map
    | 0 | k + 8 => rfl

theorem Calls.writeSigned_element (v : Json) (bytes : Nat) :
    (Calls.writeSigned v bytes).map Scalar.element = Stack.writeSigned v bytes := by
  unfold Calls.writeSigned Stack.writeSigned
  cases v.asI64 with
  | none => rfl
  | some n =>
    match bytes with
    | 1 =>
      refine ite_map fun hn => congrArg Tlv.sint ?_
      exact Int8.toInt64_ofInt hn.1 (Int.le_sub_one_of_lt hn.2)
    | 2 =>
      refine ite_map fun hn => congrArg Tlv.sint ?_
      exact Int16.toInt64_ofInt hn.1 (Int.le_sub_one_of_lt hn.2)
    | 4 =>
      refine ite_map fun hn => congrArg Tlv.sint ?_
      exact Int32.toInt64_ofInt hn.1 (Int.le_sub_one_of_lt hn.2)
    | 3 | 5 | 6 | 7 => exact ite_not_map
    | 0 | k + 8 => rfl

theorem Calls.writeBase_element (v : Json) (base : Base) :
    (Calls.writeBase v base).map Scalar.element = Stack.writeBase v base := by
  cases base with
  | unsigned bytes => exact Calls.writeUnsigned_element v bytes
  | signed bytes => exact Calls.writeSigned_element v bytes
  | bool | double | utf8 | octets | epochUs => exact Option.map_map _ _ _
  | single =>
    unfold Calls.writeBase Stack.writeBase
    cases asF64 v with
    | none => rfl
    | some n => exact ite_map fun _ => rfl
  | epochS =>
    unfold Calls.writeBase Stack.writeBase
    cases toMatterEpoch v matterEpochOffsetS with
    | none => rfl
    | some matter =>
      refine ite_map fun hm => congrArg Tlv.uint (eq_ofNat_of_toNat ?_)
      exact UInt32.toNat_ofNat_of_lt hm

/-- The calls that write the value are, read as one element, what the writer is said to write. -/
def Related (v : Json) : Prop :=
  ∀ tag hint, Option.Rel (Emits tag) (Calls.writeJson tag v hint) (writeJson v hint)

/-- The same of every item or member of the value. -/
def PartsRelated : Json → Prop
  | .arr items => ∀ item ∈ items, Related item
  | .obj members => ∀ m ∈ members, Related m.2
  | _ => True

theorem items_rel {items : List Json} (h : ∀ item ∈ items, Related item) (tag : CallTag)
    (hint : Option TypeHint) : Option.Rel (Emits tag)
      ((items.mapM fun item => Calls.writeJson .anonymous item hint).map (arrayCalls tag))
      ((writeItems items hint).map Tlv.array) := by
  rw [writeItems_eq_mapM]
  refine rel_map (fun _ _ hitems => emits_array hitems) (rel_mapM ?_)
  exact List.forall₂_same.mpr fun item hitem => h item hitem .anonymous hint

theorem emitStruct_rel {members : List (String × Json)} (h : ∀ m ∈ members, Related m.2)
    (tag : CallTag) (resolve : Resolve) :
    Option.Rel (Emits tag) (Calls.emitStruct tag members resolve) (emitStruct members resolve) := by
  rw [Calls.emitStruct_eq, emitStruct_collects]
  cases hcollect : collectMembers members resolve with
  | none => exact .none
  | some sorted =>
    refine rel_map (fun _ _ hws => emits_struct hws) (rel_mapM (List.forall₂_same.mpr fun e he => ?_))
    obtain ⟨m, hm, hvalue⟩ := mem_of_collect hcollect he
    have hrel := h m hm (.context e.1) e.2.1
    rw [hvalue] at hrel
    generalize Calls.writeJson (.context e.1) e.2.2 e.2.1 = cs at hrel ⊢
    generalize writeJson e.2.2 e.2.1 = t at hrel ⊢
    cases hrel with
    | none => exact .none
    | some hemits => exact .some hemits

theorem heuristic_rel {v : Json} (h : PartsRelated v) (tag : CallTag) :
    Option.Rel (Emits tag) (Calls.writeHeuristic tag v) (writeHeuristic v) := by
  unfold Calls.writeHeuristic writeHeuristic
  cases v with
  | null => exact .some (emits_scalar tag .null)
  | bool b => exact .some (emits_scalar tag (.bool b))
  | str s => exact .some (emits_scalar tag (.utf8 s.toUTF8))
  | num n =>
    dsimp only
    cases (Json.num n).asU64 with
    | some u => exact .some (emits_scalar tag (.u64 (UInt64.ofNat u)))
    | none =>
      cases (Json.num n).asI64 with
      | some i => exact .some (emits_scalar tag (.i64 (Int64.ofInt i)))
      | none =>
        cases asF64 (.num n) with
        | none => exact .none
        | some x => exact .some (emits_scalar tag (.f64 x.toBits))
  | arr items => exact items_rel h tag none
  | obj members =>
    dsimp only
    unfold Calls.writeTagBasedStruct writeTagBasedStruct
    exact emitStruct_rel h tag _

theorem hintedStruct_rel {v : Json} (h : PartsRelated v) (tag : CallTag) (nested : Struct)
    (cluster : Cluster) : Option.Rel (Emits tag) (Calls.writeHintedStruct tag v nested cluster)
      (writeHintedStruct v nested cluster) := by
  unfold Calls.writeHintedStruct writeHintedStruct
  cases v with
  | obj members =>
    dsimp only
    unfold Calls.writeTagBasedStruct writeTagBasedStruct Calls.writeJsonNamed writeJsonNamed
    split
    · exact emitStruct_rel h tag _
    · exact emitStruct_rel h tag _
  | _ => exact .none

theorem hinted_rel {v : Json} (h : PartsRelated v) (tag : CallTag) (hint : TypeHint) :
    Option.Rel (Emits tag) (Calls.writeHinted tag v hint) (writeHinted v hint) := by
  unfold Calls.writeHinted writeHinted
  by_cases hnull : v.isNull = true
  · rw [if_pos hnull, if_pos hnull]
    exact .some (emits_scalar tag .null)
  · rw [if_neg hnull, if_neg hnull]
    cases baseType hint.ty with
    | some base =>
      dsimp only
      rw [← Calls.writeBase_element]
      cases Calls.writeBase v base with
      | none => exact .none
      | some s => exact .some (emits_scalar tag s)
    | none =>
      dsimp only
      cases hint.cluster.bind fun c => (c.findStruct hint.ty).map fun nested => (nested, c) with
      | none => exact heuristic_rel h tag
      | some found => exact hintedStruct_rel h tag found.1 found.2

theorem related_of_parts {v : Json} (h : PartsRelated v) : Related v := by
  intro tag hint
  unfold Calls.writeJson writeJson
  cases hint with
  | none => exact heuristic_rel h tag
  | some hint =>
    dsimp only
    split
    · cases v with
      | null => exact .some (emits_scalar tag .null)
      | arr items => exact items_rel h tag _
      | _ => exact .none
    · exact hinted_rel h tag hint

/-- What the writer calls is one element, the one that it is said to write; it fails when it is
said to fail. -/
theorem writeJson_rel (v : Json) (tag : CallTag) (hint : Option TypeHint) :
    Option.Rel (Emits tag) (Calls.writeJson tag v hint) (writeJson v hint) := by
  have hrelated : Related v := by
    induction v using Json.nestedInduction with
    | null => exact related_of_parts trivial
    | bool b => exact related_of_parts trivial
    | num n => exact related_of_parts trivial
    | str s => exact related_of_parts trivial
    | arr items ih => exact related_of_parts ih
    | obj members ih => exact related_of_parts ih
  exact hrelated tag hint

end MatterRsServer.Stack
