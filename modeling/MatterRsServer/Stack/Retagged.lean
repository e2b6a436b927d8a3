import MatterRsServer.Stack.Canonical
import MatterRsServer.Stack.NamedAgrees

/-!
# Names and tags encode alike

A nested struct may come with the names of its fields for keys, or with their codes in
decimal. Which of the two is decided object by object, and the two look their hints up in
different ways; a value in which some objects were rewritten from the one form to the other is
written by the same calls.
-/
namespace MatterRsServer.Stack
open Lib Wire Gen

/-- Every key is a decimal tag. -/
def tagKeyed (members : List (String × Json)) : Bool := members.all fun m => (parseU8 m.1).isSome

/-- How the keys of an object resolve where its struct type is known. -/
def structResolve (members : List (String × Json)) (nested : Struct) (cluster : Cluster) : Resolve :=
  if tagKeyed members then resolveTag (some (nested.fields, cluster))
  else resolveNamed nested.fields cluster

/-- How the keys of an object resolve in a slot. -/
def tableResolve (hint : Option TypeHint) (members : List (String × Json)) : Resolve :=
  match hint.bind hintStruct with
  | some (nested, cluster) => structResolve members nested cluster
  | none => resolveTag none

mutual
/-- The second value is the first with some of its name-keyed objects, at any level that the
table reaches, rewritten to their tag-keyed form. -/
inductive Retagged : Option TypeHint → Json → Json → Prop
  | same (hint : Option TypeHint) (v : Json) : Retagged hint v v
  | items {hint : Option TypeHint} {items items' : List Json}
      (h : RetaggedItems (itemHint hint) items items') : Retagged hint (.arr items) (.arr items')
  | kept {hint : Option TypeHint} {members members' : List (String × Json)}
      (h : RetaggedMembers (tableResolve hint members) members members') :
      Retagged hint (.obj members) (.obj members')
  /-- A map holds the new keys in an order of its own. -/
  | rewritten {hint : Option TypeHint} {nested : Struct} {cluster : Cluster}
      {members tagged members' : List (String × Json)}
      (hstruct : hint.bind hintStruct = some (nested, cluster))
      (hnamed : tagKeyed members = false) (h : RetaggedKeys nested.fields cluster members tagged)
      (hperm : tagged.Perm members') : Retagged hint (.obj members) (.obj members')

inductive RetaggedItems : Option TypeHint → List Json → List Json → Prop
  | nil {hint : Option TypeHint} : RetaggedItems hint [] []
  | cons {hint : Option TypeHint} {x x' : Json} {xs xs' : List Json} (hx : Retagged hint x x')
      (h : RetaggedItems hint xs xs') : RetaggedItems hint (x :: xs) (x' :: xs')

/-- The members of an object that keeps its keys. -/
inductive RetaggedMembers : Resolve → List (String × Json) → List (String × Json) → Prop
  | nil {resolve : Resolve} : RetaggedMembers resolve [] []
  | cons {resolve : Resolve} {key : String} {v v' : Json} {rest rest' : List (String × Json)}
      (hv : Retagged ((resolve key).bind Prod.snd) v v') (h : RetaggedMembers resolve rest rest') :
      RetaggedMembers resolve ((key, v) :: rest) ((key, v') :: rest')

/-- Every key is replaced by the code of the field that it names. -/
inductive RetaggedKeys : List Field → Cluster → List (String × Json) → List (String × Json) → Prop
  | nil {fields : List Field} {cluster : Cluster} : RetaggedKeys fields cluster [] []
  | cons {fields : List Field} {cluster : Cluster} {key : String} {f : Field} {v v' : Json}
      {rest rest' : List (String × Json)}
      (hf : (fields.find? fun f => Text.eqIgnoreAsciiCase f.name key) = some f)
      (hv : Retagged (some (Field.hint f cluster)) v v')
      (h : RetaggedKeys fields cluster rest rest') :
      RetaggedKeys fields cluster ((key, v) :: rest) ((f.code.toNat.repr, v') :: rest')
end

/-- Both values are written by the same calls, or neither is written. -/
def SameCalls (hint : Option TypeHint) (v v' : Json) : Prop :=
  ∀ tag, Calls.writeJson tag v hint = Calls.writeJson tag v' hint

/-- Collected members that are written alike. -/
def SameSlot (a b : Option TypeHint × Json) : Prop := a.1 = b.1 ∧ SameCalls a.1 a.2 b.2

/-- Members that resolve alike and are written alike. -/
def SameMember (resolve resolve' : Resolve) (m m' : String × Json) : Prop :=
  resolve m.1 = resolve' m'.1 ∧ ∀ n hint, resolve m.1 = some (n, hint) → SameCalls hint m.2 m'.2

theorem rel_bind {α β γ δ : Type} {r : α → β → Prop} {s : γ → δ → Prop} {x : Option α}
    {y : Option β} {f : α → Option γ} {g : β → Option δ} (hxy : Option.Rel r x y)
    (hfg : ∀ a b, r a b → Option.Rel s (f a) (g b)) : Option.Rel s (x.bind f) (y.bind g) := by
  cases hxy with
  | none => exact .none
  | some hab => exact hfg _ _ hab

theorem collectMembers_rel {members members' : List (String × Json)} {resolve resolve' : Resolve}
    (h : List.Forall₂ (SameMember resolve resolve') members members') :
    Option.Rel (List.Forall₂ (Entries.SameKey SameSlot)) (collectMembers members resolve)
      (collectMembers members' resolve') := by
  have hfold : ∀ acc acc', List.Forall₂ (Entries.SameKey SameSlot) acc acc' →
      Option.Rel (List.Forall₂ (Entries.SameKey SameSlot))
        (members.foldlM (fun sorted m =>
          (resolve m.1).bind fun slot => Entries.insertNew slot.1 (slot.2, m.2) sorted) acc)
        (members'.foldlM (fun sorted m =>
          (resolve' m.1).bind fun slot => Entries.insertNew slot.1 (slot.2, m.2) sorted) acc') := by
    induction h with
    | nil => exact fun _ _ hacc => .some hacc
    | @cons m m' members members' hm _ ih =>
      intro acc acc' hacc
      obtain ⟨hresolve, hcalls⟩ := hm
      rw [List.foldlM_cons, List.foldlM_cons, ← hresolve]
      refine rel_bind ?_ ih
      cases hslot : resolve m.1 with
      | none => exact .none
      | some slot => exact Entries.rel_insertNew ⟨rfl, hcalls slot.1 slot.2 hslot⟩ hacc
  rw [collectMembers_eq, collectMembers_eq]
  exact hfold [] [] .nil

/-- Structs whose members resolve alike and are written alike are written alike. -/
theorem emitStruct_congr {members members' : List (String × Json)} {resolve resolve' : Resolve}
    (h : List.Forall₂ (SameMember resolve resolve') members members') (tag : CallTag) :
    Calls.emitStruct tag members resolve = Calls.emitStruct tag members' resolve' := by
  have hrel := collectMembers_rel h
  rw [Calls.emitStruct_eq, Calls.emitStruct_eq]
  generalize collectMembers members resolve = x at hrel ⊢
  generalize collectMembers members' resolve' = y at hrel ⊢
  cases hrel with
  | none => rfl
  | @some sorted sorted' hsorted =>
    have hmapM : sorted.mapM (fun e => Calls.writeJson (.context e.1) e.2.2 e.2.1) =
        sorted'.mapM fun e => Calls.writeJson (.context e.1) e.2.2 e.2.1 := by
      induction hsorted with
      | nil => rfl
      | @cons e e' sorted sorted' he _ ih =>
        obtain ⟨hkey, hhint, hcalls⟩ := he
        rw [List.mapM_cons, List.mapM_cons, ih, hcalls, hkey, hhint]
    rw [Option.bind_some, Option.bind_some, hmapM]

/-- The order in which a map holds its members does not show. -/
theorem emitStruct_perm {members members' : List (String × Json)} (h : members.Perm members')
    (tag : CallTag) (resolve : Resolve) :
    Calls.emitStruct tag members resolve = Calls.emitStruct tag members' resolve := by
  have hcollect : ∀ {ms ms' : List (String × Json)} {s}, ms.Perm ms' →
      collectMembers ms resolve = some s → collectMembers ms' resolve = some s := by
    intro ms ms' s hperm hs
    obtain ⟨es, hes, hnd, rfl⟩ := collectMembers_eq_some.mp hs
    obtain ⟨es', hes', hperm'⟩ := List.perm_comp_forall₂ hperm.symm hes
    have hkeys := hperm'.map Prod.fst
    refine collectMembers_eq_some.mpr ⟨es', hes', hkeys.nodup_iff.mpr hnd, ?_⟩
    exact Entries.insertAll_congr hperm'.symm hnd
  rw [Calls.emitStruct_eq, Calls.emitStruct_eq]
  congr 1
  refine Option.ext fun s => ⟨fun hs => hcollect h hs, fun hs => hcollect h.symm hs⟩

/-- Two values in one slot are written alike when each branch that the slot can take writes
them alike. -/
theorem hinted_sameCalls {v v' : Json} (hnull : v.isNull = false) (hnull' : v'.isNull = false)
    (h : TypeHint) (tag : CallTag) (hbase : ∀ base, Calls.writeBase v base = Calls.writeBase v' base)
    (hstruct : ∀ nested cluster, hintStruct h = some (nested, cluster) →
      Calls.writeHintedStruct tag v nested cluster = Calls.writeHintedStruct tag v' nested cluster)
    (hopen : hintStruct h = none → Calls.writeHeuristic tag v = Calls.writeHeuristic tag v') :
    Calls.writeHinted tag v h = Calls.writeHinted tag v' h := by
  unfold Calls.writeHinted
  rw [if_neg (by simp [hnull]), if_neg (by simp [hnull'])]
  cases baseType h.ty with
  | some base => exact congrArg (Option.map _) (hbase base)
  | none =>
    change (match hintStruct h with
        | some (nested, cluster) => Calls.writeHintedStruct tag v nested cluster
        | none => Calls.writeHeuristic tag v) = match hintStruct h with
        | some (nested, cluster) => Calls.writeHintedStruct tag v' nested cluster
        | none => Calls.writeHeuristic tag v'
    cases hfound : hintStruct h with
    | some found => exact hstruct found.1 found.2 hfound
    | none => exact hopen hfound

theorem arr_sameCalls {hint : Option TypeHint} {items items' : List Json}
    (h : List.Forall₂ (SameCalls (itemHint hint)) items items') :
    SameCalls hint (.arr items) (.arr items') := by
  have hmapM : items.mapM (fun item => Calls.writeJson .anonymous item (itemHint hint)) =
      items'.mapM fun item => Calls.writeJson .anonymous item (itemHint hint) := by
    generalize itemHint hint = inner at h ⊢
    induction h with
    | nil => rfl
    | cons hitem _ ih => rw [List.mapM_cons, List.mapM_cons, ih, hitem]
  intro tag
  have hheuristic : itemHint hint = none →
      Calls.writeHeuristic tag (.arr items) = Calls.writeHeuristic tag (.arr items') := by
    intro hnone
    rw [hnone] at hmapM
    unfold Calls.writeHeuristic
    rw [hmapM]
  unfold Calls.writeJson
  cases hint with
  | none => exact hheuristic rfl
  | some hint =>
    obtain ⟨ty, isList, cluster⟩ := hint
    cases isList with
    | true => exact congrArg (Option.map (arrayCalls tag)) hmapM
    | false =>
      refine hinted_sameCalls rfl rfl _ tag (fun base => by cases base <;> rfl) ?_
        fun _ => hheuristic rfl
      intro nested cluster _
      unfold Calls.writeHintedStruct
      rfl

/-- An object is written alike when it is where its struct type is known, and where it is not. -/
theorem obj_sameCalls {hint : Option TypeHint} {members members' : List (String × Json)}
    (hstruct : ∀ nested cluster, hint.bind hintStruct = some (nested, cluster) → ∀ tag,
      Calls.emitStruct tag members (structResolve members nested cluster) =
        Calls.emitStruct tag members' (structResolve members' nested cluster))
    (hopen : hint.bind hintStruct = none → ∀ tag,
      Calls.emitStruct tag members (resolveTag none) =
        Calls.emitStruct tag members' (resolveTag none)) :
    SameCalls hint (.obj members) (.obj members') := by
  intro tag
  have hheuristic : hint.bind hintStruct = none →
      Calls.writeHeuristic tag (.obj members) = Calls.writeHeuristic tag (.obj members') := by
    intro hnone
    unfold Calls.writeHeuristic Calls.writeTagBasedStruct
    exact hopen hnone tag
  have hnested : ∀ (ms : List (String × Json)) nested cluster,
      Calls.writeHintedStruct tag (.obj ms) nested cluster =
        Calls.emitStruct tag ms (structResolve ms nested cluster) := by
    intro ms nested cluster
    unfold Calls.writeHintedStruct Calls.writeTagBasedStruct Calls.writeJsonNamed structResolve
      tagKeyed
    split <;> rfl
  unfold Calls.writeJson
  cases hint with
  | none => exact hheuristic rfl
  | some hint =>
    obtain ⟨ty, isList, cluster⟩ := hint
    cases isList with
    | true => rfl
    | false =>
      refine hinted_sameCalls rfl rfl _ tag (fun base => by cases base <;> rfl) ?_ hheuristic
      intro nested found hfound
      rw [hnested, hnested]
      exact hstruct nested found hfound tag

/-- A hint that was found in the cluster's tables, or none. -/
def InCluster (cluster : Cluster) (hint : Option TypeHint) : Prop :=
  ∀ h ∈ hint, h.cluster = some cluster

theorem InCluster.itemHint {cluster : Cluster} {hint : Option TypeHint} (h : InCluster cluster hint) :
    InCluster cluster (itemHint hint) := by
  unfold Stack.itemHint
  cases hint with
  | none => exact h
  | some hint =>
    intro h' hh'
    dsimp only at hh'
    split at hh'
    · cases hh'
      exact h hint rfl
    · cases hh'

/-- A struct type that a hint names is one of the cluster's. -/
theorem InCluster.struct {cluster : Cluster} {hint : Option TypeHint} (h : InCluster cluster hint)
    {nested : Struct} {found : Cluster} (hstruct : hint.bind hintStruct = some (nested, found)) :
    found = cluster ∧ nested ∈ cluster.structs := by
  obtain ⟨hint, rfl, hfound⟩ := Option.bind_eq_some_iff.mp hstruct
  unfold hintStruct at hfound
  rw [h hint rfl, Option.bind_some] at hfound
  obtain ⟨nested', hfind, heq⟩ := Option.map_eq_some_iff.mp hfound
  obtain ⟨rfl, rfl⟩ := Prod.mk.inj heq
  exact ⟨rfl, List.mem_of_find?_eq_some hfind⟩

theorem inCluster_hint (f : Field) (cluster : Cluster) :
    InCluster cluster (some (Field.hint f cluster)) := by
  intro h hh
  cases hh
  rfl

/-- What the keys of an object resolve to was found in the cluster's tables. -/
theorem InCluster.resolve {cluster : Cluster} {hint : Option TypeHint} (h : InCluster cluster hint)
    (members : List (String × Json)) (key : String) :
    InCluster cluster ((tableResolve hint members key).bind Prod.snd) := by
  have hnone : InCluster cluster none := fun _ hh => by cases hh
  have htag : ∀ fields, InCluster cluster ((resolveTag (some (fields, cluster)) key).bind Prod.snd) := by
    intro fields
    unfold resolveTag
    cases parseU8 key with
    | none => exact hnone
    | some ctx =>
      change InCluster cluster ((fields.find? fun f => f.code = ctx.toUInt32).map _)
      cases fields.find? fun f => f.code = ctx.toUInt32 with
      | none => exact hnone
      | some f => exact inCluster_hint f cluster
  have hnamed : ∀ fields, InCluster cluster ((resolveNamed fields cluster key).bind Prod.snd) := by
    intro fields
    unfold resolveNamed
    split
    next f _ =>
      split
      · exact inCluster_hint f cluster
      · exact hnone
    next => exact hnone
  unfold tableResolve
  cases hstruct : hint.bind hintStruct with
  | none =>
    dsimp only
    unfold resolveTag
    cases parseU8 key <;> exact hnone
  | some found =>
    obtain ⟨rfl, _⟩ := h.struct hstruct
    dsimp only
    unfold structResolve
    split
    · exact htag _
    · exact hnamed _

/-- The code of a field resolves to what its name resolves to. -/
theorem TableOk.resolveTag_code {fields : List Field} (h : TableOk fields) (cluster : Cluster)
    {key : String} {f : Field}
    (hf : (fields.find? fun f => Text.eqIgnoreAsciiCase f.name key) = some f) :
    resolveNamed fields cluster key = some (UInt8.ofNat f.code.toNat, some (Field.hint f cluster)) ∧
    resolveTag (some (fields, cluster)) f.code.toNat.repr =
      some (UInt8.ofNat f.code.toNat, some (Field.hint f cluster)) := by
  have hmem := List.mem_of_find?_eq_some hf
  have hfit := h.codesFit f hmem
  have hnat : (UInt8.ofNat f.code.toNat).toNat = f.code.toNat := UInt8.toNat_ofNat_of_lt hfit
  have hcode : (UInt8.ofNat f.code.toNat).toUInt32 = f.code := by
    rw [← UInt32.toNat_inj, UInt8.toNat_toUInt32, hnat]
  constructor
  · unfold resolveNamed
    rw [hf]
    exact if_pos hfit
  · have hparse : parseU8 f.code.toNat.repr = some (UInt8.ofNat f.code.toNat) := by
      rw [← parseU8_repr (UInt8.ofNat f.code.toNat), hnat]
    unfold resolveTag
    rw [hparse, Option.map_some, Option.bind_some, hcode, h.find_code hmem]
    rfl

theorem RetaggedMembers.map_fst {resolve : Resolve} {members members' : List (String × Json)}
    (h : RetaggedMembers resolve members members') :
    members.map Prod.fst = members'.map Prod.fst := by
  induction members generalizing members' with
  | nil =>
    cases h
    rfl
  | cons m rest ih =>
    cases h with
    | cons _ h => exact congrArg (List.cons _) (ih h)

/-- Which of the two forms an object has depends on its keys only. -/
theorem tagKeyed_eq (members : List (String × Json)) :
    tagKeyed members = (members.map Prod.fst).all fun key => (parseU8 key).isSome := by
  unfold tagKeyed
  rw [List.all_map]
  rfl

theorem RetaggedKeys.tagKeyed {fields : List Field} (htable : TableOk fields) {cluster : Cluster}
    {members tagged : List (String × Json)} (h : RetaggedKeys fields cluster members tagged) :
    tagKeyed tagged = true := by
  induction members generalizing tagged with
  | nil =>
    cases h
    rfl
  | cons m rest ih =>
    cases h with
    | cons hf _ h =>
      have hslot := (htable.resolveTag_code cluster hf).2
      obtain ⟨ctx, hparse, _⟩ := Option.map_eq_some_iff.mp hslot
      have hrest := ih h
      unfold Stack.tagKeyed at hrest ⊢
      rw [List.all_cons, hrest, hparse]
      rfl

mutual
/-- By induction on the rewriting: whatever is rewritten inside of a value, the value is written
by the same calls. -/
theorem Retagged.sameCalls {cluster : Cluster} (htables : ∀ s ∈ cluster.structs, TableOk s.fields)
    {hint : Option TypeHint} {v v' : Json} (h : Retagged hint v v')
    (hhint : InCluster cluster hint) : SameCalls hint v v' := by
  cases h with
  | same => exact fun _ => rfl
  | items h => exact arr_sameCalls (h.sameCalls htables hhint.itemHint)
  | @kept _ members members' h =>
    have hmembers := h.sameMembers htables fun key => hhint.resolve members key
    have htag : tagKeyed members' = tagKeyed members := by
      rw [tagKeyed_eq, tagKeyed_eq, h.map_fst]
    refine obj_sameCalls (fun nested found hstruct tag => ?_) fun hnone tag => ?_
    · have hresolve : tableResolve hint members = structResolve members nested found := by
        unfold tableResolve
        rw [hstruct]
      have hsame : structResolve members' nested found = structResolve members nested found := by
        unfold structResolve
        rw [htag]
      rw [hsame, ← hresolve]
      exact emitStruct_congr hmembers tag
    · have hresolve : tableResolve hint members = resolveTag none := by
        unfold tableResolve
        rw [hnone]
      rw [← hresolve]
      exact emitStruct_congr hmembers tag
  | @rewritten _ nested found members tagged members' hstruct hnamed h hperm =>
    obtain ⟨rfl, hmem⟩ := hhint.struct hstruct
    have hmembers := h.sameMembers htables (htables nested hmem)
    have htag : tagKeyed members' = true := by
      have htagged := h.tagKeyed (htables nested hmem)
      unfold tagKeyed at htagged ⊢
      rw [List.all_eq_true] at htagged ⊢
      exact fun m hm => htagged m (hperm.mem_iff.mpr hm)
    refine obj_sameCalls (fun nested' found' hstruct' tag => ?_) fun hnone tag => ?_
    · rw [hstruct] at hstruct'
      obtain ⟨rfl, rfl⟩ := Prod.mk.inj (Option.some.inj hstruct')
      have hnames : structResolve members nested found = resolveNamed nested.fields found := by
        unfold structResolve
        rw [hnamed]
        rfl
      have htags : structResolve members' nested found =
          resolveTag (some (nested.fields, found)) := if_pos htag
      rw [hnames, htags, ← emitStruct_perm hperm]
      exact emitStruct_congr hmembers tag
    · rw [hstruct] at hnone
      cases hnone
termination_by sizeOf v

theorem RetaggedItems.sameCalls {cluster : Cluster}
    (htables : ∀ s ∈ cluster.structs, TableOk s.fields) {hint : Option TypeHint}
    {items items' : List Json} (h : RetaggedItems hint items items')
    (hhint : InCluster cluster hint) : List.Forall₂ (SameCalls hint) items items' := by
  cases h with
  | nil => exact .nil
  | cons hx h => exact .cons (hx.sameCalls htables hhint) (h.sameCalls htables hhint)
termination_by sizeOf items

theorem RetaggedMembers.sameMembers {cluster : Cluster}
    (htables : ∀ s ∈ cluster.structs, TableOk s.fields) {resolve : Resolve}
    {members members' : List (String × Json)} (h : RetaggedMembers resolve members members')
    (hhint : ∀ key, InCluster cluster ((resolve key).bind Prod.snd)) :
    List.Forall₂ (SameMember resolve resolve) members members' := by
  cases h with
  | nil => exact .nil
  | @cons _ key v v' rest rest' hv h =>
    refine .cons ⟨rfl, fun n hint hresolve => ?_⟩ (h.sameMembers htables hhint)
    have hsame := hv.sameCalls htables (hhint key)
    rw [hresolve] at hsame
    exact hsame
termination_by sizeOf members

theorem RetaggedKeys.sameMembers {cluster : Cluster}
    (htables : ∀ s ∈ cluster.structs, TableOk s.fields) {fields : List Field}
    {members tagged : List (String × Json)} (h : RetaggedKeys fields cluster members tagged)
    (htable : TableOk fields) : List.Forall₂ (SameMember (resolveNamed fields cluster)
      (resolveTag (some (fields, cluster)))) members tagged := by
  cases h with
  | nil => exact .nil
  | @cons _ _ key f v v' rest rest' hf hv h =>
    obtain ⟨hname, hcode⟩ := htable.resolveTag_code cluster hf
    refine .cons ⟨hname.trans hcode.symm, fun n hint hresolve => ?_⟩ (h.sameMembers htables htable)
    rw [hname] at hresolve
    obtain ⟨_, rfl⟩ := Prod.mk.inj (Option.some.inj hresolve)
    exact hv.sameCalls htables (inCluster_hint f cluster)
termination_by sizeOf members
end

/-- For every cluster with tables as the IDL gives them, every type that a slot of it can have
and every value: however some name-keyed structs in the value are rewritten to tags, the writer
makes the same calls, or fails on both. -/
theorem writeJson_retagged {cluster : Cluster} (htables : ∀ s ∈ cluster.structs, TableOk s.fields)
    (ty : String) (isList : Bool) {v v' : Json}
    (h : Retagged (some ⟨ty, isList, some cluster⟩) v v') (tag : CallTag) :
    Calls.writeJson tag v (some ⟨ty, isList, some cluster⟩) =
      Calls.writeJson tag v' (some ⟨ty, isList, some cluster⟩) := by
  refine h.sameCalls htables (fun hint hh => ?_) tag
  cases hh
  rfl

/-- A list with one struct that is named, in a letter case of its own, and one null. -/
theorem writeJson_retagged_targets :
    Calls.writeJson .anonymous (.arr [.obj [("Endpoint", .ofU64 1), ("cluster", .ofU64 6)], .null])
        (some ⟨"AccessControlTargetStruct", true, some accessControl⟩) =
      Calls.writeJson .anonymous (.arr [.obj [("0", .ofU64 6), ("1", .ofU64 1)], .null])
        (some ⟨"AccessControlTargetStruct", true, some accessControl⟩) := by
  have hkeys : RetaggedKeys targetStruct.fields accessControl
      [("Endpoint", .ofU64 1), ("cluster", .ofU64 6)] [("1", .ofU64 1), ("0", .ofU64 6)] :=
    .cons (f := ⟨1, "endpoint", "endpoint_no", false⟩) (by decide) (.same _ _)
      (.cons (f := ⟨0, "cluster", "cluster_id", false⟩) (by decide) (.same _ _) .nil)
  refine writeJson_retagged tableOk_accessControl _ _ ?_ .anonymous
  refine .items (.cons ?_ (.cons (.same _ _) .nil))
  exact .rewritten rfl (by decide) hkeys (List.Perm.swap _ _ _)

end MatterRsServer.Stack
