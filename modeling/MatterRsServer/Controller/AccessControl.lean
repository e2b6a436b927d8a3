import MatterRsServer.Controller.OnNetwork

/-!
# Access control entries

`set_acl_entry` of `crates/controller/src/commands/fabrics.rs`. A null or empty subject list
means everyone, so an entry must not get there by losing the node's own id.
-/
namespace MatterRsServer.Controller
open Lib Lib.Result Wire

def mapAclTarget (target : Json) : Json :=
  .obj <| Entries.insert "2" ((target.get "device_type").getD .null) <|
    Entries.insert "1" ((target.get "endpoint").getD .null) <|
    Entries.insert "0" ((target.get "cluster").getD .null) []

/-- The subjects of an entry without the node's own id; `none` if that leaves nobody. -/
def aclSubjects (nodeId : NodeId) : Option Json → Option Json
  | none | some .null => some .null
  | some (.arr subjects) =>
    let filtered := subjects.filter fun s => s.asU64 != some nodeId.toNat
    if filtered = [] then none else some (.arr filtered)
  | some other => some other

def aclTargets : Option Json → Json
  | none | some .null => .null
  | some (.arr targets) => .arr (targets.map mapAclTarget)
  | some other => other

/-- `if let Some(v) = value { out.insert(tag, v) }`. -/
def insertSome (tag : String) (value : Option Json) (out : List (String × Json)) :
    List (String × Json) :=
  match value with
  | some v => Entries.insert tag v out
  | none => out

def mapAclEntry (nodeId : NodeId) : Json → Option Json
  | .obj obj => do
    let out := insertSome "1" (Entries.get? "privilege" obj) []
    let out := insertSome "2" (Entries.get? "auth_mode" obj) out
    let out := Entries.insert "3" (← aclSubjects nodeId (Entries.get? "subjects" obj)) out
    return .obj (Entries.insert "4" (aclTargets (Entries.get? "targets" obj)) out)
  | _ => none

/-- A `write_attribute` request. -/
structure AttributeWrite where
  nodeId : NodeId
  endpoint : UInt16
  cluster : UInt32
  attributeId : UInt32
  value : Json

/-- What `set_acl_entry` has written to the device; `known` is `registry.contains`. -/
def aclWrite (known : NodeId → Bool) (args : Args) : Except CommandError AttributeWrite := do
  let nodeId := UInt64.ofNat (← requireU64 args "node_id")
  if known nodeId then
    let entries ← okOrInvalid ((args.get? "entry").bind Json.asArray)
      "missing or invalid required argument: entry"
    return ⟨nodeId, 0, 31, 0, .arr (entries.filterMap (mapAclEntry nodeId))⟩
  else .error ⟨.nodeNotExists, s!"Node {nodeId} does not exist"⟩

/-- `set_acl_entry`; `write` is the stack's `write_attribute`. -/
def setAclEntry (known : NodeId → Bool) (write : AttributeWrite → Except StackError UInt8)
    (args : Args) : Except CommandError Json := do
  let status ← (write (← aclWrite known args)).mapError (stackErr .sdkStackError)
  let path := Json.ofMembers [("endpoint_id", .ofU64 0), ("cluster_id", .ofU64 31),
    ("attribute_id", .ofU64 0)]
  return .arr [.ofMembers [("path", path), ("status", .ofU64 status.toUInt64)]]

/-- No value, or a null. -/
def AbsentOrNull (v : Option Json) : Prop := v = none ∨ v = some .null

/-- The target that is written is the given one. -/
structure SameTarget (given written : Json) : Prop where
  cluster : written.get "0" = some ((given.get "cluster").getD .null)
  endpoint : written.get "1" = some ((given.get "endpoint").getD .null)
  deviceType : written.get "2" = some ((given.get "device_type").getD .null)

/-- The subjects that are left of a list. -/
def othersThan (nodeId : NodeId) (subjects : List Json) : List Json :=
  subjects.filter fun s => s.asU64 != some nodeId.toNat

/-- The entry that is written grants what the given one grants, but not to the node itself. -/
structure Grants (nodeId : NodeId) (given written : Json) : Prop where
  tags : ∀ tag, (written.get tag).isSome → tag ∈ ["1", "2", "3", "4"]
  privilege : written.get "1" = given.get "privilege"
  authMode : written.get "2" = given.get "auth_mode"
  subjects : ∀ xs, given.get "subjects" = some (.arr xs) →
    written.get "3" = some (.arr (othersThan nodeId xs))
  mistypedSubjects : ∀ v, given.get "subjects" = some v → v.asArray = none →
    written.get "3" = some v
  anySubject : written.get "3" = some .null ↔ AbsentOrNull (given.get "subjects")
  notEmpty : written.get "3" ≠ some (.arr [])
  targets : ∀ xs, given.get "targets" = some (.arr xs) →
    ∃ ys, written.get "4" = some (.arr ys) ∧ List.Forall₂ SameTarget xs ys
  mistypedTargets : ∀ v, given.get "targets" = some v → v.asArray = none →
    written.get "4" = some v
  anyTarget : written.get "4" = some .null ↔ AbsentOrNull (given.get "targets")

/-- The entry is an object, and its subject list, if it has one, has a subject besides the
node itself. -/
def StaysRestricted (nodeId : NodeId) (entry : Json) : Prop :=
  (∃ obj, entry = .obj obj) ∧
  ∀ xs, entry.get "subjects" = some (.arr xs) → othersThan nodeId xs ≠ []

theorem get?_insertSome (tag key : String) (value : Option Json) (out : List (String × Json)) :
    Entries.get? key (insertSome tag value out) =
      if key = tag then value.or (Entries.get? key out) else Entries.get? key out := by
  cases value with
  | none => simp [insertSome]
  | some v =>
    rw [insertSome, Entries.get?_insert]
    simp

theorem aclSubjects_cases (nodeId : NodeId) (subjects : Option Json) :
    (AbsentOrNull subjects ∧ aclSubjects nodeId subjects = some .null) ∨
    (∃ xs, subjects = some (.arr xs) ∧ aclSubjects nodeId subjects =
      if othersThan nodeId xs = [] then none else some (.arr (othersThan nodeId xs))) ∨
    (∃ v, subjects = some v ∧ v ≠ .null ∧ v.asArray = none ∧
      aclSubjects nodeId subjects = some v) := by
  unfold AbsentOrNull
  match subjects with
  | none => exact .inl ⟨.inl rfl, rfl⟩
  | some .null => exact .inl ⟨.inr rfl, rfl⟩
  | some (.arr xs) => exact .inr (.inl ⟨xs, rfl, rfl⟩)
  | some (.bool b) => exact .inr (.inr ⟨_, rfl, nofun, rfl, rfl⟩)
  | some (.num n) => exact .inr (.inr ⟨_, rfl, nofun, rfl, rfl⟩)
  | some (.str s) => exact .inr (.inr ⟨_, rfl, nofun, rfl, rfl⟩)
  | some (.obj o) => exact .inr (.inr ⟨_, rfl, nofun, rfl, rfl⟩)

theorem aclTargets_cases (targets : Option Json) :
    (AbsentOrNull targets ∧ aclTargets targets = .null) ∨
    (∃ xs, targets = some (.arr xs) ∧ aclTargets targets = .arr (xs.map mapAclTarget)) ∨
    (∃ v, targets = some v ∧ v ≠ .null ∧ v.asArray = none ∧ aclTargets targets = v) := by
  unfold AbsentOrNull
  match targets with
  | none => exact .inl ⟨.inl rfl, rfl⟩
  | some .null => exact .inl ⟨.inr rfl, rfl⟩
  | some (.arr xs) => exact .inr (.inl ⟨xs, rfl, rfl⟩)
  | some (.bool b) => exact .inr (.inr ⟨_, rfl, nofun, rfl, rfl⟩)
  | some (.num n) => exact .inr (.inr ⟨_, rfl, nofun, rfl, rfl⟩)
  | some (.str s) => exact .inr (.inr ⟨_, rfl, nofun, rfl, rfl⟩)
  | some (.obj o) => exact .inr (.inr ⟨_, rfl, nofun, rfl, rfl⟩)

theorem sameTarget_mapAclTarget (target : Json) : SameTarget target (mapAclTarget target) where
  cluster := by simp [mapAclTarget, Json.get, Entries.get?_insert]
  endpoint := by simp [mapAclTarget, Json.get, Entries.get?_insert]
  deviceType := by simp [mapAclTarget, Json.get]

/-- The entry that is built, tag by tag. -/
theorem get_aclEntry (obj : List (String × Json)) (subjects : Json) (tag : String) :
    Entries.get? tag (Entries.insert "4" (aclTargets (Entries.get? "targets" obj))
      (Entries.insert "3" subjects (insertSome "2" (Entries.get? "auth_mode" obj)
        (insertSome "1" (Entries.get? "privilege" obj) [])))) =
    if tag = "4" then some (aclTargets (Entries.get? "targets" obj))
    else if tag = "3" then some subjects
    else if tag = "2" then Entries.get? "auth_mode" obj
    else if tag = "1" then Entries.get? "privilege" obj
    else none := by
  have hnil (key : String) : Entries.get? key ([] : List (String × Json)) = none := rfl
  simp only [Entries.get?_insert, get?_insertSome, hnil, Option.or_none]
  by_cases h : tag = "2"
  · simp [h]
  · simp [h]

/-- The subjects of an entry that is written, and the entry. -/
theorem mapAclEntry_eq_some {nodeId : NodeId} {entry written : Json}
    (h : mapAclEntry nodeId entry = some written) :
    ∃ obj subjects, entry = .obj obj ∧
      aclSubjects nodeId (Entries.get? "subjects" obj) = some subjects ∧
      ∀ tag, written.get tag =
        if tag = "4" then some (aclTargets (Entries.get? "targets" obj))
        else if tag = "3" then some subjects
        else if tag = "2" then Entries.get? "auth_mode" obj
        else if tag = "1" then Entries.get? "privilege" obj
        else none := by
  cases entry with
  | obj obj =>
    obtain ⟨subjects, hsubjects, hwritten⟩ := Option.bind_eq_some_iff.mp h
    rw [← Option.some.inj hwritten]
    exact ⟨obj, subjects, rfl, hsubjects, get_aclEntry obj subjects⟩
  | null | bool | num | str | arr => cases h

/-- What the subjects of a written entry say. -/
theorem aclSubjects_grants {nodeId : NodeId} {given : Option Json} {subjects : Json}
    (h : aclSubjects nodeId given = some subjects) :
    (∀ xs, given = some (.arr xs) → subjects = .arr (othersThan nodeId xs)) ∧
    (∀ v, given = some v → v.asArray = none → subjects = v) ∧
    (subjects = .null ↔ AbsentOrNull given) ∧ subjects ≠ .arr [] := by
  rcases aclSubjects_cases nodeId given with ⟨hnull, heq⟩ | ⟨xs, rfl, heq⟩ | ⟨v, rfl, hv, hnot, heq⟩
  · rw [heq] at h
    cases h
    rcases hnull with rfl | rfl
    · exact ⟨nofun, nofun, iff_of_true rfl (.inl rfl), nofun⟩
    · refine ⟨nofun, ?_, iff_of_true rfl (.inr rfl), nofun⟩
      intro v hv _
      exact Option.some.inj hv
  · rw [heq] at h
    split at h
    · cases h
    · next hne =>
      cases h
      refine ⟨?_, ?_, ?_, ?_⟩
      · intro ys hys
        cases hys
        rfl
      · intro v hv hnot
        cases hv
        cases hnot
      · constructor
        · nofun
        · rintro (hnone | hnull)
          · cases hnone
          · cases hnull
      · intro hempty
        exact hne (Json.arr.inj hempty)
  · rw [heq] at h
    cases h
    refine ⟨?_, ?_, ?_, ?_⟩
    · intro ys hys
      cases hys
      cases hnot
    · intro w hw _
      exact Option.some.inj hw
    · constructor
      · intro hnull
        exact absurd hnull hv
      · rintro (hnone | hnull)
        · cases hnone
        · exact Option.some.inj hnull
    · rintro rfl
      cases hnot

/-- What the targets of a written entry say. -/
theorem aclTargets_grants (given : Option Json) :
    (∀ xs, given = some (.arr xs) →
      ∃ ys, aclTargets given = .arr ys ∧ List.Forall₂ SameTarget xs ys) ∧
    (∀ v, given = some v → v.asArray = none → aclTargets given = v) ∧
    (aclTargets given = .null ↔ AbsentOrNull given) := by
  rcases aclTargets_cases given with ⟨hnull, heq⟩ | ⟨xs, rfl, heq⟩ | ⟨v, rfl, hv, hnot, heq⟩
  · refine ⟨?_, ?_, iff_of_true heq hnull⟩
    · rintro xs rfl
      rcases hnull with hnone | hnull
      · cases hnone
      · cases hnull
    · rintro v rfl _
      rcases hnull with hnone | hnull
      · cases hnone
      · rw [heq]
        exact (Option.some.inj hnull).symm
  · refine ⟨?_, ?_, ?_⟩
    · intro ys hys
      cases hys
      refine ⟨_, heq, ?_⟩
      rw [List.forall₂_map_right_iff]
      exact List.forall₂_same.mpr fun target _ => sameTarget_mapAclTarget target
    · intro v hv hnot
      cases hv
      cases hnot
    · constructor
      · intro hnull
        rw [heq] at hnull
        cases hnull
      · rintro (hnone | hnull)
        · cases hnone
        · cases hnull
  · refine ⟨?_, ?_, ?_⟩
    · intro ys hys
      cases hys
      cases hnot
    · intro w hw _
      exact heq.trans (Option.some.inj hw)
    · constructor
      · intro hnull
        exact absurd (heq.symm.trans hnull) hv
      · rintro (hnone | hnull)
        · cases hnone
        · exact heq.trans (Option.some.inj hnull)

theorem grants_of_mapAclEntry {nodeId : NodeId} {entry written : Json}
    (h : mapAclEntry nodeId entry = some written) : Grants nodeId entry written := by
  obtain ⟨obj, subjects, rfl, hsubjects, hget⟩ := mapAclEntry_eq_some h
  obtain ⟨hlist, hmistyped, hany, hempty⟩ := aclSubjects_grants hsubjects
  obtain ⟨htargets, hmistypedTargets, hanyTarget⟩ :=
    aclTargets_grants (Entries.get? "targets" obj)
  have hthree : written.get "3" = some subjects := hget "3"
  have hfour : written.get "4" = some (aclTargets (Entries.get? "targets" obj)) := hget "4"
  exact {
    tags := by
      intro tag htag
      rw [hget tag] at htag
      by_contra hother
      simp only [List.mem_cons, List.not_mem_nil, or_false, not_or] at hother
      obtain ⟨h1, h2, h3, h4⟩ := hother
      simp [h1, h2, h3, h4] at htag
    privilege := hget "1"
    authMode := hget "2"
    subjects := fun xs hxs => hthree.trans (congrArg some (hlist xs hxs))
    mistypedSubjects := fun v hv hnot => hthree.trans (congrArg some (hmistyped v hv hnot))
    anySubject := by
      rw [hthree, Option.some_inj]
      exact hany
    notEmpty := by
      rw [hthree, Option.some_inj.ne]
      exact hempty
    targets := by
      intro xs hxs
      obtain ⟨ys, hys, hsame⟩ := htargets xs hxs
      exact ⟨ys, hfour.trans (congrArg some hys), hsame⟩
    mistypedTargets := fun v hv hnot =>
      hfour.trans (congrArg some (hmistypedTargets v hv hnot))
    anyTarget := by
      rw [hfour, Option.some_inj]
      exact hanyTarget }

/-- An entry is written if it stays restricted, and left out otherwise. -/
theorem isSome_mapAclEntry (nodeId : NodeId) (entry : Json) :
    (mapAclEntry nodeId entry).isSome ↔ StaysRestricted nodeId entry := by
  cases entry with
  | obj obj =>
    have hsome : (mapAclEntry nodeId (.obj obj)).isSome =
        (aclSubjects nodeId (Entries.get? "subjects" obj)).isSome := by
      show Option.isSome (Option.bind (aclSubjects nodeId (Entries.get? "subjects" obj)) _) = _
      cases aclSubjects nodeId (Entries.get? "subjects" obj) with
      | none => rfl
      | some subjects => rfl
    have hget : (Json.obj obj).get "subjects" = Entries.get? "subjects" obj := rfl
    rw [hsome, StaysRestricted, hget]
    rcases aclSubjects_cases nodeId (Entries.get? "subjects" obj) with
      ⟨hnull, heq⟩ | ⟨xs, hxs, heq⟩ | ⟨v, hv, _, hnot, heq⟩
    · rw [heq]
      refine iff_of_true rfl ⟨⟨obj, rfl⟩, ?_⟩
      intro xs hxs
      rw [hxs] at hnull
      rcases hnull with hnone | hnull
      · cases hnone
      · cases hnull
    · rw [heq, hxs]
      by_cases hempty : othersThan nodeId xs = []
      · rw [if_pos hempty]
        exact iff_of_false nofun fun hrestricted => hrestricted.2 xs rfl hempty
      · rw [if_neg hempty]
        refine iff_of_true rfl ⟨⟨obj, rfl⟩, ?_⟩
        intro ys hys
        cases hys
        exact hempty
    · rw [heq, hv]
      refine iff_of_true rfl ⟨⟨obj, rfl⟩, ?_⟩
      intro xs hxs
      cases hxs
      cases hnot
  | null | bool | num | str | arr => exact iff_of_false nofun fun ⟨⟨obj, hobj⟩, _⟩ => by cases hobj

instance (nodeId : NodeId) (entry : Json) : Decidable (StaysRestricted nodeId entry) :=
  decidable_of_iff _ (isSome_mapAclEntry nodeId entry)

theorem forall₂_filterMap {α β : Type} {f : α → Option β} {p : α → Prop} [DecidablePred p]
    {r : α → β → Prop} (hsome : ∀ a, (f a).isSome ↔ p a) (hr : ∀ a b, f a = some b → r a b)
    (l : List α) : List.Forall₂ r (l.filter p) (l.filterMap f) := by
  induction l with
  | nil => exact .nil
  | cons a l ih =>
    cases hfa : f a with
    | none =>
      have hnot : ¬ p a := by rw [← hsome a, hfa]; nofun
      rw [List.filter_cons_of_neg (by simpa using hnot), List.filterMap_cons_none hfa]
      exact ih
    | some b =>
      have hp : p a := by rw [← hsome a, hfa]; rfl
      rw [List.filter_cons_of_pos (by simpa using hp), List.filterMap_cons_some hfa]
      exact .cons (hr a b hfa) ih

/-- What is written are the given entries that stay restricted, in their order, and no entry
grants more than it did. -/
theorem setAclEntry_restricted {known : NodeId → Bool} {args : Args} {write : AttributeWrite}
    (h : aclWrite known args = .ok write) :
    ∃ entries written, args.get? "node_id" = some (.ofU64 write.nodeId) ∧
      args.get? "entry" = some (.arr entries) ∧
      write = ⟨write.nodeId, 0, 31, 0, .arr written⟩ ∧
      List.Forall₂ (Grants write.nodeId) (entries.filter (StaysRestricted write.nodeId))
        written := by
  obtain ⟨n, hn, hrest⟩ := bind_eq_ok h
  obtain ⟨-, hnode⟩ := requireU64_eq_ok hn
  dsimp only at hrest
  split at hrest
  · obtain ⟨entries, hentries, hwrite⟩ := bind_eq_ok hrest
    obtain ⟨v, hv, harray⟩ := Option.bind_eq_some_iff.mp (okOrInvalid_eq_ok hentries)
    have hlist : v = .arr entries := by
      cases v with
      | arr xs => exact congrArg Json.arr (Option.some.inj harray)
      | null | bool | num | str | obj => cases harray
    cases hwrite
    refine ⟨entries, _, hnode, hv.trans (congrArg some hlist), rfl, ?_⟩
    exact forall₂_filterMap (isSome_mapAclEntry _) (fun _ _ => grants_of_mapAclEntry) entries
  · cases hrest

/-- Two entries for node 5; the second is for nobody else. -/
def selfSubjectArgs : Args :=
  .ofList [("node_id", .ofU64 5), ("entry", .arr [
    .ofMembers [("privilege", .ofU64 5), ("auth_mode", .ofU64 2),
      ("subjects", .arr [.ofU64 112233, .ofU64 5]), ("targets", .null)],
    .ofMembers [("privilege", .ofU64 3), ("auth_mode", .ofU64 2),
      ("subjects", .arr [.ofU64 5]), ("targets", .null)]])]

/-- The second entry is left out, the first loses the node's own id. -/
theorem setAclEntry_restricted_selfSubject : ∃ entries written,
    selfSubjectArgs.get? "node_id" = some (.ofU64 5) ∧
    selfSubjectArgs.get? "entry" = some (.arr entries) ∧
    (⟨5, 0, 31, 0, .arr [.ofMembers [("1", .ofU64 5), ("2", .ofU64 2),
      ("3", .arr [.ofU64 112233]), ("4", .null)]]⟩ : AttributeWrite) =
      ⟨5, 0, 31, 0, .arr written⟩ ∧
    List.Forall₂ (Grants 5) (entries.filter (StaysRestricted 5)) written :=
  have hwrite : aclWrite (fun _ => true) selfSubjectArgs =
      .ok ⟨5, 0, 31, 0, .arr [.ofMembers [("1", .ofU64 5), ("2", .ofU64 2),
        ("3", .arr [.ofU64 112233]), ("4", .null)]]⟩ := by rfl
  setAclEntry_restricted hwrite

end MatterRsServer.Controller
