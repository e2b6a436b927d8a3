import MatterRsServer.Controller.AttributePath
import MatterRsServer.Stack.Reassembly
import MatterRsServer.Stack.Responses

/-!
# Reading attributes

`read_attributes_inner` of `ops/interact.rs`, which reads for a client and interviews a node. A
device may answer one read in any number of chunks. What it answers within a budget of seconds is
a parameter.
-/
namespace MatterRsServer.Stack.Im
open Lib Lib.Grouping Wire Gen Controller

def interviewTimeoutSecs : Nat := 120

/-- The chunks of one answer: each with what `response` gives, and then what `complete` does. -/
inductive ReadChunk where
  | last (response : Except Error ReportDataResp)
  | broken (response : Except Error ReportDataResp) (e : Error)
  | more (response : Except Error ReportDataResp) (next : ReadChunk)

/-- The loop over the chunks. -/
def absorbChunks (gen : Tables) (acc : AttrAccumulator) :
    ReadChunk → Except Error AttrAccumulator
  | .last response => response.map (acc.absorb gen)
  | .broken response e => response.bind fun _ => .error e
  | .more response next => response.bind fun resp => absorbChunks gen (acc.absorb gen resp) next

/-- `to_attr_path`: a part that is not given is a wildcard, and lists are read whole. -/
def toAttrPath (p : AttributePathSpec) : Stack.AttrPath := ⟨p.endpoint, p.cluster, p.attr, none⟩

structure ReadRequest where
  nodeId : NodeId
  attrPaths : List Stack.AttrPath
  fabricFiltered : Bool

/-- The tables, and what the devices answer within some seconds. -/
structure Reader where
  gen : Tables
  exchange : Nat → ReadRequest → Attempt ReadChunk

def readAttributesInner (env : Reader) (nodeId : NodeId) (paths : List AttributePathSpec)
    (fabricFiltered : Bool) (timeoutSecs : Nat) : Except StackError (List (String × Json)) :=
  let attempt := env.exchange timeoutSecs ⟨nodeId, paths.map toAttrPath, fabricFiltered⟩
  let answered := attempt.arrived.map fun arrived => arrived >>= fun chunk =>
    (absorbChunks env.gen ∅ chunk).map AttrAccumulator.intoPairs
  withTimeoutMapped timeoutSecs answered (phaseMapper attempt.established)

def readAttributes (env : Reader) (nodeId : NodeId) (paths : List AttributePathSpec)
    (fabricFiltered : Bool) : Except StackError (List (String × Json)) :=
  readAttributesInner env nodeId paths fabricFiltered imTimeoutSecs

def interview (env : Reader) (nodeId : NodeId) : Except StackError (OrdMap String Json) :=
  (readAttributesInner env nodeId [⟨none, none, none⟩] true interviewTimeoutSecs).map OrdMap.ofList

/-! ### What an answer says -/

/-- The messages of all chunks, or the first failure. -/
def ReadChunk.messages : ReadChunk → Except Error (List ReportDataResp)
  | .last response => response.map fun resp => [resp]
  | .broken response e => response.bind fun _ => .error e
  | .more response next => response.bind fun resp => next.messages.map (resp :: ·)

theorem absorbChunks_eq (gen : Tables) (chunk : ReadChunk) (acc : AttrAccumulator) :
    absorbChunks gen acc chunk =
      chunk.messages.map fun msgs => msgs.foldl (AttrAccumulator.absorb gen) acc := by
  induction chunk generalizing acc with
  | last response => cases response <;> rfl
  | broken response e => cases response <;> rfl
  | more response next ih =>
    cases response with
    | error e => rfl
    | ok resp =>
      change absorbChunks gen (acc.absorb gen resp) next = (next.messages.map (resp :: ·)).map _
      rw [ih]
      cases next.messages <;> rfl

/-- The reports of one read; how they are cut into messages is not said. -/
abbrev Reports := List (Option AttrResp)

def reportsOf (msgs : List ReportDataResp) : Reports := msgs.flatMap ReportDataResp.entries

/-- What a device answers to a read within some seconds; `none` is the timer. -/
def Reader.answer (env : Reader) (timeoutSecs : Nat) (request : ReadRequest) :
    Option (Except Error Reports) :=
  (env.exchange timeoutSecs request).arrived.map fun arrived =>
    (arrived >>= ReadChunk.messages).map reportsOf

/-- The value that the reports of a path make, one after the other. -/
def reported (gen : Tables) (reports : Reports) (path : Path) : Option Json :=
  foldOps applyOp (own path (operations gen reports))

/-- Every reported path with its value, in the order of the first reports. -/
def changesOf (gen : Tables) (reports : Reports) : List (Path × Json) :=
  group applyOp (operations gen reports) []

/-- The path in a key. -/
def keyed (e : Path × Json) : String × Json := (pathKey e.1, e.2)

theorem out_foldl (gen : Tables) (reports : Reports) :
    (reports.foldl (AttrAccumulator.absorbReport gen) ∅).out =
      (changesOf gen reports).map keyed := by
  have hout := AttrAccumulator.out_foldl gen reports ∅
  exact hout.trans (group_map_key (g := pathKey) (fun _ _ h => pathKey_injective h) applyOp
    (operations gen reports) [])

theorem readAttributesInner_eq (env : Reader) (nodeId : NodeId) (paths : List AttributePathSpec)
    (fabricFiltered : Bool) (timeoutSecs : Nat) :
    readAttributesInner env nodeId paths fabricFiltered timeoutSecs =
      withTimeoutMapped timeoutSecs
        ((env.answer timeoutSecs ⟨nodeId, paths.map toAttrPath, fabricFiltered⟩).map fun answer =>
          answer.map fun reports => (changesOf env.gen reports).map keyed)
        (phaseMapper (env.exchange timeoutSecs
          ⟨nodeId, paths.map toAttrPath, fabricFiltered⟩).established) := by
  unfold readAttributesInner Reader.answer
  dsimp only
  rw [Option.map_map]
  congr 2
  funext arrived
  cases arrived with
  | error e => rfl
  | ok chunk =>
    change (absorbChunks env.gen ∅ chunk).map _ = (chunk.messages.map reportsOf).map _
    rw [absorbChunks_eq]
    cases chunk.messages with
    | error e => rfl
    | ok msgs =>
      have hfold := foldl_absorb env.gen msgs ∅
      have hout := congrArg AttrAccumulator.out hfold
      exact congrArg Except.ok (hout.trans (out_foldl env.gen (reportsOf msgs)))

/-- A read brings all that is reported within its budget. -/
theorem readAttributesInner_of_answer {env : Reader} {nodeId : NodeId}
    {paths : List AttributePathSpec} {fabricFiltered : Bool} {timeoutSecs : Nat} {reports : Reports}
    (h : env.answer timeoutSecs ⟨nodeId, paths.map toAttrPath, fabricFiltered⟩ =
      some (.ok reports)) :
    readAttributesInner env nodeId paths fabricFiltered timeoutSecs =
      .ok ((changesOf env.gen reports).map keyed) := by
  rw [readAttributesInner_eq, h]
  rfl

/-- A read that fails in any chunk, or is cut off, brings nothing. -/
theorem readAttributesInner_of_no_answer {env : Reader} {nodeId : NodeId}
    {paths : List AttributePathSpec} {fabricFiltered : Bool} {timeoutSecs : Nat}
    (h : ∀ reports, env.answer timeoutSecs ⟨nodeId, paths.map toAttrPath, fabricFiltered⟩ ≠
      some (.ok reports)) :
    ∃ e, readAttributesInner env nodeId paths fabricFiltered timeoutSecs = .error e := by
  rw [readAttributesInner_eq]
  cases hanswer : env.answer timeoutSecs ⟨nodeId, paths.map toAttrPath, fabricFiltered⟩ with
  | none => exact ⟨_, rfl⟩
  | some answer =>
    cases answer with
    | error e => exact ⟨_, rfl⟩
    | ok reports => exact absurd hanswer (h reports)

/-! ### Values by path -/

theorem lookup_changesOf (gen : Tables) (reports : Reports) (path : Path) :
    (changesOf gen reports).lookup path = reported gen reports path :=
  lookup_group applyOp (operations gen reports) [] path

/-- No path has two values. -/
theorem nodup_keyed (gen : Tables) (reports : Reports) :
    (((changesOf gen reports).map keyed).map Prod.fst).Nodup := by
  rw [← out_foldl]
  exact (reports.foldl (AttrAccumulator.absorbReport gen) ∅).indexed.nodup

theorem mem_keyed {gen : Tables} {reports : Reports} {path : Path} {value : Json} :
    (pathKey path, value) ∈ (changesOf gen reports).map keyed ↔
      reported gen reports path = some value := by
  have hkeys := nodup_keyed gen reports
  rw [List.map_map] at hkeys
  have hnodup : ((changesOf gen reports).map Prod.fst).Nodup := by
    refine List.Nodup.of_map pathKey ?_
    rw [List.map_map]
    exact hkeys
  rw [← lookup_changesOf, lookup_eq_some_iff_mem hnodup, List.mem_map]
  constructor
  · rintro ⟨⟨path', value'⟩, hmem, heq⟩
    obtain ⟨hkey, rfl⟩ := Prod.mk.inj heq
    rwa [← pathKey_injective hkey]
  · intro hmem
    exact ⟨_, hmem, rfl⟩

/-- A pair that is read is of a path that is reported. -/
theorem key_of_mem_keyed {gen : Tables} {reports : Reports} {p : String × Json}
    (h : p ∈ (changesOf gen reports).map keyed) :
    ∃ path, p.1 = pathKey path ∧ reported gen reports path = some p.2 := by
  obtain ⟨⟨path, value⟩, hmem, rfl⟩ := List.mem_map.mp h
  exact ⟨path, rfl, mem_keyed.mp (List.mem_map.mpr ⟨_, hmem, rfl⟩)⟩

/-- What the pairs say of a path, collected under their keys. -/
theorem get?_keyed (gen : Tables) (reports : Reports) (path : Path) :
    Entries.get? (pathKey path) (Entries.insertAll ((changesOf gen reports).map keyed) []) =
      reported gen reports path := by
  cases hvalue : reported gen reports path with
  | some value => exact Entries.get?_insertAll_of_mem (nodup_keyed gen reports) (mem_keyed.mpr hvalue) []
  | none =>
    refine Entries.get?_insertAll_of_not_mem (fun p hp hkey => ?_) []
    obtain ⟨path', hkey', hvalue'⟩ := key_of_mem_keyed hp
    rw [← pathKey_injective (hkey.symm.trans hkey'), hvalue] at hvalue'
    cases hvalue'

/-- What the first pair of a path says of it. -/
theorem find?_keyed (gen : Tables) (reports : Reports) (path : Path) :
    (((changesOf gen reports).map keyed).find? fun p => p.1 = pathKey path).map Prod.snd =
      reported gen reports path := by
  cases hfind : ((changesOf gen reports).map keyed).find? fun p => p.1 = pathKey path with
  | some p =>
    have hsome := List.find?_some hfind
    have hkey : p.1 = pathKey path := of_decide_eq_true hsome
    have hmem := List.mem_of_find?_eq_some hfind
    obtain ⟨path', hkey', hvalue'⟩ := key_of_mem_keyed hmem
    rw [← pathKey_injective (hkey'.symm.trans hkey), hvalue']
    rfl
  | none =>
    cases hvalue : reported gen reports path with
    | none => rfl
    | some value =>
      have habsent := List.find?_eq_none.mp hfind _ (mem_keyed.mpr hvalue)
      exact absurd rfl (of_decide_eq_false (Bool.eq_false_of_not_eq_true habsent))

theorem keyed_eq_nil {gen : Tables} {reports : Reports} :
    (changesOf gen reports).map keyed = [] ↔ operations gen reports = [] := by
  have hkeys : (changesOf gen reports).map Prod.fst =
      ((operations gen reports).map Prod.fst).eraseDups := keys_group applyOp _
  rw [List.map_eq_nil_iff, ← List.map_eq_nil_iff (f := Prod.fst), hkeys]
  cases operations gen reports with
  | nil => simp
  | cons op ops => simp [List.eraseDups_cons]

/-! ### The interview -/

/-- An interview brings each path that is reported within its budget with its value, and nothing
else. -/
theorem interview_of_answer {env : Reader} {nodeId : NodeId} {reports : Reports}
    (h : env.answer interviewTimeoutSecs ⟨nodeId, [⟨none, none, none, none⟩], true⟩ =
      some (.ok reports)) :
    ∃ attributes, interview env nodeId = .ok attributes ∧
      (∀ path, attributes.get? (pathKey path) = reported env.gen reports path) ∧
      ∀ key, attributes.contains key = true → ∃ path, key = pathKey path := by
  have hread : readAttributesInner env nodeId [⟨none, none, none⟩] true interviewTimeoutSecs =
      .ok ((changesOf env.gen reports).map keyed) := readAttributesInner_of_answer h
  refine ⟨OrdMap.ofList _, by rw [interview, hread]; rfl, get?_keyed env.gen reports, fun key hkey => ?_⟩
  obtain ⟨value, hvalue⟩ := Option.isSome_iff_exists.mp hkey
  have hmem := Entries.mem_of_get? hvalue
  obtain ⟨path, hpath, -⟩ := key_of_mem_keyed ((Entries.mem_insertAll (nodup_keyed _ _)).mp hmem)
  exact ⟨path, hpath⟩

theorem interview_of_no_answer {env : Reader} {nodeId : NodeId}
    (h : ∀ reports, env.answer interviewTimeoutSecs ⟨nodeId, [⟨none, none, none, none⟩], true⟩ ≠
      some (.ok reports)) : ∃ e, interview env nodeId = .error e := by
  have hread : ∃ e, readAttributesInner env nodeId [⟨none, none, none⟩] true
      interviewTimeoutSecs = .error e := readAttributesInner_of_no_answer h
  obtain ⟨e, hread⟩ := hread
  exact ⟨e, by rw [interview, hread]; rfl⟩

end MatterRsServer.Stack.Im
