import MatterRsServer.Server.DeviceCalls
import MatterRsServer.Stack.Reads

/-!
# A read from the client to the device and back

`read_attribute` and `get_matter_fabrics`, in terms of the reports of the device: a client gets
the value of every path that is reported, in whichever chunks, or an error and no value.
-/
namespace MatterRsServer.Server
open Lib Lib.Result Lib.Grouping Wire Gen Controller Stack Stack.Im

/-- A stack that hands a read to the operation that serves it, as `handle_request` does. -/
structure ServesReads (reader : Reader)
    (stack : (q : DeviceRequest) → Except StackError q.Answer) : Prop where
  read : ∀ nodeId paths fabricFiltered, stack (.readAttributes nodeId paths fabricFiltered) =
    readAttributes reader nodeId paths fabricFiltered
  fabrics : ∀ nodeId, stack (.deviceFabrics nodeId) = deviceFabrics (readAttributes reader) nodeId

/-- `OperationalCredentials.Fabrics` of the root endpoint. -/
def fabricsPath : Path := ⟨rootEndpoint, opCreds, fabricsAttr⟩

/-- The read of `device_fabrics`. -/
def fabricsRead (nodeId : NodeId) : ReadRequest :=
  ⟨nodeId, [⟨some rootEndpoint, some opCreds, some fabricsAttr, none⟩], false⟩

/-- `FabricDescriptorStruct`. -/
structure FabricDescriptor extends DeviceFabric where
  rootPublicKey : ByteArray
  nodeId : NodeId

namespace FabricDescriptor

def tlv (d : FabricDescriptor) : Tlv :=
  contextStruct [(1, .octets d.rootPublicKey), (2, .uint d.vendorId.toUInt64), (3, .uint d.fabricId),
    (4, .uint d.nodeId), (5, .utf8 d.fabricLabel.toUTF8), (254, .uint d.fabricIndex.toUInt64)]

def members (d : FabricDescriptor) : List (String × Json) :=
  [("1", .str (base64Encode d.rootPublicKey)), ("2", .ofU64 d.vendorId.toUInt64),
    ("3", .ofU64 d.fabricId), ("4", .ofU64 d.nodeId), ("5", .str d.fabricLabel),
    ("254", .ofU64 d.fabricIndex.toUInt64)]

theorem attrValueToJson_tlv (d : FabricDescriptor) (gen : Tables) (cluster attr : UInt32) :
    attrValueToJson gen cluster attr d.tlv = some (.ofMembers d.members) := by
  have hread : tlvToJson d.tlv = some (.ofMembers d.members) := by
    simp only [tlv, contextStruct, tlvToJson, tlvToJsonAt, List.map_cons, List.map_nil,
      membersToJson, Text.fromUtf8Lossy_toUTF8]
    rfl
  unfold attrValueToJson
  rw [hread]
  change applyEpoch _ (Json.ofMembers d.members) = _
  unfold applyEpoch
  split <;> rfl

/-- A fabric comes out of its descriptor as it is. -/
theorem fabricEntry_members (d : FabricDescriptor) :
    fabricEntry (.ofMembers d.members) = some d.toDeviceFabric := by
  have hnodup : (d.members.map Prod.fst).Nodup := by
    change ["1", "2", "3", "4", "5", "254"].Nodup
    decide
  have hget : ∀ e ∈ d.members, Entries.get? e.1 (Entries.insertAll d.members []) = some e.2 :=
    fun e he => Entries.get?_insertAll_of_mem hnodup he []
  have hvendor := hget ("2", .ofU64 d.vendorId.toUInt64) (by simp [members])
  have hfabric := hget ("3", .ofU64 d.fabricId) (by simp [members])
  have hlabel := hget ("5", .str d.fabricLabel) (by simp [members])
  have hindex := hget ("254", .ofU64 d.fabricIndex.toUInt64) (by simp [members])
  change some (fabricOf (Entries.insertAll d.members [])) = _
  simp only [fabricOf, hvendor, hfabric, hlabel, hindex, Option.bind_some, asU64_ofU64,
    Option.getD_some, UInt64.ofNat_toNat, UInt16.toNat_toUInt64, UInt8.toNat_toUInt64,
    UInt16.ofNat_toNat, UInt8.ofNat_toNat]
  rfl

end FabricDescriptor

/-- A report of the list of fabrics. -/
def fabricsReport (listIndex : Option (Option UInt16)) (data : Tlv) : Option AttrResp :=
  some (.data ⟨⟨some rootEndpoint, some opCreds, some fabricsAttr, listIndex⟩, data⟩)

/-- A list that is opened and then gets its descriptors. -/
theorem own_fabricsReports (gen : Tables) (descriptors : List FabricDescriptor) :
    own fabricsPath (operations gen (fabricsReport none (.array []) ::
        descriptors.map fun d => fabricsReport (some none) d.tlv)) =
      (.replace, .arr []) :: descriptors.map fun d => (.append, .ofMembers d.members) := by
  have hopened : operation gen (fabricsReport none (.array [])) =
      some (fabricsPath, .replace, .arr []) := by
    have hvalue : attrValueToJson gen opCreds fabricsAttr (.array []) = some (.arr []) := by
      unfold attrValueToJson
      change applyEpoch _ (.arr []) = _
      unfold applyEpoch
      split <;> rfl
    change (attrValueToJson gen opCreds fabricsAttr (.array [])).map _ = _
    rw [hvalue]
    rfl
  have helement : ∀ d : FabricDescriptor, operation gen (fabricsReport (some none) d.tlv) =
      some (fabricsPath, .append, .ofMembers d.members) := by
    intro d
    change (attrValueToJson gen opCreds fabricsAttr d.tlv).map _ = _
    rw [d.attrValueToJson_tlv]
    rfl
  have hall : operations gen (descriptors.map fun d => fabricsReport (some none) d.tlv) =
      descriptors.map fun d => (fabricsPath, ListOp.append, Json.ofMembers d.members) := by
    rw [operations, List.filterMap_map, ← List.filterMap_eq_map']
    exact List.filterMap_congr fun d _ => helement d
  rw [operations, List.filterMap_cons, hopened]
  change own fabricsPath (_ :: operations gen _) = _
  rw [hall, own, List.filter_eq_self.mpr (by simp), List.map_cons, List.map_map]
  rfl

section
variable {reader : Reader} {stack : (q : DeviceRequest) → Except StackError q.Answer}
  {known : NodeId → Bool} {display : Json → String} {vendorName : UInt16 → Option String}
  {args : Args} {nodeId : NodeId}

/-- Which failures of an operation are reported as a node that cannot be found. -/
theorem stackErr_nodeNotResolving {established : Bool} {e : Im.Error} :
    (stackErr .sdkStackError (phaseMapper established e)).code = .nodeNotResolving ↔
      established = false ∧ e.code = .notFound := by
  obtain ⟨code, text⟩ := e
  cases established <;> cases code <;> simp [phaseMapper, mapErrEstablished, mapErr, stackErr]

theorem stackErr_phaseMapper (established : Bool) (e : Im.Error) :
    (stackErr .sdkStackError (phaseMapper established e)).code = .nodeNotResolving ∨
      (stackErr .sdkStackError (phaseMapper established e)).code = .sdkStackError := by
  obtain ⟨code, text⟩ := e
  cases established <;> cases code <;> simp [phaseMapper, mapErrEstablished, mapErr, stackErr]

/-- A client that reads is told the value that the reports of each path make, and of no other
path, however the device cuts its answer. It is told no value at all when any chunk fails or the
time is up; the node is said not to resolve just if it was not found for a session. -/
theorem read_answered (hs : ServesReads reader stack) {specs : List AttributePathSpec}
    {fabricFiltered : Bool}
    (hrequest : readRequest known args = .ok (.readAttributes nodeId specs fabricFiltered)) :
    (∀ reports, reader.answer imTimeoutSecs ⟨nodeId, specs.map toAttrPath, fabricFiltered⟩ =
        some (.ok reports) →
      (operations reader.gen reports = [] →
        DeviceCommand.handle known display vendorName stack args .readAttribute =
          .error ⟨.sdkStackError, "Failed to read attribute: no values returned"⟩) ∧
      (operations reader.gen reports ≠ [] → ∃ values,
        DeviceCommand.handle known display vendorName stack args .readAttribute =
          .ok (.obj values) ∧
        (∀ path, Entries.get? (pathKey path) values = reported reader.gen reports path) ∧
        ∀ e ∈ values, ∃ path, e.1 = pathKey path)) ∧
    ((∀ reports, reader.answer imTimeoutSecs ⟨nodeId, specs.map toAttrPath, fabricFiltered⟩ ≠
        some (.ok reports)) →
      ∃ e, DeviceCommand.handle known display vendorName stack args .readAttribute = .error e ∧
        (e.code = .nodeNotResolving ∨ e.code = .sdkStackError) ∧
        (e.code = .nodeNotResolving ↔
          (reader.exchange imTimeoutSecs
            ⟨nodeId, specs.map toAttrPath, fabricFiltered⟩).established = false ∧
          ∃ failure, reader.answer imTimeoutSecs
            ⟨nodeId, specs.map toAttrPath, fabricFiltered⟩ = some (.error failure) ∧
            failure.code = .notFound)) := by
  have hhandle : DeviceCommand.handle known display vendorName stack args .readAttribute =
      ((readAttributes reader nodeId specs fabricFiltered).mapError (stackErr .sdkStackError)) >>=
        fun values => if values.isEmpty then
          .error ⟨.sdkStackError, "Failed to read attribute: no values returned"⟩
        else .ok (.ofMembers values) := by
    simp only [DeviceCommand.handle, DeviceCommand.request, hrequest, bind, Except.bind, hs.read]
    rfl
  rw [hhandle]
  refine ⟨fun reports hanswer => ?_, fun hfailed => ?_⟩
  · have hread : readAttributes reader nodeId specs fabricFiltered =
        .ok ((changesOf reader.gen reports).map keyed) := readAttributesInner_of_answer hanswer
    rw [hread]
    refine ⟨fun hnone => ?_, fun hsome => ?_⟩
    · rw [keyed_eq_nil.mpr hnone]
      rfl
    · have hvalues : ((changesOf reader.gen reports).map keyed).isEmpty = false := by
        rw [List.isEmpty_eq_false_iff]
        exact fun hnil => hsome (keyed_eq_nil.mp hnil)
      refine ⟨_, ?_, get?_keyed reader.gen reports, fun e he => ?_⟩
      · change (if ((changesOf reader.gen reports).map keyed).isEmpty = true then _ else _) = _
        rw [hvalues]
        rfl
      · obtain ⟨path, hpath, -⟩ :=
          key_of_mem_keyed ((Entries.mem_insertAll (nodup_keyed _ _)).mp he)
        exact ⟨path, hpath⟩
  · have hread : readAttributes reader nodeId specs fabricFiltered = _ :=
      readAttributesInner_eq reader nodeId specs fabricFiltered imTimeoutSecs
    rw [hread]
    cases hanswer : reader.answer imTimeoutSecs ⟨nodeId, specs.map toAttrPath, fabricFiltered⟩ with
    | none => exact ⟨_, rfl, .inr rfl, by simp [stackErr]⟩
    | some answer =>
      cases answer with
      | ok reports => exact absurd hanswer (hfailed reports)
      | error failure =>
        refine ⟨_, rfl, stackErr_phaseMapper _ failure, stackErr_nodeNotResolving.trans ?_⟩
        simp

/-- The key of the list is that of its path. -/
theorem pathKey_fabricsPath : pathKey fabricsPath = s!"{rootEndpoint}/{opCreds}/{fabricsAttr}" := by
  decide

theorem parseFabrics_keyed {gen : Tables} {reports : Reports} {fabrics : List DeviceFabric} :
    parseFabrics ((changesOf gen reports).map keyed) = .ok fabrics ↔
      ∃ entries, reported gen reports fabricsPath = some (.arr entries) ∧ entries ≠ [] ∧
        entries.filterMap fabricEntry = fabrics := by
  unfold parseFabrics
  rw [← pathKey_fabricsPath, find?_keyed]
  split
  next entries hentries =>
    constructor
    · intro h
      split at h
      next => cases h
      next hsome =>
        refine ⟨entries, hentries, fun hnil => hsome ?_, Except.ok.inj h⟩
        rw [hnil]
        rfl
    · rintro ⟨entries', hentries', hsome, rfl⟩
      obtain rfl : entries = entries' := by
        rw [hentries] at hentries'
        cases hentries'
        rfl
      rw [if_neg fun hempty => hsome (List.isEmpty_iff.mp hempty)]
  next hother =>
    refine iff_of_false (fun h => by cases h) ?_
    rintro ⟨entries, hentries, -⟩
    exact hother entries hentries

/-- What `device_fabrics` brings. -/
theorem deviceFabrics_eq_ok {fabrics : List DeviceFabric} :
    deviceFabrics (readAttributes reader) nodeId = .ok fabrics ↔ ∃ reports entries,
      reader.answer imTimeoutSecs (fabricsRead nodeId) = some (.ok reports) ∧
      reported reader.gen reports fabricsPath = some (.arr entries) ∧ entries ≠ [] ∧
      entries.filterMap fabricEntry = fabrics := by
  have hread : ∀ reports, reader.answer imTimeoutSecs (fabricsRead nodeId) = some (.ok reports) →
      deviceFabrics (readAttributes reader) nodeId =
        parseFabrics ((changesOf reader.gen reports).map keyed) := by
    intro reports hanswer
    have hkeyed : readAttributes reader nodeId
        [⟨some rootEndpoint, some opCreds, some fabricsAttr⟩] false =
        .ok ((changesOf reader.gen reports).map keyed) := readAttributesInner_of_answer hanswer
    simp only [deviceFabrics, hkeyed, bind, Except.bind]
  constructor
  · intro h
    by_cases hanswer : ∃ reports,
        reader.answer imTimeoutSecs (fabricsRead nodeId) = some (.ok reports)
    · obtain ⟨reports, hanswer⟩ := hanswer
      rw [hread reports hanswer, parseFabrics_keyed] at h
      obtain ⟨entries, hentries⟩ := h
      exact ⟨reports, entries, hanswer, hentries⟩
    · obtain ⟨e, he⟩ : ∃ e, readAttributes reader nodeId
          [⟨some rootEndpoint, some opCreds, some fabricsAttr⟩] false = .error e :=
        readAttributesInner_of_no_answer fun reports hreports => hanswer ⟨reports, hreports⟩
      obtain ⟨pairs, hpairs, -⟩ := bind_eq_ok h
      rw [he] at hpairs
      cases hpairs
  · rintro ⟨reports, entries, hanswer, hentries⟩
    rw [hread reports hanswer, parseFabrics_keyed]
    exact ⟨entries, hentries⟩

/-- A client that asks for the fabrics of a node is told the structs of the list that the node
reports, in its order; of a list that comes descriptor by descriptor these are the fabrics that
the node described. Whatever else the node reports, or does not, is the one error that clients
know. -/
theorem fabrics_listed (hs : ServesReads reader stack)
    (hnode : args.get? "node_id" = some (.ofU64 nodeId)) (hknown : known nodeId = true) :
    (∀ json, DeviceCommand.handle known display vendorName stack args .getMatterFabrics =
        .ok json ↔ ∃ reports entries,
      reader.answer imTimeoutSecs (fabricsRead nodeId) = some (.ok reports) ∧
      reported reader.gen reports fabricsPath = some (.arr entries) ∧ entries ≠ [] ∧
      json = .arr ((entries.filterMap fabricEntry).map (fabricData vendorName))) ∧
    (∀ reports (descriptors : List FabricDescriptor), descriptors ≠ [] →
      reader.answer imTimeoutSecs (fabricsRead nodeId) = some (.ok reports) →
      own fabricsPath (operations reader.gen reports) =
        (.replace, .arr []) :: descriptors.map (fun d => (.append, .ofMembers d.members)) →
      DeviceCommand.handle known display vendorName stack args .getMatterFabrics =
        .ok (.arr (descriptors.map fun d => fabricData vendorName d.toDeviceFabric))) ∧
    ∀ e, DeviceCommand.handle known display vendorName stack args .getMatterFabrics = .error e →
      e = ⟨.sdkStackError, noFabrics⟩ := by
  have hrequest : fabricsRequest known args = .ok (.deviceFabrics nodeId) := by
    simp only [fabricsRequest, nodeArg_eq hnode hknown, bind, Except.bind]
    rfl
  have hhandle : DeviceCommand.handle known display vendorName stack args .getMatterFabrics =
      ((deviceFabrics (readAttributes reader) nodeId).mapError fun _ =>
        ⟨.sdkStackError, noFabrics⟩).map fun fabrics =>
          .arr (fabrics.map (fabricData vendorName)) := by
    simp only [DeviceCommand.handle, DeviceCommand.request, hrequest, bind, Except.bind, hs.fabrics]
    cases deviceFabrics (readAttributes reader) nodeId <;> rfl
  have hok : ∀ json, DeviceCommand.handle known display vendorName stack args .getMatterFabrics =
        .ok json ↔ ∃ reports entries,
      reader.answer imTimeoutSecs (fabricsRead nodeId) = some (.ok reports) ∧
      reported reader.gen reports fabricsPath = some (.arr entries) ∧ entries ≠ [] ∧
      json = .arr ((entries.filterMap fabricEntry).map (fabricData vendorName)) := by
    intro json
    rw [hhandle]
    constructor
    · intro h
      cases hfabrics : deviceFabrics (readAttributes reader) nodeId with
      | error e =>
        rw [hfabrics] at h
        cases h
      | ok fabrics =>
        rw [hfabrics] at h
        obtain ⟨reports, entries, hanswer, hentries, hsome, rfl⟩ := deviceFabrics_eq_ok.mp hfabrics
        exact ⟨reports, entries, hanswer, hentries, hsome, (Except.ok.inj h).symm⟩
    · rintro ⟨reports, entries, hanswer, hentries, hsome, rfl⟩
      rw [deviceFabrics_eq_ok.mpr ⟨reports, entries, hanswer, hentries, hsome, rfl⟩]
      rfl
  refine ⟨hok, fun reports descriptors hsome hanswer hown => ?_, fun e h => ?_⟩
  · refine (hok _).mpr ⟨reports, descriptors.map fun d => .ofMembers d.members, hanswer, ?_, ?_, ?_⟩
    · have happends := foldOps_appends (descriptors.map fun d => .ofMembers d.members)
      rw [List.map_map] at happends
      rw [reported, hown]
      exact happends
    · exact fun hnil => hsome (List.map_eq_nil_iff.mp hnil)
    · have hentries : (fun d : FabricDescriptor => fabricEntry (.ofMembers d.members)) =
          fun d => some d.toDeviceFabric := funext FabricDescriptor.fabricEntry_members
      rw [List.filterMap_map]
      change _ = Json.arr ((descriptors.filterMap fun d => fabricEntry (.ofMembers d.members)).map _)
      rw [hentries, List.filterMap_eq_map', List.map_map]
      rfl
  · rw [hhandle] at h
    cases hfabrics : deviceFabrics (readAttributes reader) nodeId with
    | error e' =>
      rw [hfabrics] at h
      exact (Except.error.inj h).symm
    | ok fabrics =>
      rw [hfabrics] at h
      cases h

end

/-- Devices that can be asked for the reads of this module only. -/
def readBy (reader : Reader) : (q : DeviceRequest) → Except StackError q.Answer
  | .readAttributes nodeId paths fabricFiltered =>
    readAttributes reader nodeId paths fabricFiltered
  | .deviceFabrics nodeId => deviceFabrics (readAttributes reader) nodeId
  | .writeAttribute _ => .error ⟨.sdk, "fake: no scripted response"⟩
  | .invoke _ _ _ _ _ _ => .error ⟨.sdk, "fake: no scripted response"⟩
  | .openCommissioningWindow _ _ => .error ⟨.sdk, "fake: no scripted response"⟩
  | .removeDeviceFabric _ _ => .error ⟨.sdk, "fake: no scripted response"⟩

theorem servesReads_readBy (reader : Reader) : ServesReads reader (readBy reader) :=
  ⟨fun _ _ _ => rfl, fun _ => rfl⟩

/-- Devices that cut the list of `0/29/3` between its elements. -/
def partsReader : Reader :=
  ⟨noTables, fun _ _ => ⟨true, some (.ok (.more (.ok partsOpened) (.last (.ok partsContinued))))⟩⟩

def partsArgs : Args := .ofList [("node_id", .ofU64 7), ("attribute_path", .str "0/29/3")]

/-- The two elements are told as one list. -/
theorem read_answered_parts : ∃ values,
    DeviceCommand.handle (· == 7) (fun _ => "") (fun _ => none) (readBy partsReader) partsArgs
      .readAttribute = .ok (.obj values) ∧
    Entries.get? (pathKey ⟨0, 29, 3⟩) values = some (.arr [.ofU64 11, .ofU64 22]) := by
  have hspec : NamesPath "0/29/3" ⟨some 0, some 29, some 3⟩ :=
    ⟨"0".toList, "29".toList, "3".toList, by decide, by decide, by decide, by decide⟩
  have hnode : nodeArg (· == 7) partsArgs = .ok 7 := nodeArg_eq rfl rfl
  have hrequest : readRequest (· == 7) partsArgs =
      .ok (.readAttributes 7 [⟨some 0, some 29, some 3⟩] false) := by
    have hpaths : ["0/29/3"].mapM parseAttributePath = .ok [⟨some 0, some 29, some 3⟩] := by
      rw [List.mapM_cons, parse_of_namesPath hspec]
      rfl
    have hgiven : okOrInvalid (partsArgs.get? "attribute_path")
        "missing or invalid required argument: attribute_path" = .ok (.str "0/29/3") := rfl
    simp only [readRequest, hnode, hgiven, pathStrings, hpaths, bind, Except.bind]
    rfl
  obtain ⟨values, hhandle, hvalues, -⟩ := ((read_answered (servesReads_readBy partsReader)
    hrequest).1 (reportsOf [partsOpened, partsContinued]) rfl).2 (List.cons_ne_nil _ _)
  refine ⟨values, hhandle, (hvalues ⟨0, 29, 3⟩).trans ?_⟩
  exact foldOps_appends [.ofU64 11, .ofU64 22]

/-- Two fabrics of one device. -/
def twoFabrics : List FabricDescriptor :=
  [⟨⟨1, 0xFFF1, 1, "Home"⟩, ⟨#[4]⟩, 7⟩, ⟨⟨2, 0x1349, 2, "Other"⟩, ⟨#[4]⟩, 112233⟩]

def twoArgs : Args := .ofList [("node_id", .ofU64 7)]

/-- The list is opened in the first chunk, its elements are in the second. -/
def twoReader : Reader :=
  ⟨noTables, fun _ _ => ⟨true, some (.ok (.more (.ok ⟨some [fabricsReport none (.array [])], some true⟩)
    (.last (.ok ⟨some (twoFabrics.map fun d => fabricsReport (some none) d.tlv), none⟩))))⟩⟩

/-- Both are listed, in the order of the device. -/
theorem fabrics_listed_two :
    DeviceCommand.handle (· == 7) (fun _ => "") (fun _ => none) (readBy twoReader) twoArgs
      .getMatterFabrics = .ok (.arr [fabricData (fun _ => none) ⟨1, 0xFFF1, 1, "Home"⟩,
        fabricData (fun _ => none) ⟨2, 0x1349, 2, "Other"⟩]) :=
  (fabrics_listed (servesReads_readBy twoReader) rfl rfl).2.1 _ twoFabrics
    (List.cons_ne_nil _ _) rfl (own_fabricsReports noTables twoFabrics)

end MatterRsServer.Server
