import MatterRsServer.Stack.Fabrics

/-!
# A command from the client to the device and back

What a client is answered, in terms of what the device answers: the commands of the controller
over the operations of the stack.
-/
namespace MatterRsServer.Server
open Lib Lib.Result Wire Gen Controller Stack Stack.Im

/-- A stack that hands a request to the operation that serves it, as `handle_request` does. -/
structure Serves {σ : Type} [DecidableEq σ] (d : Devices σ) (w : Writer σ)
    (stack : (r : DeviceRequest) → Except StackError r.Answer) : Prop where
  write : ∀ x : AttributeWrite, stack (.writeAttribute x) =
    writeAttribute w x.nodeId x.endpoint x.cluster x.attributeId x.value
  invoke : ∀ nodeId endpoint cluster commandName payload timedMs,
    stack (.invoke nodeId endpoint cluster commandName payload timedMs) =
      invoke d.invoker nodeId endpoint cluster commandName payload timedMs
  remove : ∀ nodeId fabricIndex, stack (.removeDeviceFabric nodeId fabricIndex) =
    removeDeviceFabric d nodeId fabricIndex

section
variable {known : NodeId → Bool} {args : Args} {nodeId : NodeId}

theorem requireU64_eq {key : String} {n : UInt64} (h : args.get? key = some (.ofU64 n)) :
    requireU64 args key = .ok n.toNat := by
  unfold requireU64 optU64
  rw [h]
  rfl

theorem nodeArg_eq (hnode : args.get? "node_id" = some (.ofU64 nodeId))
    (hknown : known nodeId = true) : nodeArg known args = .ok nodeId := by
  unfold nodeArg
  rw [requireU64_eq hnode]
  change (if known (.ofNat nodeId.toNat) = true then _ else _) = _
  rw [UInt64.ofNat_toNat, if_pos hknown]
  rfl

theorem requireStr_eq {key s : String} (h : args.get? key = some (.str s)) :
    requireStr args key = .ok s := by
  unfold requireStr optStr
  rw [h]
  rfl

/-- A path whose segments are the three ids is read as those. -/
theorem parse_of_namesPath {path : String} {endpoint : UInt16} {cluster attr : UInt32}
    (h : NamesPath path ⟨some endpoint, some cluster, some attr⟩) :
    parseAttributePath path = .ok ⟨some endpoint, some cluster, some attr⟩ := by
  obtain ⟨e, c, a, hsplit, hend, hclu, hatt⟩ := h
  have hinRange : ∀ {size sentinel n : Nat} {s : List Char}, some n = segment s sentinel →
      n < size → ¬ OutOfRange size s := by
    rintro size sentinel n s hsegment hlt ⟨m, hm, hle⟩
    unfold Controller.segment at hsegment
    rw [hm] at hsegment
    dsimp only at hsegment
    split at hsegment
    · cases hsegment
    · cases hsegment
      omega
  rcases parseAttributePath_cases hsplit with ⟨hrange, -⟩ | ⟨-, spec, hok, hend', hclu', hatt'⟩
  · exfalso
    rcases hrange with hrange | hrange | hrange
    · exact hinRange hend endpoint.toNat_lt hrange
    · exact hinRange hclu cluster.toNat_lt hrange
    · exact hinRange hatt attr.toNat_lt hrange
  · obtain ⟨endpoint', cluster', attr'⟩ := spec
    have hendpoint : endpoint' = some endpoint :=
      Option.map_injective (fun _ _ => UInt16.toNat_inj.mp) (hend'.trans hend.symm)
    have hcluster : cluster' = some cluster :=
      Option.map_injective (fun _ _ => UInt32.toNat_inj.mp) (hclu'.trans hclu.symm)
    have hattr : attr' = some attr :=
      Option.map_injective (fun _ _ => UInt32.toNat_inj.mp) (hatt'.trans hatt.symm)
    rw [hok, hendpoint, hcluster, hattr]

end

section
variable {σ : Type} [DecidableEq σ] {d : Devices σ} {w : Writer σ}
  {stack : (r : DeviceRequest) → Except StackError r.Answer} {known : NodeId → Bool}
  {display : Json → String} {vendorName : UInt16 → Option String} {args : Args} {nodeId : NodeId}

/-- A client is told of a write what the device says of exactly that attribute: its first failure,
else success, and an error when it says nothing. -/
theorem write_answered (hs : Serves d w stack) (hnode : args.get? "node_id" = some (.ofU64 nodeId))
    (hknown : known nodeId = true) {path : String} {endpoint : UInt16} {cluster attr : UInt32}
    (hpath : args.get? "attribute_path" = some (.str path))
    (hspec : NamesPath path ⟨some endpoint, some cluster, some attr⟩) {data : List UInt8}
    (hdata : w.encodeAnonymous ((args.get? "value").getD .null) ((w.cluster cluster).bind fun c =>
      (c.attr attr).map fun a => ⟨a.ty, a.isList, some c⟩) = .ok data) {ss : List (AttrStatus σ)}
    (hanswer : (w.exchange ⟨nodeId, endpoint, cluster, attr, data⟩).arrived =
      some (.ok (.ok (ss.map .ok)))) :
    DeviceCommand.handle known display vendorName stack args .writeAttribute =
      (settledCode (ourCodes w.im (.of endpoint cluster attr) ss) none).elim
        (.error ⟨.sdkStackError, s!"device returned no write status for {endpoint}/{cluster}/{attr}"⟩)
        fun code => .ok (writeReply
          ⟨nodeId, endpoint, cluster, attr, (args.get? "value").getD .null⟩ code) := by
  have hrequest : writeRequest known args = .ok (.writeAttribute
      ⟨nodeId, endpoint, cluster, attr, (args.get? "value").getD .null⟩) := by
    simp only [writeRequest, nodeArg_eq hnode hknown, requireStr_eq hpath, parse_of_namesPath hspec,
      bind, Except.bind, pure, Except.pure]
  simp only [DeviceCommand.handle, DeviceCommand.request, hrequest, bind, Except.bind, hs.write,
    writeAttribute_eq hdata hanswer]
  cases settledCode (ourCodes w.im (.of endpoint cluster attr) ss) none with
  | none => rfl
  | some code => rfl

end

def operationalCredentials : ClusterMeta :=
  ⟨"OperationalCredentials", [⟨10, "RemoveFabric", some "NOCResponse", false⟩],
    ⟨62, [], [⟨"NOCResponse", nocResponseFields⟩,
      ⟨"RemoveFabricRequest", [⟨0, "fabricIndex", "fabric_idx", false⟩]⟩]⟩⟩

/-- `kInvalidFabricIndex`, in a response that is no failure. -/
def invalidIndex : NocResponse := ⟨11, none, none⟩

/-- Devices that know no fabric. -/
def fabricless : Devices UInt8 where
  im := numericCodes
  refusal _ := ⟨.other, "InvalidData"⟩
  cluster code := if code = opCreds then some operationalCredentials else none
  input _ _ := some "RemoveFabricRequest"
  unwritten _ := ⟨.other, "InvalidData"⟩
  bytes _ := .ok [0x15, 0x24, 0x00, 0x03, 0x18]
  exchange _ := ⟨true, some (.ok (.of (some (some [.cmd invalidIndex.tlv, .status 0])) []))⟩

/-- Devices that can be asked for the operations of this module only. -/
def servedBy (d : Devices UInt8) (w : Writer UInt8) :
    (r : DeviceRequest) → Except StackError r.Answer
  | .writeAttribute x => writeAttribute w x.nodeId x.endpoint x.cluster x.attributeId x.value
  | .invoke nodeId endpoint cluster commandName payload timedMs =>
    invoke d.invoker nodeId endpoint cluster commandName payload timedMs
  | .removeDeviceFabric nodeId fabricIndex => removeDeviceFabric d nodeId fabricIndex
  | .readAttributes _ _ _ => .error ⟨.sdk, "fake: no scripted response"⟩
  | .openCommissioningWindow _ _ => .error ⟨.sdk, "fake: no scripted response"⟩
  | .deviceFabrics _ => .error ⟨.sdk, "fake: no scripted response"⟩

theorem serves_servedBy (d : Devices UInt8) (w : Writer UInt8) : Serves d w (servedBy d w) :=
  ⟨fun _ => rfl, fun _ _ _ _ _ _ => rfl, fun _ _ => rfl⟩

/-- The arguments of a write that turns a lamp off. -/
def lampOffArgs : Args :=
  .ofList [("node_id", .ofU64 7), ("attribute_path", .str "1/6/0"), ("value", .bool false)]

/-- The device speaks of another endpoint first, and of a success last. -/
theorem write_answered_lamp :
    DeviceCommand.handle (· == 7) (fun _ => "") (fun _ => none) (servedBy fabricless elementwise)
      lampOffArgs .writeAttribute = .ok (writeReply ⟨7, 1, 6, 0, .bool false⟩ 0x87) := by
  have hspec : NamesPath "1/6/0" ⟨some 1, some 6, some 0⟩ :=
    ⟨"1".toList, "6".toList, "0".toList, by decide, by decide, by decide, by decide⟩
  exact (write_answered (serves_servedBy fabricless elementwise) rfl rfl rfl hspec rfl rfl).trans rfl

end MatterRsServer.Server
