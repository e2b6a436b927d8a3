import MatterRsServer.Stack.ReadWriteBack
import MatterRsServer.Stack.Responses

/-!
# The arguments of a command

`encode_command_args` of `ops/interact.rs`: the payload of a command is written under the struct
that the command declares, before the exchange with the device is opened. The bytes of the
finished element are a parameter.
-/
namespace MatterRsServer.Stack
open Lib Wire Gen Controller

/-- A member of the payload that the field `f` takes. -/
theorem writesMember_named (f : Field) (base : Base) (t : Tlv) {fields : List Field}
    {cluster : Cluster} {key : String}
    (hfind : (fields.find? fun f => Text.eqIgnoreAsciiCase f.name key) = some f)
    (hcode : f.code.toNat < 256) (hlist : f.isList = false) (hbase : baseType f.ty = some base)
    (htime : ¬ (base = .epochS ∨ base = .epochUs)) (ht : BaseTyped base t)
    (hnull : t.json.isNull = false) :
    WritesMember (resolveNamed fields cluster) (key, t.json) (UInt8.ofNat f.code.toNat, t) := by
  refine ⟨some (Field.hint f cluster), ?_, ?_⟩
  · simp only [resolveNamed, hfind, hcode, if_true]
  · unfold Field.hint
    rw [hlist, writeJson_scalar, writeHinted_base hnull hbase]
    exact (writeBase_json ht).mpr htime

/-- An object is written as what its members are, whatever the order of its keys. -/
theorem emitStruct_ofMembers {members : List (String × Json)} {resolve : Resolve}
    {ws : List (UInt8 × Tlv)} (hkeys : (members.map Prod.fst).Nodup)
    (hws : List.Forall₂ (WritesMember resolve) members ws) (htags : (ws.map Prod.fst).Nodup) :
    emitStruct (Entries.insertAll members []) resolve =
      some (contextStruct (Entries.insertAll ws [])) := by
  obtain ⟨ws', hws', hperm⟩ := List.perm_comp_forall₂ (Entries.perm_insertAll hkeys) hws
  have htags' := ((hperm.map Prod.fst).nodup_iff).mpr htags
  exact emitStruct_eq_some.mpr ⟨ws', hws', htags', by rw [Entries.insertAll_congr hperm htags']⟩

namespace Im

/-- `ROOT_ENDPOINT`, where the clusters of the whole node are. -/
def rootEndpoint : UInt16 := 0

/-- `encode_command_args`, up to the bytes: only an object or null can name fields, and a command
without a request struct takes none. -/
def commandArgs (tables : Cluster) (input : Option String) (payload : Json) : Option Tlv :=
  let fields := (input.bind tables.findStruct).map Struct.fields
  let encode (members : List (String × Json)) : Option Tlv :=
    fields.elim (some (.struct [])) fun fields => writeJsonNamed members fields tables
  match payload with
  | .null => encode []
  | .obj members => encode members
  | _ => none

theorem commandArgs_object {tables : Cluster} {name : String} {fields : List Field}
    (hstruct : tables.findStruct name = some ⟨name, fields⟩) {members : List (String × Json)}
    {ws : List (UInt8 × Tlv)} (hkeys : (members.map Prod.fst).Nodup)
    (hws : List.Forall₂ (WritesMember (resolveNamed fields tables)) members ws)
    (htags : (ws.map Prod.fst).Nodup) :
    commandArgs tables (some name) (.ofMembers members) =
      some (contextStruct (Entries.insertAll ws [])) := by
  simp only [commandArgs, Json.ofMembers, Option.bind_some, hstruct, Option.map_some,
    Option.elim_some, writeJsonNamed]
  exact emitStruct_ofMembers hkeys hws htags

/-- What the operations need of the tables and of the devices: `input` is the request struct of a
command, `unwritten` the error with which a payload is not written, `bytes` the finished element
as it is encoded, when it fits a message. -/
structure Devices (σ : Type) extends Surroundings σ where
  cluster : UInt32 → Option ClusterMeta
  input : ClusterMeta → Cmd → Option String
  unwritten : Json → Error
  bytes : Tlv → Except Error (List UInt8)
  exchange : InvokeRequest → Attempt (Chunk σ)

def Devices.encodeCommandArgs {σ : Type} (d : Devices σ) (cmeta : ClusterMeta) (cmd : Cmd)
    (payload : Json) : Except Error (List UInt8) :=
  match commandArgs cmeta.tables (d.input cmeta cmd) payload with
  | some args => d.bytes args
  | none => .error (d.unwritten payload)

def Devices.invoker {σ : Type} (d : Devices σ) : Invoker σ :=
  { d with encodeCommandArgs := d.encodeCommandArgs }

/-- The statuses among the responses that were read. -/
def Chunk.statuses {σ : Type} : Chunk σ → List σ
  | .last response => responseStatuses response
  | .broken response _ => responseStatuses response
  | .more response next => responseStatuses response ++ next.statuses
where
  responseStatuses : Except Error (Option (InvokeResp σ)) → List σ
    | .ok (some ⟨some responses⟩) => responses.filterMap fun
      | .ok (.status s) => some s
      | _ => none
    | _ => []

/-- A successful invocation: what was sent, and what became of the answer. -/
theorem invoke_eq_ok {σ : Type} [DecidableEq σ] {env : Invoker σ} {nodeId : NodeId}
    {endpoint : UInt16} {cluster : UInt32} {commandName : String} {payload answer : Json}
    {timedMs : Option UInt16}
    (h : invoke env nodeId endpoint cluster commandName payload timedMs = .ok answer) :
    ∃ cmeta cmd args, env.cluster cluster = some cmeta ∧
      cmeta.findCommandCi commandName = some cmd ∧
      env.encodeCommandArgs cmeta cmd payload = .ok args ∧
      ∃ chunk verdict, (env.exchange ⟨nodeId, endpoint, cluster, cmd.code, args,
          normalizeTimed timedMs cmd⟩).arrived = some (.ok chunk) ∧
        takeChunks env.toSurroundings commandName (cmd.payloadJson cmeta) .start chunk =
          .ok verdict ∧ verdict.result = .ok answer := by
  unfold invoke at h
  obtain ⟨cmeta, hmeta, h⟩ := Result.bind_eq_ok h
  obtain ⟨cmd, hcmd, h⟩ := Result.bind_eq_ok h
  obtain ⟨args, hargs, h⟩ := Result.bind_eq_ok h
  obtain ⟨result, hresult, h⟩ := Result.bind_eq_ok h
  have hcluster : env.cluster cluster = some cmeta := by
    cases hc : env.cluster cluster with
    | none =>
      rw [hc] at hmeta
      cases hmeta
    | some c =>
      rw [hc] at hmeta
      exact congrArg some (Except.ok.inj hmeta)
  have hfound : cmeta.findCommandCi commandName = some cmd := by
    cases hc : cmeta.findCommandCi commandName with
    | none =>
      rw [hc] at hcmd
      cases hcmd
    | some c =>
      rw [hc] at hcmd
      exact congrArg some (Except.ok.inj hcmd)
  refine ⟨cmeta, cmd, args, hcluster, hfound, Result.mapError_eq_ok hargs, ?_⟩
  cases harrived : (env.exchange ⟨nodeId, endpoint, cluster, cmd.code, args,
      normalizeTimed timedMs cmd⟩).arrived with
  | none =>
    rw [harrived] at hresult
    cases hresult
  | some arrived =>
    rw [harrived] at hresult
    obtain ⟨chunk, hchunk, hverdict⟩ := Result.bind_eq_ok (Result.mapError_eq_ok hresult)
    cases hrun : takeChunks env.toSurroundings commandName (cmd.payloadJson cmeta) .start chunk with
    | error e =>
      unfold Cmd.payloadJson at hrun
      rw [hrun] at hverdict
      cases hverdict
    | ok verdict =>
      have hrun' := hrun
      unfold Cmd.payloadJson at hrun'
      rw [hrun'] at hverdict
      refine ⟨chunk, verdict, by rw [hchunk], hrun, ?_⟩
      rw [← h]
      exact Except.ok.inj hverdict

section Success
variable {σ : Type} [DecidableEq σ] {env : Surroundings σ} {commandName : String}
  {toJson : Tlv → Option Json}

/-- A success is the end of successes only. -/
theorem takeResponse_success {v v' : Verdict} {r : Except Error (CmdResp σ)}
    (h : takeResponse env commandName toJson v r = .ok v') (hok : v'.result.isOk = true) :
    v.result.isOk = true ∧ ∀ s, r = .ok (.status s) → s = env.im.success := by
  unfold takeResponse at h
  split at h
  next => cases h
  next data =>
    refine ⟨?_, fun s hs => by cases hs⟩
    split at h
    next => cases h
    next json _ =>
      split at h
      next hfirst => exact (Bool.and_eq_true_iff.mp hfirst).1
      next =>
        cases h
        exact hok
  next status =>
    split at h
    next =>
      cases h
      cases hok
    next hsuccess =>
      cases h
      refine ⟨hok, fun s hs => ?_⟩
      obtain rfl : status = s := CmdResp.status.inj (Except.ok.inj hs)
      exact not_not.mp hsuccess

theorem takeResponses_success {responses : List (Except Error (CmdResp σ))} {v v' : Verdict}
    (h : responses.foldlM (takeResponse env commandName toJson) v = .ok v')
    (hok : v'.result.isOk = true) :
    v.result.isOk = true ∧ ∀ s, .ok (.status s) ∈ responses → s = env.im.success := by
  induction responses generalizing v with
  | nil =>
    cases h
    exact ⟨hok, by simp⟩
  | cons r rest ih =>
    rw [List.foldlM_cons] at h
    obtain ⟨mid, hfirst, hrest⟩ := Result.bind_eq_ok h
    obtain ⟨hmid, hlater⟩ := ih hrest
    obtain ⟨hv, hr⟩ := takeResponse_success hfirst hmid
    refine ⟨hv, fun s hs => ?_⟩
    rcases List.mem_cons.mp hs with hs | hs
    · exact hr s hs.symm
    · exact hlater s hs

theorem takeChunk_success {response : Except Error (Option (InvokeResp σ))} {v v' : Verdict}
    (h : takeChunk env commandName toJson v response = .ok v') (hok : v'.result.isOk = true) :
    v.result.isOk = true ∧ ∀ s ∈ Chunk.statuses.responseStatuses response, s = env.im.success := by
  match response, h with
  | .ok none, h =>
    cases h
    exact ⟨hok, by simp [Chunk.statuses.responseStatuses]⟩
  | .ok (some ⟨none⟩), h =>
    cases h
    exact ⟨hok, by simp [Chunk.statuses.responseStatuses]⟩
  | .ok (some ⟨some responses⟩), h =>
    obtain ⟨hv, hall⟩ := takeResponses_success h hok
    refine ⟨hv, fun s hs => ?_⟩
    obtain ⟨r, hr, heq⟩ := List.mem_filterMap.mp hs
    split at heq
    next status =>
      cases heq
      exact hall _ hr
    next => cases heq

theorem takeChunks_isOk {chunk : Chunk σ} {v v' : Verdict}
    (h : takeChunks env commandName toJson v chunk = .ok v') (hok : v'.result.isOk = true) :
    v.result.isOk = true ∧ ∀ s ∈ chunk.statuses, s = env.im.success := by
  induction chunk generalizing v with
  | last response => exact takeChunk_success h hok
  | broken response e =>
    obtain ⟨mid, -, hbroken⟩ := Result.bind_eq_ok h
    cases hbroken
  | more response next ih =>
    obtain ⟨mid, hfirst, hrest⟩ := Result.bind_eq_ok h
    obtain ⟨hmid, hlater⟩ := ih hrest
    obtain ⟨hv, hnow⟩ := takeChunk_success hfirst hmid
    refine ⟨hv, fun s hs => ?_⟩
    rcases List.mem_append.mp hs with hs | hs
    · exact hnow s hs
    · exact hlater s hs

theorem takeChunks_success {chunk : Chunk σ} {v v' : Verdict} {answer : Json}
    (h : takeChunks env commandName toJson v chunk = .ok v') (hok : v'.result = .ok answer) :
    ∀ s ∈ chunk.statuses, s = env.im.success :=
  (takeChunks_isOk h (by rw [hok]; rfl)).2

end Success

end Im

end MatterRsServer.Stack
