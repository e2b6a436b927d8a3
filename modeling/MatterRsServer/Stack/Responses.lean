import MatterRsServer.Controller.Commands
import MatterRsServer.Stack.TlvCalls

/-!
# One verdict from many responses

`invoke` and `write_attribute` of `ops/interact.rs`. A device may answer one command with
several responses, in several chunks, and one write with several statuses, some of them for
other paths; both operations end with one result. What the device answers, and when the timer
fires, is a parameter.
-/
namespace MatterRsServer.Stack.Im
open Lib Wire Gen Controller

/-- `ErrorCode`, of the codes that `map_err` tells apart. -/
inductive ErrorCode where
  | notFound | rxTimeout | txTimeout | busy | other
deriving DecidableEq

structure Error where
  code : ErrorCode
  text : String

def busyMessage : String :=
  "device is busy (a previous commissioning attempt may still hold its failsafe for ~60s)"

def imTimeoutSecs : Nat := 30

def defaultTimedMs : UInt16 := 10000

def mapErr (e : Error) : StackError :=
  match e.code with
  | .notFound => ⟨.nodeUnreachable, "could not resolve node via mDNS"⟩
  | .rxTimeout | .txTimeout => ⟨.timeout, s!"Error::{e.text}"⟩
  | .busy => ⟨.busy, busyMessage⟩
  | .other => ⟨.sdk, s!"Error::{e.text}"⟩

def mapErrEstablished (e : Error) : StackError :=
  match e.code with
  | .notFound => ⟨.sdk, "device answered with IM status NotFound (0x8b)"⟩
  | _ => mapErr e

/-- An operation on an exchange: how far the exchange came, and what arrived before the timer
fired. -/
structure Attempt (α : Type) where
  established : Bool
  arrived : Option (Except Error α)

def phaseMapper (established : Bool) : Error → StackError :=
  if established then mapErrEstablished else mapErr

/-- `with_timeout_mapped`; `none` is the timer. -/
def withTimeoutMapped {α : Type} (secs : Nat) (outcome : Option (Except Error α))
    (map : Error → StackError) : Except StackError α :=
  match outcome with
  | some r => r.mapError map
  | none => .error ⟨.timeout, s!"IM operation timed out after {secs}s"⟩

/-- `IMStatusCode`: the codes that the operations name, and how a code is printed. -/
structure StatusCodes (σ : Type) where
  success : σ
  busy : σ
  timeout : σ
  asU8 : σ → UInt8
  debug : σ → String

section
variable {σ : Type}

inductive CmdResp (σ : Type) where
  | cmd (data : Tlv)
  | status (s : σ)

structure InvokeResp (σ : Type) where
  invokeResponses : Option (List (Except Error (CmdResp σ)))

/-- The chunks of one answer: each with what `response` gives, and then what `complete` does. -/
inductive Chunk (σ : Type) where
  | last (response : Except Error (Option (InvokeResp σ)))
  | broken (response : Except Error (Option (InvokeResp σ))) (e : Error)
  | more (response : Except Error (Option (InvokeResp σ))) (next : Chunk σ)

structure Cmd where
  code : UInt32
  name : String
  output : Option String
  isTimed : Bool

structure ClusterMeta where
  name : String
  commands : List Cmd
  tables : Cluster

def ClusterMeta.findCommandCi (c : ClusterMeta) (name : String) : Option Cmd :=
  c.commands.find? fun cmd => Text.eqIgnoreAsciiCase cmd.name name

def normalizeTimed (timedMs : Option UInt16) (cmd : Cmd) : Option UInt16 :=
  (timedMs.filter fun ms => ms > 0).or (if cmd.isTimed then some defaultTimedMs else none)

/-- `{:02x}`. -/
def hexByte (n : UInt8) : String :=
  .ofList [Nat.digitChar (n.toNat / 16), Nat.digitChar (n.toNat % 16)]

def commandFailed [DecidableEq σ] (im : StatusCodes σ) (commandName : String) (status : σ) :
    StackError where
  kind := if status = im.busy then .busy else if status = im.timeout then .timeout else .sdk
  message := s!"Command \"{commandName}\" failed with IM status {im.debug status} " ++
    s!"(0x{hexByte (im.asU8 status)})"

/-- The loop's variables. -/
structure Verdict where
  result : Except StackError Json
  gotPayload : Bool
  seen : Nat

def Verdict.start : Verdict := ⟨.ok .null, false, 0⟩

/-- A response payload: its fields are named when the command declares them. -/
def payloadJson (output : Option Struct) (cluster : Cluster) (data : Tlv) : Option Json :=
  match output with
  | some out => tlvToJsonNamed data out.fields cluster
  | none => tlvToJson data

/-- What an invocation needs of its surroundings: `refusal` is the error with which an element is
not read. -/
structure Surroundings (σ : Type) where
  im : StatusCodes σ
  refusal : Tlv → Error

section
variable [DecidableEq σ] (env : Surroundings σ) (commandName : String) (toJson : Tlv → Option Json)

def takeResponse (v : Verdict) : Except Error (CmdResp σ) → Except Error Verdict
  | .error e => .error e
  | .ok (.cmd data) =>
    match toJson data with
    | none => .error (env.refusal data)
    | some json =>
      if v.result.isOk && !v.gotPayload then .ok ⟨.ok json, true, v.seen + 1⟩
      else .ok { v with seen := v.seen + 1 }
  | .ok (.status s) =>
    if s ≠ env.im.success then
      .ok { v with result := .error (commandFailed env.im commandName s), seen := v.seen + 1 }
    else .ok { v with seen := v.seen + 1 }

def takeChunk (v : Verdict) (response : Except Error (Option (InvokeResp σ))) :
    Except Error Verdict :=
  match response with
  | .error e => .error e
  | .ok none => .ok v
  | .ok (some resp) =>
    match resp.invokeResponses with
    | none => .ok v
    | some responses => responses.foldlM (takeResponse env commandName toJson) v

def takeChunks (v : Verdict) : Chunk σ → Except Error Verdict
  | .last response => takeChunk env commandName toJson v response
  | .broken response e => takeChunk env commandName toJson v response >>= fun _ => .error e
  | .more response next =>
    takeChunk env commandName toJson v response >>= fun v => takeChunks v next

end

structure InvokeRequest where
  nodeId : NodeId
  endpoint : UInt16
  cluster : UInt32
  command : UInt32
  args : List UInt8
  timedMs : Option UInt16

/-- The tables, the encoder of arguments and the devices. -/
structure Invoker (σ : Type) extends Surroundings σ where
  cluster : UInt32 → Option ClusterMeta
  encodeCommandArgs : ClusterMeta → Cmd → Json → Except Error (List UInt8)
  exchange : InvokeRequest → Attempt (Chunk σ)

def invoke [DecidableEq σ] (env : Invoker σ) (nodeId : NodeId) (endpoint : UInt16)
    (cluster : UInt32) (commandName : String) (payload : Json) (timedMs : Option UInt16) :
    Except StackError Json := do
  let cmeta ← (env.cluster cluster).elim
    (.error ⟨.invalidArguments, s!"Cluster Id \"{cluster}\" unknown"⟩) .ok
  let cmd ← (cmeta.findCommandCi commandName).elim
    (.error ⟨.invalidArguments,
      s!"Command \"{commandName}\" does not exist on cluster \"{cmeta.name}\""⟩) .ok
  let timedMs := normalizeTimed timedMs cmd
  let args ← (env.encodeCommandArgs cmeta cmd payload).mapError fun e =>
    ⟨.invalidArguments, s!"Invalid payload for command \"{commandName}\": Error::{e.text}"⟩
  let output := cmd.output.bind cmeta.tables.findStruct
  let attempt := env.exchange ⟨nodeId, endpoint, cluster, cmd.code, args, timedMs⟩
  let answered := attempt.arrived.map fun arrived => arrived >>= fun chunk =>
    (takeChunks env.toSurroundings commandName (payloadJson output cmeta.tables)
      .start chunk).map Verdict.result
  let result ← withTimeoutMapped imTimeoutSecs answered (phaseMapper attempt.established)
  result

/-! ### The responses of a write -/

structure AttrPath where
  endpoint : Option UInt16
  cluster : Option UInt32
  attr : Option UInt32
deriving DecidableEq

attribute [ext] AttrPath

structure AttrStatus (σ : Type) where
  path : AttrPath
  status : σ

/-- A path that names each of its parts. -/
def AttrPath.of (endpoint : UInt16) (cluster attr : UInt32) : AttrPath :=
  ⟨some endpoint, some cluster, some attr⟩

/-- The loop over the statuses: `ours` is the last one that counted, zero or none. -/
def takeStatuses (im : StatusCodes σ) (endpoint : UInt16) (cluster attr : UInt32)
    (ours : Option UInt8) : List (Except Error (AttrStatus σ)) → Except Error (Option UInt8)
  | [] => .ok ours
  | .error e :: _ => .error e
  | .ok s :: rest =>
    if s.path.endpoint ≠ some endpoint ∨ s.path.cluster ≠ some cluster ∨
        s.path.attr ≠ some attr then
      takeStatuses im endpoint cluster attr ours rest
    else if im.asU8 s.status ≠ 0 then .ok (some (im.asU8 s.status))
    else takeStatuses im endpoint cluster attr (some 0) rest

structure WriteRequest where
  nodeId : NodeId
  endpoint : UInt16
  cluster : UInt32
  attr : UInt32
  data : List UInt8

/-- `handle.response()` of the answer to a write. -/
abbrev WriteAnswer (σ : Type) := Except Error (List (Except Error (AttrStatus σ)))

/-- The tables, the encoder of elements and the devices. -/
structure Writer (σ : Type) where
  im : StatusCodes σ
  cluster : UInt32 → Option Cluster
  encodeAnonymous : Json → Option TypeHint → Except Error (List UInt8)
  exchange : WriteRequest → Attempt (WriteAnswer σ)

def writeAttribute (env : Writer σ) (nodeId : NodeId) (endpoint : UInt16)
    (cluster attr : UInt32) (value : Json) : Except StackError UInt8 := do
  let hint := (env.cluster cluster).bind fun c =>
    (c.attr attr).map fun a => ⟨a.ty, a.isList, some c⟩
  let data ← (env.encodeAnonymous value hint).mapError fun e =>
    ⟨.invalidArguments,
      s!"Invalid value for attribute {endpoint}/{cluster}/{attr}: Error::{e.text}"⟩
  let attempt := env.exchange ⟨nodeId, endpoint, cluster, attr, data⟩
  let answered := attempt.arrived.map fun arrived => do
    let responses ← (← arrived)
    let ours ← takeStatuses env.im endpoint cluster attr none responses
    pure (ours.elim (.error ⟨.sdk,
      s!"device returned no write status for {endpoint}/{cluster}/{attr}"⟩) .ok)
  let result ← withTimeoutMapped imTimeoutSecs answered (phaseMapper attempt.established)
  result

/-! ### What an invocation settles on -/

/-- What one chunk brings: a bare status response has no `InvokeResp`, and that may have no
responses. -/
abbrev Batch (σ : Type) := Option (Option (List (CmdResp σ)))

namespace Batch

def response (b : Batch σ) : Except Error (Option (InvokeResp σ)) :=
  .ok (b.map fun responses => ⟨responses.map (List.map .ok)⟩)

def responses (b : Batch σ) : List (CmdResp σ) := b.join.getD []

end Batch

def Chunk.of (first : Batch σ) : List (Batch σ) → Chunk σ
  | [] => .last first.response
  | next :: later => .more first.response (Chunk.of next later)

def payloads (toJson : Tlv → Option Json) (rs : List (CmdResp σ)) : List Json :=
  rs.filterMap fun
    | .cmd data => toJson data
    | .status _ => none

theorem payloads_cmd {toJson : Tlv → Option Json} (rs : List (CmdResp σ)) {data : Tlv} {json : Json}
    (h : toJson data = some json) :
    payloads toJson (rs ++ [.cmd data]) = payloads toJson rs ++ [json] := by
  simp [payloads, h]

@[simp] theorem payloads_status {toJson : Tlv → Option Json} {rs : List (CmdResp σ)} {s : σ} :
    payloads toJson (rs ++ [.status s]) = payloads toJson rs := by
  simp [payloads]

section
variable [DecidableEq σ] (env : Surroundings σ) (commandName : String) (toJson : Tlv → Option Json)

def failures (rs : List (CmdResp σ)) : List σ :=
  rs.filterMap fun
    | .status s => if s ≠ env.im.success then some s else none
    | .cmd _ => none

/-- The last failure, else the first payload, else null. -/
def settled (rs : List (CmdResp σ)) : Except StackError Json :=
  match (failures env rs).getLast? with
  | some s => .error (commandFailed env.im commandName s)
  | none => .ok ((payloads toJson rs).head?.getD .null)

/-- The loop's variables after the responses `rs`. -/
structure Settled (rs : List (CmdResp σ)) (v : Verdict) : Prop where
  result : v.result = settled env commandName toJson rs
  gotPayload : failures env rs = [] → (v.gotPayload = true ↔ payloads toJson rs ≠ [])
  seen : v.seen = rs.length

variable {env commandName toJson} {rs : List (CmdResp σ)} {v : Verdict}

@[simp] theorem failures_cmd {data : Tlv} : failures env (rs ++ [.cmd data]) = failures env rs := by
  simp [failures]

theorem failures_failure {s : σ} (h : s ≠ env.im.success) :
    failures env (rs ++ [.status s]) = failures env rs ++ [s] := by
  simp [failures, h]

@[simp] theorem failures_success :
    failures env (rs ++ [.status env.im.success]) = failures env rs := by
  simp [failures]

theorem isOk_settled : (settled env commandName toJson rs).isOk = true ↔ failures env rs = [] := by
  unfold settled
  cases h : (failures env rs).getLast? with
  | none => exact iff_of_true rfl (List.getLast?_eq_none_iff.mp h)
  | some s =>
    refine iff_of_false (by simp [Except.isOk, Except.toBool]) fun hnil => ?_
    rw [hnil] at h
    cases h

theorem settled_of_nil (h : failures env rs = []) :
    settled env commandName toJson rs = .ok ((payloads toJson rs).head?.getD .null) := by
  rw [settled, h]
  rfl

theorem settled_of_ne_nil {rs' : List (CmdResp σ)} (h : failures env rs ≠ [])
    (hsame : failures env rs' = failures env rs) :
    settled env commandName toJson rs' = settled env commandName toJson rs := by
  rw [settled, settled, hsame]
  cases hlast : (failures env rs).getLast? with
  | some s => rfl
  | none => exact absurd (List.getLast?_eq_none_iff.mp hlast) h

/-- The test on the loop's variables asks for the first payload with no failure before it. -/
theorem Settled.first_iff (hv : Settled env commandName toJson rs v) :
    (v.result.isOk && !v.gotPayload) = true ↔ failures env rs = [] ∧ payloads toJson rs = [] := by
  rw [Bool.and_eq_true, hv.result, isOk_settled, Bool.not_eq_true', ← Bool.not_eq_true]
  exact and_congr_right fun hnil => by rw [hv.gotPayload hnil, not_not]

theorem takeResponse_cmd (hv : Settled env commandName toJson rs v) {data : Tlv}
    (hr : (toJson data).isSome = true) :
    ∃ v', takeResponse env commandName toJson v (.ok (.cmd data)) = .ok v' ∧
      Settled env commandName toJson (rs ++ [.cmd data]) v' := by
  obtain ⟨json, hjson⟩ := Option.isSome_iff_exists.mp hr
  have hp := payloads_cmd rs hjson
  simp only [takeResponse, hjson]
  split
  next hfirst =>
    obtain ⟨hf, hnone⟩ := hv.first_iff.mp hfirst
    refine ⟨_, rfl, ?_, ?_, by simp [hv.seen]⟩
    · rw [settled_of_nil (by rw [failures_cmd, hf]), hp, hnone]
      rfl
    · rw [hp]
      simp
  next hlater =>
    rw [hv.first_iff, not_and'] at hlater
    refine ⟨_, rfl, ?_, ?_, by simp [hv.seen]⟩
    · dsimp only
      rw [hv.result]
      by_cases hf : failures env rs = []
      · have hsome : payloads toJson rs ≠ [] := fun hnone => hlater hnone hf
        rw [settled_of_nil hf, settled_of_nil (by rw [failures_cmd, hf]), hp,
          List.head?_append_of_ne_nil _ hsome]
      · exact (settled_of_ne_nil hf failures_cmd).symm
    · rw [failures_cmd, hp]
      intro hf
      exact iff_of_true ((hv.gotPayload hf).mpr fun hnone => hlater hnone hf) (by simp)

theorem takeResponse_status (hv : Settled env commandName toJson rs v) (s : σ) :
    ∃ v', takeResponse env commandName toJson v (.ok (.status s)) = .ok v' ∧
      Settled env commandName toJson (rs ++ [.status s]) v' := by
  simp only [takeResponse]
  split
  next hne =>
    refine ⟨_, rfl, ?_, ?_, by simp [hv.seen]⟩
    · rw [settled, failures_failure hne, List.getLast?_concat]
    · rw [failures_failure hne]
      simp
  next heq =>
    rw [not_not] at heq
    subst heq
    refine ⟨_, rfl, ?_, ?_, by simp [hv.seen]⟩
    · rw [settled, failures_success, payloads_status]
      exact hv.result
    · rw [failures_success, payloads_status]
      exact hv.gotPayload

/-- One response more. -/
theorem takeResponse_settled (hv : Settled env commandName toJson rs v) (r : CmdResp σ)
    (hr : ∀ data, r = .cmd data → (toJson data).isSome = true) :
    ∃ v', takeResponse env commandName toJson v (.ok r) = .ok v' ∧
      Settled env commandName toJson (rs ++ [r]) v' := by
  cases r with
  | cmd data => exact takeResponse_cmd hv (hr data rfl)
  | status s => exact takeResponse_status hv s

theorem takeResponses_settled (hv : Settled env commandName toJson rs v) (more : List (CmdResp σ))
    (hmore : ∀ data, .cmd data ∈ more → (toJson data).isSome = true) :
    ∃ v', (more.map Except.ok).foldlM (takeResponse env commandName toJson) v = .ok v' ∧
      Settled env commandName toJson (rs ++ more) v' := by
  induction more generalizing rs v with
  | nil => exact ⟨v, rfl, by rwa [List.append_nil]⟩
  | cons r more ih =>
    obtain ⟨v₁, hstep, hv₁⟩ := takeResponse_settled hv r fun data hr =>
      hmore data (List.mem_cons.mpr (.inl hr.symm))
    obtain ⟨v₂, hrest, hv₂⟩ := ih hv₁ fun data hdata =>
      hmore data (List.mem_cons_of_mem _ hdata)
    refine ⟨v₂, ?_, by rwa [List.append_assoc] at hv₂⟩
    rw [List.map_cons, List.foldlM_cons, hstep]
    exact hrest

theorem takeChunk_settled (hv : Settled env commandName toJson rs v) (b : Batch σ)
    (hb : ∀ data, .cmd data ∈ b.responses → (toJson data).isSome = true) :
    ∃ v', takeChunk env commandName toJson v b.response = .ok v' ∧
      Settled env commandName toJson (rs ++ b.responses) v' := by
  match b with
  | none | some none => exact ⟨v, rfl, by simpa [Batch.responses] using hv⟩
  | some (some more) => exact takeResponses_settled hv more hb

/-- However the responses are divided, the loop sees them in order. -/
theorem takeChunks_settled (hv : Settled env commandName toJson rs v) (first : Batch σ)
    (later : List (Batch σ))
    (h : ∀ data, .cmd data ∈ (first :: later).flatMap Batch.responses → (toJson data).isSome = true) :
    ∃ v', takeChunks env commandName toJson v (.of first later) = .ok v' ∧
      Settled env commandName toJson (rs ++ (first :: later).flatMap Batch.responses) v' := by
  induction later generalizing rs v first with
  | nil =>
    rw [List.flatMap_singleton] at h ⊢
    exact takeChunk_settled hv first h
  | cons next later ih =>
    rw [List.flatMap_cons] at h ⊢
    obtain ⟨v₁, hstep, hv₁⟩ := takeChunk_settled hv first fun data hdata =>
      h data (List.mem_append_left _ hdata)
    obtain ⟨v₂, hrest, hv₂⟩ := ih hv₁ next fun data hdata =>
      h data (List.mem_append_right _ hdata)
    refine ⟨v₂, ?_, by rwa [List.append_assoc] at hv₂⟩
    rw [Chunk.of, takeChunks, hstep]
    exact hrest

theorem settled_start : Settled env commandName toJson [] .start where
  result := rfl
  gotPayload _ := by simp [Verdict.start, payloads]
  seen := rfl

end

/-! ### What a write settles on -/

/-- The codes of the statuses for the path that was written. -/
def ourCodes (im : StatusCodes σ) (path : AttrPath) (ss : List (AttrStatus σ)) : List UInt8 :=
  (ss.filter fun s => s.path = path).map fun s => im.asU8 s.status

/-- The first failure, else success if there was a status at all. -/
def settledCode (codes : List UInt8) (ours : Option UInt8) : Option UInt8 :=
  (codes.find? (· ≠ 0)).or (if codes = [] then ours else some 0)

theorem takeStatuses_eq {im : StatusCodes σ} {endpoint : UInt16} {cluster attr : UInt32}
    {ours : Option UInt8} {ss : List (AttrStatus σ)} :
    takeStatuses im endpoint cluster attr ours (ss.map .ok) =
      .ok (settledCode (ourCodes im (.of endpoint cluster attr) ss) ours) := by
  induction ss generalizing ours with
  | nil => rfl
  | cons s ss ih =>
    have hpath : (s.path.endpoint ≠ some endpoint ∨ s.path.cluster ≠ some cluster ∨
        s.path.attr ≠ some attr) ↔ s.path ≠ .of endpoint cluster attr := by
      simp only [AttrPath.of, ne_eq, AttrPath.ext_iff]
      tauto
    rw [List.map_cons, takeStatuses]
    simp only [hpath]
    split
    next hother => rw [ih, ourCodes, ourCodes, List.filter_cons_of_neg (by simpa using hother)]
    next hours =>
      rw [not_not] at hours
      have hcodes : ourCodes im (.of endpoint cluster attr) (s :: ss) =
          im.asU8 s.status :: ourCodes im (.of endpoint cluster attr) ss := by
        rw [ourCodes, List.filter_cons_of_pos (by simpa using hours)]
        rfl
      rw [hcodes]
      split
      next hne => simp [settledCode, hne]
      next hzero =>
        rw [ih]
        rw [not_not] at hzero
        simp [settledCode, hzero]

/-! ### Both operations -/

/-- The payloads of a command are read under the struct that it declares. -/
def Cmd.payloadJson (cmd : Cmd) (cmeta : ClusterMeta) : Tlv → Option Json :=
  Im.payloadJson (cmd.output.bind cmeta.tables.findStruct) cmeta.tables

theorem invoke_eq [DecidableEq σ] {env : Invoker σ} {nodeId : NodeId} {endpoint : UInt16}
    {cluster : UInt32} {commandName : String} {payload : Json} {timedMs : Option UInt16}
    {cmeta : ClusterMeta} {cmd : Cmd} {args : List UInt8} {first : Batch σ} {later : List (Batch σ)}
    (hcluster : env.cluster cluster = some cmeta)
    (hcmd : cmeta.findCommandCi commandName = some cmd)
    (hargs : env.encodeCommandArgs cmeta cmd payload = .ok args)
    (hanswer : (env.exchange ⟨nodeId, endpoint, cluster, cmd.code, args,
      normalizeTimed timedMs cmd⟩).arrived = some (.ok (.of first later)))
    (hpayloads : ∀ data, .cmd data ∈ (first :: later).flatMap Batch.responses →
      (cmd.payloadJson cmeta data).isSome = true) :
    invoke env nodeId endpoint cluster commandName payload timedMs =
      settled env.toSurroundings commandName (cmd.payloadJson cmeta)
        ((first :: later).flatMap Batch.responses) := by
  have hstart : Settled env.toSurroundings commandName (cmd.payloadJson cmeta) [] .start :=
    settled_start
  obtain ⟨v, hrun, hv⟩ := takeChunks_settled hstart first later hpayloads
  have hresult := hv.result
  rw [List.nil_append] at hresult
  unfold Cmd.payloadJson at hrun hresult ⊢
  rw [← hresult]
  simp only [invoke, hcluster, hcmd, hargs, hanswer, Option.elim_some, Except.mapError,
    bind, Except.bind, Option.map_some, hrun, Except.map, withTimeoutMapped]

theorem writeAttribute_eq {env : Writer σ} {nodeId : NodeId} {endpoint : UInt16}
    {cluster attr : UInt32} {value : Json} {data : List UInt8} {ss : List (AttrStatus σ)}
    (hdata : env.encodeAnonymous value ((env.cluster cluster).bind fun c =>
      (c.attr attr).map fun a => ⟨a.ty, a.isList, some c⟩) = .ok data)
    (hanswer : (env.exchange ⟨nodeId, endpoint, cluster, attr, data⟩).arrived =
      some (.ok (.ok (ss.map .ok)))) :
    writeAttribute env nodeId endpoint cluster attr value =
      (settledCode (ourCodes env.im (.of endpoint cluster attr) ss) none).elim
        (.error ⟨.sdk, s!"device returned no write status for {endpoint}/{cluster}/{attr}"⟩) .ok := by
  simp only [writeAttribute, hdata, hanswer, Except.mapError, bind, Except.bind, Option.map_some,
    takeStatuses_eq, pure, Except.pure, withTimeoutMapped]

/-- An invocation ends with its last failure, else with its first payload, however the responses
come in chunks; a write ends with the first failure for its own path. -/
theorem responses_settle [DecidableEq σ] :
    (∀ (env : Invoker σ) (nodeId : NodeId) (endpoint : UInt16) (cluster : UInt32)
      (commandName : String) (payload : Json) (timedMs : Option UInt16) (cmeta : ClusterMeta)
      (cmd : Cmd) (args : List UInt8) (first : Batch σ) (later : List (Batch σ)),
      env.cluster cluster = some cmeta → cmeta.findCommandCi commandName = some cmd →
      env.encodeCommandArgs cmeta cmd payload = .ok args →
      (env.exchange ⟨nodeId, endpoint, cluster, cmd.code, args,
        normalizeTimed timedMs cmd⟩).arrived = some (.ok (.of first later)) →
      (∀ data, .cmd data ∈ (first :: later).flatMap Batch.responses →
        (cmd.payloadJson cmeta data).isSome = true) →
      invoke env nodeId endpoint cluster commandName payload timedMs =
        settled env.toSurroundings commandName (cmd.payloadJson cmeta)
          ((first :: later).flatMap Batch.responses)) ∧
    ∀ (env : Writer σ) (nodeId : NodeId) (endpoint : UInt16) (cluster attr : UInt32) (value : Json)
      (data : List UInt8) (ss : List (AttrStatus σ)),
      env.encodeAnonymous value ((env.cluster cluster).bind fun c =>
        (c.attr attr).map fun a => ⟨a.ty, a.isList, some c⟩) = .ok data →
      (env.exchange ⟨nodeId, endpoint, cluster, attr, data⟩).arrived =
        some (.ok (.ok (ss.map .ok))) →
      writeAttribute env nodeId endpoint cluster attr value =
        (settledCode (ourCodes env.im (.of endpoint cluster attr) ss) none).elim
          (.error ⟨.sdk, s!"device returned no write status for {endpoint}/{cluster}/{attr}"⟩)
          .ok :=
  ⟨fun _ _ _ _ _ _ _ _ _ _ _ _ hcluster hcmd hargs hanswer hpayloads =>
    invoke_eq hcluster hcmd hargs hanswer hpayloads,
   fun _ _ _ _ _ _ _ _ hdata hanswer => writeAttribute_eq hdata hanswer⟩

/-- Status codes that are printed as their numbers. -/
def numericCodes : StatusCodes UInt8 := ⟨0, 0x9c, 0x94, id, hexByte⟩

def onOff : ClusterMeta := ⟨"OnOff", [⟨2, "Toggle", none, false⟩], ⟨6, [], []⟩⟩

/-- A device that answers in three chunks: a payload, nothing, then two failures around a
success. -/
def grudging : Invoker UInt8 where
  im := numericCodes
  refusal _ := ⟨.other, "InvalidData"⟩
  cluster code := if code = 6 then some onOff else none
  encodeCommandArgs _ _ _ := .ok [0x15, 0x18]
  exchange _ := ⟨true, some (.ok (.of (some (some [.cmd (.bool true)]))
    [none, some (some [.status 0x01, .status 0, .status 0x9c, .cmd (.bool false)])]))⟩

/-- A device that reports a success of its own accord, then a failure and a success. -/
def elementwise : Writer UInt8 where
  im := numericCodes
  cluster _ := none
  encodeAnonymous _ _ := .ok [0x14]
  exchange _ := ⟨true, some (.ok (.ok ([⟨.of 2 6 0, 0x01⟩, ⟨.of 1 6 0, 0x87⟩,
    ⟨.of 1 6 0, 0⟩].map .ok)))⟩

theorem responses_settle_grudging :
    invoke grudging 1 1 6 "toggle" .null none =
        .error (commandFailed numericCodes "toggle" 0x9c) ∧
      writeAttribute elementwise 1 1 6 0 .null = .ok 0x87 := by
  refine ⟨?_, ?_⟩
  · refine (responses_settle.1 grudging 1 1 6 "toggle" .null none onOff _ [0x15, 0x18] _ _ rfl rfl rfl
      rfl ?_).trans rfl
    intro data hdata
    simp only [Batch.responses, List.flatMap_cons, List.flatMap_nil, Option.join_some,
      Option.join_none, Option.getD_some, Option.getD_none, List.append_nil, List.nil_append,
      List.cons_append, List.mem_cons, List.not_mem_nil, CmdResp.cmd.injEq, reduceCtorEq,
      or_false, false_or] at hdata
    rcases hdata with rfl | rfl <;> rfl
  · exact (responses_settle.2 elementwise 1 1 6 0 .null [0x14] _ rfl rfl).trans rfl

end

end MatterRsServer.Stack.Im
