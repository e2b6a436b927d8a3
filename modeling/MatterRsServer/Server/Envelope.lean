import MatterRsServer.Controller.ServerInfo

/-!
# Frames of the WebSocket

`crates/wire/src/envelope.rs`, `error.rs` and `server_info.rs`: a request as `serde_json` reads
it, the answers and events as it writes them, and what a client makes of a frame. No frame can
be taken for one of another kind, and an answer can be told from its frame.
-/
namespace MatterRsServer.Server
open Lib Wire Controller

/-- `ServerErrorCode::code`. -/
def errorCode : ServerErrorCode → UInt16
  | .unknownError => 0
  | .nodeCommissionFailed => 1
  | .nodeInterviewFailed => 2
  | .nodeNotReady => 3
  | .nodeNotResolving => 4
  | .nodeNotExists => 5
  | .versionMismatch => 6
  | .sdkStackError => 7
  | .invalidArguments => 8
  | .invalidCommand => 9
  | .updateCheckError => 10
  | .updateError => 11
  | .icdMultiAdmin => 100
  | .otaUploadError => 101

/-- The error that a client takes a code for. -/
def errorOfCode : UInt16 → Option ServerErrorCode
  | 0 => some .unknownError
  | 1 => some .nodeCommissionFailed
  | 2 => some .nodeInterviewFailed
  | 3 => some .nodeNotReady
  | 4 => some .nodeNotResolving
  | 5 => some .nodeNotExists
  | 6 => some .versionMismatch
  | 7 => some .sdkStackError
  | 8 => some .invalidArguments
  | 9 => some .invalidCommand
  | 10 => some .updateCheckError
  | 11 => some .updateError
  | 100 => some .icdMultiAdmin
  | 101 => some .otaUploadError
  | _ => none

@[simp] theorem errorOfCode_errorCode (code : ServerErrorCode) :
    errorOfCode (errorCode code) = some code := by
  cases code <;> rfl

/-- The text of an inbound frame, as the value that `serde_json` makes of it; `none` when it
makes none, or when a field of the request comes twice. -/
abbrev FrameText := Option Json

structure CommandMessage where
  messageId : String
  command : String
  args : Args

/-- `null_as_empty_map`. -/
def nullAsEmptyMap : Json → Option Args
  | .null => some ∅
  | .obj members => some (.ofList members)
  | _ => none

def CommandMessage.fromJson (v : Json) : Option CommandMessage := do
  let field ← readFields ["message_id", "command", "args"] v
  return {
    messageId := ← (field "message_id").bind Json.asStr
    command := ← (field "command").bind Json.asStr
    args := ← readDefault ∅ nullAsEmptyMap (field "args") }

/-- An answer: `SuccessResult` or `ErrorResult`. -/
structure Reply where
  messageId : String
  outcome : Except CommandError Json

def Reply.toJson (r : Reply) : Json :=
  match r.outcome with
  | .ok result => .ofMembers [("message_id", .str r.messageId), ("result", result)]
  | .error e => .ofMembers [("message_id", .str r.messageId),
      ("error_code", .ofU64 (errorCode e.code).toUInt64), ("details", .str e.details)]

/-- `EventMessage`, by its name. -/
structure EventFrame where
  event : String
  data : Json

def EventFrame.toJson (e : EventFrame) : Json := .ofMembers [("event", .str e.event), ("data", e.data)]

def serverShutdown : EventFrame := ⟨"server_shutdown", .null⟩

/-- An optional field is left out when there is none. -/
def optionalField {α : Type} (name : String) (write : α → Json) (value : Option α) :
    List (String × Json) :=
  (value.map fun a => (name, write a)).toList

/-- The info is sent without an envelope. -/
def infoFrame (info : ServerInfoMessage) : Json :=
  .ofMembers ([("fabric_id", .ofU64 info.fabricId),
      ("compressed_fabric_id", .ofU64 info.compressedFabricId)] ++
    optionalField "fabric_index" (fun n : UInt8 => .ofU64 n.toUInt64) info.fabricIndex ++
    [("schema_version", .ofU64 info.schemaVersion.toUInt64),
      ("min_supported_schema_version", .ofU64 info.minSupportedSchemaVersion.toUInt64),
      ("sdk_version", .str info.sdkVersion),
      ("wifi_credentials_set", .bool info.wifiCredentialsSet)] ++
    optionalField "wifi_ssid" .str info.wifiSsid ++
    [("thread_credentials_set", .bool info.threadCredentialsSet),
      ("bluetooth_enabled", .bool info.bluetoothEnabled)] ++
    optionalField "ble_proxy_enabled" .bool info.bleProxyEnabled ++
    optionalField "controller_node_id" .ofU64 info.controllerNodeId)

/-- The error a client reads from a frame. -/
def readError (frame : Json) : Option CommandError := do
  let code ← (frame.get "error_code").bind readU16
  return ⟨← errorOfCode code, ← (frame.get "details").bind Json.asStr⟩

/-- An answer is a frame with a `message_id`. -/
def readReply (frame : Json) : Option Reply := do
  let messageId ← (frame.get "message_id").bind Json.asStr
  match frame.get "result" with
  | some result => some ⟨messageId, .ok result⟩
  | none => (readError frame).map fun e => ⟨messageId, .error e⟩

/-- An event is a frame with an `event`. -/
def readEvent (frame : Json) : Option EventFrame := do
  return ⟨← (frame.get "event").bind Json.asStr, ← frame.get "data"⟩

theorem get_ofMembers_of_mem {members : List (String × Json)} (h : (members.map Prod.fst).Nodup)
    {e : String × Json} (he : e ∈ members) : (Json.ofMembers members).get e.1 = some e.2 :=
  Entries.get?_insertAll_of_mem h he []

theorem get_ofMembers_of_not_mem {members : List (String × Json)} {key : String}
    (h : ∀ e ∈ members, e.1 ≠ key) : (Json.ofMembers members).get key = none :=
  Entries.get?_insertAll_of_not_mem h []

/-- A client reads the answer that was written. -/
@[simp] theorem readReply_toJson (r : Reply) : readReply r.toJson = some r := by
  obtain ⟨messageId, e | result⟩ := r
  · simp [Reply.toJson, readReply, readError, Json.ofMembers, Json.get, Entries.insertAll,
      Entries.get?_insert, Entries.get?, Json.asStr]
  · simp [Reply.toJson, readReply, Json.ofMembers, Json.get, Entries.insertAll,
      Entries.get?_insert, Json.asStr]

@[simp] theorem readEvent_toJson (e : EventFrame) : readEvent e.toJson = some e := by
  simp [EventFrame.toJson, readEvent, Json.ofMembers, Json.get, Entries.insertAll,
    Entries.get?_insert, Json.asStr]

@[simp] theorem readReply_event (e : EventFrame) : readReply e.toJson = none := by
  simp [EventFrame.toJson, readReply, Json.ofMembers, Json.get, Entries.insertAll,
    Entries.get?_insert, Entries.get?]

@[simp] theorem readEvent_reply (r : Reply) : readEvent r.toJson = none := by
  obtain ⟨messageId, e | result⟩ := r
  · simp [Reply.toJson, readEvent, Json.ofMembers, Json.get, Entries.insertAll,
      Entries.get?_insert, Entries.get?]
  · simp [Reply.toJson, readEvent, Json.ofMembers, Json.get, Entries.insertAll,
      Entries.get?_insert, Entries.get?]

theorem fst_of_mem_optionalField {α : Type} {name : String} {write : α → Json} {value : Option α}
    {e : String × Json} (h : e ∈ optionalField name write value) : e.1 = name := by
  obtain ⟨a, -, heq⟩ := Option.map_eq_some_iff.mp (Option.mem_toList.mp h)
  rw [← heq]

theorem infoFrame_get {info : ServerInfoMessage} {key : String}
    (h : key ∉ ["fabric_id", "compressed_fabric_id", "fabric_index", "schema_version",
      "min_supported_schema_version", "sdk_version", "wifi_credentials_set", "wifi_ssid",
      "thread_credentials_set", "bluetooth_enabled", "ble_proxy_enabled", "controller_node_id"]) :
    (infoFrame info).get key = none := by
  simp only [List.mem_cons, List.not_mem_nil, or_false, not_or] at h
  apply get_ofMembers_of_not_mem
  intro e he heq
  simp only [List.mem_append, List.mem_cons, List.not_mem_nil, or_false] at he
  rcases he with ((((((rfl | rfl) | he) | (rfl | rfl | rfl | rfl)) | he) | (rfl | rfl)) | he) | he
  all_goals try (have hname := fst_of_mem_optionalField he; rw [hname] at heq)
  all_goals subst heq; simp at h

@[simp] theorem readReply_info (info : ServerInfoMessage) : readReply (infoFrame info) = none := by
  have hget : (infoFrame info).get "message_id" = none := infoFrame_get (by decide)
  simp [readReply, hget]

@[simp] theorem readEvent_info (info : ServerInfoMessage) : readEvent (infoFrame info) = none := by
  have hget : (infoFrame info).get "event" = none := infoFrame_get (by decide)
  simp [readEvent, hget]

end MatterRsServer.Server
