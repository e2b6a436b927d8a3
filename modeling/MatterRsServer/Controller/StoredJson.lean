import MatterRsServer.Lib.Base64
import MatterRsServer.Lib.Result
import MatterRsServer.Controller.NodeManager

/-!
# The stored documents

`crates/controller/src/storage.rs`: `server.json`, `config.json` and `nodes/<id>.json` as the
values that `serde_json` writes and reads. What was written is read back as it was.
-/
namespace MatterRsServer.Controller
open Lib Wire

abbrev Bytes := List UInt8

/-- `IDENTITY_VERSION`. -/
def identityVersion : UInt32 := 1

/-- `server.json`. -/
structure ServerIdentity where
  version : UInt32
  fabricId : UInt64
  vendorId : UInt16
  controllerNodeId : NodeId
  compressedFabricId : UInt64
  caPrivateKey : Bytes
  rcacTlv : Bytes
  controllerPrivateKey : Bytes
  controllerNocTlv : Bytes
  ipk : Bytes

/-- The fields of a derived `Deserialize`: by name from an object, by position from an array. -/
def readFields (names : List String) : Json → Option (String → Option Json)
  | .obj members => some fun name => Entries.get? name members
  | .arr xs => if xs.length ≤ names.length then some fun name => (names.zip xs).lookup name else none
  | _ => none

def readU64 (v : Json) : Option UInt64 := v.asU64.map UInt64.ofNat

def readU32 (v : Json) : Option UInt32 :=
  v.asU64.bind fun n => if n < 2 ^ 32 then some (UInt32.ofNat n) else none

def readU16 (v : Json) : Option UInt16 :=
  v.asU64.bind fun n => if n < 2 ^ 16 then some (UInt16.ofNat n) else none

def readU8 (v : Json) : Option UInt8 :=
  v.asU64.bind fun n => if n < 2 ^ 8 then some (UInt8.ofNat n) else none

/-- `b64::serialize`. -/
def writeBytes (bytes : Bytes) : Json := .str (.ofList (Base64.encode bytes))

/-- `b64::deserialize`. -/
def readBytes (v : Json) : Option Bytes := v.asStr.bind fun s => Base64.decode s.toList

def readStrings (v : Json) : Option (List String) := v.asArray.bind fun xs => xs.mapM Json.asStr

/-- A map whose values are read by `f`. -/
def readMap {α : Type} (f : Json → Option α) : Json → Option (OrdMap String α)
  | .obj members => (members.mapM fun e => (f e.2).map fun v => (e.1, v)).map OrdMap.ofList
  | _ => none

/-- `#[serde(default)]`: an absent field has the default, one that is there must be read. -/
def readDefault {α : Type} (default : α) (f : Json → Option α) : Option Json → Option α
  | some v => f v
  | none => some default

@[simp] theorem readU64_ofU64 (n : UInt64) : readU64 (.ofU64 n) = some n := by
  simp [readU64, Json.ofU64, Json.asU64]

@[simp] theorem readU32_ofU64 (n : UInt32) : readU32 (.ofU64 n.toUInt64) = some n := by
  simpa [readU32, Json.ofU64, Json.asU64] using n.toNat_lt

@[simp] theorem readU16_ofU64 (n : UInt16) : readU16 (.ofU64 n.toUInt64) = some n := by
  simpa [readU16, Json.ofU64, Json.asU64] using n.toNat_lt

@[simp] theorem readU8_ofU64 (n : UInt8) : readU8 (.ofU64 n.toUInt64) = some n := by
  simpa [readU8, Json.ofU64, Json.asU64] using n.toNat_lt

@[simp] theorem readBytes_writeBytes (bytes : Bytes) : readBytes (writeBytes bytes) = some bytes := by
  simp [readBytes, writeBytes, Json.asStr, Base64.decode_encode]

/-- Members with distinct names are found under their names. -/
theorem exists_ofMembers (members : List (String × Json)) (h : (members.map Prod.fst).Nodup) :
    ∃ all, Json.ofMembers members = .obj all ∧ ∀ e ∈ members, Entries.get? e.1 all = some e.2 :=
  ⟨_, rfl, fun _ he => Entries.get?_insertAll_of_mem h he []⟩

theorem mapM_map_some {α β γ : Type} {f : β → Option γ} {g : α → β} {h : α → γ}
    (hf : ∀ a, f (g a) = some (h a)) (l : List α) : (l.map g).mapM f = some (l.map h) := by
  rw [Result.mapM_eq_some_iff_map, List.map_map, List.map_map]
  exact List.map_congr_left fun a _ => hf a

@[simp] theorem readStrings_arr (l : List String) : readStrings (.arr (l.map .str)) = some l := by
  have hread := mapM_map_some (f := Json.asStr) (g := Json.str) (h := id) (fun _ => rfl) l
  rwa [List.map_id] at hread

theorem readMap_ofMap {α : Type} {f : Json → Option α} {g : α → Json} (hf : ∀ a, f (g a) = some a)
    (m : OrdMap String α) : readMap f (.ofMap (m.mapVal g)) = some m := by
  have hentries : ((m.mapVal g).entries.mapM fun e => (f e.2).map fun v => (e.1, v)) =
      some m.entries := by
    have hread := mapM_map_some (f := fun e : String × Json => (f e.2).map fun v => (e.1, v))
      (g := fun e : String × α => (e.1, g e.2)) (h := id) (by simp [hf]) m.entries
    rwa [List.map_id] at hread
  simp [readMap, Json.ofMap, hentries, OrdMap.ofList_entries]

@[simp] theorem readMap_some_ofMap (m : OrdMap String Json) : readMap some (.ofMap m) = some m := by
  have hid : m.mapVal id = m := OrdMap.ext fun k => by simp [OrdMap.get?_mapVal]
  have hread := readMap_ofMap (f := some) (g := id) (fun _ => rfl) m
  rwa [hid] at hread

namespace ServerIdentity

def fieldNames : List String :=
  ["version", "fabric_id", "vendor_id", "controller_node_id", "compressed_fabric_id",
    "ca_private_key", "rcac_tlv", "controller_private_key", "controller_noc_tlv", "ipk"]

def members (id : ServerIdentity) : List (String × Json) :=
  [("version", .ofU64 id.version.toUInt64), ("fabric_id", .ofU64 id.fabricId),
    ("vendor_id", .ofU64 id.vendorId.toUInt64), ("controller_node_id", .ofU64 id.controllerNodeId),
    ("compressed_fabric_id", .ofU64 id.compressedFabricId),
    ("ca_private_key", writeBytes id.caPrivateKey), ("rcac_tlv", writeBytes id.rcacTlv),
    ("controller_private_key", writeBytes id.controllerPrivateKey),
    ("controller_noc_tlv", writeBytes id.controllerNocTlv), ("ipk", writeBytes id.ipk)]

def toJson (id : ServerIdentity) : Json := .ofMembers id.members

/-- Only `version` has a default. -/
def fromJson (v : Json) : Option ServerIdentity := do
  let field ← readFields fieldNames v
  return {
    version := ← readDefault identityVersion readU32 (field "version")
    fabricId := ← (field "fabric_id").bind readU64
    vendorId := ← (field "vendor_id").bind readU16
    controllerNodeId := ← (field "controller_node_id").bind readU64
    compressedFabricId := ← (field "compressed_fabric_id").bind readU64
    caPrivateKey := ← (field "ca_private_key").bind readBytes
    rcacTlv := ← (field "rcac_tlv").bind readBytes
    controllerPrivateKey := ← (field "controller_private_key").bind readBytes
    controllerNocTlv := ← (field "controller_noc_tlv").bind readBytes
    ipk := ← (field "ipk").bind readBytes }

theorem fromJson_toJson (id : ServerIdentity) : fromJson id.toJson = some id := by
  obtain ⟨all, hall, hget⟩ := exists_ofMembers id.members (by simp [members])
  simp only [members, List.forall_mem_cons] at hget
  obtain ⟨h1, h2, h3, h4, h5, h6, h7, h8, h9, h10, -⟩ := hget
  simp [fromJson, toJson, hall, readFields, readDefault, h1, h2, h3, h4, h5, h6, h7, h8, h9, h10]

end ServerIdentity

namespace WifiCredential

def toJson (c : WifiCredential) : Json :=
  .ofMembers [("ssid", .str c.ssid), ("password", .str c.password)]

def fromJson (v : Json) : Option WifiCredential := do
  let field ← readFields ["ssid", "password"] v
  return {
    ssid := ← (field "ssid").bind Json.asStr
    password := ← (field "password").bind Json.asStr }

theorem fromJson_toJson (c : WifiCredential) : fromJson c.toJson = some c := by
  simp [fromJson, toJson, Json.ofMembers, readFields, Entries.insertAll, Entries.get?_insert,
    Json.asStr]

end WifiCredential

namespace ConfigData

/-- `ConfigData::default`. -/
def default : ConfigData := ⟨"HomeAssistant", 1, ∅, ∅⟩

def fieldNames : List String :=
  ["fabric_label", "next_node_id", "wifi_credentials", "thread_datasets"]

def toJson (c : ConfigData) : Json :=
  .ofMembers [("fabric_label", .str c.fabricLabel), ("next_node_id", .ofU64 c.nextNodeId),
    ("wifi_credentials", .ofMap (c.wifiCredentials.mapVal WifiCredential.toJson)),
    ("thread_datasets", .ofMap (c.threadDatasets.mapVal .str))]

def fromJson (v : Json) : Option ConfigData := do
  let field ← readFields fieldNames v
  return {
    fabricLabel := ← readDefault default.fabricLabel Json.asStr (field "fabric_label")
    nextNodeId := ← readDefault default.nextNodeId readU64 (field "next_node_id")
    wifiCredentials := ← readDefault ∅ (readMap WifiCredential.fromJson) (field "wifi_credentials")
    threadDatasets := ← readDefault ∅ (readMap Json.asStr) (field "thread_datasets") }

theorem fromJson_toJson (c : ConfigData) : fromJson c.toJson = some c := by
  have hwifi := readMap_ofMap WifiCredential.fromJson_toJson c.wifiCredentials
  have hthread := readMap_ofMap (f := Json.asStr) (g := .str) (fun _ => rfl) c.threadDatasets
  have hread : ∀ s, Json.asStr (.str s) = some s := fun _ => rfl
  obtain ⟨all, hall, hget⟩ := exists_ofMembers
    [("fabric_label", .str c.fabricLabel), ("next_node_id", .ofU64 c.nextNodeId),
      ("wifi_credentials", .ofMap (c.wifiCredentials.mapVal WifiCredential.toJson)),
      ("thread_datasets", .ofMap (c.threadDatasets.mapVal .str))] (by simp)
  simp only [List.forall_mem_cons] at hget
  obtain ⟨h1, h2, h3, h4, -⟩ := hget
  simp only [fromJson, toJson, hall, readFields, readDefault, h1, h2, h3, h4, hwifi, hthread, hread,
    readU64_ofU64, Option.bind_eq_bind, Option.bind_some, Option.pure_def]

end ConfigData

namespace NodeRecord

def fieldNames : List String :=
  ["node_id", "date_commissioned", "last_interview", "device_fabric_index", "addresses",
    "attributes"]

def toJson (r : NodeRecord) : Json :=
  .ofMembers [("node_id", .ofU64 r.nodeId), ("date_commissioned", .str r.dateCommissioned),
    ("last_interview", .str r.lastInterview),
    ("device_fabric_index", .ofU64 r.deviceFabricIndex.toUInt64),
    ("addresses", .arr (r.addresses.map .str)), ("attributes", .ofMap r.attributes)]

def fromJson (v : Json) : Option NodeRecord := do
  let field ← readFields fieldNames v
  return {
    nodeId := ← (field "node_id").bind readU64
    dateCommissioned := ← (field "date_commissioned").bind Json.asStr
    lastInterview := ← (field "last_interview").bind Json.asStr
    deviceFabricIndex := ← (field "device_fabric_index").bind readU8
    addresses := ← readDefault [] readStrings (field "addresses")
    attributes := ← readDefault ∅ (readMap some) (field "attributes") }

theorem fromJson_toJson (r : NodeRecord) : fromJson r.toJson = some r := by
  simp [fromJson, toJson, Json.ofMembers, readFields, Entries.insertAll, Entries.get?_insert,
    readDefault, Json.asStr]

end NodeRecord

end MatterRsServer.Controller
