import MatterRsServer.Controller.NodeFiles
import MatterRsServer.Controller.Storage

/-!
# What a restart finds

The storage directory as a store of one identity, one configuration and one record for each node.
The server calls `Storage` any number of times, any file operation of a call may fail, and the
process stops: the next boot finds what the calls that took effect have left.
-/
namespace MatterRsServer.Controller
open Lib Wire

/-- One call on the storage. -/
inductive StorageCall where
  | saveNode (record : NodeRecord)
  | deleteNode (nodeId : NodeId)
  | saveConfig (cfg : ConfigData)
  | createIdentity (id : ServerIdentity)
  | saveIdentity (id : ServerIdentity)

namespace Disk

/-- `Storage::delete_node`. `Path::exists` answers no where it cannot look. -/
def deleteNode (nodeId : NodeId) : FileOp := fun s =>
  match fileOp id s with
  | (.error _, s') => (.ok (), s')
  | (.ok _, s') =>
    if s'.state.dir.nodes.contains (nodeFileName nodeId) then
      fileOp (fun dir => { dir with nodes := dir.nodes.erase (nodeFileName nodeId) }) s'
    else (.ok (), s')

end Disk

/-- The directory as the boot reads it. -/
structure Stored where
  identity : Except String (Option ServerIdentity)
  config : ConfigData
  nodes : NodesDir

/-- Every node file that can be read is the own file of its record, and the rest is passed over. -/
structure StorageDir.Holds (dir : StorageDir) (stored : Stored) : Prop where
  identity : dir.loadIdentity = stored.identity
  config : dir.loadConfig = stored.config
  own : ∀ {name : String} {text : FileText} {record : NodeRecord}, dir.nodes.get? name = some text →
    hasJsonExtension name = true → text.bind NodeRecord.fromJson = some record →
      name = nodeFileName record.nodeId
  file : ∀ id : NodeId, stored.nodes.get? id =
    (dir.nodes.get? (nodeFileName id)).bind fun text => text.bind NodeRecord.fromJson

namespace StorageCall

def perform : StorageCall → Disk.FileOp
  | saveNode record => Disk.saveNode record
  | deleteNode nodeId => Disk.deleteNode nodeId
  | saveConfig cfg => Disk.saveConfig cfg
  | createIdentity id => Disk.createIdentity id
  | saveIdentity id => Disk.saveIdentity id

/-- The call returned `Ok`, and was not the removal of a file that it could not look for. -/
def tookEffect (call : StorageCall) (s : Faulty Disk) : Bool :=
  (call.perform s).1.toBool && match call with
    | deleteNode _ => (s.faults s.performed).isNone
    | _ => true

def apply (stored : Stored) : StorageCall → Stored
  | saveNode record => { stored with nodes := Controller.saveNode stored.nodes record }
  | deleteNode nodeId => { stored with nodes := Controller.deleteNode stored.nodes nodeId }
  | saveConfig cfg => { stored with config := cfg }
  | createIdentity id | saveIdentity id => { stored with identity := .ok (some id) }

/-- Some calls, one after the other; the server logs what fails and goes on. -/
def performAll (calls : List StorageCall) (s : Faulty Disk) : Faulty Disk :=
  calls.foldl (fun s call => (call.perform s).2) s

/-- Those of them that took effect. -/
def effective : List StorageCall → Faulty Disk → List StorageCall
  | [], _ => []
  | call :: calls, s =>
    let rest := effective calls (call.perform s).2
    if call.tookEffect s then call :: rest else rest

end StorageCall

namespace StorageDir.Holds

variable {stored : Stored}

theorem of_same {d t : Disk} (h : d.dir.Holds stored) (hsame : d.SameFiles t) : t.dir.Holds stored where
  identity := (Disk.SameFiles.loadIdentity hsame).trans h.identity
  config := by rw [StorageDir.loadConfig, hsame.config]; exact h.config
  own hget := h.own (hsame.nodes ▸ hget)
  file id := by rw [hsame.nodes]; exact h.file id

end StorageDir.Holds

namespace Disk

end Disk

namespace StorageCall

variable {stored : Stored} {s : Faulty Disk}

/-- What a call leaves. -/
def after (call : StorageCall) (s : Faulty Disk) (stored : Stored) : Stored :=
  if call.tookEffect s then call.apply stored else stored

end StorageCall

namespace StorageDir

namespace Holds

variable {dir : StorageDir} {stored : Stored} {readable : Nat → Bool}

end Holds

end StorageDir

namespace Registry

end Registry

section UnseenFile

end UnseenFile

end MatterRsServer.Controller
