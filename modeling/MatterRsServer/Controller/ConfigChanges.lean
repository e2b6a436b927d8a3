import MatterRsServer.Controller.Commands

/-!
# Changes of the configuration

The mutations that the commands other than `do_commission` pass to `update_config`
(`commands/fabrics.rs`, `commands/credentials.rs`). None of them reads the registry
or touches `next_node_id`.
-/
namespace MatterRsServer.Controller
open Lib

inductive ConfigChange where
  | setFabricLabel (label : String)
  | setWifi (id : String) (credential : WifiCredential)
  | setThread (id : String) (dataset : String)
  | removeWifi (id : String)
  | removeThread (id : String)

/-- The closure given to `update_config`. -/
def ConfigChange.apply (cfg : ConfigData) : ConfigChange → ConfigData
  | .setFabricLabel label => { cfg with fabricLabel := label }
  | .setWifi id credential => { cfg with wifiCredentials := cfg.wifiCredentials.insert id credential }
  | .setThread id dataset => { cfg with threadDatasets := cfg.threadDatasets.insert id dataset }
  | .removeWifi id => { cfg with wifiCredentials := cfg.wifiCredentials.erase id }
  | .removeThread id => { cfg with threadDatasets := cfg.threadDatasets.erase id }

@[simp] theorem ConfigChange.nextNodeId_apply (change : ConfigChange) (cfg : ConfigData) :
    (change.apply cfg).nextNodeId = cfg.nextNodeId := by
  cases change <;> rfl

/-- `persist_err`. -/
def persistErr (e : String) : CommandError := ⟨.unknownError, s!"could not persist config.json: {e}"⟩

/-- A command from its `update_config` on; `persisted` is how the save ends. The label
command drops the error, the credential commands reply it. -/
def changeConfig (change : ConfigChange) (persisted : Except String Unit)
    (result : Except String Unit → Except CommandError Wire.Json) : Task :=
  updateConfig (fun cfg k => k () (change.apply cfg)) fun _ => reply (result persisted)

end MatterRsServer.Controller
