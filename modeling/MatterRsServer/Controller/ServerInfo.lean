import MatterRsServer.Controller.Credentials
import MatterRsServer.Controller.StoredJson

/-!
# Announcements of the server info

The credential commands with saves that may fail, and `server_info_updated`: its payload is built
under no lock and sent later, and a command whose save has failed returns before it announces
anything, although its change has been made. `update_config` is one step.
-/
namespace MatterRsServer.Controller
open Lib Wire

/-- `SCHEMA_VERSION`. -/
def schemaVersion : UInt8 := 13

/-- `MIN_SUPPORTED_SCHEMA_VERSION`. -/
def minSupportedSchemaVersion : UInt8 := 11

structure ServerInfoMessage where
  fabricId : UInt64
  compressedFabricId : UInt64
  fabricIndex : Option UInt8
  schemaVersion : UInt8
  minSupportedSchemaVersion : UInt8
  sdkVersion : String
  wifiCredentialsSet : Bool
  wifiSsid : Option String
  threadCredentialsSet : Bool
  bluetoothEnabled : Bool
  bleProxyEnabled : Option Bool
  controllerNodeId : Option NodeId
  deriving DecidableEq

/-- What the controller is started with. -/
structure ControllerSetup where
  identity : ServerIdentity
  fabricIndex : UInt8
  sdkVersion : String

/-- `build_server_info`, of one `config_snapshot`. -/
def buildServerInfo (setup : ControllerSetup) (cfg : ConfigData) : ServerInfoMessage :=
  let wifi := (cfg.wifiCredentials.get? "default").filter fun c => c.password ≠ ""
  { fabricId := setup.identity.fabricId
    compressedFabricId := setup.identity.compressedFabricId
    fabricIndex := some setup.fabricIndex
    schemaVersion := schemaVersion
    minSupportedSchemaVersion := minSupportedSchemaVersion
    sdkVersion := setup.sdkVersion
    wifiCredentialsSet := wifi.isSome
    wifiSsid := wifi.map fun c => c.ssid
    threadCredentialsSet := cfg.threadDatasets.contains "default"
    bluetoothEnabled := false
    bleProxyEnabled := some false
    controllerNodeId := some setup.identity.controllerNodeId }

/-- Where a credential command is: `persisted` is after `update_config`, when the save was a
success. -/
inductive AnnounceStage where
  | waiting
  | checked (change : ConfigChange)
  | persisted
  | built (info : ServerInfoMessage)
  | replying (result : Except CommandError Json)
  | finished

inductive AnnounceStep where
  | check
  | update (saved : Except String Unit)
  | build
  | send
  | reply

/-- `sent` is the broadcast channel. `changed` is history only: whether a command has changed
what is reported. -/
structure Announcements (ι : Type) where
  config : ConfigData
  sent : List ServerInfoMessage
  stage : ι → AnnounceStage
  replies : List (ι × Except CommandError Json)
  changed : Bool

/-- The command has not begun, or is over. -/
def AnnounceStage.atRest : AnnounceStage → Bool
  | .waiting | .finished => true
  | _ => false

namespace Announcements

variable {ι : Type} [DecidableEq ι]

def setStage (s : Announcements ι) (i : ι) (g : AnnounceStage) : Announcements ι :=
  { s with stage := Function.update s.stage i g }

/-- The change is made in memory, whatever becomes of the save. -/
def applyChange (setup : ControllerSetup) (s : Announcements ι) (change : ConfigChange) :
    Announcements ι :=
  { s with
    config := change.apply s.config
    changed := s.changed ||
      buildServerInfo setup (change.apply s.config) ≠ buildServerInfo setup s.config }

/-- One step of the credential command `i`. -/
def step (setup : ControllerSetup) (commands : ι → CredentialCommand) (s : Announcements ι) :
    ι × AnnounceStep → Option (Announcements ι)
  | (i, a) =>
    match s.stage i, a with
    | .waiting, .check =>
      match (commands i).outcome s.config with
      | .error e => some (s.setStage i (.replying (.error e)))
      | .ok change => some (s.setStage i (.checked change))
    | .checked change, .update saved =>
      match saved with
      | .ok () => some ((s.applyChange setup change).setStage i .persisted)
      | .error e => some ((s.applyChange setup change).setStage i (.replying (.error (persistErr e))))
    | .persisted, .build => some (s.setStage i (.built (buildServerInfo setup s.config)))
    | .built info, .send =>
      some ({ s with sent := s.sent ++ [info] }.setStage i (.replying (.ok (.obj []))))
    | .replying result, .reply =>
      some ({ s with replies := s.replies ++ [(i, result)] }.setStage i .finished)
    | _, _ => none

/-- The command is yet to announce what is reported now, or something later. -/
def Committed (setup : ControllerSetup) (s : Announcements ι) (i : ι) : Prop :=
  s.stage i = .persisted ∨ s.stage i = .built (buildServerInfo setup s.config)

/-- A change that is not saved changes nothing that is reported, or was announced before, or is
still to be announced by another command; and a payload that is out of date is sent only while
another command is committed. -/
def Superseded (setup : ControllerSetup) (s : Announcements ι) : ι × AnnounceStep → Prop
  | (i, .update (.error _)) => ∀ change, s.stage i = .checked change →
      buildServerInfo setup (change.apply s.config) = buildServerInfo setup s.config ∨
      s.sent.getLast? = some (buildServerInfo setup (change.apply s.config)) ∨
      ∃ j, s.stage j = .persisted ∨
        s.stage j = .built (buildServerInfo setup (change.apply s.config))
  | (i, .send) => ∀ info, s.stage i = .built info →
      info = buildServerInfo setup s.config ∨ ∃ j, j ≠ i ∧ s.Committed setup j
  | _ => True

/-- What was announced last is what is reported, or a command is committed to announce it. -/
def Announced (setup : ControllerSetup) (s : Announcements ι) : Prop :=
  s.changed = true → s.sent.getLast? = some (buildServerInfo setup s.config) ∨
    ∃ i, s.Committed setup i

/-- No command has begun. -/
structure Initial (s : Announcements ι) : Prop where
  stage : ∀ i, s.stage i = .waiting
  changed : s.changed = false

variable {setup : ControllerSetup} {commands : ι → CredentialCommand} {s s' : Announcements ι}
  {i : ι} {a : AnnounceStep}

/-- A command is committed as it was while another one moves on and nothing changes. -/
theorem Committed.move {j : ι} {g : AnnounceStage} (h : s.Committed setup j) (hj : j ≠ i)
    (hstage : s'.stage = Function.update s.stage i g)
    (hinfo : buildServerInfo setup s'.config = buildServerInfo setup s.config) :
    s'.Committed setup j := by
  rw [Committed, hstage, Function.update_of_ne hj, hinfo]
  exact h

/-- A step that changes nothing that is reported, of a command that is not committed. -/
theorem Announced.quiet {g : AnnounceStage} (h : s.Announced setup)
    (hfree : ¬ s.Committed setup i) (hstage : s'.stage = Function.update s.stage i g)
    (hinfo : buildServerInfo setup s'.config = buildServerInfo setup s.config)
    (hsent : s'.sent = s.sent) (hchanged : s'.changed = true → s.changed = true) :
    s'.Announced setup := by
  intro hnow
  rw [hsent, hinfo]
  obtain hlast | ⟨j, hj⟩ := h (hchanged hnow)
  · exact .inl hlast
  · refine .inr ⟨j, hj.move ?_ hstage hinfo⟩
    rintro rfl
    exact hfree hj

theorem Announced.update {change : ConfigChange} (h : s.Announced setup)
    (hstage : s.stage i = .checked change) (g : AnnounceStage)
    (hcond : buildServerInfo setup (change.apply s.config) = buildServerInfo setup s.config ∨
      s.sent.getLast? = some (buildServerInfo setup (change.apply s.config)) ∨
      ∃ j, s.stage j = .persisted ∨
        s.stage j = .built (buildServerInfo setup (change.apply s.config))) :
    ((s.applyChange setup change).setStage i g).Announced setup := by
  obtain hsame | hlast | ⟨j, hj⟩ := hcond
  · refine h.quiet (i := i) ?_ rfl hsame rfl ?_
    · simp [Committed, hstage]
    · simp [applyChange, setStage, hsame]
  · exact fun _ => .inl hlast
  · have hji : j ≠ i := by
      rintro rfl
      simp [hstage] at hj
    refine fun _ => .inr ⟨j, ?_⟩
    simp only [Committed, setStage, applyChange, Function.update_of_ne hji]
    exact hj

theorem Announced.send {info : ServerInfoMessage} (hcond : info = buildServerInfo setup s.config ∨
      ∃ j, j ≠ i ∧ s.Committed setup j) (g : AnnounceStage) :
    ({ s with sent := s.sent ++ [info] }.setStage i g).Announced setup := by
  obtain rfl | ⟨j, hj, hcommitted⟩ := hcond
  · exact fun _ => .inl List.getLast?_concat
  · exact fun _ => .inr ⟨j, hcommitted.move hj rfl rfl⟩

theorem Announced.step (h : s.Announced setup)
    (hstep : Announcements.step setup commands s (i, a) = some s')
    (hcond : s.Superseded setup (i, a)) : s'.Announced setup := by
  simp only [Announcements.step] at hstep
  split at hstep
  next hstage =>
    have hfree : ¬ s.Committed setup i := by simp [Committed, hstage]
    split at hstep
    · cases hstep
      exact h.quiet hfree rfl rfl rfl id
    · cases hstep
      exact h.quiet hfree rfl rfl rfl id
  next change saved hstage =>
    split at hstep
    · cases hstep
      exact fun _ => .inr ⟨i, .inl (Function.update_self ..)⟩
    · cases hstep
      exact h.update hstage _ (hcond change hstage)
  next hstage =>
    cases hstep
    exact fun _ => .inr ⟨i, .inr (Function.update_self ..)⟩
  next info hstage =>
    cases hstep
    exact .send (hcond info hstage) _
  next result hstage =>
    cases hstep
    exact h.quiet (by simp [Committed, hstage]) rfl rfl rfl id
  next => cases hstep

section Stale

end Stale

end Announcements

end MatterRsServer.Controller
