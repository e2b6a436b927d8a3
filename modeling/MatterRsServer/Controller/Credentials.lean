import MatterRsServer.Controller.ConfigChanges
import MatterRsServer.Lib.Outline
import MatterRsServer.Lib.Serial
import MatterRsServer.Lib.Text

/-!
# Credential commands

`commands/credentials.rs`, with `config_snapshot` and the body of `update_config` each
one atomic step and with saves that succeed. A set command checks its id, and a
`set_wifi` without a password looks the old one up, on a snapshot taken before
`update_config`; neither is done again inside it. The commands are atomic in the runs in
which every check would still come out the same when its change is made.
-/
namespace MatterRsServer.Controller
open Lib Wire

/-- The `args` of a command. -/
abbrev Args := OrdMap String Json

def invalid (details : String) : CommandError := ⟨.invalidArguments, details⟩

/-- `opt_str`. -/
def optStr (args : Args) (key : String) : Option String := (args.get? key).bind Json.asStr

/-- `require_str`. -/
def requireStr (args : Args) (key : String) : Except CommandError String :=
  match optStr args key with
  | some s => .ok s
  | none => .error (invalid s!"missing or invalid required argument: {key}")

/-- `validate_credential_id`; `none` is `Ok(())`. -/
def validateCredentialId (id : String) (existing : List String) : Option String :=
  if id = "" then some "invalid-credential-id: id must be non-empty"
  else if Text.eqIgnoreAsciiCase id "delete" ∨ Text.eqIgnoreAsciiCase id "default" ∧ id ≠ "default"
    then some s!"invalid-credential-id: '{id}' is reserved"
  else if id = "default" then none
  else (existing.find? fun other => Text.eqIgnoreAsciiCase other id && other != id).map fun other =>
    s!"invalid-credential-id: '{id}' duplicates existing '{other}'"

/-- `char::is_ascii_hexdigit`. -/
def isAsciiHexdigit (c : Char) : Bool :=
  c.isDigit || ('a' ≤ c && c ≤ 'f') || ('A' ≤ c && c ≤ 'F')

/-- `validate_thread_dataset`; `none` is `Ok(())`. -/
def validateThreadDataset (hex : String) : Option String :=
  if hex = "" ∨ hex.utf8ByteSize % 2 ≠ 0 ∨ ¬ hex.toList.all isAsciiHexdigit then
    some "Invalid Thread operational dataset: must be a non-empty hex string with even length (each byte is two hex characters)"
  else none

/-- What `set_wifi` finds out from its snapshot: its change, or the error. -/
def checkWifi (id ssid credentials : String) (cfg : ConfigData) : Except CommandError ConfigChange :=
  match validateCredentialId id cfg.wifiCredentials.keys with
  | some e => .error (invalid e)
  | none =>
    if credentials = "" then
      match cfg.wifiCredentials.get? id with
      | some existing =>
        if existing.ssid = ssid then .ok (.setWifi id ⟨ssid, existing.password⟩)
        else .error (invalid
          "WiFi password is required (omit it only to keep the existing password for an unchanged SSID)")
      | none => .error (invalid
          "WiFi password is required (omit it only to keep the existing password for an unchanged SSID)")
    else .ok (.setWifi id ⟨ssid, credentials⟩)

/-- What `set_thread` finds out from its snapshot. -/
def checkThread (id dataset : String) (cfg : ConfigData) : Except CommandError ConfigChange :=
  match validateCredentialId id cfg.threadDatasets.keys with
  | some e => .error (invalid e)
  | none => .ok (.setThread id dataset)

/-- What the commands put out: the broadcast, and the reply to the connection of `caller`. -/
inductive CredentialOutput (ι : Type) where
  | serverInfoUpdated
  | reply (caller : ι) (result : Except CommandError Json)

variable {ι : Type}

abbrev CredentialTask (ι : Type) := Prog Memory (CredentialOutput ι)

def replyTo (caller : ι) (result : Except CommandError Json) : CredentialTask ι :=
  .emit (.reply caller result) .done

/-- `update_config` and all that follows it. -/
def applyChange (caller : ι) (change : ConfigChange) : CredentialTask ι :=
  .modify (fun s => { s with config := change.apply s.config }) <|
  .emit .serverInfoUpdated <|
  replyTo caller (.ok (.obj []))

/-- A set command, from its `config_snapshot` on. -/
def checkThenApply (caller : ι) (check : ConfigData → Except CommandError ConfigChange) :
    CredentialTask ι :=
  .read (fun s => s.config) fun cfg =>
    match check cfg with
    | .error e => replyTo caller (.error e)
    | .ok change => applyChange caller change

/-- `set_wifi`. -/
def setWifi (caller : ι) (args : Args) : CredentialTask ι :=
  match requireStr args "ssid" with
  | .error e => replyTo caller (.error e)
  | .ok ssid =>
    let credentials := (optStr args "credentials").getD ""
    let id := (optStr args "id").getD "default"
    checkThenApply caller (checkWifi id ssid credentials)

/-- `set_thread`. -/
def setThread (caller : ι) (args : Args) : CredentialTask ι :=
  match requireStr args "dataset" with
  | .error e => replyTo caller (.error e)
  | .ok dataset =>
    match validateThreadDataset dataset with
    | some e => replyTo caller (.error (invalid e))
    | none => checkThenApply caller (checkThread ((optStr args "id").getD "default") dataset)

/-- `remove_wifi`. -/
def removeWifi (caller : ι) (args : Args) : CredentialTask ι :=
  applyChange caller (.removeWifi ((optStr args "id").getD "default"))

/-- `remove_thread`. -/
def removeThread (caller : ι) (args : Args) : CredentialTask ι :=
  applyChange caller (.removeThread ((optStr args "id").getD "default"))

inductive CredentialCommand where
  | setWifi (args : Args)
  | setThread (args : Args)
  | removeWifi (args : Args)
  | removeThread (args : Args)

namespace CredentialCommand

def task (caller : ι) : CredentialCommand → CredentialTask ι
  | .setWifi args => Controller.setWifi caller args
  | .setThread args => Controller.setThread caller args
  | .removeWifi args => Controller.removeWifi caller args
  | .removeThread args => Controller.removeThread caller args

/-- A `set_wifi` that leaves the password out. -/
def OmitsPassword : CredentialCommand → Prop
  | .setWifi args => (optStr args "credentials").getD "" = ""
  | _ => False

/-- What the command comes to on one configuration. -/
def outcome (cfg : ConfigData) : CredentialCommand → Except CommandError ConfigChange
  | .setWifi args => (requireStr args "ssid").bind fun ssid =>
      checkWifi ((optStr args "id").getD "default") ssid ((optStr args "credentials").getD "") cfg
  | .setThread args => (requireStr args "dataset").bind fun dataset =>
      match validateThreadDataset dataset with
      | some e => .error (invalid e)
      | none => checkThread ((optStr args "id").getD "default") dataset cfg
  | .removeWifi args => .ok (.removeWifi ((optStr args "id").getD "default"))
  | .removeThread args => .ok (.removeThread ((optStr args "id").getD "default"))

/-- The whole command in one step: its reply and the configuration it leaves. -/
def whole (command : CredentialCommand) (cfg : ConfigData) :
    Except CommandError Json × ConfigData :=
  match command.outcome cfg with
  | .error e => (.error e, cfg)
  | .ok change => (.ok (.obj []), change.apply cfg)

end CredentialCommand

/-- A command is refused for its arguments, checks a snapshot or makes its change at once. -/
inductive Shape (caller : ι) (command : CredentialCommand) : CredentialTask ι → Prop where
  | refuse (e : CommandError) (h : ∀ cfg, command.outcome cfg = .error e) :
      Shape caller command (replyTo caller (.error e))
  | check (check : ConfigData → Except CommandError ConfigChange)
      (h : ∀ cfg, command.outcome cfg = check cfg) :
      Shape caller command (checkThenApply caller check)
  | apply (change : ConfigChange) (h : ∀ cfg, command.outcome cfg = .ok change) :
      Shape caller command (applyChange caller change)

theorem CredentialCommand.shape (caller : ι) (command : CredentialCommand) :
    Shape caller command (command.task caller) := by
  cases command with
  | setWifi args =>
    simp only [task, Controller.setWifi]
    cases hssid : requireStr args "ssid" with
    | error e => exact .refuse e fun cfg => by simp [outcome, hssid, Except.bind]
    | ok ssid => exact .check _ fun cfg => by simp [outcome, hssid, Except.bind]
  | setThread args =>
    simp only [task, Controller.setThread]
    cases hdataset : requireStr args "dataset" with
    | error e => exact .refuse e fun cfg => by simp [outcome, hdataset, Except.bind]
    | ok dataset =>
      dsimp only
      cases hvalid : validateThreadDataset dataset with
      | some e => exact .refuse _ fun cfg => by simp [outcome, hdataset, Except.bind, hvalid]
      | none => exact .check _ fun cfg => by simp [outcome, hdataset, Except.bind, hvalid]
  | removeWifi args => exact .apply _ fun _ => rfl
  | removeThread args => exact .apply _ fun _ => rfl

/-- Run with nothing in between, the command is `whole`. -/
theorem exec_task (caller : ι) (command : CredentialCommand) (s : Memory) :
    ((command.task caller).exec s).1.config = (command.whole s.config).2 ∧
      .reply caller (command.whole s.config).1 ∈ ((command.task caller).exec s).2 := by
  have hshape := command.shape caller
  generalize command.task caller = t at hshape
  cases hshape with
  | refuse e h => simp [replyTo, Prog.exec, CredentialCommand.whole, h]
  | check check h =>
    simp only [checkThenApply, Prog.read, Prog.exec, CredentialCommand.whole, h]
    cases check s.config with
    | error e => simp [replyTo, Prog.exec]
    | ok change => simp [applyChange, replyTo, Prog.modify, Prog.exec]
  | apply change h =>
    simp [applyChange, replyTo, Prog.modify, Prog.exec, CredentialCommand.whole, h]

/-- How far a command is: with the change its snapshot allowed, the change made, or its error. -/
inductive CredentialStage where
  | waiting
  | checked (change : ConfigChange)
  | applied
  | announced
  | failed (e : CommandError)
  | finished

namespace CredentialStage

inductive Access (command : CredentialCommand) (s : Memory) :
    CredentialStage → Memory → CredentialStage → Prop where
  | reject (e : CommandError) (h : command.outcome s.config = .error e) :
      Access command s .waiting s (.failed e)
  | check (change : ConfigChange) (h : command.outcome s.config = .ok change) :
      Access command s .waiting s (.checked change)
  | apply (g : CredentialStage) (change : ConfigChange)
      (h : g = .checked change ∨ g = .waiting ∧ ∀ cfg, command.outcome cfg = .ok change) :
      Access command s g { s with config := change.apply s.config } .applied

inductive Output (i : ι) (command : CredentialCommand) :
    CredentialStage → CredentialOutput ι → CredentialStage → Prop where
  | refuse (e : CommandError) (h : ∀ cfg, command.outcome cfg = .error e) :
      Output i command .waiting (.reply i (.error e)) .finished
  | announce : Output i command .applied .serverInfoUpdated .announced
  | accept : Output i command .announced (.reply i (.ok (.obj []))) .finished
  | fail (e : CommandError) : Output i command (.failed e) (.reply i (.error e)) .finished

end CredentialStage

def credentialProtocol (commands : ι → CredentialCommand) (i : ι) :
    Protocol Memory (CredentialOutput ι) CredentialStage where
  left g t := (t = .done → g = .finished) ∧ ∀ change, g = .checked change → t = applyChange i change
  knows _ _ := True
  access g s s' g' := CredentialStage.Access (commands i) s g s' g'
  output := CredentialStage.Output i (commands i)

namespace FollowsCredential

variable {commands : ι → CredentialCommand} {i : ι}

theorem applyChange {g : CredentialStage} {change : ConfigChange}
    (h : g = .checked change ∨ g = .waiting ∧ ∀ cfg, (commands i).outcome cfg = .ok change) :
    (credentialProtocol commands i).Follows (Controller.applyChange i change) g := by
  refine ⟨⟨nofun, fun other hg => ?_⟩, fun _ _ _ => ⟨.applied, .apply g change h, fun _ => ?_⟩⟩
  · rcases h with rfl | ⟨rfl, -⟩
    · injection hg with heq
      rw [heq]
      rfl
    · cases hg
  · refine ⟨⟨nofun, fun _ => nofun⟩, .announced, .announce, ?_⟩
    exact ⟨⟨nofun, fun _ => nofun⟩, .finished, .accept, fun _ => rfl, fun _ => nofun⟩

theorem checkThenApply {check : ConfigData → Except CommandError ConfigChange}
    (h : ∀ cfg, (commands i).outcome cfg = check cfg) :
    (credentialProtocol commands i).Follows (Controller.checkThenApply i check) .waiting := by
  refine ⟨⟨nofun, fun _ => nofun⟩, fun s _ _ => ?_⟩
  dsimp only
  cases hcheck : check s.config with
  | error e =>
    refine ⟨.failed e, .reject e ((h _).trans hcheck), fun _ => ?_⟩
    exact ⟨⟨nofun, fun _ => nofun⟩, .finished, .fail e, fun _ => rfl, fun _ => nofun⟩
  | ok change =>
    exact ⟨.checked change, .check change ((h _).trans hcheck), fun _ => applyChange (Or.inl rfl)⟩

theorem refuse {e : CommandError} (h : ∀ cfg, (commands i).outcome cfg = .error e) :
    (credentialProtocol commands i).Follows (replyTo i (.error e)) .waiting :=
  ⟨⟨nofun, fun _ => nofun⟩, .finished, .refuse e h, fun _ => rfl, fun _ => nofun⟩

theorem task (commands : ι → CredentialCommand) (i : ι) :
    (credentialProtocol commands i).Follows ((commands i).task i) .waiting := by
  have hshape := (commands i).shape i
  generalize (commands i).task i = t at hshape
  cases hshape with
  | refuse e h => exact refuse h
  | check check h => exact checkThenApply h
  | apply change h => exact applyChange (Or.inr ⟨rfl, h⟩)

end FollowsCredential

/-- The commands that have taken effect, in that order. -/
abbrev Commands.after (commands : ι → CredentialCommand) (cfg : ConfigData) (order : List ι) :
    ConfigData := Serial.after (fun i => (commands i).whole) cfg order

abbrev Commands.Ran (commands : ι → CredentialCommand) (cfg : ConfigData) (order : List ι) (i : ι)
    (result : Except CommandError Json) : Prop :=
  Serial.Ran (fun i => (commands i).whole) cfg order i result

/-- `order` holds the commands that have taken effect. -/
def CredentialStage.Holds (commands : ι → CredentialCommand) (initial : ConfigData)
    (log : List (CredentialOutput ι)) (order : List ι) (i : ι) : CredentialStage → Prop
  | .waiting | .checked _ => i ∉ order
  | .applied | .announced => Commands.Ran commands initial order i (.ok (.obj []))
  | .failed e => Commands.Ran commands initial order i (.error e)
  | .finished => ∃ result, Commands.Ran commands initial order i result ∧ .reply i result ∈ log

/-- Others may take effect and reply. -/
theorem CredentialStage.Holds.mono {commands : ι → CredentialCommand} {initial : ConfigData}
    {log log' : List (CredentialOutput ι)} {order order' : List ι} {i : ι} {g : CredentialStage}
    (hfresh : i ∉ order → i ∉ order')
    (hran : ∀ result, Commands.Ran commands initial order i result →
      Commands.Ran commands initial order' i result)
    (hlog : ∀ e ∈ log, e ∈ log') (h : g.Holds commands initial log order i) :
    g.Holds commands initial log' order' i := by
  cases g with
  | waiting => exact hfresh h
  | checked change => exact hfresh h
  | applied => exact hran _ h
  | announced => exact hran _ h
  | failed e => exact hran _ h
  | finished =>
    obtain ⟨result, hresult, hreply⟩ := h
    exact ⟨result, hran result hresult, hlog _ hreply⟩

structure CredentialState (commands : ι → CredentialCommand) (initial : ConfigData)
    (stage : ι → CredentialStage) (s : Memory) (log : List (CredentialOutput ι))
    (order : List ι) : Prop where
  nodup : order.Nodup
  config : s.config = Commands.after commands initial order
  holds : ∀ i, (stage i).Holds commands initial log order i
  replied : ∀ i result, .reply i result ∈ log → Commands.Ran commands initial order i result

/-- When a command makes its change, its checks would succeed on the configuration as it is now,
with the same change. -/
def ChecksStand (commands : ι → CredentialCommand) (c : Config ι Memory (CredentialOutput ι))
    (i : ι) (_ : Config ι Memory (CredentialOutput ι)) : Prop :=
  ∀ change, c.task i = applyChange i change →
    (commands i).whole c.mem.config = (.ok (.obj []), change.apply c.mem.config)

namespace CredentialState

variable {commands : ι → CredentialCommand} {initial : ConfigData}
  {stage : ι → CredentialStage} {s s' : Memory} {log log' : List (CredentialOutput ι)}
  {order : List ι} {i : ι} {g' : CredentialStage}

/-- The result of the command that takes effect now. -/
theorem ran_now (h : CredentialState commands initial stage s log order)
    {result : Except CommandError Json} (hresult : ((commands i).whole s.config).1 = result) :
    Commands.Ran commands initial (order ++ [i]) i result := by
  rw [← hresult, h.config]
  exact Serial.ran_last

variable [DecidableEq ι]

/-- A step at which the command has no effect yet, or has had it. -/
theorem move (h : CredentialState commands initial stage s log order)
    (hself : g'.Holds commands initial log' order i) (hlog : ∀ e ∈ log, e ∈ log')
    (hnew : ∀ j result, .reply j result ∈ log' →
      .reply j result ∈ log ∨ Commands.Ran commands initial order j result) :
    CredentialState commands initial (Function.update stage i g') s log' order := by
  refine ⟨h.nodup, h.config, fun j => ?_, fun j result hmem => ?_⟩
  · by_cases hj : j = i
    · subst hj
      rwa [Function.update_self]
    · rw [Function.update_of_ne hj]
      exact (h.holds j).mono id (fun _ => id) hlog
  · exact (hnew j result hmem).elim (h.replied j result) id

/-- The step at which the command takes effect, as a whole. -/
theorem effect (h : CredentialState commands initial stage s log order) (hfresh : i ∉ order)
    (hconfig : s'.config = ((commands i).whole s.config).2)
    (hself : g'.Holds commands initial log' (order ++ [i]) i) (hlog : ∀ e ∈ log, e ∈ log')
    (hnew : ∀ j result, .reply j result ∈ log' →
      .reply j result ∈ log ∨ Commands.Ran commands initial (order ++ [i]) j result) :
    CredentialState commands initial (Function.update stage i g') s' log' (order ++ [i]) := by
  refine ⟨?_, ?_, fun j => ?_, fun j result hmem => ?_⟩
  · refine List.nodup_append.mpr ⟨h.nodup, List.nodup_singleton i, fun a ha b hb => ?_⟩
    rw [List.mem_singleton.mp hb]
    exact fun heq => hfresh (heq ▸ ha)
  · rw [hconfig, h.config]
    exact Serial.after_concat.symm
  · by_cases hj : j = i
    · subst hj
      rwa [Function.update_self]
    · rw [Function.update_of_ne hj]
      have hlater : j ∉ order → j ∉ order ++ [i] := by
        intro hnot hmem
        rcases List.mem_append.mp hmem with hmem | hmem
        · exact hnot hmem
        · exact hj (List.mem_singleton.mp hmem)
      exact (h.holds j).mono hlater (fun _ hran => hran.concat) hlog
  · exact (hnew j result hmem).elim (fun hmem => (h.replied j result hmem).concat) id

theorem access (h : CredentialState commands initial stage s log order)
    (hstands : ∀ change, stage i = .checked change →
      (commands i).whole s.config = (.ok (.obj []), change.apply s.config))
    (haccess : CredentialStage.Access (commands i) s (stage i) s' g') :
    ∃ order', CredentialState commands initial (Function.update stage i g') s' log order' := by
  have hholds := h.holds i
  generalize hi : stage i = g at haccess hholds hstands
  cases haccess with
  | reject e houtcome =>
    refine ⟨order ++ [i], h.effect hholds ?_ ?_ (fun _ => id) fun _ _ => Or.inl⟩
    · simp [CredentialCommand.whole, houtcome]
    · exact h.ran_now (by simp [CredentialCommand.whole, houtcome])
  | check change houtcome =>
    exact ⟨order, h.move hholds (fun _ => id) fun _ _ => Or.inl⟩
  | apply _ change hg =>
    have hwhole : (commands i).whole s.config = (.ok (.obj []), change.apply s.config) := by
      rcases hg with rfl | ⟨-, halways⟩
      · exact hstands change rfl
      · simp [CredentialCommand.whole, halways]
    have hfresh : i ∉ order := by
      rcases hg with rfl | ⟨rfl, -⟩
      · exact hholds
      · exact hholds
    refine ⟨order ++ [i], h.effect hfresh ?_ ?_ (fun _ => id) fun _ _ => Or.inl⟩
    · rw [hwhole]
    · exact h.ran_now (congrArg Prod.fst hwhole)

/-- A reply that is written out, of a command that has had its effect. -/
theorem reply (h : CredentialState commands initial stage s log order)
    {result : Except CommandError Json} (hran : Commands.Ran commands initial order i result) :
    CredentialState commands initial (Function.update stage i .finished) s
      (log ++ [.reply i result]) order := by
  apply h.move
  · exact ⟨result, hran, by simp⟩
  · exact fun e he => List.mem_append_left _ he
  · intro j x hmem
    rcases List.mem_append.mp hmem with hmem | hmem
    · exact Or.inl hmem
    · cases List.mem_singleton.mp hmem
      exact Or.inr hran

theorem output (h : CredentialState commands initial stage s log order)
    {e : CredentialOutput ι} (houtput : CredentialStage.Output i (commands i) (stage i) e g') :
    ∃ order', CredentialState commands initial (Function.update stage i g') s (log ++ [e]) order' := by
  have hholds := h.holds i
  generalize stage i = g at houtput hholds
  cases houtput with
  | refuse e houtcome =>
    have hran : Commands.Ran commands initial (order ++ [i]) i (.error e) :=
      h.ran_now (by simp [CredentialCommand.whole, houtcome])
    refine ⟨order ++ [i], h.effect hholds ?_ ?_ ?_ ?_⟩
    · simp [CredentialCommand.whole, houtcome]
    · exact ⟨_, hran, by simp⟩
    · exact fun e he => List.mem_append_left _ he
    · intro j x hmem
      rcases List.mem_append.mp hmem with hmem | hmem
      · exact Or.inl hmem
      · cases List.mem_singleton.mp hmem
        exact Or.inr hran
  | announce =>
    exact ⟨order, h.move hholds (fun e he => List.mem_append_left _ he) fun j x hmem =>
      Or.inl (by simpa using hmem)⟩
  | accept => exact ⟨order, h.reply hholds⟩
  | fail e => exact ⟨order, h.reply hholds⟩

theorem step {c c' : Config ι Memory (CredentialOutput ι)} {stage' : ι → CredentialStage}
    (hfollows : ∀ j, (credentialProtocol commands j).Follows (c.task j) (stage j))
    (h : ∃ order, CredentialState commands initial stage c.mem c.log order)
    (hstands : ChecksStand commands c i c')
    (hstep : Protocol.Step (credentialProtocol commands) i stage c.mem c.log stage' c'.mem c'.log) :
    ∃ order, CredentialState commands initial stage' c'.mem c'.log order := by
  obtain ⟨order, h⟩ := h
  have hchecked : ∀ change, stage i = .checked change →
      (commands i).whole c.mem.config = (.ok (.obj []), change.apply c.mem.config) :=
    fun change hi => hstands change ((hfollows i).left.2 change hi)
  obtain ⟨mem', log', task'⟩ := c'
  cases hstep with
  | access _ g' haccess => exact h.access hchecked haccess
  | output e g' houtput => exact h.output houtput

end CredentialState

/-- No two ids other than "default" differ only in the case of their letters. -/
def DistinctIds {ν : Type} (m : OrdMap String ν) : Prop :=
  ∀ a b, m.contains a = true → m.contains b = true → a ≠ "default" → b ≠ "default" →
    Text.foldCase a = Text.foldCase b → a = b

theorem eq_of_validateCredentialId {id other : String} {existing : List String}
    (h : validateCredentialId id existing = none) (hid : id ≠ "default") (hmem : other ∈ existing)
    (hcase : Text.foldCase other = Text.foldCase id) : other = id := by
  unfold validateCredentialId at h
  split at h
  · cases h
  · split at h
    · cases h
    · rw [Option.map_eq_none_iff, List.find?_eq_none] at h
      have hnot := h other hmem
      rw [← Text.eqIgnoreAsciiCase_iff] at hcase
      simpa [hcase] using hnot

theorem DistinctIds.insert {ν : Type} {m : OrdMap String ν} (h : DistinctIds m) {id : String}
    (hvalid : validateCredentialId id m.keys = none) (v : ν) : DistinctIds (m.insert id v) := by
  intro a b ha hb hna hnb hcase
  simp only [OrdMap.contains_insert, Bool.or_eq_true, decide_eq_true_eq] at ha hb
  rcases ha with rfl | ha
  · rcases hb with rfl | hb
    · rfl
    · exact (eq_of_validateCredentialId hvalid hna (OrdMap.mem_keys.mpr hb) hcase.symm).symm
  · rcases hb with rfl | hb
    · exact eq_of_validateCredentialId hvalid hnb (OrdMap.mem_keys.mpr ha) hcase
    · exact h a b ha hb hna hnb hcase

theorem DistinctIds.erase {ν : Type} {m : OrdMap String ν} (h : DistinctIds m) (id : String) :
    DistinctIds (m.erase id) := by
  intro a b ha hb
  simp only [OrdMap.contains_erase, Bool.and_eq_true] at ha hb
  exact h a b ha.2 hb.2

/-- What a check says of the change it allows. -/
theorem checkWifi_eq_ok {id ssid credentials : String} {cfg : ConfigData} {change : ConfigChange}
    (h : checkWifi id ssid credentials cfg = .ok change) :
    validateCredentialId id cfg.wifiCredentials.keys = none ∧ ∃ credential,
      change = .setWifi id credential ∧
        (credentials = "" → cfg.wifiCredentials.get? id = some credential) := by
  unfold checkWifi at h
  split at h
  · cases h
  next hvalid =>
    refine ⟨hvalid, ?_⟩
    split at h
    · split at h
      next existing hget =>
        split at h
        next hssid =>
          cases h
          exact ⟨_, rfl, fun _ => by rw [hget, ← hssid]⟩
        · cases h
      · cases h
    next hpassword =>
      cases h
      exact ⟨_, rfl, fun hnone => absurd hnone hpassword⟩

theorem checkThread_eq_ok {id dataset : String} {cfg : ConfigData} {change : ConfigChange}
    (h : checkThread id dataset cfg = .ok change) :
    validateCredentialId id cfg.threadDatasets.keys = none ∧ change = .setThread id dataset := by
  unfold checkThread at h
  split at h
  · cases h
  next hvalid =>
    cases h
    exact ⟨hvalid, rfl⟩

namespace CredentialCommand

/-- The changes that commands come to. -/
theorem outcome_cases {command : CredentialCommand} {cfg : ConfigData} {change : ConfigChange}
    (h : command.outcome cfg = .ok change) :
    (∃ id credential, change = .setWifi id credential ∧
      validateCredentialId id cfg.wifiCredentials.keys = none ∧
      (command.OmitsPassword → cfg.wifiCredentials.get? id = some credential)) ∨
    (∃ id dataset, change = .setThread id dataset ∧
      validateCredentialId id cfg.threadDatasets.keys = none ∧ ¬ command.OmitsPassword) ∨
    ∃ id, (change = .removeWifi id ∨ change = .removeThread id) ∧ ¬ command.OmitsPassword := by
  cases command with
  | setWifi args =>
    obtain ⟨ssid, -, hcheck⟩ : ∃ ssid, requireStr args "ssid" = .ok ssid ∧
        checkWifi ((optStr args "id").getD "default") ssid
          ((optStr args "credentials").getD "") cfg = .ok change := by
      simp only [outcome] at h
      cases hssid : requireStr args "ssid" with
      | error e => rw [hssid] at h; cases h
      | ok ssid => exact ⟨ssid, rfl, by rw [hssid] at h; exact h⟩
    obtain ⟨hvalid, credential, hchange, hkept⟩ := checkWifi_eq_ok hcheck
    exact Or.inl ⟨_, credential, hchange, hvalid, hkept⟩
  | setThread args =>
    simp only [outcome] at h
    cases hdataset : requireStr args "dataset" with
    | error e => rw [hdataset] at h; cases h
    | ok dataset =>
      rw [hdataset] at h
      simp only [Except.bind] at h
      split at h
      · cases h
      · obtain ⟨hvalid, hchange⟩ := checkThread_eq_ok h
        exact Or.inr (Or.inl ⟨_, dataset, hchange, hvalid, id⟩)
  | removeWifi args =>
    cases h
    exact Or.inr (Or.inr ⟨_, Or.inl rfl, id⟩)
  | removeThread args =>
    cases h
    exact Or.inr (Or.inr ⟨_, Or.inr rfl, id⟩)

/-- A whole command keeps ids apart. -/
theorem distinctIds_whole (command : CredentialCommand) {cfg : ConfigData}
    (h : DistinctIds cfg.wifiCredentials ∧ DistinctIds cfg.threadDatasets) :
    DistinctIds (command.whole cfg).2.wifiCredentials ∧
      DistinctIds (command.whole cfg).2.threadDatasets := by
  unfold whole
  split
  · exact h
  next change houtcome =>
    rcases outcome_cases houtcome with ⟨id, credential, rfl, hvalid, -⟩ |
      ⟨id, dataset, rfl, hvalid, -⟩ | ⟨id, rfl | rfl, -⟩
    · exact ⟨h.1.insert hvalid credential, h.2⟩
    · exact ⟨h.1, h.2.insert hvalid dataset⟩
    · exact ⟨h.1.erase id, h.2⟩
    · exact ⟨h.1, h.2.erase id⟩

/-- A password that is left out is the one already there. -/
theorem whole_of_omitsPassword {command : CredentialCommand} (homits : command.OmitsPassword)
    (cfg : ConfigData) : (command.whole cfg).2 = cfg := by
  unfold whole
  split
  · rfl
  next change houtcome =>
    rcases outcome_cases houtcome with ⟨id, credential, rfl, -, hkept⟩ | ⟨id, dataset, -, -, hnot⟩ |
      ⟨id, -, hnot⟩
    · simp only [ConfigChange.apply, OrdMap.insert_of_get? (hkept homits)]
    · exact absurd homits hnot
    · exact absurd homits hnot

end CredentialCommand

theorem distinctIds_after (commands : ι → CredentialCommand) {cfg : ConfigData} (order : List ι)
    (h : DistinctIds cfg.wifiCredentials ∧ DistinctIds cfg.threadDatasets) :
    DistinctIds (Commands.after commands cfg order).wifiCredentials ∧
      DistinctIds (Commands.after commands cfg order).threadDatasets := by
  induction order generalizing cfg with
  | nil => exact h
  | cons i rest ih => exact ih ((commands i).distinctIds_whole h)

/-- A command changes the configuration in one step only, and only as its checks allow. -/
theorem config_of_omitsPassword [DecidableEq ι] {commands : ι → CredentialCommand}
    {initial : ConfigData} {c c' : Config ι Memory (CredentialOutput ι)} {i : ι}
    (h : Protocol.Meets (credentialProtocol commands)
      (fun stage s log => ∃ order, CredentialState commands initial stage s log order) c)
    (hstep : c.step i = some c') (hstands : ChecksStand commands c i c')
    (homits : (commands i).OmitsPassword) : c'.mem.config = c.mem.config := by
  obtain ⟨stage, hfollows, -⟩ := h
  have hi := hfollows i
  have hkept := CredentialCommand.whole_of_omitsPassword homits c.mem.config
  rcases Config.step_cases hstep with ⟨ready, upd, next, htask, hready, rfl⟩ | ⟨e, rest, htask, rfl⟩
  · have hchecked : ∀ change, stage i = .checked change →
        change.apply c.mem.config = c.mem.config := by
      intro change hg
      rw [hstands change (hi.left.2 change hg)] at hkept
      exact hkept
    rw [htask] at hi
    obtain ⟨g', haccess, -⟩ := hi.2 c.mem hready trivial
    have haccess : CredentialStage.Access (commands i) c.mem (stage i) (upd c.mem) g' := haccess
    generalize stage i = g at haccess hchecked
    generalize upd c.mem = s' at haccess
    cases haccess with
    | reject e houtcome => rfl
    | check change houtcome => rfl
    | apply _ change hg =>
      rcases hg with hg | ⟨-, halways⟩
      · exact hchecked change hg
      · simpa [CredentialCommand.whole, halways] using hkept
  · rfl

/-- In every run in which the checks still stand when the changes are made, one order of the whole
commands gives the configuration and every reply; so ids stay apart, and a `set_wifi` without a
password never changes the configuration. -/
theorem credentials_serializable [DecidableEq ι] (commands : ι → CredentialCommand)
    {c c' : Config ι Memory (CredentialOutput ι)} {sched : List ι}
    (htasks : ∀ i, c.task i = (commands i).task i) (hlog : c.log = [])
    (halong : Config.Along (ChecksStand commands) c sched) (hrun : c.run sched = some c') :
    (∃ order : List ι, order.Nodup ∧ c'.mem.config = Commands.after commands c.mem.config order ∧
      (∀ i result, .reply i result ∈ c'.log →
        Commands.Ran commands c.mem.config order i result) ∧
      (c'.Quiescent → ∀ i, i ∈ order ∧ ∃ result, .reply i result ∈ c'.log)) ∧
    (DistinctIds c.mem.config.wifiCredentials ∧ DistinctIds c.mem.config.threadDatasets →
      DistinctIds c'.mem.config.wifiCredentials ∧ DistinctIds c'.mem.config.threadDatasets) ∧
    Config.Along (fun d i d' => (commands i).OmitsPassword → d'.mem.config = d.mem.config)
      c sched := by
  have hmeets : Protocol.Meets (credentialProtocol commands)
      (fun stage s log => ∃ order, CredentialState commands c.mem.config stage s log order) c := by
    refine ⟨fun _ => .waiting, fun i => htasks i ▸ FollowsCredential.task commands i, [], ?_⟩
    rw [hlog]
    exact ⟨.nil, rfl, fun _ => List.not_mem_nil, fun _ _ => nofun⟩
  have hkeeps : ∀ (d : Config ι Memory (CredentialOutput ι)) i d' stage stage',
      (∀ j, (credentialProtocol commands j).Follows (d.task j) (stage j)) →
      (∃ order, CredentialState commands c.mem.config stage d.mem d.log order) →
      ChecksStand commands d i d' →
      Protocol.Step (credentialProtocol commands) i stage d.mem d.log stage' d'.mem d'.log →
      ∃ order, CredentialState commands c.mem.config stage' d'.mem d'.log order :=
    fun d i d' stage stage' hf h hstands hstep => CredentialState.step hf h hstands hstep
  obtain ⟨stage, hfollows, order, hstate⟩ :=
    Protocol.Meets.run (fun _ _ _ _ _ => trivial) hkeeps hmeets halong hrun
  refine ⟨⟨order, hstate.nodup, hstate.config, hstate.replied, fun hquiescent i => ?_⟩, ?_, ?_⟩
  · have hi := hstate.holds i
    rw [(hfollows i).left.1 (hquiescent i)] at hi
    obtain ⟨result, hran, hreply⟩ := hi
    exact ⟨hran.mem, result, hreply⟩
  · rw [hstate.config]
    exact distinctIds_after commands order
  · exact Protocol.Meets.along (fun _ _ _ _ _ => trivial) hkeeps
      (fun _ _ _ hm hstep hstands homits => config_of_omitsPassword hm hstep hstands homits)
      hmeets halong

section LetterCase

/-- Two connections each store a network, under ids that differ in one capital. -/
def twoNetworks : Bool → CredentialCommand
  | true => .setWifi (.ofList
      [("ssid", .str "iot"), ("credentials", .str "hunter2"), ("id", .str "Garage")])
  | false => .setWifi (.ofList
      [("ssid", .str "iot"), ("credentials", .str "hunter2"), ("id", .str "garage")])

def networksStart : Config Bool Memory (CredentialOutput Bool) :=
  ⟨lampMemory, [], fun i => (twoNetworks i).task i⟩

/-- Both take their snapshot first. -/
def twinSchedule : List Bool := [true, false, true, true, true, false, false, false]

theorem order_of_two {order : List Bool} (hnodup : order.Nodup) (hall : ∀ i, i ∈ order) :
    order = [true, false] ∨ order = [false, true] := by
  have htrue := hall true
  have hfalse := hall false
  match order with
  | [] => cases htrue
  | [a] => cases a <;> simp at htrue hfalse
  | [a, b] => cases a <;> cases b <;> simp at hnodup ⊢
  | a :: b :: d :: rest => cases a <;> cases b <;> cases d <;> simp at hnodup

/-- Both commands succeed, which they do in no order. -/
theorem letterCase_twins : ∃ c', networksStart.run twinSchedule = some c' ∧ c'.Quiescent ∧
    ¬ DistinctIds c'.mem.config.wifiCredentials ∧
    ¬ ∃ order : List Bool, order.Nodup ∧ (∀ i, i ∈ order) ∧
      ∀ i result, .reply i result ∈ c'.log →
        Commands.Ran twoNetworks networksStart.mem.config order i result := by
  refine ⟨_, rfl, ?_, ?_, ?_⟩
  · intro i
    cases i <;> rfl
  · intro h
    have heq := h "Garage" "garage" rfl rfl (by decide) (by decide) rfl
    exact absurd heq (by decide)
  · rintro ⟨order, hnodup, hall, hran⟩
    rcases order_of_two hnodup hall with rfl | rfl
    · have hlast := hran false (.ok (.obj [])) (.tail _ (.tail _ (.tail _ (.head _))))
      have hsecond := hlast.eq hnodup (show [true, false] = [true] ++ false :: [] from rfl)
      cases hsecond
    · have hlast := hran true (.ok (.obj [])) (.tail _ (.head _))
      have hsecond := hlast.eq hnodup (show [false, true] = [false] ++ true :: [] from rfl)
      cases hsecond

/-- One command after the other. -/
theorem credentials_serializable_serial : ∃ c',
    networksStart.run [true, true, true, true, false, false] = some c' ∧
      DistinctIds c'.mem.config.wifiCredentials := by
  have hrun : networksStart.run [true, true, true, true, false, false] = some _ := rfl
  have halong : Config.Along (ChecksStand twoNetworks) networksStart
      [true, true, true, true, false, false] := by
    intro c hc
    cases hc
    refine ⟨fun change h => ?_, fun c hc => ?_⟩
    · injection h with _ _ hnext
      cases congrFun hnext lampMemory
    cases hc
    refine ⟨fun change h => ?_, fun c hc => ?_⟩
    · injection h with _ hupd _
      have hmem := congrArg Memory.config (congrFun hupd lampMemory)
      exact congrArg (Prod.mk _) hmem
    cases hc
    refine ⟨fun change => nofun, fun c hc => ?_⟩
    cases hc
    refine ⟨fun change => nofun, fun c hc => ?_⟩
    cases hc
    refine ⟨fun change h => ?_, fun c hc => ?_⟩
    · injection h with _ _ hnext
      cases congrFun hnext lampMemory
    cases hc
    exact ⟨fun change => nofun, trivial⟩
  have h := credentials_serializable twoNetworks (fun _ => rfl) rfl halong hrun
  refine ⟨_, hrun, (h.2.1 ⟨?_, ?_⟩).1⟩
  · exact fun _ _ => nofun
  · exact fun _ _ => nofun

end LetterCase

end MatterRsServer.Controller
