import MatterRsServer.Controller.Credentials
import MatterRsServer.Migrate.Convert

/-!
# Ownership of the fabric label

`set_default_fabric_label` of any number of connections, next to their closing. A connection
runs one command at a time and is closed after its last one. The lock of `label_owner` is held
for the claim and for the release only: neither the call of the stack nor `update_config` is
under it.
-/
namespace MatterRsServer.Controller
open Lib Wire

/-- Where the command of a connection is. `claimedFresh` is that of the source, and `arg` the
label as it was given. -/
inductive LabelStage where
  | idle
  | called (arg : Option String)
  | updating (claimedFresh : Bool) (arg : Option String)
  | accepted (arg : Option String)
  | locked (arg : Option String)
  | computed (cfg : ConfigData)
  | saved (cfg : ConfigData)
  | written
  | rejected (claimedFresh : Bool) (e : StackError)
  | replying (result : Except CommandError Json)
  | closed

/-- `accept` and `reject` are the two answers of the stack. -/
inductive LabelStep where
  | command (args : Args)
  | claim
  | accept
  | reject (e : StackError)
  | lock
  | read
  | save (persisted : Except String Unit)
  | write
  | unlock
  | release
  | reply
  | close

/-- `found` and `lastAccepted` are history only: the owner that the command of a connection
found, and the argument of the last update that the stack accepted. -/
structure Labels (ι : Type) where
  owner : Option ι
  config : ConfigData
  configLocked : Bool
  stage : ι → LabelStage
  found : ι → Option ι
  lastAccepted : Option (Option String)
  replies : List (ι × Except CommandError Json)

namespace LabelStage

/-- No command of the connection is running. -/
def atRest : LabelStage → Bool
  | .idle | .closed => true
  | _ => false

/-- The connection is waiting for the stack. -/
def isUpdating : LabelStage → Bool
  | .updating _ _ => true
  | _ => false

/-- The command has claimed the label, or found it its own. -/
def owns : LabelStage → Bool
  | .updating _ _ | .accepted _ | .locked _ | .computed _ | .saved _ | .written | .rejected _ _ => true
  | _ => false

/-- The stack has accepted a label that is not in the configuration yet. -/
def unsaved : LabelStage → Bool
  | .accepted _ | .locked _ | .computed _ | .saved _ => true
  | _ => false

theorem owns_of_isUpdating {g : LabelStage} (h : g.isUpdating = true) : g.owns = true := by
  cases g with
  | updating claimedFresh arg => rfl
  | _ => cases h

theorem not_unsaved_of_atRest {g : LabelStage} (h : g.atRest = true) : g.unsaved = false := by
  cases g with
  | idle | closed => rfl
  | _ => cases h

end LabelStage

namespace Labels

variable {ι : Type}

section Step

variable [DecidableEq ι]

def setStage (s : Labels ι) (conn : ι) (g : LabelStage) : Labels ι :=
  { s with stage := Function.update s.stage conn g }

/-- What `set_default_fabric_label` does under the lock of `label_owner`. -/
def claim (s : Labels ι) (conn : ι) (arg : Option String) : Labels ι :=
  match s.owner with
  | none => { s with
      owner := some conn
      found := Function.update s.found conn none }.setStage conn (.updating true arg)
  | some other =>
    if other = conn then
      { s with found := Function.update s.found conn (some conn) }.setStage conn (.updating false arg)
    else s.setStage conn (.replying (.ok .null))

/-- `connection_closed`, and the release after a rejected first claim. -/
def disown (s : Labels ι) (conn : ι) : Labels ι :=
  if s.owner = some conn then { s with owner := none } else s

/-- One step of `set_default_fabric_label`, or the drop of the `CloseGuard`. -/
def step (labelLocked : Bool) (s : Labels ι) : ι × LabelStep → Option (Labels ι)
  | (conn, a) =>
    match s.stage conn, a with
    | .idle, .command args => some (s.setStage conn (.called (optStr args "label")))
    | .called arg, .claim =>
      if labelLocked then some (s.setStage conn (.replying (.ok .null))) else some (s.claim conn arg)
    | .updating _ arg, .accept =>
      some ({ s with lastAccepted := some arg }.setStage conn (.accepted arg))
    | .updating claimedFresh _, .reject e => some (s.setStage conn (.rejected claimedFresh e))
    | .accepted arg, .lock =>
      if s.configLocked then none
      else some ({ s with configLocked := true }.setStage conn (.locked arg))
    | .locked arg, .read =>
      let change := ConfigChange.setFabricLabel (Migrate.normalizeFabricLabel arg)
      some (s.setStage conn (.computed (change.apply s.config)))
    | .computed cfg, .save _ => some (s.setStage conn (.saved cfg))
    | .saved cfg, .write => some ({ s with config := cfg }.setStage conn .written)
    | .written, .unlock =>
      some ({ s with configLocked := false }.setStage conn (.replying (.ok .null)))
    | .rejected claimedFresh e, .release =>
      let released := if claimedFresh then s.disown conn else s
      some (released.setStage conn (.replying (.error ⟨.sdkStackError, e.message⟩)))
    | .replying result, .reply =>
      some ({ s with replies := s.replies ++ [(conn, result)] }.setStage conn .idle)
    | .idle, .close => some ((s.disown conn).setStage conn .closed)
    | _, _ => none

end Step

/-- No command has come yet. -/
structure Initial (s : Labels ι) : Prop where
  owner : s.owner = none
  stage : ∀ conn, s.stage conn = .idle
  lastAccepted : s.lastAccepted = none

/-- What was accepted last, else the label of the start. -/
def appliedLabel (initial : ConfigData) (s : Labels ι) : String :=
  match s.lastAccepted with
  | some arg => Migrate.normalizeFabricLabel arg
  | none => initial.fabricLabel

/-- What is known of a connection at a stage of its command. -/
def Holds (initial : ConfigData) (s : Labels ι) (conn : ι) : LabelStage → Prop
  | .updating claimedFresh _ | .rejected claimedFresh _ =>
    s.found conn = if claimedFresh then none else some conn
  | .accepted arg | .locked arg => s.lastAccepted = some arg
  | .computed cfg | .saved cfg => cfg.fabricLabel = s.appliedLabel initial
  | _ => True

/-- Whoever is past its claim is the owner, and the label of the configuration is the one that
was accepted last unless its command has yet to store it. -/
structure Invariant (initial : ConfigData) (s : Labels ι) : Prop where
  owner : ∀ conn, (s.stage conn).owns = true → s.owner = some conn
  holds : ∀ conn, Holds initial s conn (s.stage conn)
  label : (∀ conn, (s.stage conn).unsaved = false) →
    s.config.fabricLabel = s.appliedLabel initial

theorem Initial.invariant {s : Labels ι} (h : s.Initial) : s.Invariant s.config where
  owner conn howns := by
    rw [h.stage conn] at howns
    cases howns
  holds conn := by
    rw [h.stage conn]
    trivial
  label _ := by
    rw [appliedLabel, h.lastAccepted]

namespace Invariant

variable {initial : ConfigData} {s s' : Labels ι} {conn : ι} {g' : LabelStage}

/-- Two connections are not past their claims at once. -/
theorem alone (h : Invariant initial s) {j : ι} (hconn : (s.stage conn).owns = true)
    (hj : (s.stage j).owns = true) : j = conn :=
  Option.some.inj ((h.owner j hj).symm.trans (h.owner conn hconn))

variable [DecidableEq ι]

/-- One connection moves on, and the others that are past their claims notice nothing. -/
theorem move (h : Invariant initial s) (hstage : s'.stage = Function.update s.stage conn g')
    (howner : g'.owns = true → s'.owner = some conn) (hself : Holds initial s' conn g')
    (hothers : ∀ j, j ≠ conn → (s.stage j).owns = true →
      s'.owner = s.owner ∧ s'.found j = s.found j ∧ s'.lastAccepted = s.lastAccepted)
    (hlabel : g'.unsaved = false → (∀ j, j ≠ conn → (s.stage j).unsaved = false) →
      s'.config.fabricLabel = s'.appliedLabel initial) : Invariant initial s' := by
  constructor
  · intro j hj
    rw [hstage] at hj
    by_cases hjc : j = conn
    · subst hjc
      rw [Function.update_self] at hj
      exact howner hj
    · rw [Function.update_of_ne hjc] at hj
      exact (hothers j hjc hj).1.trans (h.owner j hj)
  · intro j
    rw [hstage]
    by_cases hjc : j = conn
    · subst hjc
      rwa [Function.update_self]
    · rw [Function.update_of_ne hjc]
      have hholds := h.holds j
      have hnotice := hothers j hjc
      generalize s.stage j = g at hholds hnotice
      cases g with
      | updating | rejected => exact (hnotice rfl).2.1.trans hholds
      | accepted | locked => exact (hnotice rfl).2.2.trans hholds
      | computed | saved =>
        rw [Holds, appliedLabel, (hnotice rfl).2.2]
        exact hholds
      | idle | called | written | replying | closed => trivial
  · intro hsaved
    rw [hstage] at hsaved
    apply hlabel
    · simpa using hsaved conn
    · intro j hjc
      simpa [Function.update_of_ne hjc] using hsaved j

/-- A step of the owner. -/
theorem owner_move (h : Invariant initial s) (howns : (s.stage conn).owns = true)
    (hstage : s'.stage = Function.update s.stage conn g') (howner : s'.owner = s.owner)
    (hself : Holds initial s' conn g')
    (hlabel : g'.unsaved = false → s'.config.fabricLabel = s'.appliedLabel initial) :
    Invariant initial s' := by
  refine h.move hstage (fun _ => howner.trans (h.owner conn howns)) hself ?_ fun hsaved _ => hlabel hsaved
  exact fun j hj hjowns => absurd (h.alone howns hjowns) hj

/-- A step that leaves the configuration, and has nothing to store. -/
theorem quiet_move (h : Invariant initial s) (hsaved : (s.stage conn).unsaved = false)
    (hstage : s'.stage = Function.update s.stage conn g')
    (howner : g'.owns = true → s'.owner = some conn) (hself : Holds initial s' conn g')
    (hconfig : s'.config = s.config) (haccepted : s'.lastAccepted = s.lastAccepted)
    (hothers : ∀ j, j ≠ conn → s.owner = some j → s'.owner = s.owner ∧ s'.found j = s.found j) :
    Invariant initial s' := by
  refine h.move hstage howner hself (fun j hj hjowns => ?_) fun _ hothersSaved => ?_
  · obtain ⟨hsame, hfound⟩ := hothers j hj (h.owner j hjowns)
    exact ⟨hsame, hfound, haccepted⟩
  · rw [hconfig, appliedLabel, haccepted]
    apply h.label
    intro j
    by_cases hj : j = conn
    · rwa [hj]
    · exact hothersSaved j hj

theorem claim (h : Invariant initial s) {arg : Option String} (hcalled : s.stage conn = .called arg) :
    Invariant initial (s.claim conn arg) := by
  have hsaved : (s.stage conn).unsaved = false := by rw [hcalled]; rfl
  unfold Labels.claim
  split
  next hnone =>
    refine h.quiet_move hsaved rfl (fun _ => rfl) (Function.update_self ..) rfl rfl fun j _ hj => ?_
    rw [hnone] at hj
    cases hj
  next other hother =>
    split
    next heq =>
      subst heq
      refine h.quiet_move hsaved rfl (fun _ => hother) (Function.update_self ..) rfl rfl ?_
      exact fun j hj _ => ⟨rfl, Function.update_of_ne hj _ _⟩
    next => exact h.quiet_move hsaved rfl nofun trivial rfl rfl fun _ _ _ => ⟨rfl, rfl⟩

/-- A connection that gives up what it owns, or does not own. -/
theorem disown_move (h : Invariant initial s) (hsaved : (s.stage conn).unsaved = false)
    (howns : g'.owns = false) (hself : ∀ s' : Labels ι, Holds initial s' conn g') :
    Invariant initial ((s.disown conn).setStage conn g') := by
  have hfalse : g'.owns = true → (s.disown conn).owner = some conn := fun hg => by
    rw [howns] at hg
    cases hg
  unfold disown at hfalse ⊢
  split
  next hown =>
    rw [if_pos hown] at hfalse
    refine h.quiet_move hsaved rfl hfalse (hself _) rfl rfl fun j hj hjown => ?_
    exact absurd (Option.some.inj (hjown.symm.trans hown)) hj
  next hother =>
    rw [if_neg hother] at hfalse
    exact h.quiet_move hsaved rfl hfalse (hself _) rfl rfl fun _ _ _ => ⟨rfl, rfl⟩

theorem step {labelLocked : Bool} {a : LabelStep} (h : Invariant initial s)
    (hstep : Labels.step labelLocked s (conn, a) = some s') : Invariant initial s' := by
  have hholds := h.holds conn
  simp only [Labels.step] at hstep
  split at hstep
  next args hstage =>
    cases hstep
    exact h.quiet_move (by rw [hstage]; rfl) rfl nofun trivial rfl rfl fun _ _ _ => ⟨rfl, rfl⟩
  next arg hstage =>
    split at hstep
    · cases hstep
      exact h.quiet_move (by rw [hstage]; rfl) rfl nofun trivial rfl rfl fun _ _ _ => ⟨rfl, rfl⟩
    · cases hstep
      exact h.claim hstage
  next claimedFresh arg hstage =>
    cases hstep
    exact h.owner_move (by rw [hstage]; rfl) rfl rfl rfl nofun
  next claimedFresh arg e hstage =>
    cases hstep
    rw [hstage] at hholds
    have howner := h.owner conn (by rw [hstage]; rfl)
    exact h.quiet_move (by rw [hstage]; rfl) rfl (fun _ => howner) hholds rfl rfl
      fun _ _ _ => ⟨rfl, rfl⟩
  next arg hstage =>
    split at hstep
    · cases hstep
    · cases hstep
      rw [hstage] at hholds
      exact h.owner_move (by rw [hstage]; rfl) rfl rfl hholds nofun
  next arg hstage =>
    cases hstep
    rw [hstage] at hholds
    refine h.owner_move (by rw [hstage]; rfl) rfl rfl ?_ nofun
    change Migrate.normalizeFabricLabel arg = _
    rw [appliedLabel]
    change _ = match s.lastAccepted with | some arg => _ | none => _
    rw [hholds]
  next cfg persisted hstage =>
    cases hstep
    rw [hstage] at hholds
    exact h.owner_move (by rw [hstage]; rfl) rfl rfl hholds nofun
  next cfg hstage =>
    cases hstep
    rw [hstage] at hholds
    exact h.owner_move (by rw [hstage]; rfl) rfl rfl trivial fun _ => hholds
  next hstage =>
    cases hstep
    exact h.quiet_move (by rw [hstage]; rfl) rfl nofun trivial rfl rfl fun _ _ _ => ⟨rfl, rfl⟩
  next claimedFresh e hstage =>
    cases hstep
    have hsaved : (s.stage conn).unsaved = false := by rw [hstage]; rfl
    cases claimedFresh with
    | true => exact h.disown_move hsaved rfl fun _ => trivial
    | false => exact h.quiet_move hsaved rfl nofun trivial rfl rfl fun _ _ _ => ⟨rfl, rfl⟩
  next result hstage =>
    cases hstep
    exact h.quiet_move (by rw [hstage]; rfl) rfl nofun trivial rfl rfl fun _ _ _ => ⟨rfl, rfl⟩
  next hstage =>
    cases hstep
    exact h.disown_move (by rw [hstage]; rfl) rfl fun _ => trivial
  next => cases hstep

/-- After a rejected update the owner is the one that the command had found. -/
theorem owner_release {labelLocked : Bool} (h : Invariant initial s)
    (hstep : Labels.step labelLocked s (conn, .release) = some s') : s'.owner = s.found conn := by
  obtain ⟨claimedFresh, e, hstage⟩ : ∃ claimedFresh e, s.stage conn = .rejected claimedFresh e := by
    cases hstage : s.stage conn with
    | rejected claimedFresh e => exact ⟨claimedFresh, e, rfl⟩
    | _ =>
      simp only [Labels.step, hstage] at hstep
      cases hstep
  have howner := h.owner conn (by rw [hstage]; rfl)
  have hfound := h.holds conn
  rw [hstage] at hfound
  simp only [Labels.step, hstage, Option.some.injEq] at hstep
  subst hstep
  cases claimedFresh with
  | true =>
    simp only [if_true, disown, howner]
    exact hfound.symm
  | false => exact howner.trans hfound.symm

end Invariant

/-- In every state of a run the label has one owner at most and one update at most is with the
stack; a command whose update is rejected leaves the owner that it found; and while no command
is running, the label is that of the last update that was accepted. -/
theorem fabricLabel_owned [DecidableEq ι] {labelLocked : Bool} {s0 s : Labels ι}
    {acts : List (ι × LabelStep)} (hinitial : s0.Initial)
    (hrun : Transition.run (step labelLocked) s0 acts = some s) :
    (∀ c d, s.owner = some c → s.owner = some d → c = d) ∧
    (∀ c d, (s.stage c).isUpdating = true → (s.stage d).isUpdating = true → c = d) ∧
    Transition.Along (step labelLocked)
      (fun t a t' => a.2 = .release → t'.owner = t.found a.1) s0 acts ∧
    ((∀ c, (s.stage c).atRest = true) → s.config.fabricLabel = s.appliedLabel s0.config) := by
  have hstart := hinitial.invariant
  have hkept : ∀ (t : Labels ι) (a : ι × LabelStep) t', t.Invariant s0.config →
      step labelLocked t a = some t' → True → t'.Invariant s0.config :=
    fun _ _ _ hinv hstep _ => hinv.step hstep
  have hinv := Transition.run_invariant hkept hstart (.of_forall fun _ _ _ _ => trivial) hrun
  refine ⟨fun c d hc hd => Option.some.inj (hc.symm.trans hd), fun c d hc hd => ?_, ?_, fun hrest => ?_⟩
  · exact (hinv.alone (LabelStage.owns_of_isUpdating hc) (LabelStage.owns_of_isUpdating hd)).symm
  · have hreleased : ∀ (t : Labels ι) (a : ι × LabelStep) t', t.Invariant s0.config →
        step labelLocked t a = some t' →
        t'.Invariant s0.config ∧ (a.2 = .release → t'.owner = t.found a.1) := by
      rintro t ⟨conn, a⟩ t' ht hstep
      refine ⟨ht.step hstep, ?_⟩
      rintro rfl
      exact ht.owner_release hstep
    exact Transition.Along.of_invariant hreleased hstart acts
  · exact hinv.label fun c => LabelStage.not_unsaved_of_atRest (hrest c)

section Handoff

def homeLabels : Labels Bool :=
  ⟨none, .default, false, fun _ => .idle, fun _ => none, none, []⟩

/-- The label of one connection is rejected and then accepted; meanwhile that of the other is
ignored, until the first is closed. -/
def handoff : List (Bool × LabelStep) :=
  [(true, .command (.ofList [("label", .str " Casa ")])), (true, .claim),
    (false, .command (.ofList [("label", .str "Nope")])), (false, .claim), (false, .reply),
    (true, .reject ⟨.sdk, "device rejected label"⟩), (true, .release), (true, .reply),
    (true, .command (.ofList [("label", .str " Casa ")])), (true, .claim), (true, .accept),
    (true, .lock), (true, .read), (true, .save (.error "disk full")), (true, .write),
    (true, .unlock), (true, .reply), (true, .close)]

theorem fabricLabel_owned_handoff : ∃ s, Transition.run (step false) homeLabels handoff = some s ∧
    s.owner = none ∧ s.config.fabricLabel = "Casa" := by
  obtain ⟨s, hrun, howner, hstage, hlabel⟩ : ∃ s,
      Transition.run (step false) homeLabels handoff = some s ∧ s.owner = none ∧
      (∀ c, (s.stage c).atRest = true) ∧ s.appliedLabel homeLabels.config = "Casa" :=
    ⟨_, rfl, rfl, by decide, by decide⟩
  have hinitial : homeLabels.Initial := ⟨rfl, fun _ => rfl, rfl⟩
  obtain ⟨-, -, -, hrest⟩ := fabricLabel_owned hinitial hrun
  exact ⟨s, hrun, howner, (hrest hstage).trans hlabel⟩

end Handoff

end Labels

end MatterRsServer.Controller
