import MatterRsServer.Lib.Transition
import Mathlib.Logic.Function.Basic

/-!
# The log level

`LogControl` of `crates/server/src/logging.rs` under `get_loglevel` and `set_loglevel` of any number
of connections. `set` first reloads the filter and then, under another lock, stores the name that
`get` reports; two calls may come between each other's halves.
-/
namespace MatterRsServer.Server
open Lib

inductive Level where
  | error | warn | info | debug | trace
deriving DecidableEq

/-- `map_level`. -/
def mapLevel : String → Option Level
  | "fatal" | "critical" | "error" => some .error
  | "warning" | "warn" => some .warn
  | "notice" | "info" => some .info
  | "debug" => some .debug
  | "verbose" => some .trace
  | _ => none

/-- The level that `init` gives the filter for a `--log-level`. -/
def startLevel (name : String) : Level := (mapLevel name).getD .info

/-- Where the `set` of a connection is. -/
inductive SetStage where
  | idle
  | called (name : String) (level : Level)
  | reloaded (name : String) (level : Level)

inductive LogStep where
  | set (console file : Option String)
  | reload
  | refuse
  | record

/-- `filter` is the default directive of the filter; the directives of the environment stay. -/
structure LogControl (ι : Type) where
  filter : Level
  console : String
  hasFile : Bool
  stage : ι → SetStage

namespace LogControl

variable {ι : Type}

/-- `init`. -/
def init (logLevel : String) (hasFile : Bool) : LogControl ι :=
  ⟨startLevel logLevel, logLevel, hasFile, fun _ => .idle⟩

/-- `get`: there is one filter, so the level of the file is that of the console. -/
def get (s : LogControl ι) : String × Option String :=
  (s.console, if s.hasFile then some s.console else none)

variable [DecidableEq ι]

def setStage (s : LogControl ι) (conn : ι) (g : SetStage) : LogControl ι :=
  { s with stage := Function.update s.stage conn g }

/-- `set`: the level of the file is ignored, and so is a name that is not known. -/
def step (s : LogControl ι) : ι × LogStep → Option (LogControl ι)
  | (conn, a) =>
    match s.stage conn, a with
    | .idle, .set console _ =>
      match console with
      | none => some s
      | some name =>
        match mapLevel name with
        | none => some s
        | some level => some (s.setStage conn (.called name level))
    | .called name level, .reload => some ({ s with filter := level }.setStage conn (.reloaded name level))
    | .called _ _, .refuse => some (s.setStage conn .idle)
    | .reloaded name _, .record => some ({ s with console := name }.setStage conn .idle)
    | _, _ => none

/-- Everything a step can do. -/
inductive Moved (s : LogControl ι) (conn : ι) : LogStep → LogControl ι → Prop where
  | ignored (console file : Option String) : Moved s conn (.set console file) s
  | called (name : String) (file : Option String) (level : Level) (hidle : s.stage conn = .idle)
      (hlevel : mapLevel name = some level) :
      Moved s conn (.set (some name) file) (s.setStage conn (.called name level))
  | reloaded (name : String) (level : Level) (h : s.stage conn = .called name level) :
      Moved s conn .reload ({ s with filter := level }.setStage conn (.reloaded name level))
  | refused (name : String) (level : Level) (h : s.stage conn = .called name level) :
      Moved s conn .refuse (s.setStage conn .idle)
  | recorded (name : String) (level : Level) (h : s.stage conn = .reloaded name level) :
      Moved s conn .record ({ s with console := name }.setStage conn .idle)

theorem moved_of_step {s s' : LogControl ι} {conn : ι} {a : LogStep}
    (h : s.step (conn, a) = some s') : s.Moved conn a s' := by
  simp only [step] at h
  split at h
  next console file hidle =>
    split at h
    · cases h
      exact .ignored none file
    next name =>
      split at h
      · cases h
        exact .ignored (some name) file
      next level hlevel =>
        cases h
        exact .called name file level hidle hlevel
  next name level hcalled =>
    cases h
    exact .reloaded name level hcalled
  next name level hcalled =>
    cases h
    exact .refused name level hcalled
  next name level hreloaded =>
    cases h
    exact .recorded name level hreloaded
  · cases h

/-- The connection has reloaded the filter and not stored the name yet. -/
def halfDone (s : LogControl ι) (conn : ι) : Bool :=
  match s.stage conn with
  | .reloaded _ _ => true
  | _ => false

/-- No connection reloads the filter while another is half done. -/
def Apart (s : LogControl ι) (b : ι × LogStep) (_ : LogControl ι) : Prop :=
  b.2 = .reload → ∀ conn, s.halfDone conn = false

/-- The filter has the level of the stored name, or that of the one call that is half done. -/
structure Reported (s : LogControl ι) : Prop where
  known : ∀ conn name level, s.stage conn = .called name level ∨ s.stage conn = .reloaded name level →
    mapLevel name = some level
  half : ∀ conn name level, s.stage conn = .reloaded name level →
    s.filter = level ∧ ∀ other, s.halfDone other = true → other = conn
  full : (∀ conn, s.halfDone conn = false) → s.filter = startLevel s.console

omit [DecidableEq ι] in
theorem halfDone_iff {s : LogControl ι} {conn : ι} :
    s.halfDone conn = true ↔ ∃ name level, s.stage conn = .reloaded name level := by
  unfold halfDone
  split
  next name level h => exact ⟨fun _ => ⟨name, level, h⟩, fun _ => rfl⟩
  next hnot => exact ⟨fun h => (nomatch h), fun ⟨name, level, h⟩ => absurd h (hnot name level)⟩

theorem stage_setStage (s : LogControl ι) (conn other : ι) (g : SetStage) :
    (s.setStage conn g).stage other = if other = conn then g else s.stage other := by
  by_cases h : other = conn
  · subst h
    simp [setStage]
  · simp [setStage, h]

/-- A connection that is not half done, before and after, moves on. -/
theorem Reported.setStage {s : LogControl ι} (h : s.Reported) {conn : ι} {g : SetStage}
    (hbefore : s.halfDone conn = false) (hg : ∀ name level, g ≠ .reloaded name level)
    (hknown : ∀ name level, g = .called name level → mapLevel name = some level) :
    (s.setStage conn g).Reported := by
  have hsame : ∀ c n l, (s.setStage conn g).stage c = .reloaded n l ↔ s.stage c = .reloaded n l := by
    intro c n l
    rw [stage_setStage]
    split
    next hc =>
      subst hc
      refine ⟨fun heq => absurd heq (hg n l), fun heq => ?_⟩
      rw [halfDone_iff.mpr ⟨n, l, heq⟩] at hbefore
      cases hbefore
    next => exact Iff.rfl
  have hhalf : ∀ c, (s.setStage conn g).halfDone c = s.halfDone c := by
    intro c
    rw [Bool.eq_iff_iff, halfDone_iff, halfDone_iff]
    simp only [hsame]
  refine ⟨fun c n l hc => ?_, fun c n l hc => ?_, fun hnone => ?_⟩
  · rw [stage_setStage] at hc
    split at hc
    · obtain hc | hc := hc
      · exact hknown n l hc
      · exact absurd hc (hg n l)
    · exact h.known c n l hc
  · obtain ⟨hfilter, honly⟩ := h.half c n l ((hsame c n l).mp hc)
    exact ⟨hfilter, fun o ho => honly o ((hhalf o).symm.trans ho)⟩
  · exact h.full fun c => (hhalf c).symm.trans (hnone c)

/-- The filter is reloaded while no other connection is half done. -/
theorem Reported.reload {s : LogControl ι} (h : s.Reported) {conn : ι} {name : String}
    {level : Level} (hnone : ∀ c, s.halfDone c = false) (hcalled : s.stage conn = .called name level) :
    (LogControl.setStage { s with filter := level } conn (.reloaded name level)).Reported := by
  have honly : ∀ c, (LogControl.setStage { s with filter := level } conn
      (.reloaded name level)).halfDone c = true → c = conn := by
    intro c hc
    obtain ⟨n, l, hc⟩ := halfDone_iff.mp hc
    rw [stage_setStage] at hc
    split at hc
    next heq => exact heq
    next =>
      have hhalf := halfDone_iff.mpr ⟨n, l, hc⟩
      rw [show halfDone { s with filter := level } c = s.halfDone c from rfl, hnone c] at hhalf
      cases hhalf
  refine ⟨fun c n l hc => ?_, fun c n l hc => ?_, fun hno => ?_⟩
  · rw [stage_setStage] at hc
    split at hc
    · obtain hc | hc := hc
      · cases hc
      · cases hc
        exact h.known conn name level (.inl hcalled)
    · exact h.known c n l hc
  · obtain rfl := honly c (halfDone_iff.mpr ⟨n, l, hc⟩)
    rw [stage_setStage, if_pos rfl] at hc
    cases hc
    exact ⟨rfl, honly⟩
  · have hhalf := halfDone_iff.mpr ⟨name, level, (stage_setStage { s with filter := level } conn conn
      (.reloaded name level)).trans (if_pos rfl)⟩
    rw [hno conn] at hhalf
    cases hhalf

/-- The one that is half done stores its name. -/
theorem Reported.record {s : LogControl ι} (h : s.Reported) {conn : ι} {name : String}
    {level : Level} (hreloaded : s.stage conn = .reloaded name level) :
    (LogControl.setStage { s with console := name } conn .idle).Reported := by
  obtain ⟨hfilter, honly⟩ := h.half conn name level hreloaded
  have hnone : ∀ c n l,
      (LogControl.setStage { s with console := name } conn .idle).stage c ≠ .reloaded n l := by
    intro c n l hc
    rw [stage_setStage] at hc
    split at hc
    · cases hc
    next hne => exact hne (honly c (halfDone_iff.mpr ⟨n, l, hc⟩))
  refine ⟨fun c n l hc => ?_, fun c n l hc => absurd hc (hnone c n l), fun _ => ?_⟩
  · rw [stage_setStage] at hc
    split at hc
    · obtain hc | hc := hc <;> cases hc
    · exact h.known c n l hc
  · have hlevel : startLevel name = level := by
      rw [startLevel, h.known conn name level (.inr hreloaded)]
      rfl
    exact hfilter.trans hlevel.symm

theorem Reported.step {s s' : LogControl ι} {conn : ι} {a : LogStep} (h : s.Reported)
    (hapart : s.Apart (conn, a) s') (hstep : s.step (conn, a) = some s') : s'.Reported := by
  have hmoved := moved_of_step hstep
  cases hmoved with
  | ignored console file => exact h
  | called name file level hidle hlevel =>
    refine h.setStage ?_ (fun _ _ heq => nomatch heq) fun n l heq => ?_
    · rw [halfDone, hidle]
    · cases heq
      exact hlevel
  | reloaded name level hcalled => exact h.reload (hapart rfl) hcalled
  | refused name level hcalled =>
    refine h.setStage ?_ (fun _ _ heq => nomatch heq) fun _ _ heq => nomatch heq
    rw [halfDone, hcalled]
  | recorded name level hreloaded => exact h.record hreloaded

section TwoClients

def setDebug : LogStep := .set (some "debug") none

def setError : LogStep := .set (some "error") (some "verbose")

/-- The later reload and the earlier name stay. -/
theorem level_misreported : ∃ s : LogControl Bool,
    Transition.run step (init "info" true) [(true, setDebug), (true, .reload), (false, setError),
      (false, .reload), (false, .record), (true, .record)] = some s ∧
      s.filter = .error ∧ s.get = ("debug", some "debug") :=
  ⟨_, rfl, rfl, rfl⟩

end TwoClients

end LogControl

end MatterRsServer.Server
