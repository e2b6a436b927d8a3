import MatterRsServer.Controller.Commands
import MatterRsServer.Lib.Mutex
import MatterRsServer.Lib.Outline
import MatterRsServer.Lib.Serial

/-!
# Concurrent writers of the configuration

`update_config` once more, with the outcome of its save and with the guard of
`config_write` dropped in a step of its own, next to readers that take a
`config_snapshot`. The order in which the calls write the value back is a serial order
of the calls: memory, file, results and snapshots are those of the calls made one
after the other.
-/
namespace MatterRsServer.Controller
open Lib

/-- One call of `update_config`: the closure, and how its save ends. -/
structure ConfigCall (ρ : Type) where
  mutate : ConfigData → ρ × ConfigData
  persisted : Except String Unit

/-- What callers and readers leave behind: attempted saves, results and snapshots. -/
inductive ConfigOutput (κ R : Type) (ρ : κ → Type) where
  | save (config : ConfigData) (persisted : Except String Unit)
  | returned (caller : κ) (result : ρ caller) (persisted : Except String Unit)
  | snapshot (reader : R) (config : ConfigData)

variable {κ R : Type} {ρ : κ → Type}

abbrev ConfigTask (κ R : Type) (ρ : κ → Type) := Prog Memory (ConfigOutput κ R ρ)

/-- `update_config`, called by `k`. -/
def updateConfigCall (k : κ) (call : ConfigCall (ρ k)) : ConfigTask κ R ρ :=
  .await (fun s => !s.configLocked) (fun s => { s with configLocked := true }) <|
  .read (fun s => s.config) fun cfg =>
  .emit (.save (call.mutate cfg).2 call.persisted) <|
  .modify (fun s => { s with config := (call.mutate cfg).2 }) <|
  .modify (fun s => { s with configLocked := false }) <|
  .emit (.returned k (call.mutate cfg).1 call.persisted) .done

/-- `config_snapshot`, taken by `r`. -/
def configSnapshot (r : R) : ConfigTask κ R ρ :=
  .read (fun s => s.config) fun cfg => .emit (.snapshot r cfg) .done

/-- Alone, this is `updateConfig`. -/
theorem exec_updateConfigCall (k : κ) (call : ConfigCall (ρ k)) (s : Memory) :
    ((updateConfigCall (R := R) k call).exec s).1 =
      ((updateConfig (fun cfg ret => ret (call.mutate cfg).1 (call.mutate cfg).2)
        fun _ => .done).exec s).1 := rfl

/-- `config.json` after one output: `write_json_atomic` either replaces the file or leaves it. -/
def saveConfigFile (file : ConfigData) : ConfigOutput κ R ρ → ConfigData
  | .save config (.ok ()) => config
  | _ => file

/-- `config.json` after the outputs so far. -/
def configFile (file : ConfigData) (log : List (ConfigOutput κ R ρ)) : ConfigData :=
  log.foldl saveConfigFile file

theorem configFile_concat (file : ConfigData) (log : List (ConfigOutput κ R ρ))
    (e : ConfigOutput κ R ρ) :
    configFile file (log ++ [e]) = saveConfigFile (configFile file log) e := List.foldl_concat ..

/-- The configuration after the calls in `order`, whatever became of their saves. -/
def configAfter (calls : (k : κ) → ConfigCall (ρ k)) (cfg : ConfigData) (order : List κ) :
    ConfigData := Serial.after (fun k => (calls k).mutate) cfg order

/-- What the last call in `order` whose save succeeded produced; the order from its end. -/
def lastSaved (calls : (k : κ) → ConfigCall (ρ k)) (cfg file : ConfigData) : List κ → ConfigData
  | [] => file
  | k :: earlier =>
    match (calls k).persisted with
    | .ok () => configAfter calls cfg (k :: earlier).reverse
    | .error _ => lastSaved calls cfg file earlier

def fileAfter (calls : (k : κ) → ConfigCall (ρ k)) (cfg file : ConfigData) (order : List κ) :
    ConfigData := lastSaved calls cfg file order.reverse

theorem configAfter_concat (calls : (k : κ) → ConfigCall (ρ k)) (cfg : ConfigData)
    (order : List κ) (k : κ) : configAfter calls cfg (order ++ [k]) =
      ((calls k).mutate (configAfter calls cfg order)).2 := Serial.after_concat

theorem fileAfter_concat (calls : (k : κ) → ConfigCall (ρ k)) (cfg file : ConfigData)
    (order : List κ) (k : κ) : fileAfter calls cfg file (order ++ [k]) =
      match (calls k).persisted with
      | .ok () => configAfter calls cfg (order ++ [k])
      | .error _ => fileAfter calls cfg file order := by
  have hreverse : (order ++ [k]).reverse = k :: order.reverse := by simp
  simp only [fileAfter, hreverse, lastSaved, List.reverse_cons, List.reverse_reverse]

/-- Where a call stands, with the configuration it has read or its result. -/
inductive CallStage (ρ : Type) where
  | waiting
  | locked
  | computed (cfg : ConfigData)
  | saved (cfg : ConfigData)
  | written (result : ρ)
  | unlocked (result : ρ)
  | finished

inductive ReadStage where
  | waiting
  | seen (cfg : ConfigData)
  | finished

/-- Stages of callers and readers. -/
abbrev WriteStage (ρ : κ → Type) : κ ⊕ R → Type
  | .inl k => CallStage (ρ k)
  | .inr _ => ReadStage

namespace CallStage

/-- Inside `config_write`. -/
def holdsConfig {ρ : Type} : CallStage ρ → Bool
  | .locked | .computed _ | .saved _ | .written _ => true
  | _ => false

inductive Access {ρ : Type} (call : ConfigCall ρ) (s : Memory) :
    CallStage ρ → Memory → CallStage ρ → Prop where
  | lock (hfree : s.configLocked = false) :
      Access call s .waiting { s with configLocked := true } .locked
  | read : Access call s .locked s (.computed s.config)
  | write (cfg : ConfigData) : Access call s (.saved cfg)
      { s with config := (call.mutate cfg).2 } (.written (call.mutate cfg).1)
  | unlock (result : ρ) : Access call s (.written result) { s with configLocked := false }
      (.unlocked result)

inductive Output (k : κ) (call : ConfigCall (ρ k)) :
    CallStage (ρ k) → ConfigOutput κ R ρ → CallStage (ρ k) → Prop where
  | save (cfg : ConfigData) :
      Output k call (.computed cfg) (.save (call.mutate cfg).2 call.persisted) (.saved cfg)
  | ret (result : ρ k) :
      Output k call (.unlocked result) (.returned k result call.persisted) .finished

end CallStage

namespace ReadStage

inductive Access (s : Memory) : ReadStage → Memory → ReadStage → Prop where
  | read : Access s .waiting s (.seen s.config)

inductive Output (r : R) : ReadStage → ConfigOutput κ R ρ → ReadStage → Prop where
  | note (cfg : ConfigData) : Output r (.seen cfg) (.snapshot r cfg) .finished

end ReadStage

/-- A task is done exactly at its last stage. -/
def writeProtocol (calls : (k : κ) → ConfigCall (ρ k)) :
    (i : κ ⊕ R) → Protocol Memory (ConfigOutput κ R ρ) (WriteStage ρ i)
  | .inl k => {
      left g t := t = .done → g = .finished
      knows _ _ := True
      access g s s' g' := CallStage.Access (calls k) s g s' g'
      output := CallStage.Output k (calls k) }
  | .inr r => {
      left g t := t = .done → g = .finished
      knows _ _ := True
      access g s s' g' := ReadStage.Access s g s' g'
      output := ReadStage.Output r }

theorem follows_updateConfigCall (calls : (k : κ) → ConfigCall (ρ k)) (k : κ) :
    (writeProtocol (R := R) calls (.inl k)).Follows (updateConfigCall k (calls k))
      CallStage.waiting := by
  refine ⟨nofun, fun s hs _ => ⟨_, .lock (by simpa using hs), fun _ => ?_⟩⟩
  refine ⟨nofun, fun s _ _ => ⟨_, .read, fun _ => ?_⟩⟩
  refine ⟨nofun, _, .save s.config, ?_⟩
  refine ⟨nofun, fun _ _ _ => ⟨_, .write _, fun _ => ?_⟩⟩
  refine ⟨nofun, fun _ _ _ => ⟨_, .unlock _, fun _ => ?_⟩⟩
  exact ⟨nofun, _, .ret _, fun _ => rfl⟩

theorem follows_configSnapshot (calls : (k : κ) → ConfigCall (ρ k)) (r : R) :
    (writeProtocol (R := R) calls (.inr r)).Follows (configSnapshot r) ReadStage.waiting := by
  refine ⟨nofun, fun s _ _ => ⟨_, .read, fun _ => ?_⟩⟩
  exact ⟨nofun, _, .note _, fun _ => rfl⟩

section State

variable (calls : (k : κ) → ConfigCall (ρ k)) (initial file : ConfigData)

/-- `order` holds the calls that have written their configuration back. -/
def CallStage.Holds (s : Memory) (log : List (ConfigOutput κ R ρ)) (order : List κ) (k : κ) :
    CallStage (ρ k) → Prop
  | .waiting | .locked => k ∉ order
  | .computed cfg => k ∉ order ∧ cfg = s.config
  | .saved cfg => k ∉ order ∧ cfg = s.config ∧
      configFile file log = fileAfter calls initial file (order ++ [k])
  | .written result | .unlocked result =>
      Serial.Ran (fun k => (calls k).mutate) initial order k result
  | .finished => ∃ result, Serial.Ran (fun k => (calls k).mutate) initial order k result ∧
      .returned k result (calls k).persisted ∈ log

def ReadStage.Holds (order : List κ) : ReadStage → Prop
  | .seen cfg => Serial.Passes (fun k => (calls k).mutate) initial order cfg
  | _ => True

/-- Whether the task of this stage is inside `config_write`. -/
def WriteStage.holdsConfig : (i : κ ⊕ R) → WriteStage ρ i → Bool
  | .inl _, g => CallStage.holdsConfig g
  | .inr _, _ => false

structure ConfigState (stage : (i : κ ⊕ R) → WriteStage ρ i) (s : Memory)
    (log : List (ConfigOutput κ R ρ)) (order : List κ) : Prop where
  sole : Mutex.Sole (fun s : Memory => s.configLocked)
    (fun i => WriteStage.holdsConfig i (stage i)) s
  nodup : order.Nodup
  config : s.config = configAfter calls initial order
  callers : ∀ k, CallStage.Holds calls initial file s log order k (stage (.inl k))
  readers : ∀ r, ReadStage.Holds calls initial order (stage (.inr r))
  returned : ∀ k result persisted, .returned k result persisted ∈ log →
    Serial.Ran (fun k => (calls k).mutate) initial order k result ∧
      persisted = (calls k).persisted
  shown : ∀ r cfg, .snapshot r cfg ∈ log →
    Serial.Passes (fun k => (calls k).mutate) initial order cfg
  file : (∀ k cfg, stage (.inl k) ≠ CallStage.saved cfg) →
    configFile file log = fileAfter calls initial file order

variable {calls initial file} {s s' : Memory} {log log' : List (ConfigOutput κ R ρ)}
  {order order' : List κ}

/-- Neither the value nor the file has changed. -/
theorem CallStage.Holds.mono {k : κ} {g : CallStage (ρ k)}
    (hconfig : s'.config = s.config) (hfile : configFile file log' = configFile file log)
    (hlog : ∀ e ∈ log, e ∈ log') (h : g.Holds calls initial file s log order k) :
    g.Holds calls initial file s' log' order k := by
  cases g with
  | computed cfg => exact ⟨h.1, h.2.trans hconfig.symm⟩
  | saved cfg => exact ⟨h.1, h.2.1.trans hconfig.symm, hfile.trans h.2.2⟩
  | finished =>
    obtain ⟨result, hran, hret⟩ := h
    exact ⟨result, hran, hlog _ hret⟩
  | waiting | locked | written | unlocked => exact h

/-- A task outside `config_write` minds neither. -/
theorem CallStage.Holds.of_not_holdsConfig {k : κ} {g : CallStage (ρ k)}
    (hg : g.holdsConfig = false) (hfresh : k ∉ order → k ∉ order')
    (hran : ∀ result, Serial.Ran (fun k => (calls k).mutate) initial order k result →
      Serial.Ran (fun k => (calls k).mutate) initial order' k result)
    (hlog : ∀ e ∈ log, e ∈ log') (h : g.Holds calls initial file s log order k) :
    g.Holds calls initial file s' log' order' k := by
  cases g with
  | waiting => exact hfresh h
  | unlocked result => exact hran result h
  | finished =>
    obtain ⟨result, hresult, hret⟩ := h
    exact ⟨result, hran result hresult, hlog _ hret⟩
  | _ => cases hg

theorem ReadStage.Holds.concat {g : ReadStage} {k : κ} (h : g.Holds calls initial order) :
    g.Holds calls initial (order ++ [k]) := by
  cases g with
  | seen cfg => exact Serial.Passes.concat h
  | _ => trivial

namespace ConfigState

variable {stage : (i : κ ⊕ R) → WriteStage ρ i}

/-- Nobody else is inside `config_write`. -/
theorem others_outside (h : ConfigState calls initial file stage s log order) {k j : κ}
    (hk : CallStage.holdsConfig (stage (.inl k)) = true) (hj : j ≠ k) :
    CallStage.holdsConfig (stage (.inl j)) = false := by
  apply Bool.eq_false_iff.mpr
  exact fun hheld => hj (Sum.inl.inj (h.sole.unique (.inl j) (.inl k) hheld hk))

variable [DecidableEq κ] [DecidableEq R]

/-- The stages of the callers once `k` has moved on. -/
theorem callers_update {k : κ} {g' : CallStage (ρ k)}
    (hself : g'.Holds calls initial file s log order k)
    (hothers : ∀ j, j ≠ k →
      CallStage.Holds calls initial file s log order j (stage (.inl j))) (j : κ) :
    CallStage.Holds calls initial file s log order j
      (Function.update stage (.inl k) g' (.inl j)) := by
  by_cases hj : j = k
  · subst hj
    rwa [Function.update_self]
  · rw [Function.update_of_ne (fun h => hj (Sum.inl.inj h))]
    exact hothers j hj

theorem saving_update {k : κ} {g' : CallStage (ρ k)} (hg' : ∀ cfg, g' ≠ .saved cfg)
    (hk : ∀ cfg, stage (.inl k) ≠ CallStage.saved cfg)
    (h : ∀ j cfg, Function.update stage (.inl k) g' (.inl j) ≠ CallStage.saved cfg) (j : κ)
    (cfg : ConfigData) : stage (.inl j) ≠ CallStage.saved cfg := by
  by_cases hj : j = k
  · subst hj
    exact hk cfg
  · have hstage := h j cfg
    rwa [Function.update_of_ne (fun h => hj (Sum.inl.inj h))] at hstage

/-- The write-back puts the call at the end of the order. -/
theorem write (h : ConfigState calls initial file stage s log order) {k : κ} {cfg : ConfigData}
    (hk : stage (.inl k) = CallStage.saved cfg) :
    ConfigState calls initial file
      (Function.update stage (.inl k) (CallStage.written ((calls k).mutate cfg).1))
      { s with config := ((calls k).mutate cfg).2 } log (order ++ [k]) := by
  have hholds := h.callers k
  rw [hk] at hholds
  obtain ⟨hfresh, hcfg, hfile⟩ := hholds
  rw [h.config] at hcfg
  subst hcfg
  refine ⟨?_, ?_, (configAfter_concat calls initial order k).symm, ?_, ?_, ?_, ?_, fun _ => hfile⟩
  · apply h.sole.move_stage
    rw [hk]
    exact .keep _ rfl
  · exact List.nodup_append.mpr ⟨h.nodup, List.nodup_singleton k, fun a ha b hb => by
      rw [List.mem_singleton.mp hb]
      exact fun heq => hfresh (heq ▸ ha)⟩
  · apply callers_update (k := k)
    · exact Serial.ran_last
    · intro j hj
      apply (h.callers j).of_not_holdsConfig (h.others_outside (by rw [hk]; rfl) hj)
      · intro hnot hmem
        rcases List.mem_append.mp hmem with hmem | hmem
        · exact hnot hmem
        · exact hj (List.mem_singleton.mp hmem)
      · exact fun _ hran => hran.concat
      · exact fun _ he => he
  · exact fun r => (h.readers r).concat
  · intro j result persisted hmem
    exact (h.returned j result persisted hmem).imp_left Serial.Ran.concat
  · exact fun r x hmem => (h.shown r x hmem).concat

/-- A step of `k` that leaves the value, the file and the order. -/
theorem quiet (h : ConfigState calls initial file stage s log order) {k : κ}
    {g' : CallStage (ρ k)} (hconfig : s'.config = s.config)
    (hmove : Mutex.Move (fun s : Memory => s.configLocked) s s'
      (CallStage.holdsConfig (stage (.inl k))) g'.holdsConfig)
    (hself : g'.Holds calls initial file s' log order k) (hg' : ∀ cfg, g' ≠ .saved cfg)
    (hk : ∀ cfg, stage (.inl k) ≠ CallStage.saved cfg) :
    ConfigState calls initial file (Function.update stage (.inl k) g') s' log order := by
  refine ⟨h.sole.move_stage hmove, h.nodup, hconfig.trans h.config, ?_, fun r => ?_, h.returned,
    h.shown, fun hnone => h.file (saving_update hg' hk hnone)⟩
  · apply callers_update (k := k) hself
    exact fun j _ => (h.callers j).mono hconfig rfl fun _ he => he
  · exact h.readers r

theorem callAccess (h : ConfigState calls initial file stage s log order) {k : κ}
    {g' : CallStage (ρ k)} (haccess : CallStage.Access (calls k) s (stage (.inl k)) s' g') :
    ∃ order', ConfigState calls initial file (Function.update stage (.inl k) g') s' log order' := by
  have hholds := h.callers k
  generalize hk : stage (.inl k) = g at haccess hholds
  cases haccess with
  | lock hfree =>
    refine ⟨order, h.quiet rfl ?_ hholds (fun _ => nofun) (by simp [hk])⟩
    rw [hk]
    exact .acquire hfree rfl
  | read =>
    refine ⟨order, h.quiet rfl ?_ ⟨hholds, rfl⟩ (fun _ => nofun) (by simp [hk])⟩
    rw [hk]
    exact .keep _ rfl
  | write cfg => exact ⟨_, h.write hk⟩
  | unlock result =>
    refine ⟨order, h.quiet rfl ?_ hholds (fun _ => nofun) (by simp [hk])⟩
    rw [hk]
    exact .release rfl

/-- The save comes before the write-back: the file is ahead of the memory by this one call. -/
theorem save (h : ConfigState calls initial file stage s log order) {k : κ} {cfg : ConfigData}
    (hk : stage (.inl k) = CallStage.computed cfg) :
    ConfigState calls initial file (Function.update stage (.inl k) (CallStage.saved cfg)) s
      (log ++ [.save ((calls k).mutate cfg).2 (calls k).persisted]) order := by
  have hholds := h.callers k
  rw [hk] at hholds
  obtain ⟨hfresh, hcfg⟩ := hholds
  have hfile : configFile file log = fileAfter calls initial file order := by
    apply h.file
    intro j x hj
    by_cases hjk : j = k
    · subst hjk
      rw [hk] at hj
      cases hj
    · have hout := h.others_outside (by rw [hk]; rfl) hjk
      rw [hj] at hout
      cases hout
  refine ⟨?_, h.nodup, h.config, ?_, fun r => h.readers r, ?_, ?_, ?_⟩
  · apply h.sole.move_stage
    rw [hk]
    exact .keep _ rfl
  · apply callers_update (k := k)
    · refine ⟨hfresh, hcfg, ?_⟩
      rw [configFile_concat, fileAfter_concat, configAfter_concat, ← h.config, ← hcfg, hfile]
      cases (calls k).persisted <;> rfl
    · intro j hj
      apply (h.callers j).of_not_holdsConfig (h.others_outside (by rw [hk]; rfl) hj)
      · exact id
      · exact fun _ => id
      · exact fun _ he => List.mem_append_left _ he
  · intro j result persisted hmem
    exact h.returned j result persisted (by simpa using hmem)
  · exact fun r x hmem => h.shown r x (by simpa using hmem)
  · exact fun hnone => absurd (Function.update_self ..) (hnone k cfg)

theorem ret (h : ConfigState calls initial file stage s log order) {k : κ} {result : ρ k}
    (hk : stage (.inl k) = CallStage.unlocked result) :
    ConfigState calls initial file (Function.update stage (.inl k) CallStage.finished) s
      (log ++ [.returned k result (calls k).persisted]) order := by
  have hran := h.callers k
  rw [hk] at hran
  refine ⟨?_, h.nodup, h.config, ?_, fun r => h.readers r, ?_, ?_, ?_⟩
  · apply h.sole.move_stage
    rw [hk]
    exact .keep _ rfl
  · apply callers_update (k := k)
    · exact ⟨result, hran, by simp⟩
    · exact fun j _ => (h.callers j).mono rfl (configFile_concat ..) fun _ he =>
        List.mem_append_left _ he
  · intro j x persisted hmem
    rcases List.mem_append.mp hmem with hmem | hmem
    · exact h.returned j x persisted hmem
    · cases List.mem_singleton.mp hmem
      exact ⟨hran, rfl⟩
  · exact fun r x hmem => h.shown r x (by simpa using hmem)
  · intro hnone
    rw [configFile_concat]
    exact h.file (saving_update (by exact fun _ => nofun) (by simp [hk]) hnone)

/-- A reader moves: what it has seen or shows is a point of the order. -/
theorem look (h : ConfigState calls initial file stage s log order) {r : R} {g' : ReadStage}
    (hg' : g'.Holds calls initial order) (hlog : ∀ e ∈ log, e ∈ log')
    (hnew : ∀ e ∈ log', e ∈ log ∨ ∃ cfg, e = .snapshot r cfg ∧
      Serial.Passes (fun k => (calls k).mutate) initial order cfg)
    (hfile : configFile file log' = configFile file log) :
    ConfigState calls initial file (Function.update stage (.inr r) g') s log' order := by
  have hcallers : ∀ k, Function.update stage (.inr r) g' (.inl k) = stage (.inl k) :=
    fun k => Function.update_of_ne (by simp) _ _
  refine ⟨h.sole.move_stage (.keep _ rfl), h.nodup, h.config, fun k => ?_, fun q => ?_, ?_, ?_, ?_⟩
  · rw [hcallers]
    exact (h.callers k).mono rfl hfile hlog
  · by_cases hq : q = r
    · subst hq
      rwa [Function.update_self]
    · rw [Function.update_of_ne (fun heq => hq (Sum.inr.inj heq))]
      exact h.readers q
  · intro j x persisted hmem
    rcases hnew _ hmem with hmem | ⟨_, heq, -⟩
    · exact h.returned j x persisted hmem
    · cases heq
  · intro q x hmem
    rcases hnew _ hmem with hmem | ⟨_, heq, hpasses⟩
    · exact h.shown q x hmem
    · cases heq
      exact hpasses
  · intro hnone
    rw [hfile]
    exact h.file fun k => by rw [← hcallers k]; exact hnone k

theorem step (h : ∃ order, ConfigState calls initial file stage s log order) {i : κ ⊕ R}
    {stage' : (i : κ ⊕ R) → WriteStage ρ i}
    (hstep : Protocol.Step (writeProtocol calls) i stage s log stage' s' log') :
    ∃ order, ConfigState calls initial file stage' s' log' order := by
  obtain ⟨order, h⟩ := h
  cases i with
  | inl k =>
    cases hstep with
    | access _ g' haccess => exact h.callAccess haccess
    | output e g' houtput =>
      have houtput : CallStage.Output k (calls k) (stage (.inl k)) e g' := houtput
      generalize hk : stage (.inl k) = g at houtput
      cases houtput with
      | save cfg => exact ⟨order, h.save hk⟩
      | ret result => exact ⟨order, h.ret hk⟩
  | inr r =>
    cases hstep with
    | access _ g' haccess =>
      have haccess : ReadStage.Access s (stage (.inr r)) s' g' := haccess
      generalize stage (.inr r) = g at haccess
      cases haccess with
      | read =>
        refine ⟨order, h.look ?_ (fun e he => he) (fun e he => Or.inl he) rfl⟩
        rw [h.config]
        exact Serial.passes_self
    | output e g' houtput =>
      have houtput : ReadStage.Output r (stage (.inr r)) e g' := houtput
      generalize hr : stage (.inr r) = g at houtput
      cases houtput with
      | note cfg =>
        have hpasses := h.readers r
        rw [hr] at hpasses
        refine ⟨order, h.look trivial (fun e he => List.mem_append_left _ he) (fun e he => ?_)
          (configFile_concat ..)⟩
        rcases List.mem_append.mp he with he | he
        · exact Or.inl he
        · exact Or.inr ⟨cfg, List.mem_singleton.mp he, hpasses⟩

end ConfigState

end State

/-- Callers and readers at their start. -/
structure WritersStart (calls : (k : κ) → ConfigCall (ρ k))
    (c : Config (κ ⊕ R) Memory (ConfigOutput κ R ρ)) : Prop where
  callers : ∀ k, c.task (.inl k) = updateConfigCall k (calls k)
  readers : ∀ r, c.task (.inr r) = configSnapshot r
  log : c.log = []

/-- The order in which the calls write back is a serial order of them: along it the memory, every
result and every snapshot come out, and once all have finished it holds every call and the file
is what the last successful save of that order wrote. -/
theorem updateConfig_serializable [DecidableEq κ] [DecidableEq R]
    (calls : (k : κ) → ConfigCall (ρ k)) (file : ConfigData)
    {c c' : Config (κ ⊕ R) Memory (ConfigOutput κ R ρ)} {sched : List (κ ⊕ R)}
    (hstart : WritersStart calls c) (hrun : c.run sched = some c') :
    ∃ order : List κ, order.Nodup ∧
      c'.mem.config = configAfter calls c.mem.config order ∧
      (∀ k result persisted, .returned k result persisted ∈ c'.log →
        (∃ before rest, order = before ++ k :: rest ∧
          result = ((calls k).mutate (configAfter calls c.mem.config before)).1) ∧
        persisted = (calls k).persisted) ∧
      (∀ r cfg, .snapshot r cfg ∈ c'.log →
        ∃ before, before <+: order ∧ cfg = configAfter calls c.mem.config before) ∧
      (c'.Quiescent →
        (∀ k, k ∈ order ∧ ∃ result, .returned k result (calls k).persisted ∈ c'.log) ∧
        configFile file c'.log = fileAfter calls c.mem.config file order) := by
  let first : (i : κ ⊕ R) → WriteStage ρ i
    | .inl _ => CallStage.waiting
    | .inr _ => ReadStage.waiting
  have hmeets : Protocol.Meets (writeProtocol calls)
      (fun stage s log => ∃ order, ConfigState calls c.mem.config file stage s log order) c := by
    refine ⟨first, fun i => ?_, [], ?_⟩
    · cases i with
      | inl k => exact hstart.callers k ▸ follows_updateConfigCall calls k
      | inr r => exact hstart.readers r ▸ follows_configSnapshot calls r
    · rw [hstart.log]
      have hunheld : (fun i => WriteStage.holdsConfig i (first i)) = fun _ => false := by
        funext i
        cases i <;> rfl
      exact ⟨hunheld ▸ .start _, .nil, rfl, fun k => List.not_mem_nil, fun _ => trivial,
        fun _ _ _ => nofun, fun _ _ => nofun, fun _ => rfl⟩
  obtain ⟨stage, hfollows, order, hstate⟩ := Protocol.Meets.run
    (fun _ _ _ _ i => by cases i <;> trivial) (fun _ _ _ _ _ _ h _ hs => ConfigState.step h hs)
    hmeets (Config.along_log (Q := fun _ => True) (fun _ _ => id) hrun trivial) hrun
  refine ⟨order, hstate.nodup, hstate.config, hstate.returned, hstate.shown, fun hquiescent => ?_⟩
  have hfinished : ∀ k, stage (.inl k) = CallStage.finished :=
    fun k => (hfollows (.inl k)).left (hquiescent (.inl k))
  constructor
  · intro k
    have hk := hstate.callers k
    rw [hfinished k] at hk
    obtain ⟨result, hran, hret⟩ := hk
    exact ⟨hran.mem, result, hret⟩
  · apply hstate.file
    intro k cfg
    rw [hfinished k]
    exact nofun

section Writers

/-- A label change whose save fails, an allocation whose save succeeds, and one reader. -/
def twoWriters : Bool → ConfigCall NodeId
  | true => ⟨fun cfg => (0, { cfg with fabricLabel := "Home" }), .error "No space left on device"⟩
  | false => ⟨fun cfg => (cfg.nextNodeId, { cfg with nextNodeId := cfg.nextNodeId + 1 }), .ok ()⟩

def writersStart : Config (Bool ⊕ Unit) Memory (ConfigOutput Bool Unit fun _ => NodeId) where
  mem := lampMemory
  log := []
  task
    | .inl k => updateConfigCall k (twoWriters k)
    | .inr r => configSnapshot r

/-- The reader looks between the failed save and the write-back that follows it. -/
def writersSchedule : List (Bool ⊕ Unit) :=
  List.replicate 3 (.inl true) ++ [.inr ()] ++ List.replicate 3 (.inl true) ++
    List.replicate 6 (.inl false) ++ [.inr ()]

theorem updateConfig_serializable_failedSave : ∃ c', writersStart.run writersSchedule = some c' ∧
    c'.mem.config.fabricLabel = "Home" ∧ c'.mem.config.nextNodeId = 9 ∧
      ∃ order : List Bool, order.Nodup ∧
        configFile lampMemory.config c'.log =
          fileAfter twoWriters lampMemory.config lampMemory.config order := by
  have hstart : WritersStart twoWriters writersStart := ⟨fun _ => rfl, fun _ => rfl, rfl⟩
  have hrun : writersStart.run writersSchedule = some _ := rfl
  obtain ⟨order, hnodup, -, -, -, hend⟩ :=
    updateConfig_serializable twoWriters lampMemory.config hstart hrun
  refine ⟨_, hrun, rfl, rfl, order, hnodup, (hend ?_).2⟩
  intro i
  rcases i with (k | k) | r <;> rfl

end Writers

end MatterRsServer.Controller
