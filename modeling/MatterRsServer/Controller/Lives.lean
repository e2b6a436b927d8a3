import MatterRsServer.Controller.NodeIds
import MatterRsServer.Controller.Restart
import Mathlib.Data.List.Chain

/-!
# Node ids across restarts

The counter of the node ids as `config.json` carries it from one process to the next. A process may
stop at any point and any file operation may fail. In memory the counter moves on whether or not
it could be saved; an id is kept from later processes by the save of its allocation, or by
any save that comes after it was given away.
-/
namespace MatterRsServer.Controller
open Lib Wire

/-- The counters that the saves of the configuration carry, in order. -/
def savedCounters (log : List Effect) : List NodeId :=
  log.filterMap fun e => match e with
    | .saveConfig cfg => some cfg.nextNodeId
    | _ => none

@[simp] theorem savedCounters_append (l m : List Effect) :
    savedCounters (l ++ m) = savedCounters l ++ savedCounters m := List.filterMap_append

/-- Where a task stands with respect to the counter; `id` is the id it allocates, if any. -/
inductive CounterStage where
  | outside
  | locked
  | searching (candidate : NodeId)
  | ready (id : Option NodeId) (next : NodeId)
  | saved (id : Option NodeId) (next : NodeId)
  | allocated (id : NodeId)

namespace CounterStage

def holdsConfig : CounterStage → Bool
  | .outside | .allocated _ => false
  | _ => true

/-- Once the configuration is written back. -/
def written : Option NodeId → CounterStage
  | none => .outside
  | some id => .allocated id

inductive Access (controllerNodeId : NodeId) (s : Memory) :
    CounterStage → Memory → CounterStage → Prop where
  | pass (g : CounterStage) (s' : Memory) (hconfig : s'.config = s.config)
      (hlocked : s'.configLocked = s.configLocked) : Access controllerNodeId s g s' g
  | lock (hfree : s.configLocked = false) :
      Access controllerNodeId s .outside { s with configLocked := true } .locked
  | read : Access controllerNodeId s .locked s (.ready none s.config.nextNodeId)
  | search : Access controllerNodeId s .locked s (.searching (max s.config.nextNodeId 1))
  | skip (candidate : NodeId) (hused : s.inUse controllerNodeId candidate = true) :
      Access controllerNodeId s (.searching candidate) s (.searching (candidate + 1))
  | choose (candidate : NodeId) :
      Access controllerNodeId s (.searching candidate) s (.ready (some candidate) (candidate + 1))
  | write (id : Option NodeId) (cfg : ConfigData) :
      Access controllerNodeId s (.saved id cfg.nextNodeId)
        { s with config := cfg, configLocked := false } (written id)

inductive Output : CounterStage → Effect → CounterStage → Prop where
  | save (id : Option NodeId) (cfg : ConfigData) :
      Output (.ready id cfg.nextNodeId) (.saveConfig cfg) (.saved id cfg.nextNodeId)
  | request (req : CommissionRequest) :
      Output (.allocated req.nodeId) (.stack (.commission req)) .outside
  | other (g : CounterStage) (e : Effect) (h : FollowsAlloc.IsOther e) : Output g e g

end CounterStage

def counterProtocol (controllerNodeId : NodeId) : Protocol Memory Effect CounterStage where
  left _ _ := True
  knows _ _ := True
  access g s s' g' := g.Access controllerNodeId s s' g'
  output := CounterStage.Output

namespace FollowsCounter

variable {fuel : Nat} {controllerNodeId : NodeId} {g : CounterStage}

/-- Neither the configuration nor its lock has changed. -/
def Quiet (s s' : Memory) : Prop := s'.config = s.config ∧ s'.configLocked = s.configLocked

theorem admits : Admits Quiet FollowsAlloc.IsOther where
  keeps _ _ h := ⟨h.config, h.configLocked⟩
  report := FollowsAlloc.admits.report
  reply := FollowsAlloc.admits.reply

theorem within {t : Task} (h : t.Within Quiet FollowsAlloc.IsOther) :
    (counterProtocol controllerNodeId).Follows t g := by
  apply Prog.Within.follows _ _ _ h
  · exact fun _ _ => trivial
  · exact fun s s' hs => .pass g s' hs.1 hs.2
  · exact fun e he => .other g e he

theorem reply (result : Except CommandError Json) :
    (Controller.reply result).Within Quiet FollowsAlloc.IsOther := ⟨admits.reply result, trivial⟩

theorem endCommission (result : Except CommandError Json) :
    (Controller.endCommission result).Within Quiet FollowsAlloc.IsOther :=
  Prog.Within.step (fun _ => ⟨rfl, rfl⟩) fun _ => reply result

theorem announceNode (nodeId : NodeId) :
    (Controller.announceNode nodeId).Within Quiet FollowsAlloc.IsOther := by
  apply Within.read admits.refreshes
  intro nd
  cases nd with
  | none => exact endCommission _
  | some nd =>
    exact ⟨⟨(fun _ h => nomatch h), (fun _ h => nomatch h)⟩,
      ⟨(fun _ h => nomatch h), (fun _ h => nomatch h)⟩, endCommission _⟩

theorem registerNode (record : NodeRecord) :
    (Controller.registerNode record).Within Quiet FollowsAlloc.IsOther :=
  Prog.Within.step (fun _ => ⟨rfl, rfl⟩) fun _ =>
    ⟨⟨(fun _ h => nomatch h), (fun _ h => nomatch h)⟩, announceNode _⟩

theorem commissionNode (a : CommissionAttempt) (id : NodeId) :
    (counterProtocol controllerNodeId).Follows (Controller.commissionNode a id) (.allocated id) := by
  refine ⟨trivial, fun s _ _ => ⟨_, .pass _ _ rfl rfl, fun _ => ?_⟩⟩
  refine ⟨trivial, _, .request ⟨id, _, _⟩, ?_⟩
  split
  · exact within (endCommission _)
  · refine within ⟨⟨(fun _ h => nomatch h), (fun _ h => nomatch h)⟩, ?_⟩
    split
    · exact ⟨⟨(fun _ h => nomatch h), (fun _ h => nomatch h)⟩, endCommission _⟩
    · exact registerNode _

theorem skipInUse {k : NodeId → Task}
    (hk : ∀ id, (counterProtocol controllerNodeId).Follows (k id) (.ready (some id) (id + 1)))
    (left : Nat) (candidate : NodeId) : (counterProtocol controllerNodeId).Follows
      (Controller.skipInUse (idInUse controllerNodeId) k left candidate) (.searching candidate) := by
  induction left generalizing candidate with
  | zero => exact ⟨trivial, fun _ hready => nomatch hready⟩
  | succ left ih =>
    refine ⟨trivial, fun s _ _ => ?_⟩
    change ∃ g', _ ∧ (_ → (counterProtocol controllerNodeId).Follows
      (if s.inUse controllerNodeId candidate = true then _ else _) g')
    split
    next hused => exact ⟨_, .skip candidate hused, fun _ => ih (candidate + 1)⟩
    next => exact ⟨_, .choose candidate, fun _ => hk candidate⟩

/-- The save and the write-back of a configuration that is ready. -/
theorem storeConfig {id : Option NodeId} {cfg : ConfigData} {next : NodeId} {k : Task}
    (hnext : cfg.nextNodeId = next)
    (hk : (counterProtocol controllerNodeId).Follows k (.written id)) :
    (counterProtocol controllerNodeId).Follows (.emit (.saveConfig cfg) <|
      .modify (fun s => { s with config := cfg, configLocked := false }) k) (.ready id next) := by
  subst hnext
  exact ⟨trivial, _, .save id cfg, trivial, fun _ _ _ => ⟨_, .write id cfg, fun _ => hk⟩⟩

theorem doCommission (a : CommissionAttempt) : (counterProtocol controllerNodeId).Follows
    (Controller.doCommission fuel controllerNodeId a) .outside := by
  refine ⟨trivial, fun s _ _ => ⟨_, .pass _ _ rfl rfl, fun _ => ?_⟩⟩
  refine ⟨trivial, fun s hfree _ => ⟨_, .lock (by simpa using hfree), fun _ => ?_⟩⟩
  refine ⟨trivial, fun s _ _ => ⟨_, .search, fun _ => ?_⟩⟩
  exact skipInUse (fun id => storeConfig rfl (commissionNode a id)) fuel _

theorem changeConfig (change : ConfigChange) (persisted : Except String Unit)
    (result : Except String Unit → Except CommandError Json) :
    (counterProtocol controllerNodeId).Follows
      (Controller.changeConfig change persisted result) .outside := by
  refine ⟨trivial, fun s hfree _ => ⟨_, .lock (by simpa using hfree), fun _ => ?_⟩⟩
  refine ⟨trivial, fun s _ _ => ⟨_, .read, fun _ => ?_⟩⟩
  exact storeConfig (ConfigChange.nextNodeId_apply change s.config) (within (reply _))

theorem start {t : Task} (h : IsProcessTask fuel controllerNodeId t) :
    (counterProtocol controllerNodeId).Follows t .outside := by
  cases h with
  | nodeManager inputs => exact within (Within.nodeManager admits inputs)
  | interviewNode id interview now =>
    exact within (Within.interviewNode admits id interview now
      ⟨(fun _ h => nomatch h), (fun _ h => nomatch h)⟩)
  | removeNode id =>
    exact within ((FollowsAlloc.removeNode id).mono fun _ _ h => ⟨h.config, h.configLocked⟩)
  | doCommission a => exact doCommission a
  | changeConfig change persisted result => exact changeConfig change persisted result
  | idle => exact within trivial

end FollowsCounter

/-- What is true of a task at its stage. -/
def CounterStage.Holds (first : NodeId) (s : Memory) (log : List Effect) : CounterStage → Prop
  | .searching candidate => s.config.nextNodeId ≤ candidate
  | .ready none next => next = s.config.nextNodeId
  | .ready (some id) next => s.config.nextNodeId ≤ id ∧ next = id + 1
  | .saved id next => s.config.nextNodeId ≤ next ∧ (∀ x ∈ savedCounters log, x ≤ next) ∧
      ∀ i ∈ id, s.config.nextNodeId ≤ i ∧ i < next
  | .allocated id => first ≤ id ∧ id < s.config.nextNodeId
  | _ => True

/-- Every save carries a counter that is past the ids given away before it. -/
def SavesPass (log : List Effect) : Prop :=
  ∀ before cfg after, log = before ++ .saveConfig cfg :: after →
    ∀ id ∈ handedIds before, id < cfg.nextNodeId

/-- The counter over a run that began with `first`. -/
structure CounterState {ι : Type} (first : NodeId) (stage : ι → CounterStage) (s : Memory)
    (log : List Effect) : Prop where
  config : Mutex.Sole (fun s : Memory => s.configLocked) (fun i => (stage i).holdsConfig) s
  start : first ≤ s.config.nextNodeId
  saves : (first :: savedCounters log).Pairwise (· ≤ ·)
  behind : (∀ i id next, stage i ≠ .saved id next) →
    ∀ x ∈ savedCounters log, x ≤ s.config.nextNodeId
  handed : ∀ id ∈ handedIds log, first ≤ id ∧ id < s.config.nextNodeId
  passed : SavesPass log
  holds : ∀ i, (stage i).Holds first s log

theorem SavesPass.concat {log : List Effect} (h : SavesPass log) {e : Effect}
    (he : ∀ cfg, e = .saveConfig cfg → ∀ id ∈ handedIds log, id < cfg.nextNodeId) :
    SavesPass (log ++ [e]) := by
  intro before cfg after heq
  rcases List.eq_nil_or_concat' after with rfl | ⟨after', e', rfl⟩
  · obtain ⟨rfl, hlast⟩ := List.append_inj' heq rfl
    exact he cfg (List.cons.inj hlast).1
  · rw [← List.cons_append, ← List.append_assoc] at heq
    exact h before cfg after' (List.append_inj' heq rfl).1

namespace CounterStage

variable {controllerNodeId first : NodeId} {s s' : Memory} {log : List Effect} {g g' : CounterStage}

theorem Access.move (h : g.Access controllerNodeId s s' g') :
    Mutex.Move (fun s : Memory => s.configLocked) s s' g.holdsConfig g'.holdsConfig := by
  cases h with
  | pass _ _ _ hlocked => exact .keep _ hlocked
  | lock hfree => exact .acquire hfree rfl
  | write id cfg =>
    have hwritten : (written id).holdsConfig = false := by cases id <;> rfl
    rw [hwritten]
    exact .release rfl
  | _ => exact .keep _ rfl

/-- Only the write-back moves the counter. -/
theorem Access.frame (h : g.Access controllerNodeId s s' g') :
    (s'.config.nextNodeId = s.config.nextNodeId ∧ ∀ id next, g = .saved id next → g' = g) ∨
      ∃ id, g = .saved id s'.config.nextNodeId := by
  cases h with
  | pass _ _ hconfig _ => exact .inl ⟨congrArg _ hconfig, fun _ _ _ => rfl⟩
  | write id cfg => exact .inr ⟨id, rfl⟩
  | _ => exact .inl ⟨rfl, fun _ _ h => nomatch h⟩

/-- The counter never goes back. -/
theorem Access.grows (h : g.Access controllerNodeId s s' g') (hg : g.Holds first s log) :
    s.config.nextNodeId ≤ s'.config.nextNodeId := by
  rcases h.frame with ⟨hsame, -⟩ | ⟨id, rfl⟩
  · exact le_of_eq hsame.symm
  · exact hg.1

/-- A task outside `config_write` minds neither the saves nor a counter that grows. -/
theorem Holds.of_not_holdsConfig {log' : List Effect} (hg : g.holdsConfig = false)
    (hgrows : s.config.nextNodeId ≤ s'.config.nextNodeId) (h : g.Holds first s log) :
    g.Holds first s' log' := by
  cases g with
  | outside => trivial
  | allocated id => exact ⟨h.1, lt_of_lt_of_le h.2 hgrows⟩
  | _ => cases hg

theorem Holds.of_same {log' : List Effect} (hnext : s'.config.nextNodeId = s.config.nextNodeId)
    (hsaves : savedCounters log' = savedCounters log) (h : g.Holds first s log) :
    g.Holds first s' log' := by
  cases g with
  | outside | locked => trivial
  | ready id next =>
    cases id with
    | none => exact Eq.trans h hnext.symm
    | some id => exact ⟨hnext ▸ h.1, h.2⟩
  | _ => simpa only [Holds, hnext, hsaves] using h

/-- The task that moves is at a stage that fits what it did. -/
theorem Access.holds (h : g.Access controllerNodeId s s' g') (hstart : first ≤ s.config.nextNodeId)
    (hlt : ∀ id, s.inUse controllerNodeId id = true → id < maxNodeId) (hg : g.Holds first s log) :
    g'.Holds first s' log := by
  cases h with
  | pass _ _ hconfig _ => exact hg.of_same (congrArg _ hconfig) rfl
  | lock => trivial
  | read => rfl
  | search => exact le_max_left _ _
  | skip candidate hused =>
    exact le_of_lt ((lt_succ_iff (hlt candidate hused)).mpr hg)
  | choose candidate => exact ⟨hg, rfl⟩
  | write id cfg =>
    cases id with
    | none => trivial
    | some id =>
      obtain ⟨hle, hid⟩ := hg.2.2 id rfl
      exact ⟨le_trans hstart hle, hid⟩

end CounterStage

namespace CounterState

variable {ι : Type} {controllerNodeId first : NodeId} {stage : ι → CounterStage} {s s' : Memory}
  {log : List Effect} {i : ι} {g' : CounterStage}

/-- Nobody else is inside `config_write`. -/
theorem others_outside (h : CounterState first stage s log)
    (hi : (stage i).holdsConfig = true) {j : ι} (hj : j ≠ i) : (stage j).holdsConfig = false :=
  Bool.eq_false_iff.mpr fun hheld => hj (h.config.unique j i hheld hi)

/-- With one task inside `config_write` that has not saved, no save is ahead of the counter. -/
theorem behind_of_holds (h : CounterState first stage s log) (hi : (stage i).holdsConfig = true)
    (hnot : ∀ id next, stage i ≠ .saved id next) :
    ∀ x ∈ savedCounters log, x ≤ s.config.nextNodeId := by
  apply h.behind
  intro j id next hj
  by_cases hji : j = i
  · subst hji
    exact hnot id next hj
  · have hout := h.others_outside hi hji
    rw [hj] at hout
    cases hout

/-- The outputs that concern neither the counter nor the ids. -/
theorem other (h : CounterState first stage s log) {e : Effect} (he : FollowsAlloc.IsOther e) :
    CounterState first stage s (log ++ [e]) := by
  have hsaves : savedCounters (log ++ [e]) = savedCounters log := by
    rw [savedCounters_append]
    cases e with
    | saveConfig cfg => exact absurd rfl (he.2 cfg)
    | _ => exact List.append_nil _
  have hids : handedIds (log ++ [e]) = handedIds log := by
    rw [handedIds_append]
    cases e with
    | stack call =>
      cases call with
      | commission req => exact absurd rfl (he.1 req)
      | _ => exact List.append_nil _
    | _ => exact List.append_nil _
  refine ⟨h.config, h.start, hsaves ▸ h.saves, hsaves ▸ h.behind, hids ▸ h.handed, ?_, fun j =>
    (h.holds j).of_same rfl hsaves⟩
  exact h.passed.concat fun cfg heq => absurd heq (he.2 cfg)

variable [DecidableEq ι]

theorem access (h : CounterState first stage s log)
    (hlt : ∀ id, s.inUse controllerNodeId id = true → id < maxNodeId)
    (haccess : (stage i).Access controllerNodeId s s' g') :
    CounterState first (Function.update stage i g') s' log where
  config := h.config.move_stage haccess.move
  start := le_trans h.start (haccess.grows (h.holds i))
  saves := h.saves
  behind hnone x hx := by
    have hi := h.holds i
    rcases haccess.frame with ⟨hsame, hstill⟩ | ⟨id, hg⟩
    · rw [hsame]
      refine h.behind (fun j id next hj => ?_) x hx
      by_cases hji : j = i
      · subst hji
        have hnot := hnone j id next
        rw [Function.update_self, hstill id next hj] at hnot
        exact hnot hj
      · have hnot := hnone j id next
        rw [Function.update_of_ne hji] at hnot
        exact hnot hj
    · rw [hg] at hi
      exact hi.2.1 x hx
  handed id hid := by
    obtain ⟨hfirst, hid⟩ := h.handed id hid
    exact ⟨hfirst, lt_of_lt_of_le hid (haccess.grows (h.holds i))⟩
  passed := h.passed
  holds j := by
    by_cases hj : j = i
    · subst hj
      rw [Function.update_self]
      exact haccess.holds h.start hlt (h.holds j)
    · rw [Function.update_of_ne hj]
      rcases haccess.frame with ⟨hsame, -⟩ | ⟨id, hg⟩
      · exact (h.holds j).of_same hsame rfl
      · have hout := h.others_outside (by rw [hg]; rfl) hj
        exact (h.holds j).of_not_holdsConfig hout (haccess.grows (h.holds i))

theorem save (h : CounterState first stage s log) {id : Option NodeId} {cfg : ConfigData}
    (hi : stage i = .ready id cfg.nextNodeId) (hpos : 0 < cfg.nextNodeId) :
    CounterState first (Function.update stage i (.saved id cfg.nextNodeId)) s
      (log ++ [.saveConfig cfg]) := by
  have hready := h.holds i
  rw [hi] at hready
  have hholds : (stage i).holdsConfig = true := by rw [hi]; rfl
  have hbehind := h.behind_of_holds hholds fun _ _ heq => by rw [hi] at heq; cases heq
  have hle : s.config.nextNodeId ≤ cfg.nextNodeId ∧
      ∀ j ∈ id, s.config.nextNodeId ≤ j ∧ j < cfg.nextNodeId := by
    cases id with
    | none => exact ⟨le_of_eq hready.symm, fun _ hj => nomatch hj⟩
    | some id =>
      obtain ⟨hle, hnext⟩ := hready
      have hlt : id < cfg.nextNodeId := by grind
      refine ⟨le_of_lt (lt_of_le_of_lt hle hlt), fun j hj => ?_⟩
      obtain rfl := Option.some.inj hj
      exact ⟨hle, hlt⟩
  have hsaves : savedCounters (log ++ [.saveConfig cfg]) = savedCounters log ++ [cfg.nextNodeId] :=
    savedCounters_append _ _
  have hids : handedIds (log ++ [.saveConfig cfg]) = handedIds log :=
    (handedIds_append _ _).trans (List.append_nil _)
  constructor
  · apply h.config.move_stage
    rw [hholds]
    exact .keep _ rfl
  · exact h.start
  · rw [hsaves, ← List.cons_append, List.pairwise_append]
    refine ⟨h.saves, List.pairwise_singleton _ _, fun x hx y hy => ?_⟩
    rw [List.mem_singleton.mp hy]
    rcases List.mem_cons.mp hx with rfl | hx
    · exact le_trans h.start hle.1
    · exact le_trans (hbehind x hx) hle.1
  · exact fun hnone => absurd (Function.update_self ..) (hnone i id cfg.nextNodeId)
  · rw [hids]
    exact h.handed
  · refine h.passed.concat fun cfg' heq j hj => ?_
    obtain rfl := Effect.saveConfig.inj heq
    exact lt_of_lt_of_le (h.handed j hj).2 hle.1
  · intro j
    by_cases hj : j = i
    · subst hj
      rw [Function.update_self]
      refine ⟨hle.1, fun x hx => ?_, hle.2⟩
      rw [hsaves, List.mem_append, List.mem_singleton] at hx
      rcases hx with hx | rfl
      · exact le_trans (hbehind x hx) hle.1
      · exact le_refl _
    · rw [Function.update_of_ne hj]
      exact (h.holds j).of_not_holdsConfig (h.others_outside hholds hj) (le_refl _)

theorem request (h : CounterState first stage s log) {req : CommissionRequest}
    (hi : stage i = .allocated req.nodeId) :
    CounterState first (Function.update stage i .outside) s (log ++ [.stack (.commission req)]) := by
  have hallocated := h.holds i
  rw [hi] at hallocated
  have hsaves : savedCounters (log ++ [.stack (.commission req)]) = savedCounters log :=
    (savedCounters_append _ _).trans (List.append_nil _)
  have hids : handedIds (log ++ [.stack (.commission req)]) = handedIds log ++ [req.nodeId] :=
    handedIds_append _ _
  constructor
  · apply h.config.move_stage
    rw [hi]
    exact .keep _ rfl
  · exact h.start
  · rw [hsaves]
    exact h.saves
  · rw [hsaves]
    intro hnone
    refine h.behind fun j id next hj => ?_
    by_cases hji : j = i
    · subst hji
      rw [hi] at hj
      cases hj
    · have hnot := hnone j id next
      rw [Function.update_of_ne hji] at hnot
      exact hnot hj
  · intro id hid
    rw [hids, List.mem_append, List.mem_singleton] at hid
    rcases hid with hid | rfl
    · exact h.handed id hid
    · exact hallocated
  · exact h.passed.concat fun _ heq => nomatch heq
  · intro j
    by_cases hj : j = i
    · subst hj
      rw [Function.update_self]
      trivial
    · rw [Function.update_of_ne hj]
      exact (h.holds j).of_same rfl hsaves

/-- One step of the protocol. -/
theorem step {log' : List Effect} {stage' : ι → CounterStage} (h : CounterState first stage s log)
    (hlt : ∀ id, s.inUse controllerNodeId id = true → id < maxNodeId)
    (hpos : ∀ x ∈ savedCounters log', 0 < x)
    (hstep : Protocol.Step (fun _ => counterProtocol controllerNodeId) i stage s log stage' s' log') :
    CounterState first stage' s' log' := by
  cases hstep with
  | access mem' g' haccess => exact h.access hlt haccess
  | output e g' houtput =>
    generalize hi : stage i = g at houtput
    cases houtput with
    | save id cfg => exact h.save hi (hpos _ (by simp [savedCounters]))
    | request req => exact h.request hi
    | other _ _ he =>
      rw [← hi, Function.update_eq_self]
      exact h.other he

end CounterState

theorem Bounds.of_append {initial ids more : List NodeId} {controllerNodeId : NodeId} {fuel : Nat}
    (h : Bounds initial controllerNodeId fuel (ids ++ more)) :
    Bounds initial controllerNodeId fuel ids := by
  have hfuel := h.fuel
  rw [List.length_append] at hfuel
  exact ⟨h.loaded, h.controller, fun id hid => h.handed id (List.mem_append_left _ hid), by omega⟩

/-- The calls on the storage that a process makes, in order. -/
def storageCalls (log : List Effect) : List StorageCall :=
  log.filterMap fun e => match e with
    | .save record => some (.saveNode record)
    | .delete nodeId => some (.deleteNode nodeId)
    | .saveConfig cfg => some (.saveConfig cfg)
    | _ => none

/-- One process of the controller: its tasks from the boot to the moment it stops, and the
directory at its boot, with the file operations that are going to fail. -/
structure Life (ι : Type) where
  controllerNodeId : NodeId
  fuel : Nat
  start : Config ι Memory Effect
  sched : List ι
  stop : Config ι Memory Effect
  disk : Faulty Disk

namespace StorageCall

variable {s : Faulty Disk}

end StorageCall

section DiskCounter

variable {disk : Faulty Disk} {log : List Effect} {e : Effect}

end DiskCounter

namespace Life

variable {ι : Type}

/-- The directory when the process has stopped. -/
def left (l : Life ι) : Disk := (StorageCall.performAll (storageCalls l.stop.log) l.disk).state

/-- The ids that the process gives to the stack. -/
def ids (l : Life ι) : List NodeId := handedIds l.stop.log

/-- A save that replaced `config.json` was the one of the allocation of `id`, or came after `id` was
given away. -/
def Kept (l : Life ι) (id : NodeId) : Prop :=
  ∃ before cfg after, l.stop.log = before ++ .saveConfig cfg :: after ∧
    (StorageCall.saveConfig cfg).tookEffect
      (StorageCall.performAll (storageCalls before) l.disk) = true ∧
    (id ∈ handedIds before ∨ cfg.nextNodeId = id + 1)

/-- A process of the controller that boots from its directory; no counter or id runs over. -/
structure Valid [DecidableEq ι] (l : Life ι) : Prop where
  task : ∀ i, IsProcessTask l.fuel l.controllerNodeId (l.start.task i)
  log : l.start.log = []
  run : l.start.run l.sched = some l.stop
  booted : l.start.mem.config = l.disk.state.dir.loadConfig
  loaded : ∀ id, l.start.mem.registry.contains id = true → id < maxNodeId
  controller : l.controllerNodeId < maxNodeId
  handed : ∀ id ∈ l.ids, id < maxNodeId
  counters : ∀ x ∈ savedCounters l.stop.log, 0 < x
  fuel : l.start.mem.registry.nodeIds.length + l.ids.length + 1 < l.fuel

namespace Valid

variable [DecidableEq ι] {l : Life ι}

/-- What the ids and the saves of one process come to. -/
theorem state (h : l.Valid) : ∃ stage : ι → CounterStage,
    CounterState l.start.mem.config.nextNodeId stage l.stop.mem l.stop.log := by
  let P : ι → Protocol Memory Effect (AllocStage × CounterStage) :=
    fun _ => (allocProtocol l.fuel l.controllerNodeId).both (counterProtocol l.controllerNodeId)
  let Inv : (ι → AllocStage × CounterStage) → Memory → List Effect → Prop := fun stage s log =>
    AllocState l.start.mem.registry.nodeIds l.controllerNodeId (fun i => (stage i).1) s log ∧
      CounterState l.start.mem.config.nextNodeId (fun i => (stage i).2) s log
  let Within : List Effect → Prop := fun log =>
    Bounds l.start.mem.registry.nodeIds l.controllerNodeId l.fuel (handedIds log) ∧
      ∀ x ∈ savedCounters log, 0 < x
  have hstart : Protocol.Meets P Inv l.start := by
    refine ⟨fun _ => (.outside, .outside), fun i =>
      (FollowsAlloc.start (h.task i)).both (FollowsCounter.start (h.task i)), ?_, ?_⟩
    · rw [h.log]
      exact ⟨.start _, .start _, fun id hid => .inl (Registry.mem_nodeIds.mpr hid), .nil,
        (fun _ hid => nomatch hid), (fun _ _ hid => nomatch hid), fun _ => trivial⟩
    · rw [h.log]
      exact ⟨.start _, le_refl _, List.pairwise_singleton _ _, (fun _ _ hx => nomatch hx),
        (fun _ hid => nomatch hid), (fun before _ _ heq => by cases before <;> cases heq),
        fun _ => trivial⟩
  have halong : Config.Along (fun _ _ d => Within d.log) l.start l.sched := by
    refine Config.along_log (fun before after hwithin => ?_) h.run
      ⟨⟨fun id hid => h.loaded id (Registry.mem_nodeIds.mp hid), h.controller, h.handed, h.fuel⟩,
        h.counters⟩
    obtain ⟨hbounds, hcounters⟩ := hwithin
    rw [handedIds_append] at hbounds
    exact ⟨hbounds.of_append, fun x hx => hcounters x (by simp [hx])⟩
  have hknows : ∀ stage mem log, Inv stage mem log → ∀ i, (P i).knows (stage i) mem :=
    fun _ _ _ hinv i => ⟨hinv.1.knows i, trivial⟩
  have hmeets : Protocol.Meets P Inv l.stop := Protocol.Meets.run hknows
    (fun c i c' stage stage' _ hinv hwithin hstep => by
      obtain ⟨halloc, hcounter⟩ := hinv
      obtain ⟨hbounds, hcounters⟩ := hwithin
      obtain ⟨new, hnew⟩ := hstep.log
      have hbefore := hbounds
      rw [hnew, handedIds_append] at hbefore
      refine ⟨halloc.step hbounds hstep.fst, hcounter.step (fun id hused => ?_) hcounters hstep.snd⟩
      exact halloc.lt_max hbefore.of_append hused)
    hstart halong h.run
  obtain ⟨stage, -, -, hcounter⟩ := hmeets
  exact ⟨_, hcounter⟩

end Valid

end Life

section TwoLives

end TwoLives

end MatterRsServer.Controller
