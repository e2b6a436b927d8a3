import MatterRsServer.Controller.ConfigChanges
import MatterRsServer.Controller.Steps
import MatterRsServer.Lib.Mutex
import Mathlib.Data.Finset.Card
import Mathlib.Data.Finset.Dedup

/-!
# Node ids

`allocate_node_id` runs inside `update_config`, under `config_write`, and
`do_commission` holds `alloc_lock` from before the allocation until it returns. The
in-memory counter is written back whatever becomes of the save or of the
commissioning (`.saveConfig` is an attempt, and nobody waits for its outcome), so it is
past every id given to the stack; only between a write-back and the request it serves
is one id more spoken for.
-/
namespace MatterRsServer.Controller
open Lib Wire

/-- The ids that the stack was asked to commission a device under, in order. -/
def handedIds (log : List Effect) : List NodeId :=
  log.filterMap fun e => match e with
    | .stack (.commission req) => some req.nodeId
    | _ => none

@[simp] theorem handedIds_append (l m : List Effect) :
    handedIds (l ++ m) = handedIds l ++ handedIds m := List.filterMap_append

def maxNodeId : NodeId := 18446744073709551615

/-- `do_commission` has an id from `allocate_node_id` and has not yet given it to the stack. -/
inductive HoldsId (id : NodeId) : Task → Prop where
  | saving (a : CommissionAttempt) (cfg : ConfigData) : HoldsId id (.emit (.saveConfig cfg)
      (.modify (fun s => { s with config := cfg, configLocked := false }) (commissionNode a id)))
  | storing (a : CommissionAttempt) (cfg : ConfigData) : HoldsId id
      (.modify (fun s => { s with config := cfg, configLocked := false }) (commissionNode a id))
  | labelling (a : CommissionAttempt) : HoldsId id (commissionNode a id)
  | requesting (a : CommissionAttempt) (fabricLabel : String) (rest : Task) :
      HoldsId id (.emit (.stack (.commission ⟨id, a.target, fabricLabel⟩)) rest)

/-- What the tasks of one controller process are: its node manager, any command that
touches the registry and any command that changes the configuration. -/
inductive IsProcessTask (fuel : Nat) (controllerNodeId : NodeId) : Task → Prop where
  | nodeManager (inputs : List Input) : IsProcessTask fuel controllerNodeId (nodeManager inputs)
  | interviewNode (nodeId : NodeId) (interview : Except StackError Attributes) (now : String) :
      IsProcessTask fuel controllerNodeId (interviewNode nodeId interview now)
  | removeNode (nodeId : NodeId) : IsProcessTask fuel controllerNodeId (removeNode nodeId)
  | doCommission (a : CommissionAttempt) :
      IsProcessTask fuel controllerNodeId (doCommission fuel controllerNodeId a)
  | changeConfig (change : ConfigChange) (persisted : Except String Unit)
      (result : Except String Unit → Except CommandError Json) :
      IsProcessTask fuel controllerNodeId (changeConfig change persisted result)
  | idle : IsProcessTask fuel controllerNodeId .done

/-- Where a task stands with respect to the two locks and the id it allocates. -/
inductive AllocStage where
  | outside
  | updating (read : Option NodeId)
  | entered
  | opened
  | searching (fuel : Nat) (candidate : NodeId)
  | chosen (id : NodeId)
  | stored (id : NodeId)
  | handed (id : NodeId)

namespace Memory

/-- As before, but for ids that left the registry. -/
structure Shrinks (s s' : Memory) : Prop where
  config : s'.config = s.config
  configLocked : s'.configLocked = s.configLocked
  allocLocked : s'.allocLocked = s.allocLocked
  contains : ∀ id, s'.registry.contains id = true → s.registry.contains id = true

theorem Keeps.shrinks {s s' : Memory} (h : s.Keeps s') : s.Shrinks s' :=
  ⟨h.config, h.configLocked, h.allocLocked, fun id hid => (h.contains id).symm.trans hid⟩

theorem Shrinks.removeNode (s : Memory) (id : NodeId) : s.Shrinks (s.removeNode id) := by
  refine ⟨rfl, rfl, rfl, fun j hj => ?_⟩
  rw [Registry.contains_eq, get?_removeNode] at hj
  split at hj
  · cases hj
  · exact hj

/-- The closure's answer for `id`. -/
def inUse (s : Memory) (controllerNodeId id : NodeId) : Bool :=
  s.registry.contains id || id == controllerNodeId

end Memory

namespace AllocStage

def holdsAlloc : AllocStage → Bool
  | .outside | .updating _ => false
  | _ => true

def holdsConfig : AllocStage → Bool
  | .updating _ | .opened | .searching _ _ | .chosen _ => true
  | _ => false

inductive Access (controllerNodeId : NodeId) (fuel : Nat) (s : Memory) :
    AllocStage → Memory → AllocStage → Prop where
  | pass (g : AllocStage) (s' : Memory) (h : s.Shrinks s') : Access controllerNodeId fuel s g s' g
  | lock (hfree : s.configLocked = false) :
      Access controllerNodeId fuel s .outside { s with configLocked := true } (.updating none)
  | read : Access controllerNodeId fuel s (.updating none) s (.updating (some s.config.nextNodeId))
  | write (next : NodeId) (cfg : ConfigData) (hnext : cfg.nextNodeId = next) :
      Access controllerNodeId fuel s (.updating (some next))
        { s with config := cfg, configLocked := false } .outside
  | enter (hfree : s.allocLocked = false) :
      Access controllerNodeId fuel s .outside { s with allocLocked := true } .entered
  | acquire (hfree : s.configLocked = false) :
      Access controllerNodeId fuel s .entered { s with configLocked := true } .opened
  | search : Access controllerNodeId fuel s .opened s (.searching fuel (max s.config.nextNodeId 1))
  | skip (left : Nat) (candidate : NodeId) (hused : s.inUse controllerNodeId candidate = true) :
      Access controllerNodeId fuel s (.searching (left + 1) candidate) s
        (.searching left (candidate + 1))
  | choose (left : Nat) (candidate : NodeId) (hfree : s.inUse controllerNodeId candidate = false) :
      Access controllerNodeId fuel s (.searching left candidate) s (.chosen candidate)
  | store (id : NodeId) (cfg : ConfigData) (hnext : cfg.nextNodeId = id + 1) :
      Access controllerNodeId fuel s (.chosen id)
        { s with config := cfg, configLocked := false } (.stored id)
  | insert (record : NodeRecord) : Access controllerNodeId fuel s (.handed record.nodeId)
      (s.insertNode record) (.handed record.nodeId)
  | leave (id : NodeId) : Access controllerNodeId fuel s (.handed id)
      { s with allocLocked := false } .outside

inductive Output : AllocStage → Effect → AllocStage → Prop where
  | request (req : CommissionRequest) :
      Output (.stored req.nodeId) (.stack (.commission req)) (.handed req.nodeId)
  | other (g : AllocStage) (e : Effect) (h : ∀ req, e ≠ .stack (.commission req)) : Output g e g

end AllocStage

/-- Only the search counts on something: that its fuel has not run out. -/
def allocProtocol (fuel : Nat) (controllerNodeId : NodeId) : Protocol Memory Effect AllocStage where
  left g t := t ≠ loopForever ∧ ∀ id, HoldsId id t → g = .chosen id ∨ g = .stored id
  knows g s := match g with
    | .searching left _ => 0 < left
    | .updating (some next) => s.config.nextNodeId = next
    | _ => True
  access g s s' g' := g.Access controllerNodeId fuel s s' g'
  output := AllocStage.Output

/-- A task that holds an id goes on holding it up to the request. -/
theorem HoldsId.of_access {id : NodeId} {ready : Memory → Bool} {upd : Memory → Memory}
    {next : Memory → Task} (h : HoldsId id (.access ready upd next)) (s : Memory) :
    ready s = true ∧ HoldsId id (next s) := by
  cases h with
  | storing a cfg => exact ⟨rfl, .labelling a⟩
  | labelling a => exact ⟨rfl, .requesting a _ _⟩

theorem HoldsId.of_emit {id : NodeId} {e : Effect} {rest : Task} (h : HoldsId id (.emit e rest)) :
    (∃ cfg, e = .saveConfig cfg ∧ HoldsId id rest) ∨
      ∃ req, e = .stack (.commission req) ∧ req.nodeId = id := by
  cases h with
  | saving a cfg => exact Or.inl ⟨cfg, rfl, .storing a cfg⟩
  | requesting a fabricLabel rest => exact Or.inr ⟨_, rfl, rfl⟩

namespace FollowsAlloc

variable {fuel : Nat} {controllerNodeId : NodeId} {g : AllocStage}

/-- The outputs of the other commands. -/
def IsOther (e : Effect) : Prop :=
  (∀ req, e ≠ .stack (.commission req)) ∧ ∀ cfg, e ≠ .saveConfig cfg

theorem admits : Admits Memory.Shrinks IsOther where
  keeps _ _ h := h.shrinks
  report e h := by cases h <;> exact ⟨fun _ => nofun, fun _ => nofun⟩
  reply _ := ⟨fun _ => nofun, fun _ => nofun⟩

theorem not_holdsId_of_within {id : NodeId} {t : Task} (h : t.Within Memory.Shrinks IsOther) :
    ¬ HoldsId id t := by
  intro hid
  induction t with
  | done => cases hid
  | access ready upd next ih =>
    obtain ⟨⟨s, hready⟩, hnext⟩ := h
    exact ih s (hnext s hready).2 (hid.of_access s).2
  | emit e rest ih =>
    rcases hid.of_emit with ⟨cfg, rfl, -⟩ | ⟨req, rfl, -⟩
    · exact h.1.2 cfg rfl
    · exact h.1.1 req rfl

theorem within {t : Task} (h : t.Within Memory.Shrinks IsOther) :
    (allocProtocol fuel controllerNodeId).Follows t g := by
  apply Prog.Within.follows _ _ _ h
  · intro q hq
    constructor
    · rintro rfl
      obtain ⟨⟨s, hready⟩, -⟩ := hq
      cases hready
    · exact fun id hid => absurd hid (not_holdsId_of_within hq)
  · exact fun s s' hs => .pass g s' hs
  · exact fun e he => .other g e he.1

theorem removeNode (id : NodeId) :
    (Controller.removeNode id).Within Memory.Shrinks IsOther := by
  apply Within.ensureNode admits id
  apply Within.read admits.refreshes
  intro deviceFabIdx
  refine ⟨⟨fun _ => nofun, fun _ => nofun⟩, ⟨fun _ => nofun, fun _ => nofun⟩, ?_⟩
  apply Prog.Within.step (fun s => .removeNode s id)
  intro _
  exact ⟨⟨fun _ => nofun, fun _ => nofun⟩, ⟨fun _ => nofun, fun _ => nofun⟩, admits.reply _, trivial⟩

/-- An access that is not blocked for ever. -/
theorem access (g' : Memory → AllocStage) {ready : Memory → Bool} {upd : Memory → Memory}
    {next : Memory → Task} (hready : ∃ s, ready s = true)
    (hid : ∀ id, HoldsId id (.access ready upd next) → g = .chosen id ∨ g = .stored id)
    (hstep : ∀ s, ready s = true → (allocProtocol fuel controllerNodeId).knows g s →
      g.Access controllerNodeId fuel s (upd s) (g' s))
    (hnext : ∀ s, (allocProtocol fuel controllerNodeId).knows (g' s) (upd s) →
      (allocProtocol fuel controllerNodeId).Follows (next s) (g' s)) :
    (allocProtocol fuel controllerNodeId).Follows (.access ready upd next) g := by
  refine ⟨⟨?_, hid⟩, fun s hs hknows => ⟨g' s, hstep s hs hknows, hnext s⟩⟩
  intro h
  obtain ⟨s, hs⟩ := hready
  obtain rfl : ready = fun _ => false := by
    injection h
  cases hs

theorem emit {e : Effect} {rest : Task} (he : IsOther e)
    (hrest : (allocProtocol fuel controllerNodeId).Follows rest g) :
    (allocProtocol fuel controllerNodeId).Follows (.emit e rest) g := by
  refine ⟨⟨nofun, fun id h => ?_⟩, g, .other g e he.1, hrest⟩
  rcases h.of_emit with ⟨cfg, rfl, -⟩ | ⟨req, rfl, -⟩
  · exact absurd rfl (he.2 cfg)
  · exact absurd rfl (he.1 req)

theorem not_holdsId_reply {id : NodeId} (result : Except CommandError Json) :
    ¬ HoldsId id (Controller.reply result) :=
  not_holdsId_of_within ⟨admits.reply result, trivial⟩

theorem reply (result : Except CommandError Json) :
    (allocProtocol fuel controllerNodeId).Follows (Controller.reply result) g :=
  within ⟨admits.reply result, trivial⟩

theorem not_holdsId_lockConfig {id : NodeId} {upd : Memory → Memory} {next : Memory → Task} :
    ¬ HoldsId id (.access (fun s => !s.configLocked) upd next) := by
  intro h
  have hready := (h.of_access { lampMemory with configLocked := true }).1
  cases hready

/-- A command that changes the configuration. -/
theorem changeConfig (change : ConfigChange) (persisted : Except String Unit)
    (result : Except String Unit → Except CommandError Json) :
    (allocProtocol fuel controllerNodeId).Follows
      (Controller.changeConfig change persisted result) .outside := by
  have hmodify : ∀ id cfg, ¬ HoldsId id
      (.modify (fun s => { s with config := cfg, configLocked := false })
        (Controller.reply (result persisted))) :=
    fun id cfg h => not_holdsId_reply _ (h.of_access lampMemory).2
  have hsave : ∀ id cfg, ¬ HoldsId id (.emit (.saveConfig cfg)
      (.modify (fun s => { s with config := cfg, configLocked := false })
        (Controller.reply (result persisted)))) := by
    intro id cfg h
    rcases h.of_emit with ⟨-, -, h⟩ | ⟨_, h, -⟩
    · exact hmodify id cfg h
    · cases h
  apply access fun _ => .updating none
  · exact ⟨lampMemory, rfl⟩
  · exact fun id h => absurd h not_holdsId_lockConfig
  · exact fun s hs _ => .lock (by simpa using hs)
  intro _ _
  apply access fun s => .updating (some s.config.nextNodeId)
  · exact ⟨lampMemory, rfl⟩
  · exact fun id h => absurd (h.of_access lampMemory).2 (hsave id _)
  · exact fun s _ _ => .read
  intro s _
  refine ⟨⟨nofun, fun id h => absurd h (hsave id _)⟩, _, .other _ _ (fun _ => nofun), ?_⟩
  apply access fun _ => .outside
  · exact ⟨lampMemory, rfl⟩
  · exact fun id h => absurd h (hmodify id _)
  · exact fun _ _ _ => .write _ _ (by simp)
  · exact fun _ _ => reply _

/-- The guard is dropped on every way out. -/
theorem endCommission (id : NodeId) (result : Except CommandError Json) :
    (allocProtocol fuel controllerNodeId).Follows (Controller.endCommission result) (.handed id) := by
  apply access fun _ => .outside
  · exact ⟨lampMemory, rfl⟩
  · exact fun id h => absurd (h.of_access lampMemory).2 (not_holdsId_reply _)
  · exact fun _ _ _ => .leave id
  · exact fun _ _ => reply _

theorem not_holdsId_endCommission {id : NodeId} (result : Except CommandError Json) :
    ¬ HoldsId id (Controller.endCommission result) :=
  fun h => not_holdsId_reply _ (h.of_access lampMemory).2

theorem announceNode (id nodeId : NodeId) :
    (allocProtocol fuel controllerNodeId).Follows (Controller.announceNode nodeId) (.handed id) := by
  apply access fun _ => .handed id
  · exact ⟨lampMemory, rfl⟩
  · intro j h
    -- With no such node the task only ends.
    exact absurd (h.of_access { lampMemory with registry := .empty }).2 (not_holdsId_endCommission _)
  · exact fun s _ _ => .pass _ _ (Memory.Keeps.refl s).shrinks
  intro s _
  dsimp only
  split
  · exact endCommission id _
  · exact emit ⟨fun _ => nofun, fun _ => nofun⟩
      (emit ⟨fun _ => nofun, fun _ => nofun⟩ (endCommission id _))

theorem registerNode (record : NodeRecord) :
    (allocProtocol fuel controllerNodeId).Follows (Controller.registerNode record)
      (.handed record.nodeId) := by
  apply access fun _ => .handed record.nodeId
  · exact ⟨lampMemory, rfl⟩
  · intro id h
    rcases (h.of_access lampMemory).2.of_emit with ⟨_, h, -⟩ | ⟨_, h, -⟩
    · cases h
    · cases h
  · exact fun _ _ _ => .insert record
  · exact fun _ _ => emit ⟨fun _ => nofun, fun _ => nofun⟩ (announceNode _ _)

theorem holdsId_commissionNode {a : CommissionAttempt} {id j : NodeId}
    (h : HoldsId j (Controller.commissionNode a id)) : j = id := by
  rcases (h.of_access lampMemory).2.of_emit with ⟨_, heq, -⟩ | ⟨req, heq, hreq⟩
  · cases heq
  · cases heq; exact hreq.symm

theorem commissionNode (a : CommissionAttempt) (id : NodeId) :
    (allocProtocol fuel controllerNodeId).Follows (Controller.commissionNode a id) (.stored id) := by
  apply access fun _ => .stored id
  · exact ⟨lampMemory, rfl⟩
  · exact fun j h => Or.inr (congrArg _ (holdsId_commissionNode h).symm)
  · exact fun s _ _ => .pass _ _ (Memory.Keeps.refl s).shrinks
  intro s _
  refine ⟨⟨nofun, fun j h => ?_⟩, .handed id, .request ⟨id, _, _⟩, ?_⟩
  · rcases h.of_emit with ⟨_, heq, -⟩ | ⟨req, heq, hreq⟩
    · cases heq
    · cases heq; exact Or.inr (congrArg _ hreq)
  split
  · exact endCommission id _
  · apply emit
    · exact ⟨fun _ => nofun, fun _ => nofun⟩
    split
    · exact emit ⟨fun _ => nofun, fun _ => nofun⟩ (endCommission id _)
    · exact registerNode _

/-- The search itself holds no id: the registry may yet hold the candidate. -/
theorem not_holdsId_skipInUse {id : NodeId} {k : NodeId → Task} (left : Nat) (candidate : NodeId) :
    ¬ HoldsId id (Controller.skipInUse (idInUse controllerNodeId) k left candidate) := by
  induction left generalizing candidate with
  | zero =>
    intro h
    have hready := (h.of_access lampMemory).1
    cases hready
  | succ left ih =>
    intro h
    have hnext := (h.of_access { lampMemory with
      registry := Registry.empty.insert { lamp with nodeId := candidate } }).2
    apply ih (candidate + 1)
    simpa [Registry.contains_eq, Registry.get?_insert] using hnext

theorem skipInUse {k : NodeId → Task}
    (hk : ∀ id, (allocProtocol fuel controllerNodeId).Follows (k id) (.chosen id)) (left : Nat)
    (candidate : NodeId) (hleft : 0 < left) :
    (allocProtocol fuel controllerNodeId).Follows
      (Controller.skipInUse (idInUse controllerNodeId) k left candidate)
      (.searching left candidate) := by
  induction left generalizing candidate with
  | zero => cases hleft
  | succ left ih =>
    apply access fun s => if s.inUse controllerNodeId candidate = true then
      .searching left (candidate + 1) else .chosen candidate
    · exact ⟨lampMemory, rfl⟩
    · exact fun id h => absurd h (not_holdsId_skipInUse (left + 1) candidate)
    · intro s _ _
      split
      next hused => exact .skip _ _ hused
      next hfree => exact .choose _ _ (Bool.eq_false_iff.mpr hfree)
    · intro s
      change (allocProtocol fuel controllerNodeId).knows (if s.inUse controllerNodeId candidate = true
        then _ else _) s → (allocProtocol fuel controllerNodeId).Follows
        (if s.inUse controllerNodeId candidate = true then _ else _)
        (if s.inUse controllerNodeId candidate = true then _ else _)
      split
      · exact fun hknows => ih (candidate + 1) hknows
      · exact fun _ => hk candidate

/-- The counter is written back whether or not it could be saved. -/
theorem storeId (a : CommissionAttempt) (cfg : ConfigData) (id : NodeId)
    (hnext : cfg.nextNodeId = id + 1) :
    (allocProtocol fuel controllerNodeId).Follows (.emit (.saveConfig cfg) <|
      .modify (fun s => { s with config := cfg, configLocked := false }) <|
      Controller.commissionNode a id) (.chosen id) := by
  have hid : ∀ j, HoldsId j (.modify (fun s => { s with config := cfg, configLocked := false })
      (Controller.commissionNode a id)) → AllocStage.chosen id = .chosen j :=
    fun j h => congrArg _ (holdsId_commissionNode (h.of_access lampMemory).2).symm
  refine ⟨⟨nofun, fun j h => ?_⟩, .chosen id, .other _ _ (fun _ => nofun), ?_⟩
  · rcases h.of_emit with ⟨_, -, h⟩ | ⟨_, heq, -⟩
    · exact Or.inl (hid j h)
    · cases heq
  apply access fun _ => .stored id
  · exact ⟨lampMemory, rfl⟩
  · exact fun j h => Or.inl (hid j h)
  · exact fun _ _ _ => .store id cfg hnext
  · exact fun _ _ => commissionNode a id

theorem doCommission (a : CommissionAttempt) :
    (allocProtocol fuel controllerNodeId).Follows
      (Controller.doCommission fuel controllerNodeId a) .outside := by
  apply access fun _ => .entered
  · exact ⟨lampMemory, rfl⟩
  · intro id h
    have hready := (h.of_access { lampMemory with allocLocked := true }).1
    cases hready
  · exact fun s hs _ => .enter (by simpa using hs)
  intro _ _
  apply access fun _ => .opened
  · exact ⟨lampMemory, rfl⟩
  · exact fun id h => absurd h not_holdsId_lockConfig
  · exact fun s hs _ => .acquire (by simpa using hs)
  intro _ _
  apply access fun s => .searching fuel (max s.config.nextNodeId 1)
  · exact ⟨lampMemory, rfl⟩
  · exact fun id h => absurd (h.of_access lampMemory).2 (not_holdsId_skipInUse fuel _)
  · exact fun s _ _ => .search
  · intro s hknows
    exact skipInUse (fun id => storeId a _ id rfl) fuel _ hknows

theorem start {t : Task} (h : IsProcessTask fuel controllerNodeId t) :
    (allocProtocol fuel controllerNodeId).Follows t .outside := by
  cases h with
  | nodeManager inputs => exact within (Within.nodeManager admits inputs)
  | interviewNode id interview now =>
    apply within
    exact Within.interviewNode admits id interview now ⟨fun _ => nofun, fun _ => nofun⟩
  | removeNode id => exact within (removeNode id)
  | doCommission a => exact doCommission a
  | changeConfig change persisted result => exact changeConfig change persisted result
  | idle => exact within trivial

end FollowsAlloc

theorem lt_succ_iff {a b : NodeId} (h : b < maxNodeId) : a < b + 1 ↔ a ≤ b := by
  unfold maxNodeId at h
  grind

namespace Memory

/-- The ids from `candidate` on that are in use: how far a search may still have to go. -/
def usedFrom (s : Memory) (controllerNodeId candidate : NodeId) : Finset NodeId :=
  (insert controllerNodeId s.registry.nodeIds.toFinset).filter (candidate ≤ ·)

theorem mem_usedFrom {s : Memory} {controllerNodeId candidate id : NodeId} :
    id ∈ s.usedFrom controllerNodeId candidate ↔
      s.inUse controllerNodeId id = true ∧ candidate ≤ id := by
  simp only [usedFrom, inUse, Finset.mem_filter, Finset.mem_insert, List.mem_toFinset,
    Registry.mem_nodeIds, Bool.or_eq_true, beq_iff_eq, or_comm]

end Memory

/-- What is true of a task at its stage, with `ids` handed out so far. -/
def AllocStage.Holds (controllerNodeId : NodeId) (s : Memory) (ids : List NodeId) :
    AllocStage → Prop
  | .updating (some next) => s.config.nextNodeId = next
  | .searching left candidate => (∀ id ∈ ids, id < candidate) ∧ 1 ≤ candidate ∧
      (s.usedFrom controllerNodeId candidate).card < left
  | .chosen id => (∀ x ∈ ids, x < id) ∧ 1 ≤ id ∧ s.inUse controllerNodeId id = false
  | .stored id => (∀ x ∈ ids, x < id) ∧ 1 ≤ id ∧ s.inUse controllerNodeId id = false ∧
      s.config.nextNodeId = id + 1
  | .handed id => id ∈ ids
  | _ => True

/-- The state of the id allocation, over a run that started with the ids in `initial`. -/
structure AllocState {ι : Type} (initial : List NodeId) (controllerNodeId : NodeId)
    (stage : ι → AllocStage) (s : Memory) (log : List Effect) : Prop where
  alloc : Mutex.Sole (fun s : Memory => s.allocLocked) (fun i => (stage i).holdsAlloc) s
  config : Mutex.Sole (fun s : Memory => s.configLocked) (fun i => (stage i).holdsConfig) s
  registered : ∀ id, s.registry.contains id = true → id ∈ initial ∨ id ∈ handedIds log
  increasing : (handedIds log).Pairwise (· < ·)
  valid : ∀ id ∈ handedIds log, 1 ≤ id ∧ id ≠ controllerNodeId
  counter : (∀ i id, stage i ≠ .stored id) → ∀ id ∈ handedIds log, id < s.config.nextNodeId
  holds : ∀ i, (stage i).Holds controllerNodeId s (handedIds log)

namespace AllocStage

variable {controllerNodeId : NodeId} {fuel : Nat} {s s' : Memory} {g g' : AllocStage}
  {ids : List NodeId}

theorem Access.move_alloc (h : g.Access controllerNodeId fuel s s' g') :
    Mutex.Move (fun s : Memory => s.allocLocked) s s' g.holdsAlloc g'.holdsAlloc := by
  cases h with
  | pass _ _ h => exact .keep _ h.allocLocked
  | enter hfree => exact .acquire hfree rfl
  | leave id => exact .release rfl
  | _ => exact .keep _ rfl

theorem Access.move_config (h : g.Access controllerNodeId fuel s s' g') :
    Mutex.Move (fun s : Memory => s.configLocked) s s' g.holdsConfig g'.holdsConfig := by
  cases h with
  | pass _ _ h => exact .keep _ h.configLocked
  | lock hfree => exact .acquire hfree rfl
  | acquire hfree => exact .acquire hfree rfl
  | write next cfg hnext => exact .release rfl
  | store id cfg hnext => exact .release rfl
  | _ => exact .keep _ rfl

theorem inUse_mono (hreg : ∀ id, s'.registry.contains id = true → s.registry.contains id = true)
    {id : NodeId} (h : s'.inUse controllerNodeId id = true) : s.inUse controllerNodeId id = true := by
  simp only [Memory.inUse, Bool.or_eq_true] at h ⊢
  exact h.imp_left (hreg id)

/-- Fewer ids in use harm no stage. -/
theorem Holds.mono (hnext : s'.config.nextNodeId = s.config.nextNodeId)
    (hreg : ∀ id, s'.registry.contains id = true → s.registry.contains id = true)
    (h : g.Holds controllerNodeId s ids) : g.Holds controllerNodeId s' ids := by
  have hfree : ∀ id, s.inUse controllerNodeId id = false → s'.inUse controllerNodeId id = false := by
    intro id hid
    apply Bool.eq_false_iff.mpr
    intro hused
    rw [inUse_mono hreg hused] at hid
    cases hid
  cases g with
  | updating read =>
    cases read with
    | none => trivial
    | some next => exact hnext.trans h
  | searching left candidate =>
    obtain ⟨hids, hpos, hcard⟩ := h
    refine ⟨hids, hpos, lt_of_le_of_lt (Finset.card_le_card ?_) hcard⟩
    intro id hid
    rw [Memory.mem_usedFrom] at hid ⊢
    exact ⟨inUse_mono hreg hid.1, hid.2⟩
  | chosen id =>
    obtain ⟨hids, hpos, hunused⟩ := h
    exact ⟨hids, hpos, hfree id hunused⟩
  | stored id =>
    obtain ⟨hids, hpos, hunused, hcounter⟩ := h
    exact ⟨hids, hpos, hfree id hunused, hnext.trans hcounter⟩
  | handed id => exact h
  | outside | entered | opened => trivial

/-- A task outside `alloc_lock` minds only the counter, and that while it holds `config_write`. -/
theorem Holds.of_not_holdsAlloc (hg : g.holdsAlloc = false) {ids' : List NodeId}
    (hnext : g.holdsConfig = true → s'.config.nextNodeId = s.config.nextNodeId)
    (h : g.Holds controllerNodeId s ids) : g.Holds controllerNodeId s' ids' := by
  cases g with
  | outside => trivial
  | updating read =>
    cases read with
    | none => trivial
    | some next => exact (hnext rfl).trans h
  | _ => cases hg

end AllocStage

namespace AllocStage

variable {controllerNodeId : NodeId} {fuel : Nat} {s s' : Memory} {g g' : AllocStage}
  {ids : List NodeId}

/-- Only the allocation itself moves the counter, and only tasks inside `alloc_lock` add to the
registry. -/
theorem Access.frame (h : g.Access controllerNodeId fuel s s' g')
    (hholds : g.Holds controllerNodeId s ids) :
    (s'.config.nextNodeId = s.config.nextNodeId ∧
      ((∀ id, s'.registry.contains id = true → s.registry.contains id = true) ∨
        g.holdsAlloc = true)) ∨ ∃ id, g = .chosen id ∧ g' = .stored id := by
  cases h with
  | pass _ _ h => exact Or.inl ⟨congrArg _ h.config, Or.inl h.contains⟩
  | write next cfg hnext => exact Or.inl ⟨hnext.trans hholds.symm, Or.inl fun _ h => h⟩
  | store id cfg hnext => exact Or.inr ⟨id, rfl, rfl⟩
  | insert record => exact Or.inl ⟨rfl, Or.inr rfl⟩
  | _ => exact Or.inl ⟨rfl, Or.inl fun _ h => h⟩

theorem Access.eq_of_stored {id : NodeId} (h : (stored id).Access controllerNodeId fuel s s' g') :
    g' = .stored id := by
  cases h; rfl

/-- A used candidate is one less to come. -/
theorem card_usedFrom_succ {candidate : NodeId} (hused : s.inUse controllerNodeId candidate = true)
    (hmax : candidate < maxNodeId) : (s.usedFrom controllerNodeId (candidate + 1)).card <
      (s.usedFrom controllerNodeId candidate).card := by
  apply Finset.card_lt_card
  rw [Finset.ssubset_iff_of_subset]
  · refine ⟨candidate, Memory.mem_usedFrom.mpr ⟨hused, le_refl _⟩, fun h => ?_⟩
    have hle := (Memory.mem_usedFrom.mp h).2
    exact absurd ((lt_succ_iff hmax).mpr (le_refl candidate)) (not_lt.mpr hle)
  · intro id hid
    rw [Memory.mem_usedFrom] at hid ⊢
    exact ⟨hid.1, le_of_lt (lt_of_lt_of_le ((lt_succ_iff hmax).mpr (le_refl _)) hid.2)⟩

end AllocStage

/-- What the run is promised of its ids, with `ids` handed out. -/
structure Bounds (initial : List NodeId) (controllerNodeId : NodeId) (fuel : Nat)
    (ids : List NodeId) : Prop where
  loaded : ∀ id ∈ initial, id < maxNodeId
  controller : controllerNodeId < maxNodeId
  handed : ∀ id ∈ ids, id < maxNodeId
  fuel : initial.length + ids.length + 1 < fuel

namespace AllocState

variable {ι : Type} {initial : List NodeId} {controllerNodeId : NodeId} {fuel : Nat}
  {stage : ι → AllocStage} {s s' : Memory} {log : List Effect}

theorem lt_max (h : AllocState initial controllerNodeId stage s log)
    (hb : Bounds initial controllerNodeId fuel (handedIds log)) {id : NodeId}
    (hused : s.inUse controllerNodeId id = true) : id < maxNodeId := by
  simp only [Memory.inUse, Bool.or_eq_true, beq_iff_eq] at hused
  rcases hused with hreg | rfl
  · rcases h.registered id hreg with hid | hid
    · exact hb.loaded id hid
    · exact hb.handed id hid
  · exact hb.controller

theorem card_usedFrom_lt (h : AllocState initial controllerNodeId stage s log)
    (hb : Bounds initial controllerNodeId fuel (handedIds log)) (candidate : NodeId) :
    (s.usedFrom controllerNodeId candidate).card < fuel := by
  have hsub : s.usedFrom controllerNodeId candidate ⊆
      (controllerNodeId :: (initial ++ handedIds log)).toFinset := by
    intro id hid
    have hused := (Memory.mem_usedFrom.mp hid).1
    simp only [Memory.inUse, Bool.or_eq_true, beq_iff_eq] at hused
    rw [List.mem_toFinset, List.mem_cons, List.mem_append]
    exact hused.symm.imp_right (h.registered id)
  have hcard := (Finset.card_le_card hsub).trans (List.toFinset_card_le _)
  have hfuel := hb.fuel
  simp only [List.length_cons, List.length_append] at hcard
  omega

variable {i : ι} {g' : AllocStage}

/-- The task that moves is at a stage that fits what it did. -/
theorem holds_self (h : AllocState initial controllerNodeId stage s log)
    (hb : Bounds initial controllerNodeId fuel (handedIds log))
    (haccess : (stage i).Access controllerNodeId fuel s s' g') :
    g'.Holds controllerNodeId s' (handedIds log) := by
  have hi := h.holds i
  have hsole : (stage i).holdsAlloc = true → ∀ j id, stage j = .stored id → stage i = .stored id := by
    intro hheld j id hj
    obtain rfl := h.alloc.unique i j hheld (by rw [hj]; rfl)
    exact hj
  generalize hg : stage i = g at haccess hi hsole
  cases haccess with
  | pass _ _ hs => exact hi.mono (congrArg _ hs.config) hs.contains
  | lock | write | enter | acquire | leave => trivial
  | read => rfl
  | search =>
    have hcounter := h.counter fun j id hj => nomatch hsole rfl j id hj
    refine ⟨fun id hid => ?_, le_max_right _ _, h.card_usedFrom_lt hb _⟩
    exact lt_of_lt_of_le (hcounter id hid) (le_max_left _ _)
  | skip left candidate hused =>
    obtain ⟨hids, hpos, hcard⟩ := hi
    have hmax := h.lt_max hb hused
    refine ⟨fun id hid => ?_, ?_, ?_⟩
    · exact (lt_succ_iff hmax).mpr (le_of_lt (hids id hid))
    · exact le_of_lt ((lt_succ_iff hmax).mpr hpos)
    · have hless := AllocStage.card_usedFrom_succ hused hmax
      omega
  | choose left candidate hfree => exact ⟨hi.1, hi.2.1, hfree⟩
  | store id cfg hnext => exact ⟨hi.1, hi.2.1, hi.2.2, hnext⟩
  | insert record => exact hi

/-- The others lose nothing: what changes is what the locks keep from them. -/
theorem holds_other (h : AllocState initial controllerNodeId stage s log)
    (haccess : (stage i).Access controllerNodeId fuel s s' g') {j : ι} (hj : j ≠ i) :
    (stage j).Holds controllerNodeId s' (handedIds log) := by
  have halone : (stage i).holdsAlloc = true → (stage j).holdsAlloc = false := by
    intro hi
    apply Bool.eq_false_iff.mpr
    exact fun hheld => hj (h.alloc.unique j i hheld hi)
  rcases haccess.frame (h.holds i) with ⟨hnext, hreg | hheld⟩ | ⟨id, hchosen, -⟩
  · exact (h.holds j).mono hnext hreg
  · exact (h.holds j).of_not_holdsAlloc (halone hheld) fun _ => hnext
  · apply (h.holds j).of_not_holdsAlloc (halone (by rw [hchosen]; rfl))
    intro hconfig
    exact absurd (h.config.unique j i hconfig (by rw [hchosen]; rfl)) hj

theorem knows (h : AllocState initial controllerNodeId stage s log) (i : ι) :
    (allocProtocol fuel controllerNodeId).knows (stage i) s := by
  have hi := h.holds i
  cases hg : stage i with
  | searching left candidate =>
    rw [hg] at hi
    exact Nat.zero_lt_of_lt hi.2.2
  | updating read =>
    rw [hg] at hi
    cases read with
    | none => trivial
    | some next => exact hi
  | _ => trivial

variable [DecidableEq ι]

theorem access (h : AllocState initial controllerNodeId stage s log)
    (hb : Bounds initial controllerNodeId fuel (handedIds log))
    (haccess : (stage i).Access controllerNodeId fuel s s' g') :
    AllocState initial controllerNodeId (Function.update stage i g') s' log where
  alloc := h.alloc.move_stage haccess.move_alloc
  config := h.config.move_stage haccess.move_config
  registered id hid := by
    have hi := h.holds i
    generalize stage i = g at haccess hi
    cases haccess with
    | pass _ _ hs => exact h.registered id (hs.contains id hid)
    | insert record =>
      rw [Registry.contains_eq, Memory.get?_insertNode] at hid
      split at hid
      next heq => exact Or.inr (heq ▸ hi)
      · exact h.registered id hid
    | _ => exact h.registered id hid
  increasing := h.increasing
  valid := h.valid
  counter hnone id hid := by
    have hunstored : ∀ j id, stage j ≠ .stored id := by
      intro j id hj
      by_cases hji : j = i
      · subst hji
        rw [hj] at haccess
        exact hnone j id (by rw [Function.update_self, haccess.eq_of_stored])
      · exact hnone j id (by rw [Function.update_of_ne hji, hj])
    rcases haccess.frame (h.holds i) with ⟨hnext, -⟩ | ⟨id', -, hstored⟩
    · rw [hnext]
      exact h.counter hunstored id hid
    · exact absurd (by rw [Function.update_self, hstored]) (hnone i id')
  holds j := by
    by_cases hj : j = i
    · subst hj
      rw [Function.update_self]
      exact h.holds_self hb haccess
    · rw [Function.update_of_ne hj]
      exact h.holds_other haccess hj

/-- Giving the id to the stack: it is above all ids given before and below the counter. -/
theorem request (h : AllocState initial controllerNodeId stage s log) {req : CommissionRequest}
    (hi : stage i = .stored req.nodeId) (hmax : req.nodeId < maxNodeId) :
    AllocState initial controllerNodeId (Function.update stage i (.handed req.nodeId)) s
      (log ++ [.stack (.commission req)]) := by
  have hids : handedIds (log ++ [.stack (.commission req)]) = handedIds log ++ [req.nodeId] :=
    handedIds_append _ _
  have hstored := h.holds i
  rw [hi] at hstored
  obtain ⟨habove, hpos, hunused, hnext⟩ := hstored
  simp only [Memory.inUse, Bool.or_eq_false_iff, beq_eq_false_iff_ne] at hunused
  refine ⟨h.alloc.move_stage ?_, h.config.move_stage ?_, ?_, ?_, ?_, ?_, ?_⟩
  · rw [hi]
    exact .keep _ rfl
  · rw [hi]
    exact .keep _ rfl
  · intro id hid
    rw [hids, List.mem_append]
    exact (h.registered id hid).imp_right Or.inl
  · rw [hids, List.pairwise_append]
    refine ⟨h.increasing, List.pairwise_singleton _ _, fun id hid x hx => ?_⟩
    rw [List.mem_singleton.mp hx]
    exact habove id hid
  · intro id hid
    rw [hids, List.mem_append, List.mem_singleton] at hid
    rcases hid with hid | rfl
    · exact h.valid id hid
    · exact ⟨hpos, hunused.2⟩
  · intro _ id hid
    rw [hnext, lt_succ_iff hmax]
    rw [hids, List.mem_append, List.mem_singleton] at hid
    rcases hid with hid | rfl
    · exact le_of_lt (habove id hid)
    · exact le_refl _
  · intro j
    by_cases hj : j = i
    · subst hj
      rw [Function.update_self, hids]
      exact List.mem_append_right _ (List.mem_singleton_self _)
    · rw [Function.update_of_ne hj]
      apply (h.holds j).of_not_holdsAlloc _ fun _ => rfl
      apply Bool.eq_false_iff.mpr
      exact fun hheld => hj (h.alloc.unique j i hheld (by rw [hi]; rfl))

/-- One step of the protocol. -/
theorem step {log' : List Effect} {stage' : ι → AllocStage}
    (h : AllocState initial controllerNodeId stage s log)
    (hb : Bounds initial controllerNodeId fuel (handedIds log'))
    (hstep : Protocol.Step (fun _ => allocProtocol fuel controllerNodeId) i stage s log stage' s' log') :
    AllocState initial controllerNodeId stage' s' log' := by
  cases hstep with
  | access mem' g' haccess => exact h.access hb haccess
  | output e g' houtput =>
    generalize hi : stage i = g at houtput
    cases houtput with
    | request req =>
      apply h.request hi
      apply hb.handed
      simp [handedIds]
    | other _ _ hother =>
      have hids : handedIds (log ++ [e]) = handedIds log := by
        rw [handedIds_append]
        cases e with
        | stack call =>
          cases call with
          | commission req => exact absurd rfl (hother req)
          | _ => exact List.append_nil _
        | _ => exact List.append_nil _
      have hstage : Function.update stage i g' = stage := by
        rw [← hi, Function.update_eq_self]
      rw [hstage]
      exact ⟨h.alloc, h.config, hids ▸ h.registered, hids ▸ h.increasing, hids ▸ h.valid,
        hids ▸ h.counter, hids ▸ h.holds⟩

end AllocState

/-- Over every interleaving of the tasks of a controller process, whatever their commissionings
and saves come to, the ids given to the stack grow strictly and are neither 0 nor the
controller's own; an id is out of the registry from its allocation until it is given to the stack;
and no search for an id fails to end, once its fuel exceeds the ids that can be in use. -/
theorem nodeIds_never_reused {ι : Type} [DecidableEq ι] {c c' : Config ι Memory Effect}
    {fuel : Nat} {controllerNodeId : NodeId} {sched : List ι}
    (htasks : ∀ i, IsProcessTask fuel controllerNodeId (c.task i)) (hlog : c.log = [])
    (hrun : c.run sched = some c')
    (hloaded : ∀ id, c.mem.registry.contains id = true → id < maxNodeId)
    (hcontroller : controllerNodeId < maxNodeId)
    (hhanded : ∀ id ∈ handedIds c'.log, id < maxNodeId)
    (hfuel : c.mem.registry.nodeIds.length + (handedIds c'.log).length + 1 < fuel) :
    (handedIds c'.log).Pairwise (· < ·) ∧
      (∀ id ∈ handedIds c'.log, 1 ≤ id ∧ id ≠ controllerNodeId) ∧
      (∀ i id, HoldsId id (c'.task i) → 1 ≤ id ∧ id ≠ controllerNodeId ∧
        (∀ x ∈ handedIds c'.log, x < id) ∧ c'.mem.registry.contains id = false) ∧
      ∀ i, c'.task i ≠ loopForever := by
  have hstart : Protocol.Meets (fun _ => allocProtocol fuel controllerNodeId)
      (AllocState c.mem.registry.nodeIds controllerNodeId) c := by
    refine ⟨fun _ => .outside, fun i => FollowsAlloc.start (htasks i), ?_⟩
    rw [hlog]
    exact ⟨.start _, .start _, fun id hid => Or.inl (Registry.mem_nodeIds.mpr hid), .nil,
      fun _ => nofun, fun _ _ => nofun,
      fun _ => trivial⟩
  have halong : Config.Along (fun _ _ d => Bounds c.mem.registry.nodeIds controllerNodeId fuel
      (handedIds d.log)) c sched := by
    apply Config.along_log (Q := fun log => Bounds c.mem.registry.nodeIds controllerNodeId fuel (handedIds log)) _ hrun
    · exact ⟨fun id hid => hloaded id (Registry.mem_nodeIds.mp hid), hcontroller, hhanded, hfuel⟩
    · intro l m h
      rw [handedIds_append] at h
      have hlen := h.fuel
      rw [List.length_append] at hlen
      exact ⟨h.loaded, h.controller, fun id hid => h.handed id (List.mem_append_left _ hid), by omega⟩
  obtain ⟨stage, hfollows, hstate⟩ := Protocol.Meets.run (fun _ _ _ h i => h.knows i)
    (fun _ _ _ _ _ _ h hb hstep => h.step hb hstep) hstart halong hrun
  refine ⟨hstate.increasing, hstate.valid, fun i id hid => ?_, fun i => (hfollows i).left.1⟩
  have hi := hstate.holds i
  have hspoken : (∀ x ∈ handedIds c'.log, x < id) ∧ 1 ≤ id ∧
      c'.mem.inUse controllerNodeId id = false := by
    rcases (hfollows i).left.2 id hid with hg | hg
    · rw [hg] at hi
      exact hi
    · rw [hg] at hi
      exact ⟨hi.1, hi.2.1, hi.2.2.1⟩
  obtain ⟨habove, hpos, hunused⟩ := hspoken
  simp only [Memory.inUse, Bool.or_eq_false_iff, beq_eq_false_iff_ne] at hunused
  exact ⟨hpos, hunused.2, habove, hunused.1⟩

section Retry

/-- Node 7 is registered although the counter has not passed it; the controller is node 8. -/
def retryMemory : Memory := { lampMemory with config := { lampMemory.config with nextNodeId := 7 } }

/-- A commissioning that fails in PASE, one that succeeds, and the removal of node 7. -/
def retry : Config (Fin 3) Memory Effect where
  mem := retryMemory
  log := []
  task
    | 0 => doCommission 9 8 ⟨.code "34970112332", .error ⟨.timeout, "PASE timed out"⟩, .ok ∅, ""⟩
    | 1 => doCommission 9 8 ⟨.code "34970112332", .ok ⟨1, "fd00::9"⟩, .ok ∅, ""⟩
    | 2 => removeNode 7

/-- The removal runs while the first commissioning holds its id. -/
def retrySchedule : List (Fin 3) :=
  List.replicate 8 0 ++ List.replicate 8 2 ++ List.replicate 4 0 ++ List.replicate 16 1

theorem nodeIds_never_reused_retry : ∃ c', retry.run retrySchedule = some c' ∧
    handedIds c'.log = [9, 10] ∧ (handedIds c'.log).Pairwise (· < ·) ∧
      ∀ i, c'.task i ≠ loopForever := by
  have htasks : ∀ i, IsProcessTask 9 8 (retry.task i) := by
    intro i
    match i with
    | 0 => exact .doCommission _
    | 1 => exact .doCommission _
    | 2 => exact .removeNode _
  have hloaded : ∀ id, retry.mem.registry.contains id = true → id < maxNodeId := by
    intro id hid
    rw [← Registry.mem_nodeIds] at hid
    rw [List.mem_singleton.mp hid]
    decide
  have hrun : retry.run retrySchedule = some _ := rfl
  have hhanded : ∀ id ∈ ([9, 10] : List NodeId), id < maxNodeId := by
    simp only [List.forall_mem_cons]
    exact ⟨by decide, by decide, by simp⟩
  have h := nodeIds_never_reused htasks rfl hrun hloaded (by decide) hhanded (by decide)
  exact ⟨_, hrun, rfl, h.1, h.2.2.2⟩

end Retry

end MatterRsServer.Controller
