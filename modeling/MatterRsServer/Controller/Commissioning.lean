import MatterRsServer.Controller.NodeIds
import MatterRsServer.Lib.Deeds
import MatterRsServer.Lib.InetText

/-!
# What one commissioning leaves behind

`do_commission` (`crates/controller/src/commands/commissioning.rs`) among any other tasks of
the process: if it returns an error, an id is used up and nothing else has changed; if it
returns the node, the node is registered and announced, and its supervisor started.
-/
namespace MatterRsServer.Controller
open Lib Lib.Inet Wire

namespace Memory

/-- The configuration and the lock of its writers are as before. -/
structure KeepsUpdate (s s' : Memory) : Prop where
  config : s'.config = s.config
  configLocked : s'.configLocked = s.configLocked

end Memory

/-- Where a task stands with respect to `update_config`. -/
inductive UpdateStage where
  | outside
  | opened
  | holding (cfg : ConfigData)

namespace UpdateStage

def holds : UpdateStage → Bool
  | .outside => false
  | _ => true

inductive Access (moves : ConfigData → ConfigData → Prop) (s : Memory) :
    UpdateStage → Memory → UpdateStage → Prop where
  | pass (g : UpdateStage) (s' : Memory) (h : s.KeepsUpdate s') : Access moves s g s' g
  | lock (hfree : s.configLocked = false) :
      Access moves s .outside { s with configLocked := true } .opened
  | read : Access moves s .opened s (.holding s.config)
  | write (cfg cfg' : ConfigData) (h : moves cfg cfg') :
      Access moves s (.holding cfg) { s with config := cfg', configLocked := false } .outside

end UpdateStage

/-- `update_config`, by a task whose closure does what `moves` says. -/
def updateProtocol (moves : ConfigData → ConfigData → Prop) :
    Protocol Memory Effect UpdateStage where
  left _ _ := True
  knows _ _ := True
  access g s s' g' := g.Access moves s s' g'
  output g _ g' := g' = g

/-- Outputs other than a configuration to be saved. -/
def IsNoSave (e : Effect) : Prop := ∀ cfg, e ≠ .saveConfig cfg

namespace FollowsUpdate

variable {moves : ConfigData → ConfigData → Prop}

theorem within {A : Memory → Memory → Prop} {E : Effect → Prop}
    (hA : ∀ s s', A s s' → s.KeepsUpdate s') {t : Task} (h : t.Within A E) (g : UpdateStage) :
    (updateProtocol moves).Follows t g := by
  apply Prog.Within.follows _ _ _ h
  · exact fun _ _ => trivial
  · exact fun s s' hs => .pass g s' (hA s s' hs)
  · exact fun _ _ => rfl

theorem keeps {t : Task} (h : t.Within Memory.KeepsUpdate IsNoSave) (g : UpdateStage) :
    (updateProtocol moves).Follows t g := within (fun _ _ hs => hs) h g

theorem keepsUpdate_of_shrinks (s s' : Memory) (h : s.Shrinks s') : s.KeepsUpdate s' :=
  ⟨h.config, h.configLocked⟩

/-- What comes after the update does not touch the configuration. -/
theorem admits : Admits Memory.KeepsUpdate IsNoSave where
  keeps _ _ h := ⟨h.config, h.configLocked⟩
  report e h := by cases h <;> exact fun _ => nofun
  reply _ _ := nofun

theorem endCommission (result : Except CommandError Json) :
    (Controller.endCommission result).Within Memory.KeepsUpdate IsNoSave :=
  Prog.Within.step (fun _ => ⟨rfl, rfl⟩) fun _ => ⟨admits.reply result, trivial⟩

theorem registerNode (record : NodeRecord) :
    (Controller.registerNode record).Within Memory.KeepsUpdate IsNoSave := by
  refine Prog.Within.step (fun _ => ⟨rfl, rfl⟩) fun _ => ⟨fun _ => nofun, ?_⟩
  apply Within.read admits.refreshes
  intro nd
  cases nd with
  | none => exact endCommission _
  | some nd => exact ⟨fun _ => nofun, fun _ => nofun, endCommission _⟩

theorem commissionNode (a : CommissionAttempt) (id : NodeId) :
    (Controller.commissionNode a id).Within Memory.KeepsUpdate IsNoSave := by
  apply Within.read admits.refreshes
  intro fabricLabel
  refine ⟨fun _ => nofun, ?_⟩
  cases a.commission with
  | error e => exact endCommission _
  | ok outcome =>
    refine ⟨fun _ => nofun, ?_⟩
    cases a.interview with
    | error e => exact ⟨fun _ => nofun, endCommission _⟩
    | ok attributes => exact registerNode _

/-- The lock is taken, the configuration read, and something written back. -/
theorem updateConfig {ρ : Type} {f : ConfigData → (ρ → ConfigData → Task) → Task} {k : ρ → Task}
    (hf : ∀ cfg, (updateProtocol moves).Follows
      (f cfg fun result cfg' =>
        .emit (.saveConfig cfg') <|
        .modify (fun s => { s with config := cfg', configLocked := false }) <|
        k result) (.holding cfg)) :
    (updateProtocol moves).Follows (Controller.updateConfig f k) .outside := by
  refine ⟨trivial, fun s hs _ => ⟨.opened, .lock (by simpa using hs), fun _ => ?_⟩⟩
  exact ⟨trivial, fun s _ _ => ⟨.holding s.config, .read, fun _ => hf s.config⟩⟩

theorem writeBack {cfg cfg' : ConfigData} {k : Task} (h : moves cfg cfg')
    (hk : (updateProtocol moves).Follows k .outside) :
    (updateProtocol moves).Follows (.emit (.saveConfig cfg') <|
      .modify (fun s => { s with config := cfg', configLocked := false }) k) (.holding cfg) :=
  ⟨trivial, _, rfl, trivial, fun _ _ _ => ⟨.outside, .write cfg cfg' h, fun _ => hk⟩⟩

theorem changeConfig {change : ConfigChange} (h : ∀ cfg, moves cfg (change.apply cfg))
    (persisted : Except String Unit) (result : Except String Unit → Except CommandError Json) :
    (updateProtocol moves).Follows (Controller.changeConfig change persisted result) .outside := by
  apply updateConfig
  intro cfg
  apply writeBack (h cfg)
  apply keeps
  exact ⟨admits.reply _, trivial⟩

theorem skipInUse {cfg : ConfigData} {controllerNodeId : NodeId} {k : NodeId → Task}
    (hk : ∀ id, (updateProtocol moves).Follows (k id) (.holding cfg)) (fuel : Nat)
    (candidate : NodeId) : (updateProtocol moves).Follows
      (Controller.skipInUse (idInUse controllerNodeId) k fuel candidate) (.holding cfg) := by
  induction fuel generalizing candidate with
  | zero => exact ⟨trivial, fun s hs => by cases hs⟩
  | succ fuel ih =>
    refine ⟨trivial, fun s _ _ => ⟨_, .pass _ s ⟨rfl, rfl⟩, fun _ => ?_⟩⟩
    dsimp only
    split
    · exact ih (candidate + 1)
    · exact hk candidate

theorem doCommission {controllerNodeId : NodeId}
    (h : ∀ cfg id, moves cfg { cfg with nextNodeId := id + 1 }) (fuel : Nat)
    (a : CommissionAttempt) : (updateProtocol moves).Follows
      (Controller.doCommission fuel controllerNodeId a) .outside := by
  refine ⟨trivial, fun s _ _ => ⟨_, .pass _ _ ⟨rfl, rfl⟩, fun _ => ?_⟩⟩
  apply updateConfig
  intro cfg
  apply skipInUse
  intro id
  exact writeBack (h cfg id) (keeps (commissionNode a id) _)

/-- Every task of the process updates the configuration under the lock. -/
theorem start {fuel : Nat} {controllerNodeId : NodeId} {t : Task}
    (h : IsProcessTask fuel controllerNodeId t) :
    (updateProtocol fun _ _ => True).Follows t .outside := by
  cases h with
  | nodeManager inputs =>
    exact within keepsUpdate_of_shrinks (Within.nodeManager FollowsAlloc.admits inputs) _
  | interviewNode id interview now =>
    have hcall : FollowsAlloc.IsOther (.stack (.interview id)) := ⟨fun _ => nofun, fun _ => nofun⟩
    exact within keepsUpdate_of_shrinks
      (Within.interviewNode FollowsAlloc.admits id interview now hcall) _
  | removeNode id => exact within keepsUpdate_of_shrinks (FollowsAlloc.removeNode id) _
  | doCommission a => exact doCommission (fun _ _ => trivial) fuel a
  | changeConfig change persisted result => exact changeConfig (fun _ => trivial) persisted result
  | idle => exact trivial

end FollowsUpdate

/-- Whoever has read the configuration still sees it. -/
structure UpdateState {ι : Type} (stage : ι → UpdateStage) (s : Memory) : Prop where
  sole : Mutex.Sole (fun s : Memory => s.configLocked) (fun i => (stage i).holds) s
  holding : ∀ i cfg, stage i = .holding cfg → s.config = cfg

theorem UpdateStage.Access.move {moves : ConfigData → ConfigData → Prop} {s s' : Memory}
    {g g' : UpdateStage} (h : g.Access moves s s' g') :
    Mutex.Move (fun s : Memory => s.configLocked) s s' g.holds g'.holds := by
  cases h with
  | pass _ _ h => exact .keep _ h.configLocked
  | lock hfree => exact .acquire hfree rfl
  | read => exact .keep _ rfl
  | write cfg cfg' h => exact .release rfl

namespace UpdateState

variable {ι : Type} [DecidableEq ι] {stage stage' : ι → UpdateStage} {s s' : Memory}

theorem step {moves : ι → ConfigData → ConfigData → Prop} {i : ι} {log log' : List Effect}
    (h : UpdateState stage s)
    (hstep : Protocol.Step (fun j => updateProtocol (moves j)) i stage s log stage' s' log') :
    UpdateState stage' s' := by
  cases hstep with
  | output e g' hg =>
    have hstage : Function.update stage i g' = stage := by
      rw [show g' = stage i from hg, Function.update_eq_self]
    rwa [hstage]
  | access _ g' haccess =>
    refine ⟨h.sole.move_stage haccess.move, fun j cfg hj => ?_⟩
    by_cases hji : j = i
    · subst hji
      rw [Function.update_self] at hj
      subst hj
      generalize hg : stage j = g at haccess
      cases haccess with
      | pass _ _ hkeeps => exact hkeeps.config.trans (h.holding j cfg hg)
      | read => rfl
    · rw [Function.update_of_ne hji] at hj
      have hkept : s'.config = s.config := by
        generalize hg : stage i = g at haccess
        cases haccess with
        | pass _ _ hkeeps => exact hkeeps.config
        | lock hfree => rfl
        | read => rfl
        | write cfg₁ cfg₂ hmoves =>
          exact absurd (h.sole.unique j i (by simp [hj, UpdateStage.holds])
            (by simp [hg, UpdateStage.holds])) hji
      exact hkept.trans (h.holding j cfg hj)

end UpdateState

/-! ### The steps of the command -/

namespace Memory

/-- Nothing but the configuration and the locks has changed. -/
def KeepsNodes (s s' : Memory) : Prop :=
  s' = { s with
    config := s'.config, configLocked := s'.configLocked, allocLocked := s'.allocLocked }

def setLocks (s : Memory) (configLocked allocLocked : Bool) : Memory :=
  { s with configLocked := configLocked, allocLocked := allocLocked }

end Memory

/-- The step looks at the memory, takes a lock or drops one. -/
def OnlyLocks (d : Deed Memory Effect) : Prop :=
  ∃ (x : Memory) (configLocked allocLocked : Bool),
    d = .access x (x.setLocks configLocked allocLocked)

theorem onlyLocks_read (m : Memory) : OnlyLocks (.access m m) := ⟨m, m.configLocked, m.allocLocked, rfl⟩

section Does

variable {R : Memory → Memory → Prop} {controllerNodeId : NodeId} {s t : Memory}
  {deeds : List (Deed Memory Effect)}

theorem does_endCommission {result : Except CommandError Json}
    (h : (endCommission result).Does R s deeds t) :
    ∃ m, deeds = [.access m { m with allocLocked := false }, .output (.reply result)] ∧
      R s m ∧ R { m with allocLocked := false } t := by
  obtain ⟨m, rest, hm, -, rfl, rest', rfl, rfl, ht⟩ := h
  exact ⟨m, rfl, hm, ht⟩

/-- The search only looks, and ends at an id that is not in use. -/
theorem does_skipInUse (htrans : ∀ s m t, R s m → R m t → R s t) {k : NodeId → Task}
    {fuel : Nat} {candidate : NodeId}
    (h : (skipInUse (idInUse controllerNodeId) k fuel candidate).Does R s deeds t) :
    ∃ id m looks rest, deeds = looks ++ rest ∧ (∀ d ∈ looks, ∃ x, d = .access x x) ∧
      .access m m ∈ looks ∧ m.inUse controllerNodeId id = false ∧ R s m ∧
      (k id).Does R m rest t := by
  induction fuel generalizing candidate s deeds with
  | zero =>
    obtain ⟨m, rest, -, hready, -⟩ := h
    cases hready
  | succ fuel ih =>
    obtain ⟨m, rest, hm, -, rfl, hrest⟩ := h
    change (if m.inUse controllerNodeId candidate then
      skipInUse (idInUse controllerNodeId) k fuel (candidate + 1) else k candidate : Task).Does
        R m rest t at hrest
    split at hrest
    · obtain ⟨id, x, looks, rest', rfl, hlooks, hx, hfree, hR, hk⟩ := ih hrest
      refine ⟨id, x, .access m m :: looks, rest', rfl, ?_, by simp [hx], hfree,
        htrans s m x hm hR, hk⟩
      intro d hd
      rcases List.mem_cons.mp hd with rfl | hd
      · exact ⟨m, rfl⟩
      · exact hlooks d hd
    · next hfree =>
      refine ⟨candidate, m, [.access m m], rest, rfl, ?_, by simp, by simpa using hfree, hm, hrest⟩
      intro d hd
      exact ⟨m, List.mem_singleton.mp hd⟩

/-- The memory once `cfg`, with the counter past `id`, has been written back. -/
def Memory.storeNext (s : Memory) (cfg : ConfigData) (id : NodeId) : Memory :=
  { s with config := { cfg with nextNodeId := id + 1 }, configLocked := false }

/-- The command up to its request: it takes the locks, looks for an id, and moves the counter of
the configuration that it has read. -/
theorem does_doCommission (htrans : ∀ s m t, R s m → R m t → R s t) {fuel : Nat}
    {a : CommissionAttempt} (h : (doCommission fuel controllerNodeId a).Does R s deeds t) :
    ∃ id cfg m first rest,
      deeds = first ++ .output (.saveConfig { cfg with nextNodeId := id + 1 }) ::
        .access m (m.storeNext cfg id) :: rest ∧
      (∀ d ∈ first, OnlyLocks d) ∧
      (∃ x, .access x x ∈ first ∧ x.inUse controllerNodeId id = false) ∧
      (commissionNode a id).Does R (m.storeNext cfg id) rest t := by
  obtain ⟨m₁, rest₁, h₁, -, rfl, m₂, rest₂, h₂, -, rfl, m₃, rest₃, h₃, -, rfl, hsearch⟩ := h
  obtain ⟨id, x, looks, rest, rfl, hlooks, hx, hfree, hR, rest', rfl, m, rest'', hm, -, rfl, hrest⟩ :=
    does_skipInUse htrans hsearch
  have hfirst : ∀ d ∈ Deed.access m₁ (m₁.setLocks m₁.configLocked true) ::
      .access m₂ (m₂.setLocks true m₂.allocLocked) :: .access m₃ m₃ :: looks,
      OnlyLocks d := by
    intro d hd
    simp only [List.mem_cons] at hd
    rcases hd with rfl | rfl | rfl | hd
    · exact ⟨m₁, _, _, rfl⟩
    · exact ⟨m₂, _, _, rfl⟩
    · exact onlyLocks_read m₃
    · obtain ⟨y, rfl⟩ := hlooks d hd
      exact onlyLocks_read y
  refine ⟨id, m₃.config, m, _, rest'', ?_, hfirst, ⟨x, by simp [hx], hfree⟩, hrest⟩
  simp only [List.cons_append]
  rfl

/-- The last steps: the guard of `alloc_lock` is dropped, and the result returned. -/
def Ends (result : Except CommandError Json) (deeds : List (Deed Memory Effect)) : Prop :=
  ∃ m : Memory, deeds = [.access m (m.setLocks m.configLocked false), .output (.reply result)]

/-- The registered node is what is announced, if nobody touches it in between. -/
theorem does_registerNode {record : NodeRecord}
    (hR : ∀ s s', R s s' → s'.registry.get? record.nodeId = s.registry.get? record.nodeId)
    (h : (registerNode record).Does R s deeds t) :
    ∃ y z rest, deeds = .access y (y.insertNode record) :: .output (.save record) ::
        .access z z :: .output (.send (.nodeAdded (buildNodeData record false))) ::
        .output (.stack (.startSupervisor record.nodeId)) :: rest ∧
      Ends (.ok (buildNodeData record false).toJson) rest ∧
      t.registry.get? record.nodeId = some ⟨record, false⟩ := by
  obtain ⟨y, rest₁, -, -, rfl, rest₂, rfl, z, rest₃, hz, -, rfl, hannounce⟩ := h
  have hentry : z.registry.get? record.nodeId = some ⟨record, false⟩ := by
    rw [hR _ _ hz, Memory.get?_insertNode, if_pos rfl]
  have hdata : z.registry.nodeData record.nodeId = some (buildNodeData record false) := by
    simp only [Registry.nodeData, hentry, Option.map_some]
  dsimp only at hannounce
  rw [hdata] at hannounce
  obtain ⟨rest₄, rfl, rest₅, rfl, hend⟩ := hannounce
  obtain ⟨m, rfl, hm, ht⟩ := does_endCommission hend
  refine ⟨y, z, _, rfl, ⟨m, rfl⟩, ?_⟩
  rw [hR _ _ ht]
  exact (hR _ _ hm).trans hentry

/-- The command from its request on, for the three ways it can go. -/
theorem does_commissionNode {a : CommissionAttempt} {id : NodeId}
    (h : (commissionNode a id).Does R s deeds t) :
    ∃ x rest, deeds = .access x x ::
        .output (.stack (.commission ⟨id, a.target, x.config.fabricLabel⟩)) :: rest ∧
      ((∃ e, a.commission = .error e ∧ Ends (.error (commissionFailed e)) rest) ∨
      (∃ outcome e rest', a.commission = .ok outcome ∧ a.interview = .error e ∧
        rest = .output (.stack (.interview id)) ::
          .output (.stack (.removeDeviceFabric id outcome.deviceFabricIndex)) :: rest' ∧
        Ends (.error (commissionFailed e)) rest') ∨
      (∃ outcome attributes m rest', a.commission = .ok outcome ∧ a.interview = .ok attributes ∧
        rest = .output (.stack (.interview id)) :: rest' ∧
        (registerNode (commissionedRecord id outcome attributes a.now)).Does R m rest' t)) := by
  obtain ⟨x, rest₁, -, -, rfl, rest₂, rfl, hrest⟩ := h
  refine ⟨x, rest₂, rfl, ?_⟩
  cases hcommission : a.commission with
  | error e =>
    rw [hcommission] at hrest
    obtain ⟨m, rfl, -⟩ := does_endCommission hrest
    exact .inl ⟨e, rfl, m, rfl⟩
  | ok outcome =>
    rw [hcommission] at hrest
    obtain ⟨rest₃, rfl, hrest⟩ := hrest
    cases hinterview : a.interview with
    | error e =>
      rw [hinterview] at hrest
      obtain ⟨rest₄, rfl, hend⟩ := hrest
      obtain ⟨m, rfl, -⟩ := does_endCommission hend
      exact .inr (.inl ⟨outcome, e, _, rfl, rfl, rfl, m, rfl⟩)
    | ok attributes =>
      rw [hinterview] at hrest
      exact .inr (.inr ⟨outcome, attributes, _, rest₃, rfl, rfl, rfl, hrest⟩)

end Does

/-! ### What is left behind -/

/-- Effects on the node files, the event stream and the supervisors. -/
def IsLasting : Effect → Prop
  | .send _ | .save _ | .delete _ | .stack (.startSupervisor _) | .stack (.stopSupervisor _) => True
  | _ => False

/-- This is returned, once, at the end. -/
def Returns (result : Except CommandError Json) (deeds : List (Deed Memory Effect)) : Prop :=
  ∃ before, Deed.outputs deeds = before ++ [.reply result] ∧ ∀ r, .reply r ∉ before

/-- No trace of a node is left, and the fabric is removed from a device that had taken it. -/
structure LeavesNoNode (a : CommissionAttempt) (id : NodeId) (deeds : List (Deed Memory Effect)) :
    Prop where
  nodes : ∀ d ∈ deeds, d.Within Memory.KeepsNodes
  quiet : ∀ e ∈ Deed.outputs deeds, ¬ IsLasting e
  cleanup : ∀ nodeId index, .stack (.removeDeviceFabric nodeId index) ∈ Deed.outputs deeds ↔
    nodeId = id ∧ ∃ outcome e, a.commission = .ok outcome ∧ a.interview = .error e ∧
      index = outcome.deviceFabricIndex

/-- The node is registered as interviewed and announced once, as it is returned, before its
supervisor is started. -/
def Registers (a : CommissionAttempt) (id : NodeId) (value : Json)
    (deeds : List (Deed Memory Effect)) (t : Memory) : Prop :=
  ∃ outcome attributes before, a.commission = .ok outcome ∧ a.interview = .ok attributes ∧
    t.registry.get? id = some ⟨commissionedRecord id outcome attributes a.now, false⟩ ∧
    (∀ sa : SocketAddr, outcome.address = .ofList sa.text →
      (commissionedRecord id outcome attributes a.now).addresses = [.ofList sa.hostText] ∧
      '[' ∉ sa.hostText ∧ ']' ∉ sa.hostText) ∧
    value = (buildNodeData (commissionedRecord id outcome attributes a.now) false).toJson ∧
    Deed.outputs deeds = before ++ [.save (commissionedRecord id outcome attributes a.now),
      .send (.nodeAdded (buildNodeData (commissionedRecord id outcome attributes a.now) false)),
      .stack (.startSupervisor id), .reply (.ok value)] ∧
    ∀ e ∈ before, ¬ IsLasting e

/-- The others leave the entry of the node alone. -/
def Undisturbed {ι : Type} [DecidableEq ι] (i : ι) (id : NodeId) (c : Config ι Memory Effect)
    (sched : List ι) : Prop :=
  Config.Along (fun c j c' => j ≠ i → c'.mem.registry.get? id = c.mem.registry.get? id) c sched

namespace OnlyLocks

variable {d : Deed Memory Effect}

theorem keepsNodes (h : OnlyLocks d) : d.Within Memory.KeepsNodes := by
  obtain ⟨x, configLocked, allocLocked, rfl⟩ := h
  exact rfl

theorem outputs {deeds : List (Deed Memory Effect)} (h : ∀ d ∈ deeds, OnlyLocks d) :
    Deed.outputs deeds = [] := by
  apply List.filterMap_eq_nil_iff.mpr
  intro d hd
  obtain ⟨x, configLocked, allocLocked, rfl⟩ := h d hd
  rfl

end OnlyLocks

/-- The steps up to the request. -/
def storing (first : List (Deed Memory Effect)) (m : Memory) (cfg : ConfigData) (id : NodeId) :
    List (Deed Memory Effect) :=
  first ++ [.output (.saveConfig { cfg with nextNodeId := id + 1 }), .access m (m.storeNext cfg id)]

theorem keepsNodes_storing {first : List (Deed Memory Effect)} (h : ∀ d ∈ first, OnlyLocks d)
    (m : Memory) (cfg : ConfigData) (id : NodeId) :
    ∀ d ∈ storing first m cfg id, d.Within Memory.KeepsNodes := by
  rw [storing, List.forall_mem_append]
  refine ⟨fun d hd => (h d hd).keepsNodes, ?_⟩
  simp only [List.forall_mem_cons, List.not_mem_nil, false_implies, implies_true, and_true]
  exact ⟨trivial, rfl⟩

theorem outputs_storing {first : List (Deed Memory Effect)} (h : ∀ d ∈ first, OnlyLocks d)
    (m : Memory) (cfg : ConfigData) (id : NodeId) :
    Deed.outputs (storing first m cfg id) = [.saveConfig { cfg with nextNodeId := id + 1 }] := by
  rw [storing, Deed.outputs_append, OnlyLocks.outputs h]
  rfl

/-- The address of the record is the host that the stack reported. -/
theorem addresses_commissionedRecord {id : NodeId} {outcome : CommissionOutcome}
    {attributes : Attributes} {now : String} {sa : SocketAddr}
    (h : outcome.address = .ofList sa.text) :
    (commissionedRecord id outcome attributes now).addresses = [.ofList sa.hostText] := by
  rw [commissionedRecord, h, splitIpPort_text]

section Outcome

variable {R : Memory → Memory → Prop} {a : CommissionAttempt} {id : NodeId} {s t : Memory}
  {start rest : List (Deed Memory Effect)} {cfg : ConfigData}

theorem Ends.keepsNodes {result : Except CommandError Json} (h : Ends result rest) :
    ∀ d ∈ rest, d.Within Memory.KeepsNodes := by
  obtain ⟨m, rfl⟩ := h
  simp only [List.mem_cons, List.not_mem_nil, or_false, forall_eq_or_imp, forall_eq]
  exact ⟨rfl, trivial⟩

@[simp] theorem Ends.outputs {result : Except CommandError Json} (h : Ends result rest) :
    Deed.outputs rest = [.reply result] := by
  obtain ⟨m, rfl⟩ := h
  rfl

/-- The stack did not get the device onto the fabric: there is nothing to undo. -/
theorem leavesNoNode_of_commission {x : Memory} {label : String} {e : StackError}
    {result : Except CommandError Json} (hkeeps : ∀ d ∈ start, d.Within Memory.KeepsNodes)
    (houtputs : Deed.outputs start = [.saveConfig cfg]) (ha : a.commission = .error e)
    (hends : Ends result rest) : LeavesNoNode a id (start ++
      .access x x :: .output (.stack (.commission ⟨id, a.target, label⟩)) :: rest) where
  nodes := by
    simp only [List.forall_mem_append, List.forall_mem_cons]
    exact ⟨hkeeps, rfl, trivial, hends.keepsNodes⟩
  quiet := by simp [houtputs, hends.outputs, IsLasting]
  cleanup := by simp [houtputs, hends.outputs, ha]

/-- The interview failed: the fabric is removed from the device. -/
theorem leavesNoNode_of_interview {x : Memory} {label : String} {outcome : CommissionOutcome}
    {e : StackError} {result : Except CommandError Json}
    (hkeeps : ∀ d ∈ start, d.Within Memory.KeepsNodes)
    (houtputs : Deed.outputs start = [.saveConfig cfg]) (ha : a.commission = .ok outcome)
    (he : a.interview = .error e) (hends : Ends result rest) : LeavesNoNode a id (start ++
      .access x x :: .output (.stack (.commission ⟨id, a.target, label⟩)) ::
      .output (.stack (.interview id)) ::
      .output (.stack (.removeDeviceFabric id outcome.deviceFabricIndex)) :: rest) where
  nodes := by
    simp only [List.forall_mem_append, List.forall_mem_cons]
    exact ⟨hkeeps, rfl, trivial, trivial, trivial, hends.keepsNodes⟩
  quiet := by simp [houtputs, hends.outputs, IsLasting]
  cleanup := by simp [houtputs, hends.outputs, ha, he]

theorem outputs_registered (a : CommissionAttempt) (id : NodeId) (x y z : Memory) (label : String)
    (record : NodeRecord) {result : Except CommandError Json} (houtputs : Deed.outputs start = [.saveConfig cfg])
    (hends : Ends result rest) :
    Deed.outputs (start ++ .access x x :: .output (.stack (.commission ⟨id, a.target, label⟩)) ::
        .output (.stack (.interview id)) :: .access y (y.insertNode record) ::
        .output (.save record) :: .access z z ::
        .output (.send (.nodeAdded (buildNodeData record false))) ::
        .output (.stack (.startSupervisor id)) :: rest) =
      [.saveConfig cfg, .stack (.commission ⟨id, a.target, label⟩), .stack (.interview id)] ++
        [.save record, .send (.nodeAdded (buildNodeData record false)),
          .stack (.startSupervisor id), .reply result] := by
  simp only [Deed.outputs_append, houtputs, Deed.outputs_access, Deed.outputs_output,
    hends.outputs]
  rfl

/-- The three ways the command can go from its request on. -/
theorem ways_of_does (hR : ∀ s s', R s s' → s'.registry.get? id = s.registry.get? id)
    (hkeeps : ∀ d ∈ start, d.Within Memory.KeepsNodes)
    (houtputs : Deed.outputs start = [.saveConfig cfg])
    (h : (commissionNode a id).Does R s rest t) :
    (∃ e, (a.commission = .error e ∨
        ∃ outcome, a.commission = .ok outcome ∧ a.interview = .error e) ∧
      Returns (.error (commissionFailed e)) (start ++ rest) ∧ LeavesNoNode a id (start ++ rest)) ∨
    ∃ value, Returns (.ok value) (start ++ rest) ∧ Registers a id value (start ++ rest) t := by
  obtain ⟨x, rest, rfl, hways⟩ := does_commissionNode h
  rcases hways with ⟨e, ha, hends⟩ | ⟨outcome, e, rest', ha, he, rfl, hends⟩ |
    ⟨outcome, attributes, m, rest', ha, hattributes, rfl, hregister⟩
  · refine .inl ⟨e, .inl ha,
      ⟨[.saveConfig cfg, .stack (.commission ⟨id, a.target, x.config.fabricLabel⟩)], ?_, by simp⟩,
      leavesNoNode_of_commission hkeeps houtputs ha hends⟩
    simp [houtputs, hends.outputs]
  · refine .inl ⟨e, .inr ⟨outcome, ha, he⟩,
      ⟨[.saveConfig cfg, .stack (.commission ⟨id, a.target, x.config.fabricLabel⟩),
        .stack (.interview id), .stack (.removeDeviceFabric id outcome.deviceFabricIndex)],
        ?_, by simp⟩, leavesNoNode_of_interview hkeeps houtputs ha he hends⟩
    simp [houtputs, hends.outputs]
  · obtain ⟨y, z, rest, rfl, hends, hentry⟩ := does_registerNode hR hregister
    have hall := outputs_registered a id x y z x.config.fabricLabel
      (commissionedRecord id outcome attributes a.now) houtputs hends
    refine .inr ⟨_, ⟨_, hall.trans (List.append_assoc _ [_, _, _] [_]).symm, by simp⟩, ?_⟩
    refine ⟨outcome, attributes, _, ha, hattributes, hentry, fun sa hsa => ?_, rfl, hall, ?_⟩
    · exact ⟨addresses_commissionedRecord hsa, SocketAddr.bracket_not_mem (by decide) sa,
        SocketAddr.bracket_not_mem (by decide) sa⟩
    · simp [IsLasting]

end Outcome

section Atomic

variable {ι : Type} [DecidableEq ι]

/-- The entries of undisturbed nodes are as before. -/
def KeepsUndisturbed (i : ι) (d : Config ι Memory Effect) (sched : List ι) (s s' : Memory) : Prop :=
  ∀ id, Undisturbed i id d sched → s'.registry.get? id = s.registry.get? id

theorem keepsUndisturbed_along (i : ι) (d : Config ι Memory Effect) (sched : List ι) :
    Config.Along (fun c j c' => j ≠ i → KeepsUndisturbed i d sched c.mem c'.mem) d sched := by
  have hall := Transition.Along.all fun id : { id // Undisturbed i id d sched } => id.2
  exact hall.mono fun c j c' h hj id hid => h ⟨id, hid⟩ hj

/-- The steps of the command, from the request for the device on. -/
theorem doCommission_does {c d c' : Config ι Memory Effect} {i : ι} {before sched : List ι}
    {fuel : Nat} {controllerNodeId : NodeId} {a : CommissionAttempt}
    (htask : c.task i = doCommission fuel controllerNodeId a) (hbefore : i ∉ before)
    (hstart : c.run before = some d) (hrun : d.run sched = some c') (hdone : c'.task i = .done) :
    ∃ id cfg m first rest,
      Config.deeds i d sched = first ++ .output (.saveConfig { cfg with nextNodeId := id + 1 }) ::
        .access m (m.storeNext cfg id) :: rest ∧
      (∀ d ∈ first, OnlyLocks d) ∧
      (∃ x, .access x x ∈ first ∧ x.inUse controllerNodeId id = false) ∧
      (commissionNode a id).Does (KeepsUndisturbed i d sched) (m.storeNext cfg id) rest c'.mem := by
  have htrans : ∀ s m t, KeepsUndisturbed i d sched s m → KeepsUndisturbed i d sched m t →
      KeepsUndisturbed i d sched s t :=
    fun s m t h h' id hid => (h' id hid).trans (h id hid)
  have hdoes := Prog.does_of_run (fun _ _ _ => rfl) htrans hrun hdone
    (keepsUndisturbed_along i d sched)
  rw [Config.run_other hstart hbefore, htask] at hdoes
  exact does_doCommission htrans hdoes

end Atomic

section LinkLocal

/-- A commissioning over a link-local address, once node 7 has been removed. -/
def linkLocal : Config (Fin 2) Memory Effect where
  mem := lampMemory
  log := []
  task
    | 0 => removeNode 7
    | 1 => doCommission 9 112233 ⟨.code "34970112332", .ok ⟨3, "[fe80::1%2]:5540"⟩, .ok ∅, ""⟩

end LinkLocal

end MatterRsServer.Controller
