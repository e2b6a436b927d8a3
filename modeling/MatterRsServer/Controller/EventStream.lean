import MatterRsServer.Controller.Reporting

/-!
# Event stream against the registry

The broadcast channel as a mirror of the registry: a client folds `node_added` and
`node_updated` (replace the node), `attribute_updated` (set one attribute) and
`node_removed` (delete) over a copy it took. Each task computes a message in one
registry section and sends it later, so a message can be out of date when it is
sent. The copy equals the registry at rest in every run where no registry change
makes a message in flight untrue.
-/
namespace MatterRsServer.Controller
open Lib Wire

/-- What the clients follow of a node. -/
structure NodeView where
  attributes : Attributes
  available : Bool

def NodeEntry.view (e : NodeEntry) : NodeView := ⟨e.record.attributes, e.available⟩

def MatterNodeData.view (nd : MatterNodeData) : NodeView := ⟨nd.attributes, nd.available⟩

/-- `attribute_updated` applied to one node. -/
def NodeView.setAttribute (view : NodeView) (path : String) (value : Json) : NodeView :=
  { view with attributes := view.attributes.insert path value }

/-- A client's copy of the registry. -/
abbrev NodeCopy := OrdMap NodeId NodeView

def Registry.view (r : Registry) (id : NodeId) : Option NodeView := (r.get? id).map NodeEntry.view

/-- The registry as a client that knows all of it holds it. -/
def Registry.copy (r : Registry) : NodeCopy := r.inner.mapVal NodeEntry.view

/-- One event frame, as the client applies it. -/
def applyEvent (copy : NodeCopy) : EventMessage → NodeCopy
  | .nodeAdded nd => copy.insert nd.nodeId nd.view
  | .nodeUpdated nd => copy.insert nd.nodeId nd.view
  | .attributeUpdated id path value => copy.modify id fun view => view.setAttribute path value
  | .nodeRemoved id => copy.erase id
  | .nodeEvent _ => copy

/-- The messages among the outputs of the tasks, in channel order. -/
def messages (log : List Effect) : List EventMessage :=
  log.filterMap fun
    | .send msg => some msg
    | _ => none

@[simp] theorem messages_append (l m : List Effect) :
    messages (l ++ m) = messages l ++ messages m := List.filterMap_append

theorem mem_messages {msg : EventMessage} {log : List Effect} :
    msg ∈ messages log ↔ .send msg ∈ log := by
  constructor
  · intro h
    obtain ⟨e, he, hmsg⟩ := List.mem_filterMap.mp h
    cases e with
    | send m => cases hmsg; exact he
    | save | delete | saveConfig | stack | reply => cases hmsg
  · exact fun h => List.mem_filterMap.mpr ⟨_, h, rfl⟩

/-- A message as an overwrite of one node's view. -/
def EventMessage.act (msg : EventMessage) (id : NodeId) (view : Option NodeView) : Option NodeView :=
  match msg with
  | .nodeAdded nd => if id = nd.nodeId then some nd.view else view
  | .nodeUpdated nd => if id = nd.nodeId then some nd.view else view
  | .attributeUpdated n path value =>
    if id = n then view.map fun v => v.setAttribute path value else view
  | .nodeRemoved n => if id = n then none else view
  | .nodeEvent _ => view

theorem get?_applyEvent (copy : NodeCopy) (msg : EventMessage) (id : NodeId) :
    (applyEvent copy msg).get? id = msg.act id (copy.get? id) := by
  cases msg with
  | nodeAdded nd => exact OrdMap.get?_insert _ _ _ _
  | nodeUpdated nd => exact OrdMap.get?_insert _ _ _ _
  | attributeUpdated n path value =>
    refine (OrdMap.get?_modify _ _ _ _).trans ?_
    by_cases h : id = n
    · subst h; rfl
    · simp [EventMessage.act, h]
  | nodeRemoved n => exact OrdMap.get?_erase _ _ _
  | nodeEvent data => rfl

namespace NodeView

theorem setAttribute_setAttribute (v : NodeView) (path : String) (value old : Json) :
    (v.setAttribute path old).setAttribute path value = v.setAttribute path value := by
  simp only [setAttribute, OrdMap.insert_insert]

theorem setAttribute_comm (v : NodeView) {path other : String} (h : other ≠ path)
    (value old : Json) : (v.setAttribute path value).setAttribute other old =
      (v.setAttribute other old).setAttribute path value := by
  simp only [setAttribute, OrdMap.insert_comm _ h.symm]

theorem setAttribute_of_get? {v : NodeView} {path : String} {value : Json}
    (h : v.attributes.get? path = some value) : v.setAttribute path value = v := by
  simp only [setAttribute, OrdMap.insert_of_get? h]

end NodeView

/-- Of two messages to the same attribute only the later one shows. -/
theorem EventMessage.act_setAttribute (msg : EventMessage) (id : NodeId) (path : String)
    (value : Json) (view : Option NodeView) :
    (msg.act id (view.map fun v => v.setAttribute path value)).map (fun v => v.setAttribute path value) =
      (msg.act id view).map fun v => v.setAttribute path value := by
  have hself : (view.map fun v => v.setAttribute path value).map (fun v => v.setAttribute path value) =
      view.map fun v => v.setAttribute path value := by
    cases view with
    | none => rfl
    | some v => exact congrArg some (v.setAttribute_setAttribute path value value)
  cases msg with
  | nodeAdded nd | nodeUpdated nd | nodeRemoved n =>
    simp only [act]
    split
    · rfl
    · exact hself
  | attributeUpdated n other old =>
    simp only [act]
    split
    · cases view with
      | none => rfl
      | some v =>
        refine congrArg some ?_
        by_cases h : other = path
        · subst h; simp only [NodeView.setAttribute_setAttribute]
        · dsimp only
          rw [NodeView.setAttribute_comm _ h, NodeView.setAttribute_setAttribute]
    · exact hself
  | nodeEvent data => exact hself

def Effect.act : Effect → NodeId → Option NodeView → Option NodeView
  | .send msg => msg.act
  | _ => fun _ view => view

theorem Effect.act_setAttribute (e : Effect) (id : NodeId) (path : String) (value : Json)
    (view : Option NodeView) :
    (e.act id (view.map fun v => v.setAttribute path value)).map (fun v => v.setAttribute path value) =
      (e.act id view).map fun v => v.setAttribute path value := by
  cases e with
  | send msg => exact msg.act_setAttribute id path value view
  | save | delete | saveConfig | stack | reply =>
    cases view with
    | none => rfl
    | some v => exact congrArg some (v.setAttribute_setAttribute path value value)

theorem Effect.foldl_act_setAttribute (l : List Effect) (id : NodeId) (path : String)
    (value : Json) (view : Option NodeView) :
    (l.foldl (fun y f => f.act id y) (view.map fun v => v.setAttribute path value)).map
        (fun v => v.setAttribute path value) =
      (l.foldl (fun y f => f.act id y) view).map fun v => v.setAttribute path value := by
  induction l using List.reverseRecOn with
  | nil =>
    cases view with
    | none => rfl
    | some v => exact congrArg some (v.setAttribute_setAttribute path value value)
  | append_singleton l e ih =>
    simp only [List.foldl_append, List.foldl_cons, List.foldl_nil]
    rw [← e.act_setAttribute, ih, e.act_setAttribute]

def eventStream : Mirror NodeId NodeView Memory Effect where
  source s := s.registry.view
  act := Effect.act
  overwrite e l k x := by
    cases e with
    | send msg =>
      cases msg with
      | nodeAdded nd | nodeUpdated nd => by_cases h : k = nd.nodeId <;> simp [Effect.act, EventMessage.act, h]
      | attributeUpdated n path value =>
        by_cases h : k = n
        · simpa [Effect.act, EventMessage.act, h] using Effect.foldl_act_setAttribute l n path value x
        · simp [Effect.act, EventMessage.act, h]
      | nodeRemoved n => by_cases h : k = n <;> simp [Effect.act, EventMessage.act, h]
      | nodeEvent data => rfl
    | save | delete | saveConfig | stack | reply => rfl

/-- Only the messages among the outputs reach a client. -/
theorem after_messages (log : List Effect) (view : NodeId → Option NodeView) :
    eventStream.after ((messages log).map .send) view = eventStream.after log view := by
  induction log generalizing view with
  | nil => rfl
  | cons e log ih =>
    cases e with
    | send msg => exact ih _
    | save | delete | saveConfig | stack | reply => exact ih view

theorem get?_copy (r : Registry) (id : NodeId) : r.copy.get? id = r.view id :=
  OrdMap.get?_mapVal _ _ _

namespace EventStream

theorem neutral_save (record : NodeRecord) : eventStream.Neutral (.save record) := fun _ _ => rfl

theorem registryMirror : RegistryMirror eventStream where
  source_eq s s' h := by simp [eventStream, h]
  stack _ _ _ := rfl
  replies _ _ _ := rfl
  saveConfig _ _ _ := rfl
  nodeEvent _ _ _ := rfl

theorem view_of_nodeData {r : Registry} {id : NodeId} {nd : MatterNodeData}
    (h : r.nodeData id = some nd) : nd.nodeId = id ∧ r.view id = some nd.view := by
  obtain ⟨e, he, rfl, hid⟩ := Registry.nodeData_eq_some h
  exact ⟨hid, by simp [Registry.view, he]; rfl⟩

theorem view_eq_none_of_nodeData {r : Registry} {id : NodeId} (h : r.nodeData id = none) :
    r.view id = none := by
  simpa [Registry.nodeData, Registry.view] using h

/-- A task that reads a node and then announces it owes nothing on it any more. -/
theorem settles_announce (announce : MatterNodeData → EventMessage) {id : NodeId}
    {D : NodeId → Prop} (hD : ∀ j, D j → j = id) {next : Option MatterNodeData → Task}
    {k : MatterNodeData → Task} (hnext : ∀ nd, next (some nd) = .emit (.send (announce nd)) (k nd))
    (hact : ∀ nd j x, (announce nd).act j x = if j = nd.nodeId then some nd.view else x)
    (hquiet : ∀ nd, eventStream.Quiet (k nd)) (hquietNone : eventStream.Quiet (next none))
    (hsome : ∀ nd, eventStream.Settles (k nd) owesNothing)
    (hnone : eventStream.Settles (next none) owesNothing) :
    eventStream.Settles (.read (fun s => s.registry.nodeData id) next) D := by
  intro s _
  dsimp only
  cases hnd : s.registry.nodeData id with
  | none =>
    refine ⟨owesNothing, hnone, fun e he => (hquietNone e he).upToDate _,
      fun _ h => absurd rfl h, fun j hj _ => Or.inl ?_⟩
    rw [hD j hj]
    exact view_eq_none_of_nodeData hnd
  | some nd =>
    obtain ⟨hid, hview⟩ := view_of_nodeData hnd
    rw [hnext]
    refine ⟨owesNothing, hsome nd, ?_, fun _ h => absurd rfl h, ?_⟩
    · intro e he
      rcases List.mem_cons.mp he with rfl | he
      · intro j
        refine (hact nd j _).trans ?_
        split
        next h => rw [h, hid]; exact hview.symm
        · rfl
      · exact (hquiet nd e he).upToDate _
    · intro j hj _
      refine Or.inr ⟨.send (announce nd), by simp, fun x => (hact nd j x).trans ?_⟩
      rw [hD j hj, if_pos hid.symm]
      exact hview.symm

theorem settles_emitNodeUpdated {id : NodeId} {k : Task} {D : NodeId → Prop}
    (hD : ∀ j, D j → j = id) (hquiet : eventStream.Quiet k)
    (hk : eventStream.Settles k owesNothing) : eventStream.Settles (emitNodeUpdated id k) D :=
  settles_announce .nodeUpdated hD (fun _ => rfl) (fun _ _ _ => rfl) (fun _ => hquiet) hquiet
    (fun _ => hk) hk

theorem settles_announceNode (id : NodeId) : eventStream.Settles (announceNode id) (· = id) :=
  settles_announce .nodeAdded (fun _ h => h) (fun _ => rfl) (fun _ _ _ => rfl)
    (fun _ => (registryMirror.stack _).quiet_emit (Mirror.quiet_of_pending_nil rfl))
    (Mirror.quiet_of_pending_nil rfl) (fun nd => registryMirror.settles_endCommission (.ok nd.toJson))
    (registryMirror.settles_endCommission _)

/-- Writing the node's file pays no debt to the clients. -/
theorem settles_persist {id : NodeId} {k : Task} {D : NodeId → Prop} (hquiet : eventStream.Quiet k)
    (hk : eventStream.Settles k D) : eventStream.Settles (persist id k) D := by
  refine registryMirror.frame (fun _ => rfl) (fun s => ?_) fun s => ?_
  · dsimp only
    split
    · exact (neutral_save _).quiet_emit hquiet
    · exact hquiet
  · dsimp only
    split
    · exact hk
    · exact hk

/-- A changed node is owed to the clients until a message about it is computed. -/
theorem obliged_modify {id : NodeId} {s s' : Memory} {es : List Effect}
    (hquiet : ∀ e ∈ es, eventStream.Neutral e)
    (hframe : ∀ j, j ≠ id → s'.registry.get? j = s.registry.get? j)
    (hkeep : s.registry.get? id = none → s'.registry.get? id = none)
    (hset : (s.registry.get? id).isSome → (s'.registry.get? id).isSome) :
    eventStream.Obliged owesNothing (· = id) s s' es := by
  refine ⟨fun e he => (hquiet e he).upToDate _, ?_, fun _ h => h.elim⟩
  intro j hj
  by_cases hjid : j = id
  · subst hjid
    refine Or.inl ⟨rfl, ?_⟩
    cases hs : s.registry.get? j with
    | none => simp [eventStream, Registry.view, hs, hkeep hs] at hj
    | some e =>
      have hsome := hset (by simp [hs])
      simpa [eventStream, Registry.view, Option.isSome_iff_ne_none] using hsome
  · exact absurd (by simp [eventStream, Registry.view, hframe j hjid]) hj

theorem settles_applyChanges (id : NodeId) (changes : List (String × Json)) {k : Task}
    (hk : eventStream.Settles k owesNothing) (hpending : k.pending = []) :
    eventStream.Settles (applyChanges id changes k) owesNothing := by
  induction changes with
  | nil => exact hk
  | cons change rest ih =>
    obtain ⟨path, value⟩ := change
    intro s _
    have hview : (s.setAttribute id path value).registry.view id =
        (s.registry.view id).map fun v => v.setAttribute path value := by
      simp only [Registry.view, Memory.get?_setAttribute, if_true]
      cases s.registry.get? id <;> rfl
    have hact : ∀ x, eventStream.act (.send (.attributeUpdated id path value)) id x =
        x.map fun v => v.setAttribute path value := fun x => if_pos rfl
    refine ⟨owesNothing, ih, ?_, ?_, fun _ h => h.elim⟩
    · intro e he j
      rw [Prog.pending_emit, pending_applyChanges id rest hpending, List.mem_singleton] at he
      subst he
      by_cases hjid : j = id
      · subst hjid
        change eventStream.act _ j ((s.setAttribute j path value).registry.view j) =
          (s.setAttribute j path value).registry.view j
        rw [hact, hview]
        cases s.registry.view j with
        | none => rfl
        | some v => exact congrArg some (v.setAttribute_setAttribute path value value)
      · exact if_neg hjid
    · intro j hj
      by_cases hjid : j = id
      · subst hjid
        refine Or.inr ⟨.send (.attributeUpdated j path value), by simp, ?_, ?_⟩
        · exact (hact _).trans hview.symm
        · intro hnone
          change (s.setAttribute j path value).registry.view j = none at hnone
          refine absurd ?_ hj
          change (s.setAttribute j path value).registry.view j = s.registry.view j
          rw [hnone]
          rw [hview] at hnone
          exact (Option.map_eq_none_iff.mp hnone).symm
      · exact absurd (by simp [eventStream, Registry.view, Memory.get?_setAttribute, hjid]) hj

end EventStream

open EventStream

theorem eventStream_reports : Reports eventStream where
  toRegistryMirror := registryMirror
  availability id available k hquiet hk := by
    intro s _
    by_cases hchanged : (s.setAvailable id available).1 = some true
    · refine ⟨(· = id), ?_, obliged_modify ?_ (fun j hj => ?_) (fun hs => ?_) fun hs => ?_⟩
      · simpa only [hchanged, if_true] using settles_emitNodeUpdated (fun _ h => h) hquiet hk
      · simp [hchanged, emitNodeUpdated]
      · simp [Memory.get?_setAvailable, hj]
      · simp [Memory.get?_setAvailable, hs]
      · simpa [Memory.get?_setAvailable] using hs
    · have hsame : ∀ j, (s.setAvailable id available).2.registry.get? j = s.registry.get? j :=
        fun j => Registry.setAvailable_unchanged hchanged j
      refine ⟨owesNothing, by simpa only [hchanged, if_false] using hk, ?_, ?_, fun _ h => h.elim⟩
      · simpa only [hchanged, if_false] using fun e he => (hquiet e he).upToDate _
      · exact fun j hj => absurd (by simp [eventStream, Registry.view, hsame]) hj
  replacement id attributes now k hquiet hk := by
    intro s _
    refine ⟨(· = id), ?_, obliged_modify (by simp [persist]) (fun j hj => ?_) (fun hs => ?_)
      fun hs => ?_⟩
    · exact settles_persist (Mirror.quiet_of_pending_nil rfl)
        (settles_emitNodeUpdated (fun _ h => h) hquiet hk)
    · simp [Memory.get?_replaceAttributes, hj]
    · simp [Memory.get?_replaceAttributes, hs]
    · simpa [Memory.get?_replaceAttributes] using hs
  changes id changes k hquiet hk :=
    settles_applyChanges id changes (settles_persist hquiet hk) rfl
  removal id k hquiet hk := by
    intro s _
    have hnone : (s.removeNode id).registry.view id = none := by simp [Registry.view]
    refine ⟨owesNothing, hk, ?_, ?_, fun _ h => h.elim⟩
    · intro e he j
      rcases List.mem_cons.mp he with rfl | he
      · rfl
      · rcases List.mem_cons.mp he with rfl | he
        · by_cases hjid : j = id
          · subst hjid
            exact (if_pos rfl).trans hnone.symm
          · exact if_neg hjid
        · exact hquiet e he j _
    · intro j hj
      by_cases hjid : j = id
      · subst hjid
        exact Or.inr ⟨.send (.nodeRemoved j), by simp, (if_pos rfl).trans hnone.symm,
          fun _ x => if_pos rfl⟩
      · exact absurd (by simp [eventStream, Registry.view, hjid]) hj
  registration record := by
    intro s _
    refine ⟨(· = record.nodeId), ?_, ⟨?_, ?_, fun _ h => h.elim⟩⟩
    · exact settles_announceNode record.nodeId
    · intro e he
      rw [show e = .save record by simpa using he]
      exact (neutral_save _).upToDate _
    · intro j hj
      by_cases hjid : j = record.nodeId
      · subst hjid
        exact Or.inl ⟨rfl, by simp [eventStream, Registry.view]⟩
      · exact absurd (by simp [eventStream, Registry.view, hjid]) hj

/-- After a step of task `i`, the registry still holds what the messages say that other
tasks have computed and not sent. -/
def KeepsInFlight {ι : Type} (_ : Config ι Memory Effect) (i : ι) (c' : Config ι Memory Effect) :
    Prop :=
  ∀ j, j ≠ i → ∀ msg ∈ messages (c'.task j).pending, ∀ id,
    msg.act id (c'.mem.registry.view id) = c'.mem.registry.view id

theorem KeepsInFlight.keepsPending {ι : Type} {c c' : Config ι Memory Effect} {i : ι}
    (h : KeepsInFlight c i c') : eventStream.KeepsPending c i c' := by
  intro j hj e he
  cases e with
  | send msg => exact h j hj msg (mem_messages.mpr he)
  | save | delete | saveConfig | stack | reply => exact fun _ => rfl

end MatterRsServer.Controller
