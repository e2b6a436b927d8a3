import MatterRsServer.Controller.AllocLock
import MatterRsServer.Controller.EventStream

/-!
# Order of a node's messages

Per node the channel carries `node_added`, then updates, then one `node_removed`.
The emitters read the registry in one step and send in another, so this order holds
when no message in flight is made untrue and every message is computed at a point
where the channel admits it. The invariant follows every task's messages in flight
together with the channel; `alloc_lock` makes a `node_added` in flight the only one.
-/
namespace MatterRsServer.Controller
open Lib Wire

/-- Where a node is in its life on the channel. -/
inductive Phase where
  | absent | present | gone
deriving DecidableEq

/-- What a message of node `id` does to its phase; `none` when it comes out of order. -/
def Phase.next (id : NodeId) (p : Phase) (msg : EventMessage) : Option Phase :=
  match msg with
  | .nodeAdded nd => if nd.nodeId = id then (if p = .absent then some .present else none) else some p
  | .nodeUpdated nd => if nd.nodeId = id then (if p = .present then some p else none) else some p
  | .attributeUpdated n _ _ => if n = id then (if p = .present then some p else none) else some p
  | .nodeRemoved n => if n = id then (if p = .present then some .gone else none) else some p
  | .nodeEvent _ => some p

/-- The phase of node `id` after the messages; `some` when they are `node_added`
(unless present at the start), then updates, then at most one `node_removed`. -/
def lifecycle (id : NodeId) (p : Phase) (msgs : List EventMessage) : Option Phase :=
  msgs.foldlM (Phase.next id) p

def Registry.phase (r : Registry) (id : NodeId) : Phase :=
  if r.contains id then .present else .absent

/-- The lifecycle messages of every node come in order. -/
def LifecyclesInOrder (initial : Registry) (msgs : List EventMessage) : Prop :=
  ∀ id, (lifecycle id (initial.phase id) msgs).isSome

/-- The message says what the registry holds. -/
def EventMessage.Current (msg : EventMessage) (r : Registry) : Prop :=
  match msg with
  | .nodeAdded nd => r.view nd.nodeId = some nd.view
  | .nodeUpdated nd => r.view nd.nodeId = some nd.view
  | .attributeUpdated id path value =>
    ∃ v, r.view id = some v ∧ v.attributes.get? path = some value
  | .nodeRemoved id => r.view id = none
  | .nodeEvent _ => True

/-- The step of task `i` makes no message in flight untrue, and the messages it
computes, if any, fit what is on the channel: a `node_added` only of a node that was
never there, an update or a removal only of an announced node, a removal only of a
node that is still registered. -/
structure KeepsMessages {ι : Type} (initial : Registry) (c : Config ι Memory Effect) (i : ι)
    (c' : Config ι Memory Effect) : Prop where
  current : ∀ j, ∀ msg ∈ messages (c'.task j).pending, msg.Current c'.mem.registry
  inOrder : (c.task i).pending = [] →
    LifecyclesInOrder initial (messages c.log ++ messages (c'.task i).pending)
  registered : (c.task i).pending = [] →
    ∀ id, .nodeRemoved id ∈ messages (c'.task i).pending → (c.mem.registry.view id).isSome

namespace EventMessage

theorem Current.act {msg : EventMessage} {r : Registry} (h : msg.Current r) (id : NodeId) :
    msg.act id (r.view id) = r.view id := by
  cases msg with
  | nodeAdded nd | nodeUpdated nd =>
    simp only [EventMessage.act]
    split
    next heq => rw [heq]; exact h.symm
    · rfl
  | attributeUpdated n path value =>
    obtain ⟨v, hv, hget⟩ := h
    simp only [EventMessage.act]
    split
    next heq =>
      subst heq
      rw [hv]
      exact congrArg some (NodeView.setAttribute_of_get? hget)
    · rfl
  | nodeRemoved n =>
    simp only [EventMessage.act]
    split
    next heq => rw [heq]; exact h.symm
    · rfl
  | nodeEvent data => rfl

end EventMessage

/-- The node a lifecycle message is about. -/
def EventMessage.node : EventMessage → Option NodeId
  | .nodeAdded nd => some nd.nodeId
  | .nodeUpdated nd => some nd.nodeId
  | .attributeUpdated id _ _ => some id
  | .nodeRemoved id => some id
  | .nodeEvent _ => none

theorem lifecycle_append (id : NodeId) (p : Phase) (l m : List EventMessage) :
    lifecycle id p (l ++ m) = (lifecycle id p l).bind fun q => lifecycle id q m :=
  List.foldlM_append

theorem Phase.next_of_node_ne {id : NodeId} {msg : EventMessage} (h : msg.node ≠ some id)
    (p : Phase) : p.next id msg = some p := by
  cases msg with
  | nodeEvent data => rfl
  | nodeAdded nd | nodeUpdated nd | attributeUpdated n path value | nodeRemoved n =>
    exact if_neg fun heq => h (congrArg some heq)

/-- Messages that leave a phase alone, one by one, leave it alone together. -/
theorem lifecycle_of_next {id : NodeId} {p : Phase} {l : List EventMessage}
    (h : ∀ msg ∈ l, p.next id msg = some p) : lifecycle id p l = some p := by
  induction l with
  | nil => rfl
  | cons msg l ih =>
    change (p.next id msg).bind (fun q => lifecycle id q l) = some p
    rw [h msg (by simp)]
    exact ih fun m hm => h m (by simp [hm])

theorem LifecyclesInOrder.prefix {initial : Registry} {l m : List EventMessage}
    (h : LifecyclesInOrder initial (l ++ m)) : LifecyclesInOrder initial l := by
  intro id
  have hid := h id
  rw [lifecycle_append] at hid
  cases hl : lifecycle id (initial.phase id) l with
  | none => simp [hl] at hid
  | some q => rfl

/-- A current message about a node other than its removal finds the node registered. -/
theorem EventMessage.Current.removed_or_registered {msg : EventMessage} {r : Registry}
    (h : msg.Current r) {id : NodeId} (hid : msg.node = some id) :
    msg = .nodeRemoved id ∨ r.view id ≠ none := by
  cases msg with
  | nodeAdded nd | nodeUpdated nd =>
    cases hid
    exact Or.inr (by rw [show r.view nd.nodeId = some nd.view from h]; exact Option.some_ne_none _)
  | attributeUpdated n path value =>
    cases hid
    obtain ⟨v, hv, _⟩ := h
    exact Or.inr (by rw [hv]; exact Option.some_ne_none _)
  | nodeRemoved n => cases hid; exact Or.inl rfl
  | nodeEvent data => cases hid

/-- Sending `msg` leaves another task's messages admissible, when all of them are
current and the two tasks share neither a `node_added` nor a removal. -/
theorem lifecycle_after_send {id : NodeId} {q q' : Phase} {msg : EventMessage}
    {l : List EventMessage} {r : Registry} (hnext : q.next id msg = some q')
    (hl : (lifecycle id q l).isSome) (hmsg : msg.Current r) (hcurrent : ∀ m ∈ l, m.Current r)
    (hadded : ∀ nd, msg = .nodeAdded nd → ∀ nd', .nodeAdded nd' ∉ l)
    (hremoved : msg = .nodeRemoved id → .nodeRemoved id ∉ l) : (lifecycle id q' l).isSome := by
  by_cases hnode : msg.node = some id
  · cases msg with
    | nodeAdded nd =>
      cases hnode
      simp only [Phase.next, if_true] at hnext
      split at hnext
      · cases hnext
        rw [lifecycle_of_next]
        · rfl
        intro m hm
        cases m with
        | nodeAdded nd' => exact absurd hm (hadded nd rfl nd')
        | nodeRemoved n =>
          refine Phase.next_of_node_ne (fun heq => ?_) _
          cases heq
          have hnone : r.view nd.nodeId = none := hcurrent _ hm
          rw [show r.view nd.nodeId = some nd.view from hmsg] at hnone
          cases hnone
        | nodeUpdated nd' | attributeUpdated n path value =>
          simp only [Phase.next, if_true]
          split <;> rfl
        | nodeEvent data => rfl
      · cases hnext
    | nodeUpdated nd | attributeUpdated n path value =>
      cases hnode
      simp only [Phase.next, if_true] at hnext
      split at hnext
      · cases hnext; exact hl
      · cases hnext
    | nodeRemoved n =>
      cases hnode
      simp only [Phase.next, if_true] at hnext
      split at hnext
      · cases hnext
        rw [lifecycle_of_next]
        · rfl
        intro m hm
        refine Phase.next_of_node_ne (fun heq => ?_) _
        rcases (hcurrent m hm).removed_or_registered heq with rfl | hsome
        · exact hremoved rfl hm
        · exact hsome hmsg
      · cases hnext
    | nodeEvent data => cases hnode
  · rw [Phase.next_of_node_ne hnode] at hnext
    cases hnext
    exact hl

/-- The messages in flight are true, fit the channel, and no removal is in flight twice. -/
structure Announced {ι : Type} (initial : Registry) (c : Config ι Memory Effect) : Prop where
  current : ∀ j, ∀ msg ∈ messages (c.task j).pending, msg.Current c.mem.registry
  inOrder : ∀ j, LifecyclesInOrder initial (messages c.log ++ messages (c.task j).pending)
  channel : LifecyclesInOrder initial (messages c.log)
  soleRemoval : ∀ j k id, j ≠ k → .nodeRemoved id ∈ messages (c.task j).pending →
    .nodeRemoved id ∉ messages (c.task k).pending

/-- `alloc_lock` over the whole controller. -/
abbrev AllocExclusive {ι : Type} (c : Config ι Memory Effect) : Prop :=
  ∃ held, Mutex.Exclusive (fun s : Memory => s.allocLocked) IsNodeAdded held c

namespace Announced

variable {ι : Type} {initial : Registry} {c c' : Config ι Memory Effect}

theorem start (h : Starting c) : Announced initial c := by
  have hpending : ∀ j, messages (c.task j).pending = [] := fun j => by
    rw [(h.task j).pending]; rfl
  have hlog : messages c.log = [] := by rw [h.log]; rfl
  refine ⟨fun j msg hmsg => ?_, fun j id => ?_, fun id => ?_, fun j k id _ hj => ?_⟩
  · simp [hpending] at hmsg
  · rw [hlog, hpending]; rfl
  · rw [hlog]; rfl
  · simp [hpending] at hj

/-- A message that goes out leaves every other task's messages admissible. -/
theorem inOrder_other (h : Announced initial c) (hlock : AllocExclusive c) {i j : ι} (hj : j ≠ i)
    {msg : EventMessage} {rest : Task} (htask : c.task i = .emit (.send msg) rest) :
    LifecyclesInOrder initial (messages c.log ++ [msg] ++ messages (c.task j).pending) := by
  have hpending : messages (c.task i).pending = msg :: messages rest.pending := by rw [htask]; rfl
  have hmsg : msg ∈ messages (c.task i).pending := by rw [hpending]; exact List.mem_cons_self
  intro id
  have hi := h.inOrder i id
  have hl := h.inOrder j id
  rw [lifecycle_append] at hi hl
  rw [List.append_assoc, lifecycle_append]
  cases hq : lifecycle id (initial.phase id) (messages c.log) with
  | none => simp [hq] at hl
  | some q =>
    rw [hq, Option.bind_some] at hi hl
    rw [hpending] at hi
    change ((q.next id msg).bind fun p => lifecycle id p (messages rest.pending)).isSome at hi
    change ((q.next id msg).bind fun p => lifecycle id p (messages (c.task j).pending)).isSome
    cases hq' : q.next id msg with
    | none => simp [hq'] at hi
    | some q' =>
      refine lifecycle_after_send hq' hl (h.current i msg hmsg) (h.current j) ?_ ?_
      · rintro nd rfl nd' hnd'
        obtain ⟨held, hexclusive⟩ := hlock
        exact hj (hexclusive.eq_of_pending (mem_messages.mp hnd') (mem_messages.mp hmsg)
          ⟨_, rfl⟩ ⟨_, rfl⟩)
      · rintro rfl hremoved
        exact h.soleRemoval i j id (Ne.symm hj) hmsg hremoved

variable [DecidableEq ι]

/-- A registry section: the messages it computes are admitted by the condition. -/
theorem access (h : Announced initial c) {i : ι} {s' : Memory} {next : Task}
    (hnone : (c.task i).pending = [])
    (hkeeps : KeepsMessages initial c i ⟨s', c.log, Function.update c.task i next⟩) :
    Announced initial ⟨s', c.log, Function.update c.task i next⟩ := by
  have hother : ∀ j, j ≠ i → Function.update c.task i next j = c.task j :=
    fun j hj => Function.update_of_ne hj _ _
  have hregistered : ∀ j id, j ≠ i → .nodeRemoved id ∈ messages (Function.update c.task i next i).pending →
      .nodeRemoved id ∉ messages (c.task j).pending := by
    intro j id _ hi hj
    have hsome := hkeeps.registered hnone id hi
    rw [show c.mem.registry.view id = none from h.current j _ hj] at hsome
    cases hsome
  refine ⟨hkeeps.current, fun j => ?_, h.channel, fun j k id hjk hj => ?_⟩
  · by_cases hj : j = i
    · subst hj; exact hkeeps.inOrder hnone
    · change LifecyclesInOrder initial (messages c.log ++ messages (Function.update c.task i next j).pending)
      rw [hother j hj]
      exact h.inOrder j
  · change EventMessage.nodeRemoved id ∈ messages (Function.update c.task i next j).pending at hj
    change EventMessage.nodeRemoved id ∉ messages (Function.update c.task i next k).pending
    by_cases hji : j = i
    · subst hji
      rw [hother k (Ne.symm hjk)]
      exact hregistered k id (Ne.symm hjk) hj
    · rw [hother j hji] at hj
      by_cases hki : k = i
      · subst hki
        exact fun hk => hregistered j id hji hk hj
      · rw [hother k hki]
        exact h.soleRemoval j k id hjk hj

/-- One output: a message moves from its task to the channel. -/
theorem emit (h : Announced initial c) (hlock : AllocExclusive c) {i : ι} {e : Effect}
    {rest : Task} (htask : c.task i = .emit e rest) :
    Announced initial ⟨c.mem, c.log ++ [e], Function.update c.task i rest⟩ := by
  have hother : ∀ j, j ≠ i → Function.update c.task i rest j = c.task j :=
    fun j hj => Function.update_of_ne hj _ _
  have hpending : (c.task i).pending = e :: rest.pending := by rw [htask]; rfl
  have hsub : ∀ j msg, msg ∈ messages (Function.update c.task i rest j).pending →
      msg ∈ messages (c.task j).pending := by
    intro j msg hmsg
    by_cases hj : j = i
    · subst hj
      rw [Function.update_self] at hmsg
      rw [hpending]
      exact mem_messages.mpr (List.mem_cons_of_mem _ (mem_messages.mp hmsg))
    · rwa [hother j hj] at hmsg
  have hself : messages (c.log ++ [e]) ++ messages rest.pending =
      messages c.log ++ messages (c.task i).pending := by
    rw [hpending, messages_append, List.append_assoc, ← messages_append]
    rfl
  refine ⟨fun j msg hmsg => h.current j msg (hsub j msg hmsg), fun j => ?_, ?_,
    fun j k id hjk hj hk => h.soleRemoval j k id hjk (hsub j _ hj) (hsub k _ hk)⟩
  · change LifecyclesInOrder initial
      (messages (c.log ++ [e]) ++ messages (Function.update c.task i rest j).pending)
    by_cases hj : j = i
    · subst hj
      rw [Function.update_self, hself]
      exact h.inOrder j
    · rw [hother j hj, messages_append]
      cases e with
      | send msg => exact h.inOrder_other hlock hj htask
      | save | delete | saveConfig | stack | reply =>
        change LifecyclesInOrder initial (messages c.log ++ [] ++ messages (c.task j).pending)
        rw [List.append_nil]
        exact h.inOrder j
  · have hi := h.inOrder i
    rw [← hself] at hi
    exact hi.prefix

theorem step (h : Announced initial c) (hlock : AllocExclusive c) {i : ι}
    (hstep : c.step i = some c') (hkeeps : KeepsMessages initial c i c') :
    Announced initial c' := by
  rcases Config.step_cases hstep with ⟨ready, upd, next, htask, hready, rfl⟩ | ⟨e, rest, htask, rfl⟩
  · exact h.access (by rw [htask]; rfl) hkeeps
  · exact h.emit hlock htask

end Announced

section Race

end Race

end MatterRsServer.Controller
