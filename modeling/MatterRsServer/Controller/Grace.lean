import MatterRsServer.Controller.Commands

/-!
# Reconnect grace

The `select!` loop of `NodeManager::run` with its grace timers: events and expiry
signals are served one at a time, in any order, while time passes, timers fire and
commands change the registry. A fired timer's signal carries the node id alone and
`handle_grace_expiry` recognises a stale one by the missing entry of the node, so a
signal of an old timer is taken for the timer of a newer outage. Every expiry has had
its full grace in every run where no timer is started while an old signal of its node is
still queued.
-/
namespace MatterRsServer.Controller
open Lib Wire

namespace Memory

def available (s : Memory) (nodeId : NodeId) : Option Bool :=
  (s.registry.get? nodeId).map (·.available)

/-- The sleep of timer `handle` is over: it sends its signal and ends. -/
def finish (s : Memory) (handle : Nat) : Memory :=
  { s with timers := s.timers.modify handle fun t => { t with state := .finished } }

end Memory

/-- A handler of the consumer loop, run to its end. -/
def runHandler (handler : Task) (s : Memory) : Memory := (handler.exec s).1

/-- What happened to a node; a timer is named by its handle. -/
inductive Happened where
  | connected (nodeId : NodeId)
  | reconnecting (nodeId : NodeId) (timer : Option Nat)
  | markedUnavailable (nodeId : NodeId) (timer : Option Nat)

/-- The consumer loop: the memory, the signals in `grace_rx`, and what happened so far. -/
structure Loop where
  mem : Memory
  graceRx : List NodeId
  trace : List (Nat × Happened)

inductive LoopStep where
  | event (ev : StackEvent) (now : String)
  | deliver
  | fire (handle : Nat)
  | tick (seconds : Nat)
  | insert (record : NodeRecord)
  | remove (nodeId : NodeId)
  | interview (nodeId : NodeId) (attributes : Attributes) (now : String)

/-- The trace entry of an event that took the memory from `s` to `s'`. -/
def eventTrace (s s' : Memory) : StackEvent → List (Nat × Happened)
  | .nodeState nodeId (.connected _) => [(s.clock, .connected nodeId)]
  | .nodeState nodeId .reconnecting =>
    [(s.clock, .reconnecting nodeId
      (if s.timers.length < s'.timers.length then some s.timers.length else none))]
  | _ => []

/-- The trace entry of an expiry signal: the entry it met, when it took the node offline. -/
def expiryTrace (s s' : Memory) (nodeId : NodeId) : List (Nat × Happened) :=
  if s.available nodeId = some true ∧ s'.available nodeId = some false then
    [(s.clock, .markedUnavailable nodeId (s.graceTimers.get? nodeId))]
  else []

namespace Loop

def step (s : Loop) : LoopStep → Option Loop
  | .event ev now =>
    let mem := runHandler (handleEvent ev now .done) s.mem
    some { s with mem := mem, trace := s.trace ++ eventTrace s.mem mem ev }
  | .deliver =>
    match s.graceRx with
    | [] => none
    | nodeId :: rest =>
      let mem := runHandler (handleGraceExpiry nodeId .done) s.mem
      some { mem := mem, graceRx := rest, trace := s.trace ++ expiryTrace s.mem mem nodeId }
  | .fire handle =>
    match s.mem.timers[handle]? with
    | some t =>
      if t.state = .sleeping ∧ t.started + reconnectGrace ≤ s.mem.clock then
        some { s with mem := s.mem.finish handle, graceRx := s.graceRx ++ [t.nodeId] }
      else none
    | none => none
  | .tick seconds => some { s with mem := { s.mem with clock := s.mem.clock + seconds } }
  | .insert record => some { s with mem := s.mem.insertNode record }
  | .remove nodeId => some { s with mem := s.mem.removeNode nodeId }
  | .interview nodeId attributes now =>
    some { s with mem := s.mem.replaceAttributes nodeId attributes now }

/-- The loop at its start: no timer has been spawned. -/
structure Fresh (s : Loop) : Prop where
  graceTimers : ∀ nodeId, s.mem.graceTimers.get? nodeId = none
  timers : s.mem.timers = []
  graceRx : s.graceRx = []
  trace : s.trace = []

end Loop

/-- The expiry was earned: the timer whose entry it met was started by a Reconnecting event
of the node, ran for the whole grace, and no Connected event of the node came since. -/
def Earned (before : List (Nat × Happened)) (now : Nat) (nodeId : NodeId) (timer : Option Nat) :
    Prop :=
  ∃ t start earlier mid, timer = some t ∧
    before = earlier ++ (start, .reconnecting nodeId (some t)) :: mid ∧
    start + reconnectGrace ≤ now ∧ ∀ e ∈ mid, e.2 ≠ .connected nodeId

/-- Every time a node was marked unavailable, that was earned. -/
def FullGrace (trace : List (Nat × Happened)) : Prop :=
  ∀ before now nodeId timer after,
    trace = before ++ (now, .markedUnavailable nodeId timer) :: after → Earned before now nodeId timer

/-- A Reconnecting event of the node would start a timer. -/
def StartsTimer (s : Memory) (nodeId : NodeId) : Prop :=
  s.available nodeId = some true ∧ s.graceTimers.get? nodeId = none

/-- The step starts no timer of a node with an expiry signal still queued. -/
def NoStaleSignal (s : Loop) (a : LoopStep) (_ : Loop) : Prop :=
  ∀ nodeId now, a = .event (.nodeState nodeId .reconnecting) now → StartsTimer s.mem nodeId →
    nodeId ∉ s.graceRx

theorem FullGrace.concat {trace : List (Nat × Happened)} (h : FullGrace trace) {e : Nat × Happened}
    (he : ∀ nodeId timer, e.2 = .markedUnavailable nodeId timer → Earned trace e.1 nodeId timer) :
    FullGrace (trace ++ [e]) := by
  intro before now nodeId timer after heq
  rcases List.eq_nil_or_concat after with rfl | ⟨after', last, rfl⟩
  · obtain ⟨rfl, hlast⟩ := List.append_inj' heq rfl
    obtain rfl := List.singleton_inj.mp hlast
    exact he nodeId timer rfl
  · rw [List.concat_eq_append, ← List.cons_append, ← List.append_assoc] at heq
    obtain ⟨htrace, _⟩ := List.append_inj' heq rfl
    exact h before now nodeId timer after' htrace

namespace Memory

theorem available_eq_some {s : Memory} {nodeId : NodeId} {b : Bool} :
    s.available nodeId = some b ↔ ∃ e, s.registry.get? nodeId = some e ∧ e.available = b :=
  Option.map_eq_some_iff

theorem contains_of_available {s : Memory} {nodeId : NodeId} {b : Bool}
    (h : s.available nodeId = some b) : s.registry.contains nodeId = true := by
  obtain ⟨e, he, _⟩ := available_eq_some.mp h
  simp [Registry.contains_eq, he]

theorem available_setAvailable (s : Memory) (nodeId j : NodeId) (b : Bool) :
    (s.setAvailable nodeId b).2.available j =
      if j = nodeId then (s.available nodeId).map fun _ => b else s.available j := by
  unfold available
  rw [get?_setAvailable]
  split
  · cases s.registry.get? nodeId <;> rfl
  · rfl

theorem available_replaceAttributes (s : Memory) (nodeId j : NodeId) (attributes : Attributes)
    (now : String) : (s.replaceAttributes nodeId attributes now).available j = s.available j := by
  unfold available
  rw [get?_replaceAttributes]
  split
  next h => subst h; cases s.registry.get? j <;> rfl
  · rfl

theorem available_setAttribute (s : Memory) (nodeId j : NodeId) (path : String) (value : Json) :
    (s.setAttribute nodeId path value).available j = s.available j := by
  unfold available
  rw [get?_setAttribute]
  split
  next h => subst h; cases s.registry.get? j <;> rfl
  · rfl

theorem available_cancelGrace (s : Memory) (nodeId j : NodeId) :
    (s.cancelGrace nodeId).available j = s.available j := by
  unfold available
  rw [registry_cancelGrace]

theorem available_startGrace (s : Memory) (nodeId j : NodeId) :
    (s.startGrace nodeId).available j = s.available j := by
  unfold available
  rw [registry_startGrace]

theorem available_insertNode (s : Memory) (record : NodeRecord) (j : NodeId) :
    (s.insertNode record).available j =
      if j = record.nodeId then some false else s.available j := by
  unfold available
  rw [get?_insertNode]
  split <;> rfl

theorem available_removeNode (s : Memory) (nodeId j : NodeId) :
    (s.removeNode nodeId).available j = if j = nodeId then none else s.available j := by
  unfold available
  rw [get?_removeNode]
  split <;> rfl

/-- A new node is unavailable. -/
theorem available_of_insertNode {s : Memory} {record : NodeRecord} {j : NodeId}
    (h : (s.insertNode record).available j = some true) : s.available j = some true := by
  rw [available_insertNode] at h
  split at h
  · cases h
  · exact h

theorem available_of_removeNode {s : Memory} {nodeId j : NodeId}
    (h : (s.removeNode nodeId).available j = some true) : s.available j = some true := by
  rw [available_removeNode] at h
  split at h
  · cases h
  · exact h

end Memory

/-- Nothing that the grace timers depend on has changed. -/
structure SameGrace (s s' : Memory) : Prop where
  graceTimers : s'.graceTimers = s.graceTimers
  timers : s'.timers = s.timers
  clock : s'.clock = s.clock
  available : ∀ nodeId, s'.available nodeId = s.available nodeId

theorem SameGrace.refl (s : Memory) : SameGrace s s := ⟨rfl, rfl, rfl, fun _ => rfl⟩

theorem SameGrace.trans {s t u : Memory} (h : SameGrace s t) (h' : SameGrace t u) : SameGrace s u :=
  ⟨h'.graceTimers.trans h.graceTimers, h'.timers.trans h.timers, h'.clock.trans h.clock,
    fun nodeId => (h'.available nodeId).trans (h.available nodeId)⟩

theorem runHandler_emitNodeUpdated (nodeId : NodeId) (k : Task) (s : Memory) :
    runHandler (emitNodeUpdated nodeId k) s = runHandler k s := by
  simp only [runHandler, emitNodeUpdated, Prog.read, Prog.exec, id]
  cases s.registry.nodeData nodeId <;> rfl

theorem runHandler_persist (nodeId : NodeId) (k : Task) (s : Memory) :
    runHandler (persist nodeId k) s = runHandler k s := by
  simp only [runHandler, persist, Prog.read, Prog.exec, id]
  cases s.registry.snapshotRecord nodeId <;> rfl

theorem runHandler_ifKnown (nodeId : NodeId) (arm k : Task) (s : Memory) :
    runHandler (ifKnown nodeId arm k) s =
      if s.registry.contains nodeId then runHandler arm s else runHandler k s := by
  simp only [runHandler, ifKnown, Prog.read, Prog.exec, id]
  split <;> rfl

theorem runHandler_modify (f : Memory → Memory) (k : Task) (s : Memory) :
    runHandler (.modify f k) s = runHandler k (f s) := rfl

theorem runHandler_setAvailable (nodeId : NodeId) (b : Bool) (s : Memory) :
    runHandler (.modifyGet (fun s => s.setAvailable nodeId b) fun changed =>
      if changed = some true then emitNodeUpdated nodeId .done else .done) s =
      (s.setAvailable nodeId b).2 := by
  simp only [runHandler, Prog.modifyGet, Prog.exec]
  split
  · exact runHandler_emitNodeUpdated nodeId .done _
  · rfl

/-- What a Connected event does. -/
theorem runHandler_connected (nodeId : NodeId) (maxIntervalSecs : UInt16) (now : String)
    (s : Memory) :
    runHandler (handleEvent (.nodeState nodeId (.connected maxIntervalSecs)) now .done) s =
      if s.registry.contains nodeId then ((s.cancelGrace nodeId).setAvailable nodeId true).2 else s := by
  unfold handleEvent
  rw [runHandler_ifKnown]
  split
  · exact runHandler_setAvailable nodeId true _
  · rfl

/-- The availability that the Reconnecting arm reads. -/
theorem nodeData_available (s : Memory) (nodeId : NodeId) :
    ((s.registry.nodeData nodeId).map (·.available)).getD false = true ↔
      s.available nodeId = some true := by
  unfold Registry.nodeData Memory.available
  cases s.registry.get? nodeId with
  | none => simp
  | some e => simp [buildNodeData]

/-- What a Reconnecting event does. -/
theorem runHandler_reconnecting (nodeId : NodeId) (now : String) (s : Memory) :
    runHandler (handleEvent (.nodeState nodeId .reconnecting) now .done) s =
      if s.available nodeId = some true then s.startGrace nodeId else s := by
  have harm : runHandler (handleNodeState nodeId .done .reconnecting) s =
      if s.available nodeId = some true then s.startGrace nodeId else s := by
    simp only [runHandler, handleNodeState, Prog.read, Prog.exec, id, nodeData_available]
    split <;> rfl
  unfold handleEvent
  rw [runHandler_ifKnown, harm]
  by_cases havailable : s.available nodeId = some true
  · rw [if_pos (Memory.contains_of_available havailable)]
  · rw [if_neg havailable]
    split <;> rfl

/-- What an expiry signal does. -/
theorem runHandler_handleGraceExpiry (nodeId : NodeId) (s : Memory) :
    runHandler (handleGraceExpiry nodeId .done) s =
      if (s.graceTimers.get? nodeId).isSome then
        ((s.takeGrace nodeId).2.setAvailable nodeId false).2
      else (s.takeGrace nodeId).2 := by
  have htaken : (s.takeGrace nodeId).1 = s.graceTimers.get? nodeId := rfl
  simp only [runHandler, handleGraceExpiry, Prog.modifyGet, Prog.exec, ← htaken]
  cases (s.takeGrace nodeId).1 with
  | none => rfl
  | some handle => exact runHandler_setAvailable nodeId false _

theorem sameGrace_applyChanges (nodeId : NodeId) (changes : List (String × Json)) {k : Task}
    (hk : ∀ s, SameGrace s (runHandler k s)) (s : Memory) :
    SameGrace s (runHandler (applyChanges nodeId changes k) s) := by
  induction changes generalizing s with
  | nil => exact hk s
  | cons change rest ih =>
    have hset : SameGrace s (s.setAttribute nodeId change.1 change.2) :=
      ⟨rfl, rfl, rfl, fun j => s.available_setAttribute nodeId j _ _⟩
    exact hset.trans (ih _)

/-- Events that report no connection state leave the timers alone. -/
theorem sameGrace_handleEvent {ev : StackEvent} (hev : ∀ nodeId state, ev ≠ .nodeState nodeId state)
    (now : String) (s : Memory) : SameGrace s (runHandler (handleEvent ev now .done) s) := by
  cases ev with
  | nodeState nodeId state => exact absurd rfl (hev nodeId state)
  | primingSnapshot nodeId attributes =>
    unfold handleEvent
    rw [runHandler_ifKnown]
    split
    · rw [runHandler_modify, runHandler_persist, runHandler_emitNodeUpdated]
      exact ⟨rfl, rfl, rfl, fun j => s.available_replaceAttributes nodeId j attributes now⟩
    · exact .refl s
  | attributesChanged nodeId changes =>
    unfold handleEvent
    rw [runHandler_ifKnown]
    split
    · refine sameGrace_applyChanges nodeId changes (fun t => ?_) s
      rw [runHandler_persist]
      exact .refl t
    · exact .refl s
  | nodeEvent nodeId event =>
    unfold handleEvent
    rw [runHandler_ifKnown]
    split
    · exact ⟨rfl, rfl, rfl, fun _ => rfl⟩
    · exact .refl s

namespace Memory

theorem get?_cancelGrace (s : Memory) (nodeId j : NodeId) :
    (s.cancelGrace nodeId).graceTimers.get? j =
      if j = nodeId then none else s.graceTimers.get? j := by
  unfold cancelGrace
  split
  · exact OrdMap.get?_erase _ _ _
  next hnone =>
    split
    next h => rw [h, hnone]
    · rfl

/-- Cancelling touches only the timer in the node's entry, and that only while it sleeps. -/
theorem timers_cancelGrace {s : Memory} {nodeId : NodeId} {k : Nat} {t : Timer}
    (h : (s.cancelGrace nodeId).timers[k]? = some t) :
    ∃ u, s.timers[k]? = some u ∧ t.nodeId = u.nodeId ∧ t.started = u.started ∧
      (t = u ∨ t.state = .aborted) ∧
      (t.state = .sleeping → s.graceTimers.get? nodeId ≠ some k) := by
  unfold cancelGrace at h
  split at h
  next handle hentry =>
    simp only [abort, List.getElem?_modify] at h
    obtain ⟨u, hu, rfl⟩ := Option.map_eq_some_iff.mp h
    refine ⟨u, hu, ?_⟩
    by_cases hk : handle = k
    · subst hk
      by_cases hsleeping : u.state = .sleeping <;> simp [hsleeping]
    · simp [hk, hentry]
  next hnone => exact ⟨t, h, rfl, rfl, Or.inl rfl, by simp [hnone]⟩

theorem timers_cancelGrace_of_ne {s : Memory} {nodeId : NodeId} {k : Nat}
    (h : s.graceTimers.get? nodeId ≠ some k) :
    (s.cancelGrace nodeId).timers[k]? = s.timers[k]? := by
  unfold cancelGrace
  split
  next handle hentry =>
    have hne : handle ≠ k := fun heq => h (heq ▸ hentry)
    simp [abort, hne]
  · rfl

end Memory

private theorem getElem?_concat {α : Type} {l : List α} {a v : α} {k : Nat} :
    (l ++ [a])[k]? = some v ↔ l[k]? = some v ∨ (k = l.length ∧ v = a) := by
  rcases lt_trichotomy k l.length with hlt | rfl | hgt
  · simp [List.getElem?_append_left hlt, ne_of_lt hlt]
  · simp [eq_comm]
  · have hlast : ¬ k < (l ++ [a]).length := by simp; omega
    have hold : ¬ k < l.length := by omega
    simp [List.getElem?_eq_none (not_lt.mp hlast), List.getElem?_eq_none (not_lt.mp hold),
      ne_of_gt hgt]

/-- Timer `t` was started by a Reconnecting event of the node, and while the node is
registered as available no Connected event of it came since. -/
def Started (trace : List (Nat × Happened)) (available : Option Bool) (nodeId : NodeId) (t : Nat)
    (start : Nat) : Prop :=
  ∃ earlier mid, trace = earlier ++ (start, .reconnecting nodeId (some t)) :: mid ∧
    (available = some true → ∀ e ∈ mid, e.2 ≠ .connected nodeId)

theorem Started.append {trace extra : List (Nat × Happened)} {available available' : Option Bool}
    {nodeId : NodeId} {t start : Nat} (h : Started trace available nodeId t start)
    (hextra : available' = some true → available = some true ∧ ∀ e ∈ extra, e.2 ≠ .connected nodeId) :
    Started (trace ++ extra) available' nodeId t start := by
  obtain ⟨earlier, mid, rfl, hmid⟩ := h
  refine ⟨earlier, mid ++ extra, by simp, fun hav e he => ?_⟩
  rcases List.mem_append.mp he with he | he
  · exact hmid (hextra hav).1 e he
  · exact (hextra hav).2 e he

namespace Loop

/-- Every entry is a live timer's, a queued signal meets only a timer that has run out,
and every expiry so far was earned. -/
structure Invariant (s : Loop) : Prop where
  entry : ∀ nodeId t, s.mem.graceTimers.get? nodeId = some t → ∃ timer,
    s.mem.timers[t]? = some timer ∧ timer.nodeId = nodeId ∧
      Started s.trace (s.mem.available nodeId) nodeId t timer.started
  sleeping : ∀ (t : Nat) (timer : Timer), s.mem.timers[t]? = some timer → timer.state = .sleeping →
    s.mem.graceTimers.get? timer.nodeId = some t
  elapsed : ∀ (t : Nat) (timer : Timer), s.mem.timers[t]? = some timer → timer.state = .finished →
    timer.started + reconnectGrace ≤ s.mem.clock
  queued : ∀ nodeId ∈ s.graceRx, ∀ t, s.mem.graceTimers.get? nodeId = some t →
    ∃ timer, s.mem.timers[t]? = some timer ∧ timer.state = .finished
  full : FullGrace s.trace

theorem Fresh.inv {s : Loop} (h : s.Fresh) : s.Invariant where
  entry nodeId t ht := by rw [h.graceTimers] at ht; cases ht
  sleeping t timer ht := by rw [h.timers] at ht; cases ht
  elapsed t timer ht := by rw [h.timers] at ht; cases ht
  queued nodeId hn := by rw [h.graceRx] at hn; cases hn
  full before now nodeId timer after heq := by rw [h.trace] at heq; simp at heq

/-- Steps that start, cancel, fire and deliver nothing. -/
theorem Invariant.frame {s s' : Loop} (h : s.Invariant) (extra : List (Nat × Happened))
    (hentry : ∀ nodeId, s'.mem.graceTimers.get? nodeId = s.mem.graceTimers.get? nodeId)
    (htimers : s'.mem.timers = s.mem.timers) (hclock : s.mem.clock ≤ s'.mem.clock)
    (hrx : ∀ nodeId ∈ s'.graceRx, nodeId ∈ s.graceRx) (htrace : s'.trace = s.trace ++ extra)
    (havailable : ∀ nodeId, s'.mem.available nodeId = some true →
      s.mem.available nodeId = some true ∧ ∀ e ∈ extra, e.2 ≠ .connected nodeId)
    (hextra : FullGrace s'.trace) : s'.Invariant where
  entry nodeId t ht := by
    rw [hentry] at ht
    obtain ⟨timer, htimer, hid, hstarted⟩ := h.entry nodeId t ht
    rw [htimers, htrace]
    exact ⟨timer, htimer, hid, hstarted.append (havailable nodeId)⟩
  sleeping t timer ht hstate := by
    rw [hentry]
    exact h.sleeping t timer (htimers ▸ ht) hstate
  elapsed t timer ht hstate := le_trans (h.elapsed t timer (htimers ▸ ht) hstate) hclock
  queued nodeId hn t ht := by
    rw [htimers]
    exact h.queued nodeId (hrx nodeId hn) t (hentry nodeId ▸ ht)
  full := hextra

/-- Steps that happen outside the consumer loop. -/
theorem Invariant.command {s : Loop} (h : s.Invariant) {mem : Memory}
    (hentry : mem.graceTimers = s.mem.graceTimers) (htimers : mem.timers = s.mem.timers)
    (hclock : s.mem.clock ≤ mem.clock)
    (havailable : ∀ nodeId, mem.available nodeId = some true → s.mem.available nodeId = some true) :
    Invariant { s with mem := mem } :=
  h.frame [] (fun nodeId => by rw [← hentry]) htimers hclock (fun _ hn => hn) (by simp)
    (fun nodeId hav => ⟨havailable nodeId hav, by simp⟩) h.full

theorem Invariant.connected {s : Loop} (h : s.Invariant) (nodeId : NodeId) :
    Invariant { s with
      mem := ((s.mem.cancelGrace nodeId).setAvailable nodeId true).2
      trace := s.trace ++ [(s.mem.clock, .connected nodeId)] } where
  entry j t ht := by
    change (s.mem.cancelGrace nodeId).graceTimers.get? j = some t at ht
    rw [Memory.get?_cancelGrace] at ht
    split at ht
    · cases ht
    next hj =>
      obtain ⟨timer, htimer, hid, hstarted⟩ := h.entry j t ht
      have hother : s.mem.graceTimers.get? nodeId ≠ some t := by
        intro heq
        obtain ⟨timer', htimer', hid', _⟩ := h.entry nodeId t heq
        rw [htimer] at htimer'
        cases htimer'
        exact hj (hid.symm.trans hid')
      refine ⟨timer, (Memory.timers_cancelGrace_of_ne hother).trans htimer, hid,
        hstarted.append fun hav => ⟨?_, ?_⟩⟩
      · rwa [Memory.available_setAvailable, if_neg hj, Memory.available_cancelGrace] at hav
      · intro e he heq
        obtain rfl := List.mem_singleton.mp he
        cases heq
        exact hj rfl
  sleeping t timer ht hstate := by
    obtain ⟨u, hu, hid, _, hsame | haborted, hentry⟩ := Memory.timers_cancelGrace ht
    · subst hsame
      have hget := h.sleeping t timer hu hstate
      have hne : timer.nodeId ≠ nodeId := fun heq => hentry hstate (heq ▸ hget)
      exact (Memory.get?_cancelGrace _ _ _).trans ((if_neg hne).trans hget)
    · rw [haborted] at hstate
      cases hstate
  elapsed t timer ht hstate := by
    have hclock : ((s.mem.cancelGrace nodeId).setAvailable nodeId true).2.clock = s.mem.clock := by
      change (s.mem.cancelGrace nodeId).clock = s.mem.clock
      unfold Memory.cancelGrace
      split <;> rfl
    obtain ⟨u, hu, _, _, hsame | haborted, _⟩ := Memory.timers_cancelGrace ht
    · subst hsame
      rw [hclock]
      exact h.elapsed t timer hu hstate
    · rw [haborted] at hstate
      cases hstate
  queued j hj t ht := by
    change (s.mem.cancelGrace nodeId).graceTimers.get? j = some t at ht
    rw [Memory.get?_cancelGrace] at ht
    split at ht
    · cases ht
    next hjn =>
      obtain ⟨timer, htimer, hstate⟩ := h.queued j hj t ht
      have hother : s.mem.graceTimers.get? nodeId ≠ some t := by
        intro heq
        obtain ⟨_, htimer₁, hid₁, _⟩ := h.entry nodeId t heq
        obtain ⟨_, htimer₂, hid₂, _⟩ := h.entry j t ht
        rw [htimer₁] at htimer₂
        cases htimer₂
        exact hjn (hid₂.symm.trans hid₁)
      exact ⟨timer, (Memory.timers_cancelGrace_of_ne hother).trans htimer, hstate⟩
  full := h.full.concat fun _ _ heq => by cases heq

theorem Invariant.reconnecting {s : Loop} (h : s.Invariant) {nodeId : NodeId}
    (hstarts : StartsTimer s.mem nodeId) (hqueue : nodeId ∉ s.graceRx) :
    Invariant { s with
      mem := s.mem.startGrace nodeId
      trace := s.trace ++ [(s.mem.clock, .reconnecting nodeId (some s.mem.timers.length))] } := by
  have hmem : s.mem.startGrace nodeId = { s.mem with
      graceTimers := s.mem.graceTimers.insert nodeId s.mem.timers.length
      timers := s.mem.timers ++ [⟨nodeId, s.mem.clock, .sleeping⟩] } := by
    unfold Memory.startGrace
    rw [if_neg (by simp [OrdMap.contains, hstarts.2])]
  rw [hmem]
  have hlast := getElem?_concat (l := s.mem.timers) (a := ⟨nodeId, s.mem.clock, .sleeping⟩)
    (k := s.mem.timers.length) (v := ⟨nodeId, s.mem.clock, .sleeping⟩) |>.mpr (Or.inr ⟨rfl, rfl⟩)
  refine ⟨fun j t ht => ?_, fun t timer ht hstate => ?_, fun t timer ht hstate => ?_,
    fun j hj t ht => ?_, h.full.concat fun _ _ heq => by cases heq⟩
  · rw [OrdMap.get?_insert] at ht
    split at ht
    next hj =>
      subst hj
      cases ht
      exact ⟨_, hlast, rfl, s.trace, [], rfl, fun _ => by simp⟩
    next hj =>
      obtain ⟨timer, htimer, hid, hstarted⟩ := h.entry j t ht
      refine ⟨timer, getElem?_concat.mpr (Or.inl htimer), hid, hstarted.append fun hav => ⟨hav, ?_⟩⟩
      intro e he heq
      obtain rfl := List.mem_singleton.mp he
      cases heq
  · rcases getElem?_concat.mp ht with hbefore | ⟨rfl, rfl⟩
    · have hget := h.sleeping t timer hbefore hstate
      have hne : timer.nodeId ≠ nodeId := by
        intro heq
        rw [heq, hstarts.2] at hget
        cases hget
      rw [OrdMap.get?_insert_of_ne _ hne]
      exact hget
    · exact OrdMap.get?_insert_self _ _ _
  · rcases getElem?_concat.mp ht with hbefore | ⟨rfl, rfl⟩
    · exact h.elapsed t timer hbefore hstate
    · cases hstate
  · have hne : j ≠ nodeId := fun heq => hqueue (heq ▸ hj)
    rw [OrdMap.get?_insert_of_ne _ hne] at ht
    obtain ⟨timer, htimer, hstate⟩ := h.queued j hj t ht
    exact ⟨timer, getElem?_concat.mpr (Or.inl htimer), hstate⟩

/-- The signal meets the entry of the timer that sent it, so the expiry was earned. -/
theorem Invariant.expire {s : Loop} (h : s.Invariant) {nodeId : NodeId} {rest : List NodeId}
    (hrx : s.graceRx = nodeId :: rest) {t : Nat} (hentry : s.mem.graceTimers.get? nodeId = some t) :
    let mem := ((s.mem.takeGrace nodeId).2.setAvailable nodeId false).2
    Invariant { mem := mem, graceRx := rest, trace := s.trace ++ expiryTrace s.mem mem nodeId } := by
  intro mem
  obtain ⟨timer, htimer, hfinished⟩ := h.queued nodeId (by simp [hrx]) t hentry
  have hget : ∀ j, mem.graceTimers.get? j = if j = nodeId then none else s.mem.graceTimers.get? j :=
    fun j => OrdMap.get?_erase _ _ _
  have havailable : ∀ j, j ≠ nodeId → mem.available j = s.mem.available j := fun j hj =>
    (Memory.available_setAvailable _ _ _ _).trans (if_neg hj)
  have hquiet : ∀ j, ∀ e ∈ expiryTrace s.mem mem nodeId, e.2 ≠ .connected j := by
    intro j e he
    unfold expiryTrace at he
    split at he
    · obtain rfl := List.mem_singleton.mp he
      simp
    · cases he
  refine ⟨fun j t' ht => ?_, fun t' timer' ht hstate => ?_, h.elapsed, fun j hj t' ht => ?_, ?_⟩
  · rw [hget] at ht
    split at ht
    · cases ht
    next hj =>
      obtain ⟨timer', htimer', hid, hstarted⟩ := h.entry j t' ht
      refine ⟨timer', htimer', hid, hstarted.append fun hav => ⟨?_, hquiet j⟩⟩
      rwa [← havailable j hj]
  · have hold := h.sleeping t' timer' ht hstate
    have hne : timer'.nodeId ≠ nodeId := by
      intro heq
      rw [heq, hentry] at hold
      cases hold
      rw [show s.mem.timers[t]? = some timer' from ht] at htimer
      cases htimer
      rw [hstate] at hfinished
      cases hfinished
    exact (hget _).trans ((if_neg hne).trans hold)
  · rw [hget] at ht
    split at ht
    · cases ht
    · exact h.queued j (by simp [hrx, hj]) t' ht
  · unfold expiryTrace
    split
    next hmarked =>
      refine h.full.concat fun j timer? heq => ?_
      cases heq
      obtain ⟨timer', htimer', _, earlier, mid, htrace, hmid⟩ := h.entry nodeId t hentry
      rw [htimer] at htimer'
      cases htimer'
      exact ⟨t, timer.started, earlier, mid, hentry, htrace, h.elapsed t timer htimer hfinished,
        hmid hmarked.1⟩
    · rw [List.append_nil]
      exact h.full

/-- A sleeping timer is its node's entry, so the signal it sends is not stale. -/
theorem Invariant.fire {s : Loop} (h : s.Invariant) {handle : Nat} {timer : Timer}
    (htimer : s.mem.timers[handle]? = some timer) (hsleeping : timer.state = .sleeping)
    (helapsed : timer.started + reconnectGrace ≤ s.mem.clock) :
    Invariant { s with mem := s.mem.finish handle, graceRx := s.graceRx ++ [timer.nodeId] } := by
  have hentry := h.sleeping handle timer htimer hsleeping
  have hback : ∀ {t u}, (s.mem.finish handle).timers[t]? = some u → ∃ v, s.mem.timers[t]? = some v ∧
      u = if handle = t then { v with state := .finished } else v := by
    intro t u hu
    simp only [Memory.finish, List.getElem?_modify] at hu
    obtain ⟨v, hv, rfl⟩ := Option.map_eq_some_iff.mp hu
    exact ⟨v, hv, rfl⟩
  have hforth : ∀ {t v}, s.mem.timers[t]? = some v → (s.mem.finish handle).timers[t]? =
      some (if handle = t then { v with state := .finished } else v) := by
    intro t v hv
    simp [Memory.finish, List.getElem?_modify, hv]
  refine ⟨fun j t ht => ?_, fun t u hu hstate => ?_, fun t u hu hstate => ?_, fun j hj t ht => ?_,
    h.full⟩
  · obtain ⟨v, hv, hid, hstarted⟩ := h.entry j t ht
    refine ⟨_, hforth hv, ?_, ?_⟩
    · split <;> exact hid
    · split <;> exact hstarted
  · obtain ⟨v, hv, rfl⟩ := hback hu
    split at hstate
    · cases hstate
    next hne =>
      rw [if_neg hne]
      exact h.sleeping t v hv hstate
  · obtain ⟨v, hv, rfl⟩ := hback hu
    split at hstate
    next heq =>
      subst heq
      rw [htimer] at hv
      cases hv
      rw [if_pos rfl]
      exact helapsed
    next hne =>
      rw [if_neg hne]
      exact h.elapsed t v hv hstate
  · rcases List.mem_append.mp hj with hj | hj
    · obtain ⟨v, hv, hfinished⟩ := h.queued j hj t ht
      refine ⟨_, hforth hv, ?_⟩
      split
      · rfl
      · exact hfinished
    · obtain rfl := List.mem_singleton.mp hj
      have heq : handle = t := Option.some.inj (hentry.symm.trans ht)
      exact ⟨_, hforth (heq ▸ htimer), by rw [if_pos heq]⟩

/-- Serving one event keeps the invariant, unless it starts a timer next to an old signal. -/
theorem Invariant.event {s : Loop} (h : s.Invariant) (ev : StackEvent) (now : String)
    (hstale : ∀ nodeId, ev = .nodeState nodeId .reconnecting → StartsTimer s.mem nodeId →
      nodeId ∉ s.graceRx) :
    let mem := runHandler (handleEvent ev now .done) s.mem
    Invariant { s with mem := mem, trace := s.trace ++ eventTrace s.mem mem ev } := by
  intro mem
  have hother : (∀ nodeId state, ev ≠ .nodeState nodeId state) →
      Invariant { s with mem := mem, trace := s.trace ++ eventTrace s.mem mem ev } := by
    intro hev
    have hsame : SameGrace s.mem mem := sameGrace_handleEvent hev now s.mem
    have htrace : eventTrace s.mem mem ev = [] := by
      cases ev with
      | nodeState nodeId state => exact absurd rfl (hev nodeId state)
      | primingSnapshot | attributesChanged | nodeEvent => rfl
    rw [htrace, List.append_nil]
    exact h.command hsame.graceTimers hsame.timers (le_of_eq hsame.clock.symm) fun nodeId hav =>
      hsame.available nodeId ▸ hav
  cases ev with
  | nodeState nodeId state =>
    cases state with
    | connected maxIntervalSecs =>
      have hmem : mem = _ := runHandler_connected nodeId maxIntervalSecs now s.mem
      by_cases hknown : s.mem.registry.contains nodeId
      · rw [if_pos hknown] at hmem
        rw [hmem]
        exact h.connected nodeId
      · rw [if_neg hknown] at hmem
        rw [hmem]
        refine h.frame [(s.mem.clock, .connected nodeId)] (fun _ => rfl) rfl (le_refl _)
          (fun _ hn => hn) rfl (fun j hav => ⟨hav, fun e he heq => ?_⟩)
          (h.full.concat fun _ _ heq => by cases heq)
        obtain rfl := List.mem_singleton.mp he
        cases heq
        exact hknown (Memory.contains_of_available hav)
    | reconnecting =>
      have hmem : mem = _ := runHandler_reconnecting nodeId now s.mem
      by_cases hstarts : StartsTimer s.mem nodeId
      · rw [if_pos hstarts.1] at hmem
        have hlength : s.mem.timers.length < (s.mem.startGrace nodeId).timers.length := by
          unfold Memory.startGrace
          rw [if_neg (by simp [OrdMap.contains, hstarts.2])]
          simp
        simp only [hmem, eventTrace, hlength, if_true]
        exact h.reconnecting hstarts (hstale nodeId rfl hstarts)
      · have hsame : mem = s.mem := by
          rw [hmem]
          split
          next hav =>
            have hentry : s.mem.graceTimers.get? nodeId ≠ none := fun hnone => hstarts ⟨hav, hnone⟩
            unfold Memory.startGrace
            rw [if_pos (by simpa [OrdMap.contains, Option.isSome_iff_ne_none] using hentry)]
          · rfl
        simp only [hsame, eventTrace, lt_irrefl, if_false]
        exact h.frame [(s.mem.clock, .reconnecting nodeId none)] (fun _ => rfl) rfl (le_refl _)
          (fun _ hn => hn) rfl (fun j hav => ⟨hav, by simp⟩)
          (h.full.concat fun _ _ heq => by cases heq)
  | primingSnapshot | attributesChanged | nodeEvent => exact hother fun _ _ heq => by cases heq

theorem Invariant.step {s s' : Loop} (h : s.Invariant) {a : LoopStep} (hstep : s.step a = some s')
    (hstale : NoStaleSignal s a s') : s'.Invariant := by
  cases a with
  | event ev now =>
    cases hstep
    exact h.event ev now fun nodeId heq => hstale nodeId now (by rw [heq])
  | deliver =>
    simp only [Loop.step] at hstep
    split at hstep
    · cases hstep
    next nodeId rest hrx =>
      cases hstep
      rw [runHandler_handleGraceExpiry]
      cases hentry : s.mem.graceTimers.get? nodeId with
      | some t => exact h.expire hrx hentry
      | none =>
        have hget : ∀ j, (s.mem.takeGrace nodeId).2.graceTimers.get? j = s.mem.graceTimers.get? j := by
          intro j
          refine (OrdMap.get?_erase _ _ _).trans ?_
          split
          next hj => rw [hj, hentry]
          · rfl
        have hunmarked : expiryTrace s.mem (s.mem.takeGrace nodeId).2 nodeId = [] := by
          unfold expiryTrace
          rw [if_neg]
          rintro ⟨htrue, hfalse⟩
          rw [show (s.mem.takeGrace nodeId).2.available nodeId = s.mem.available nodeId from rfl,
            htrue] at hfalse
          cases hfalse
        simp only [Option.isSome_none, Bool.false_eq_true, if_false, hunmarked]
        exact h.frame [] hget rfl (le_refl _) (fun j hj => by simp [hrx, hj]) rfl
          (fun j hav => ⟨hav, by simp⟩) (by rw [List.append_nil]; exact h.full)
  | fire handle =>
    simp only [Loop.step] at hstep
    split at hstep
    next timer htimer =>
      split at hstep
      next hready => cases hstep; exact h.fire htimer hready.1 hready.2
      · cases hstep
    · cases hstep
  | tick seconds =>
    cases hstep
    exact h.command rfl rfl (Nat.le_add_right _ _) fun _ hav => hav
  | insert record =>
    cases hstep
    exact h.command rfl rfl (le_refl _) fun _ => Memory.available_of_insertNode
  | remove nodeId =>
    cases hstep
    exact h.command rfl rfl (le_refl _) fun _ => Memory.available_of_removeNode
  | interview nodeId attributes now =>
    cases hstep
    exact h.command rfl rfl (le_refl _) fun j hav =>
      Memory.available_replaceAttributes s.mem nodeId j attributes now ▸ hav

/-- In every run of the loop that starts no timer while an old signal of its node is queued,
every node marked unavailable has had its full, uninterrupted grace. -/
theorem fullGrace {s s' : Loop} {steps : List LoopStep} (hfresh : s.Fresh)
    (halong : Transition.Along step NoStaleSignal s steps)
    (hrun : Transition.run step s steps = some s') : FullGrace s'.trace :=
  (Transition.run_invariant (fun _ _ _ (h : Invariant _) hstep hstale => h.step hstep hstale)
    hfresh.inv halong hrun).full

end Loop

section Race

/-- A loop at its start, with node 7 registered. -/
def lampLoop : Loop := ⟨lampMemory, [], []⟩

theorem lampLoop_fresh : lampLoop.Fresh := ⟨fun _ => rfl, rfl, rfl, rfl⟩

def connectedLamp : LoopStep := .event (.nodeState 7 (.connected 60)) ""

def reconnectingLamp : LoopStep := .event (.nodeState 7 .reconnecting) ""

/-- The first outage lasts its grace, the node comes back before the signal is served and drops
out again: the old signal ends the new grace at its first second. -/
def secondOutage : List LoopStep :=
  [connectedLamp, reconnectingLamp, .tick 180, .fire 0, connectedLamp, reconnectingLamp, .deliver]

theorem staleSignal_cuts_grace : lampLoop.Fresh ∧
    ∃ s', Transition.run Loop.step lampLoop secondOutage = some s' ∧ ¬ FullGrace s'.trace := by
  refine ⟨lampLoop_fresh, _, rfl, fun hfull => ?_⟩
  obtain ⟨t, start, earlier, mid, ht, hbefore, helapsed, _⟩ :=
    hfull [(0, .connected 7), (0, .reconnecting 7 (some 0)), (180, .connected 7),
      (180, .reconnecting 7 (some 1))] 180 7 (some 1) [] rfl
  have hmem : (start, Happened.reconnecting 7 (some t)) ∈ earlier ++
      (start, Happened.reconnecting 7 (some t)) :: mid := by simp
  rw [← hbefore, ← ht] at hmem
  have hstart : start = 180 := by simpa using hmem
  rw [hstart] at helapsed
  exact absurd helapsed (by decide)

/-- One outage that lasts its grace. -/
theorem fullGrace_one_outage : ∃ s', Transition.run Loop.step lampLoop
    [connectedLamp, reconnectingLamp, .tick 180, .fire 0, .deliver] = some s' ∧
      s'.mem.available 7 = some false ∧ FullGrace s'.trace := by
  have halong : Transition.Along Loop.step NoStaleSignal lampLoop
      [connectedLamp, reconnectingLamp, .tick 180, .fire 0, .deliver] := by
    intro s₁ h₁
    refine ⟨(by rintro _ _ ⟨⟩), fun s₂ h₂ => ?_⟩
    cases h₁
    refine ⟨fun _ _ _ _ => by simp [lampLoop], fun s₃ h₃ => ⟨(by rintro _ _ ⟨⟩), fun s₄ h₄ => ?_⟩⟩
    exact ⟨(by rintro _ _ ⟨⟩), fun s₅ h₅ => ⟨(by rintro _ _ ⟨⟩), trivial⟩⟩
  exact ⟨_, rfl, rfl, Loop.fullGrace lampLoop_fresh halong rfl⟩

end Race

end MatterRsServer.Controller
