import MatterRsServer.Controller.EventStream

/-!
# Snapshot and stream of one connection

`handle_connection` of `crates/server/src/ws.rs`, next to the controller's tasks: the
connection subscribes, drops events until `start_listening`, answers that command with
`all_node_data`, then drains the receiver and forwards what comes after. The dump is
computed inside `handle_text_frame` and the drain runs after it, so a message sent in
between is discarded although the dump does not show it. The client ends with the
registry in every run where the drain discards no such message.

Text frames other than `start_listening` reach neither the receiver nor the `listening`
flag; the receiver never lags.
-/
namespace MatterRsServer.Server
open Lib Wire Controller

/-- Frames the client takes its copy from. -/
inductive Frame where
  | reply (nodes : List MatterNodeData)
  | event (msg : EventMessage)

/-- Where `handle_connection` is. -/
inductive ConnPc where
  | connecting
  | select
  | handled (reply : List MatterNodeData)
  | draining (reply : List MatterNodeData)
  | replying (reply : List MatterNodeData)

/-- `taken` counts the messages the receiver has passed. `handover` is history only: the
dump that started the listening, and how long the channel was when it was computed. -/
structure Connection where
  pc : ConnPc
  listening : Bool
  taken : Nat
  frames : List Frame
  handover : Option (List MatterNodeData × Nat)

/-- A socket that has been accepted and has got its `server_info`. -/
def Connection.accepted : Connection := ⟨.connecting, false, 0, [], none⟩

/-- The atomic steps of `handle_connection`. -/
inductive ConnStep where
  | subscribe | handleCommand | setListening | tryRecv | sendReply | recvEvent

/-- One step, against the registry and the messages broadcast so far. -/
def Connection.step (c : Connection) (registry : Registry) (channel : List EventMessage) :
    ConnStep → Option Connection
  | .subscribe =>
    match c.pc with
    | .connecting => some { c with pc := .select, taken := channel.length }
    | _ => none
  | .handleCommand =>
    match c.pc with
    | .select =>
      let reply := registry.allNodeData false
      some { c with
        pc := .handled reply
        handover := if c.listening then c.handover else some (reply, channel.length) }
    | _ => none
  | .setListening =>
    match c.pc with
    | .handled reply =>
      some { c with
        pc := if c.listening then .replying reply else .draining reply
        listening := true }
    | _ => none
  | .tryRecv =>
    match c.pc with
    | .draining reply =>
      if c.taken < channel.length then some { c with taken := c.taken + 1 }
      else some { c with pc := .replying reply }
    | _ => none
  | .sendReply =>
    match c.pc with
    | .replying reply => some { c with pc := .select, frames := c.frames ++ [.reply reply] }
    | _ => none
  | .recvEvent =>
    match c.pc, channel[c.taken]? with
    | .select, some msg =>
      some { c with
        taken := c.taken + 1
        frames := if c.listening then c.frames ++ [.event msg] else c.frames }
    | _, _ => none

/-- The dump as a copy. -/
def dumpCopy (nodes : List MatterNodeData) : NodeCopy :=
  .ofList (nodes.map fun nd => (nd.nodeId, nd.view))

/-- The client takes a dump as its state and applies events to it. -/
def clientStep (copy : NodeCopy) : Frame → NodeCopy
  | .reply nodes => dumpCopy nodes
  | .event msg => applyEvent copy msg

def clientCopy (frames : List Frame) : NodeCopy := frames.foldl clientStep ∅

/-- The controller's tasks and one connection. -/
structure Session (ι : Type) where
  server : Config ι Memory Effect
  conn : Connection

inductive Action (ι : Type) where
  | task (i : ι)
  | conn (step : ConnStep)

namespace Session

variable {ι : Type}

def channel (s : Session ι) : List EventMessage := messages s.server.log

def step [DecidableEq ι] (s : Session ι) : Action ι → Option (Session ι)
  | .task i => (s.server.step i).map fun server => { s with server := server }
  | .conn a => (s.conn.step s.server.mem.registry s.channel a).map fun conn => { s with conn := conn }

/-- The socket has just been accepted and no task has started. -/
structure Opening (s : Session ι) : Prop where
  server : Starting s.server
  conn : s.conn = .accepted

/-- All tasks have finished and the connection has forwarded everything. -/
structure AtRest (s : Session ι) : Prop where
  server : s.server.Quiescent
  listening : s.conn.listening = true
  select : s.conn.pc = .select
  received : s.conn.taken = s.channel.length

/-- A dump shows a message when applying the message to it changes nothing. -/
def Shows (reply : List MatterNodeData) (msg : EventMessage) : Prop :=
  ∀ id, msg.act id ((dumpCopy reply).get? id) = (dumpCopy reply).get? id

/-- A task's step makes no message untrue that another task has computed and not sent, and
the drain discards no message that was sent after the dump and that the dump does not show. -/
def HandoverSafe (s : Session ι) (a : Action ι) (s' : Session ι) : Prop :=
  match a with
  | .task i => KeepsInFlight s.server i s'.server
  | .conn .tryRecv => ∀ reply sent msg, s.conn.handover = some (reply, sent) →
      sent ≤ s.conn.taken → s.channel[s.conn.taken]? = some msg → Shows reply msg
  | .conn _ => True

/-- What the client's copy will be built on: a dump on its way to it, or what it has. -/
def base (s : Session ι) : NodeCopy :=
  match s.conn.pc with
  | .handled reply | .draining reply | .replying reply => dumpCopy reply
  | _ => clientCopy s.conn.frames

/-- The messages that the client will still apply: those sent after the dump and not taken. -/
def upcoming (s : Session ι) (sent : Nat) : List EventMessage :=
  s.channel.drop (max s.conn.taken sent)

/-- The client's copy with everything that is still to reach it. -/
def complete (s : Session ι) (sent : Nat) : NodeId → Option NodeView :=
  eventStream.after ((s.upcoming sent).map .send) s.base.get?

/-- After the dump, the client lacks only what tasks will still send, and every message it
will never see is shown by the dump. -/
structure HandedOver (s : Session ι) (reply : List MatterNodeData) (sent : Nat) : Prop where
  sent_le : sent ≤ s.channel.length
  mirrored : ∃ D, eventStream.Mirrored (s.complete sent) D s.server
  drained : s.conn.listening = true → (∀ r, s.conn.pc ≠ .draining r) → sent ≤ s.conn.taken
  connected : s.conn.pc ≠ .connecting
  listening : s.conn.listening = false → s.conn.pc = .handled reply
  dump : ∀ r, s.conn.pc = .draining r → r = reply
  accounted : ∀ msg ∈ (s.channel.take s.conn.taken).drop sent,
    .event msg ∈ s.conn.frames ∨ Shows reply msg

/-- Before the first dump nothing reaches the client and the stream covers the registry. -/
structure Waiting (s : Session ι) : Prop where
  mirrored : ∃ view D, eventStream.Mirrored view D s.server
  listening : s.conn.listening = false
  pc : s.conn.pc = .connecting ∨ s.conn.pc = .select

structure Invariant (s : Session ι) : Prop where
  taken_le : s.conn.taken ≤ s.channel.length
  phase : match s.conn.handover with
    | none => Waiting s
    | some (reply, sent) => HandedOver s reply sent

end Session

/-- A dump of the registry is the registry's copy. -/
theorem dumpCopy_allNodeData (r : Registry) : dumpCopy (r.allNodeData false) = r.copy := by
  have hentries : (r.allNodeData false).map (fun nd => (nd.nodeId, nd.view)) = r.copy.entries := by
    simp only [Registry.allNodeData, Bool.not_false, Bool.true_or, List.filter_true, List.map_map]
    refine List.map_congr_left fun e he => ?_
    have hid := Registry.nodeId_of_get? (r.inner.sorted.get?_of_mem he)
    exact Prod.ext hid rfl
  unfold dumpCopy
  rw [hentries]
  exact OrdMap.ofList_entries _

theorem get?_dumpCopy_allNodeData (r : Registry) : (dumpCopy (r.allNodeData false)).get? = r.view := by
  rw [dumpCopy_allNodeData]
  exact funext fun id => get?_copy r id

theorem get?_clientStep_event (copy : NodeCopy) (msg : EventMessage) :
    (clientStep copy (.event msg)).get? = eventStream.after [.send msg] copy.get? :=
  funext fun id => get?_applyEvent copy msg id

namespace Session

variable {ι : Type} [DecidableEq ι]

/-- What the tasks send is appended to what the client still has to apply. -/
theorem HandedOver.task {s : Session ι} {reply : List MatterNodeData} {sent : Nat}
    (h : s.HandedOver reply sent) (htaken : s.conn.taken ≤ s.channel.length) {i : ι}
    {server : Config ι Memory Effect} (hstep : s.server.step i = some server)
    (hkeeps : KeepsInFlight s.server i server) :
    HandedOver { s with server := server } reply sent := by
  obtain ⟨D, hmirrored⟩ := h.mirrored
  obtain ⟨D', new, hlog, hmirrored'⟩ := hmirrored.step hstep hkeeps.keepsPending
  have hchannel : messages server.log = s.channel ++ messages new := by rw [hlog, messages_append]; rfl
  refine ⟨?_, ⟨D', ?_⟩, h.drained, h.connected, h.listening, h.dump, ?_⟩
  · change sent ≤ (messages server.log).length
    rw [hchannel, List.length_append]
    exact Nat.le_add_right_of_le h.sent_le
  · have hcomplete : complete { s with server := server } sent =
        eventStream.after new (s.complete sent) := by
      change eventStream.after (((messages server.log).drop _).map .send) s.base.get? = _
      rw [hchannel, List.drop_append_of_le_length (Nat.max_le.mpr ⟨htaken, h.sent_le⟩),
        List.map_append, Mirror.after_append]
      exact after_messages new _
    rw [hcomplete]
    exact hmirrored'
  · change ∀ msg ∈ ((messages server.log).take _).drop sent, _
    rw [hchannel, List.take_append_of_le_length htaken]
    exact h.accounted

omit [DecidableEq ι] in
theorem upcoming_eq_cons {s : Session ι} {sent : Nat} {msg : EventMessage}
    (hsent : sent ≤ s.conn.taken) (hmsg : s.channel[s.conn.taken]? = some msg) :
    s.upcoming sent = msg :: s.channel.drop (max (s.conn.taken + 1) sent) := by
  obtain ⟨hlt, hget⟩ := List.getElem?_eq_some_iff.mp hmsg
  rw [upcoming, Nat.max_eq_left hsent, Nat.max_eq_left (Nat.le_succ_of_le hsent),
    List.drop_eq_getElem_cons hlt, hget]

omit [DecidableEq ι] in
/-- Taking one more message adds it, if it came after the dump, to those accounted for. -/
theorem accounted_taken {s : Session ι} {sent : Nat} {msg m : EventMessage}
    (hmsg : s.channel[s.conn.taken]? = some msg)
    (hm : m ∈ (s.channel.take (s.conn.taken + 1)).drop sent) :
    m ∈ (s.channel.take s.conn.taken).drop sent ∨ (m = msg ∧ sent ≤ s.conn.taken) := by
  obtain ⟨hlt, hget⟩ := List.getElem?_eq_some_iff.mp hmsg
  rw [List.take_succ_eq_append_getElem hlt, hget] at hm
  by_cases hle : sent ≤ (s.channel.take s.conn.taken).length
  · rw [List.drop_append_of_le_length hle, List.mem_append, List.mem_singleton] at hm
    refine hm.imp_right fun heq => ⟨heq, ?_⟩
    rw [List.length_take] at hle
    exact le_trans hle (Nat.min_le_left _ _)
  · rw [List.drop_of_length_le (by simp at hle ⊢; omega)] at hm
    cases hm

omit [DecidableEq ι] in
theorem HandedOver.listening_of_pc {s : Session ι} {reply : List MatterNodeData} {sent : Nat}
    (h : s.HandedOver reply sent) (hpc : ∀ r, s.conn.pc ≠ .handled r) : s.conn.listening = true := by
  cases hlistening : s.conn.listening with
  | true => rfl
  | false => exact absurd (h.listening hlistening) (hpc reply)

omit [DecidableEq ι] in
/-- `start_listening` on a listening connection: a fresh dump, the stream goes on. -/
theorem HandedOver.handleCommand {s : Session ι} {reply : List MatterNodeData} {sent : Nat}
    (h : s.HandedOver reply sent) (hpc : s.conn.pc = .select) :
    HandedOver { s with conn :=
      { s.conn with pc := .handled (s.server.mem.registry.allNodeData false) } } reply sent := by
  obtain ⟨D, hmirrored⟩ := h.mirrored
  have hlistening : s.conn.listening = true := h.listening_of_pc (by simp [hpc])
  refine ⟨h.sent_le, ⟨D, ?_⟩, fun _ _ => h.drained hlistening (by simp [hpc]), by simp,
    fun hnot => ?_, by simp, h.accounted⟩
  · change eventStream.Mirrored (eventStream.after _
      (dumpCopy (s.server.mem.registry.allNodeData false)).get?) D s.server
    rw [get?_dumpCopy_allNodeData]
    exact hmirrored.rewind
  · rw [show s.conn.listening = false from hnot] at hlistening
    cases hlistening

omit [DecidableEq ι] in
theorem HandedOver.setListening {s : Session ι} {reply r : List MatterNodeData} {sent : Nat}
    (h : s.HandedOver reply sent) (hpc : s.conn.pc = .handled r) :
    HandedOver { s with conn :=
      { s.conn with
        pc := if s.conn.listening then .replying r else .draining r
        listening := true } } reply sent := by
  have hbase : s.base = dumpCopy r := by simp only [base, hpc]
  obtain ⟨D, hmirrored⟩ := h.mirrored
  have hcomplete : s.complete sent =
      eventStream.after ((s.upcoming sent).map .send) (dumpCopy r).get? := by
    rw [complete, hbase]
  rw [hcomplete] at hmirrored
  cases hlistening : s.conn.listening with
  | true =>
    exact ⟨h.sent_le, ⟨D, hmirrored⟩, fun _ _ => h.drained hlistening (by simp [hpc]), by simp,
      by simp, by simp, h.accounted⟩
  | false =>
    have hr : r = reply := by
      have hhandled := h.listening hlistening
      rw [hpc] at hhandled
      exact ConnPc.handled.inj hhandled
    refine ⟨h.sent_le, ⟨D, hmirrored⟩, fun _ hdraining => ?_, by simp, by simp, ?_, h.accounted⟩
    · exact absurd rfl (hdraining r)
    · intro r' hr'
      rw [← hr]
      exact (ConnPc.draining.inj hr').symm

omit [DecidableEq ι] in
/-- The drain passes one message: one from before the dump, or one that the dump shows. -/
theorem HandedOver.discard {s : Session ι} {reply r : List MatterNodeData} {sent : Nat}
    (h : s.HandedOver reply sent) (hpc : s.conn.pc = .draining r) {msg : EventMessage}
    (hmsg : s.channel[s.conn.taken]? = some msg)
    (hshows : sent ≤ s.conn.taken → Shows reply msg) :
    HandedOver { s with conn := { s.conn with taken := s.conn.taken + 1 } } reply sent := by
  obtain ⟨D, hmirrored⟩ := h.mirrored
  have hbase : s.base = dumpCopy reply := by
    rw [base, hpc, h.dump r hpc]
  have hcomplete : complete { s with conn := { s.conn with taken := s.conn.taken + 1 } } sent =
      s.complete sent := by
    by_cases hsent : sent ≤ s.conn.taken
    · have hskip : eventStream.after [.send msg] s.base.get? = s.base.get? := by
        rw [hbase]
        exact funext fun id => hshows hsent id
      rw [complete, complete, upcoming_eq_cons hsent hmsg, List.map_cons, ← List.singleton_append,
        Mirror.after_append, hskip]
      rfl
    · rw [complete, complete, upcoming, upcoming, Nat.max_eq_right (by omega : s.conn.taken ≤ sent)]
      change eventStream.after ((s.channel.drop (max (s.conn.taken + 1) sent)).map .send) _ = _
      rw [Nat.max_eq_right (by omega)]
      rfl
  refine ⟨h.sent_le, ⟨D, by rw [hcomplete]; exact hmirrored⟩, fun _ hnot => absurd hpc (hnot r),
    h.connected, h.listening, h.dump, fun m hm => ?_⟩
  rcases accounted_taken hmsg hm with hm | ⟨rfl, hsent⟩
  · exact h.accounted m hm
  · exact Or.inr (hshows hsent)

omit [DecidableEq ι] in
/-- The drain ends at an empty receiver, so everything sent before the dump is behind it. -/
theorem HandedOver.drainEnd {s : Session ι} {reply r : List MatterNodeData} {sent : Nat}
    (h : s.HandedOver reply sent) (hpc : s.conn.pc = .draining r)
    (hempty : ¬ s.conn.taken < s.channel.length) :
    HandedOver { s with conn := { s.conn with pc := .replying r } } reply sent := by
  obtain ⟨D, hmirrored⟩ := h.mirrored
  have hbase : s.base = dumpCopy r := by simp only [base, hpc]
  refine ⟨h.sent_le, ⟨D, ?_⟩, fun _ _ => le_trans h.sent_le (not_lt.mp hempty), by simp,
    fun hnot => ?_, by simp, h.accounted⟩
  · rw [complete, hbase] at hmirrored
    exact hmirrored
  · have hhandled := h.listening hnot
    rw [hpc] at hhandled
    cases hhandled

omit [DecidableEq ι] in
theorem HandedOver.sendReply {s : Session ι} {reply r : List MatterNodeData} {sent : Nat}
    (h : s.HandedOver reply sent) (hpc : s.conn.pc = .replying r) :
    HandedOver { s with conn :=
      { s.conn with pc := .select, frames := s.conn.frames ++ [.reply r] } } reply sent := by
  obtain ⟨D, hmirrored⟩ := h.mirrored
  have hbase : s.base = dumpCopy r := by simp only [base, hpc]
  have hlistening : s.conn.listening = true := h.listening_of_pc (by simp [hpc])
  have hcopy : clientCopy (s.conn.frames ++ [.reply r]) = dumpCopy r := by
    simp [clientCopy, clientStep]
  refine ⟨h.sent_le, ⟨D, ?_⟩, fun _ _ => h.drained hlistening (by simp [hpc]), by simp,
    fun hnot => ?_, by simp, fun m hm => ?_⟩
  · rw [complete, hbase] at hmirrored
    change eventStream.Mirrored (eventStream.after _
      (clientCopy (s.conn.frames ++ [.reply r])).get?) D s.server
    rw [hcopy]
    exact hmirrored
  · rw [show s.conn.listening = false from hnot] at hlistening
    cases hlistening
  · exact (h.accounted m hm).imp_left (List.mem_append_left _)

omit [DecidableEq ι] in
theorem HandedOver.recvEvent {s : Session ι} {reply : List MatterNodeData} {sent : Nat}
    (h : s.HandedOver reply sent) (hpc : s.conn.pc = .select) {msg : EventMessage}
    (hmsg : s.channel[s.conn.taken]? = some msg) :
    HandedOver { s with conn :=
      { s.conn with
        taken := s.conn.taken + 1
        frames := if s.conn.listening then s.conn.frames ++ [.event msg] else s.conn.frames } }
      reply sent := by
  obtain ⟨D, hmirrored⟩ := h.mirrored
  have hlistening : s.conn.listening = true := h.listening_of_pc (by simp [hpc])
  have hsent : sent ≤ s.conn.taken := h.drained hlistening (by simp [hpc])
  have hbase : s.base = clientCopy s.conn.frames := by simp only [base, hpc]
  have hcopy : clientCopy (s.conn.frames ++ [.event msg]) =
      clientStep (clientCopy s.conn.frames) (.event msg) := by simp [clientCopy]
  have hbase' : base { s with conn := { s.conn with
      taken := s.conn.taken + 1, frames := s.conn.frames ++ [.event msg] } } =
      clientCopy (s.conn.frames ++ [.event msg]) := by simp only [base, hpc]
  rw [if_pos hlistening]
  refine ⟨h.sent_le, ⟨D, ?_⟩, fun _ _ => Nat.le_succ_of_le hsent, by simp [hpc],
    by simp [hlistening], by simp [hpc], fun m hm => ?_⟩
  · rw [complete, hbase, upcoming_eq_cons hsent hmsg, List.map_cons, ← List.singleton_append,
      Mirror.after_append, ← get?_clientStep_event, ← hcopy, ← hbase'] at hmirrored
    exact hmirrored
  · rcases accounted_taken hmsg hm with hm | ⟨rfl, _⟩
    · exact (h.accounted m hm).imp_left (List.mem_append_left _)
    · exact Or.inl (by simp)

omit [DecidableEq ι] in
/-- The connection has computed its first dump, unless it still waits for the command. -/
theorem Invariant.waiting_or_handedOver {s : Session ι} (h : s.Invariant) :
    (s.conn.handover = none ∧ s.Waiting) ∨
      ∃ reply sent, s.conn.handover = some (reply, sent) ∧ s.HandedOver reply sent := by
  have hphase := h.phase
  cases hhandover : s.conn.handover with
  | none =>
    rw [hhandover] at hphase
    exact Or.inl ⟨rfl, hphase⟩
  | some handover =>
    rw [hhandover] at hphase
    exact Or.inr ⟨handover.1, handover.2, rfl, hphase⟩

omit [DecidableEq ι] in
theorem Invariant.handedOver {s : Session ι} (h : s.Invariant) (hconnecting : s.conn.pc ≠ .connecting)
    (hselect : s.conn.pc ≠ .select) :
    ∃ reply sent, s.conn.handover = some (reply, sent) ∧ s.HandedOver reply sent := by
  rcases h.waiting_or_handedOver with ⟨-, hwaiting⟩ | hhandedOver
  · exact absurd hwaiting.pc (not_or.mpr ⟨hconnecting, hselect⟩)
  · exact hhandedOver

omit [DecidableEq ι] in
theorem Waiting.invariant {s : Session ι} (h : s.Waiting) (hhandover : s.conn.handover = none)
    (htaken : s.conn.taken ≤ s.channel.length) : s.Invariant :=
  ⟨htaken, by rwa [hhandover]⟩

omit [DecidableEq ι] in
theorem HandedOver.invariant {s : Session ι} {reply : List MatterNodeData} {sent : Nat}
    (h : s.HandedOver reply sent) (hhandover : s.conn.handover = some (reply, sent))
    (htaken : s.conn.taken ≤ s.channel.length) : s.Invariant :=
  ⟨htaken, by rwa [hhandover]⟩

theorem Invariant.task {s : Session ι} (h : s.Invariant) {i : ι} {server : Config ι Memory Effect}
    (hstep : s.server.step i = some server) (hkeeps : KeepsInFlight s.server i server) :
    Invariant { s with server := server } := by
  have htaken : s.conn.taken ≤ (messages server.log).length := by
    rcases Config.step_cases hstep with ⟨_, _, _, _, _, rfl⟩ | ⟨e, _, _, rfl⟩
    · exact h.taken_le
    · rw [messages_append, List.length_append]
      exact Nat.le_add_right_of_le h.taken_le
  rcases h.waiting_or_handedOver with ⟨hhandover, hwaiting⟩ | ⟨reply, sent, hhandover, hhanded⟩
  · obtain ⟨view, D, hmirrored⟩ := hwaiting.mirrored
    obtain ⟨D', new, _, hmirrored'⟩ := hmirrored.step hstep hkeeps.keepsPending
    exact Waiting.invariant ⟨⟨_, D', hmirrored'⟩, hwaiting.listening, hwaiting.pc⟩ hhandover htaken
  · exact (hhanded.task h.taken_le hstep hkeeps).invariant hhandover htaken

omit [DecidableEq ι] in
/-- The first dump is the registry's copy, and every message that was sent before is in it. -/
theorem Waiting.handleCommand {s : Session ι} (h : s.Waiting) (htaken : s.conn.taken ≤ s.channel.length) :
    HandedOver { s with conn :=
      { s.conn with
        pc := .handled (s.server.mem.registry.allNodeData false)
        handover := some (s.server.mem.registry.allNodeData false, s.channel.length) } }
      (s.server.mem.registry.allNodeData false) s.channel.length := by
  obtain ⟨view, D, hmirrored⟩ := h.mirrored
  have hcopy : eventStream.Mirrored (eventStream.after [] s.server.mem.registry.view) D s.server :=
    Mirror.Mirrored.rewind (q := []) hmirrored
  have hlistening := h.listening
  refine ⟨le_refl _, ⟨D, ?_⟩, fun hlistens => ?_, nofun, fun _ => rfl, nofun, ?_⟩
  · change eventStream.Mirrored (eventStream.after
      ((s.channel.drop (max s.conn.taken s.channel.length)).map .send)
      (dumpCopy (s.server.mem.registry.allNodeData false)).get?) D s.server
    rw [get?_dumpCopy_allNodeData, Nat.max_eq_right htaken, List.drop_length]
    exact hcopy
  · rw [show s.conn.listening = true from hlistens] at hlistening
    cases hlistening
  · change ∀ msg ∈ (s.channel.take s.conn.taken).drop s.channel.length, _
    rw [List.drop_of_length_le (by rw [List.length_take]; exact Nat.min_le_right _ _)]
    exact fun msg hmsg => by cases hmsg

omit [DecidableEq ι] in
/-- Every step of the connection keeps the invariant; only the drain needs the condition. -/
theorem Invariant.conn {s : Session ι} (h : s.Invariant) {a : ConnStep} {conn : Connection}
    (hstep : s.conn.step s.server.mem.registry s.channel a = some conn)
    (hsafe : HandoverSafe s (.conn a) { s with conn := conn }) :
    Invariant { s with conn := conn } := by
  have htaken := h.taken_le
  cases a with
  | subscribe =>
    simp only [Connection.step] at hstep
    split at hstep
    next hpc =>
      cases hstep
      rcases h.waiting_or_handedOver with ⟨hhandover, hwaiting⟩ | ⟨reply, sent, -, hhanded⟩
      · exact Waiting.invariant ⟨hwaiting.mirrored, hwaiting.listening, Or.inr rfl⟩ hhandover (le_refl _)
      · exact absurd hpc hhanded.connected
    · cases hstep
  | handleCommand =>
    simp only [Connection.step] at hstep
    split at hstep
    next hpc =>
      cases hstep
      rcases h.waiting_or_handedOver with ⟨-, hwaiting⟩ | ⟨reply, sent, hhandover, hhanded⟩
      · rw [if_neg (Bool.eq_false_iff.mp hwaiting.listening)]
        exact (hwaiting.handleCommand htaken).invariant rfl htaken
      · rw [if_pos (hhanded.listening_of_pc (by simp [hpc]))]
        exact (hhanded.handleCommand hpc).invariant hhandover htaken
    · cases hstep
  | setListening =>
    simp only [Connection.step] at hstep
    split at hstep
    next r hpc =>
      cases hstep
      obtain ⟨reply, sent, hhandover, hhanded⟩ := h.handedOver (by simp [hpc]) (by simp [hpc])
      exact (hhanded.setListening hpc).invariant hhandover htaken
    · cases hstep
  | tryRecv =>
    simp only [Connection.step] at hstep
    split at hstep
    next r hpc =>
      obtain ⟨reply, sent, hhandover, hhanded⟩ := h.handedOver (by simp [hpc]) (by simp [hpc])
      split at hstep
      next hlt =>
        cases hstep
        have hmsg := List.getElem?_eq_getElem hlt
        have hdiscard := hhanded.discard hpc hmsg fun hsent => hsafe _ _ _ hhandover hsent hmsg
        exact hdiscard.invariant hhandover hlt
      next hempty =>
        cases hstep
        exact (hhanded.drainEnd hpc hempty).invariant hhandover htaken
    · cases hstep
  | sendReply =>
    simp only [Connection.step] at hstep
    split at hstep
    next r hpc =>
      cases hstep
      obtain ⟨reply, sent, hhandover, hhanded⟩ := h.handedOver (by simp [hpc]) (by simp [hpc])
      exact (hhanded.sendReply hpc).invariant hhandover htaken
    · cases hstep
  | recvEvent =>
    simp only [Connection.step] at hstep
    split at hstep
    next msg hpc hmsg =>
      cases hstep
      have hlt := (List.getElem?_eq_some_iff.mp hmsg).1
      rcases h.waiting_or_handedOver with ⟨hhandover, hwaiting⟩ | ⟨reply, sent, hhandover, hhanded⟩
      · exact Waiting.invariant ⟨hwaiting.mirrored, hwaiting.listening, hwaiting.pc⟩ hhandover hlt
      · exact (hhanded.recvEvent hpc hmsg).invariant hhandover hlt
    · cases hstep

theorem Invariant.step {s s' : Session ι} (h : s.Invariant) {a : Action ι}
    (hstep : s.step a = some s') (hsafe : HandoverSafe s a s') : s'.Invariant := by
  cases a with
  | task i =>
    obtain ⟨server, hserver, rfl⟩ := Option.map_eq_some_iff.mp hstep
    exact h.task hserver hsafe
  | conn a =>
    obtain ⟨conn, hconn, rfl⟩ := Option.map_eq_some_iff.mp hstep
    exact h.conn hconn hsafe

omit [DecidableEq ι] in
theorem Opening.invariant {s : Session ι} (h : s.Opening) : s.Invariant := by
  obtain ⟨hserver, hconn⟩ := h
  cases s
  subst hconn
  exact ⟨Nat.zero_le _, ⟨_, _, eventStream_reports.mirrored_start hserver⟩, rfl, Or.inl rfl⟩

/-- Over every interleaving of the controller's tasks and the connection whose steps are
safe, the client ends with the registry, and every message sent after the dump is either
forwarded to it or shown by the dump. -/
theorem client_ends_with_registry {s s' : Session ι} {acts : List (Action ι)} (hopen : s.Opening)
    (halong : Transition.Along step HandoverSafe s acts)
    (hrun : Transition.run step s acts = some s') (hrest : s'.AtRest) :
    clientCopy s'.conn.frames = s'.server.mem.registry.copy ∧
      ∃ reply sent, s'.conn.handover = some (reply, sent) ∧
        ∀ msg ∈ s'.channel.drop sent, .event msg ∈ s'.conn.frames ∨ Shows reply msg := by
  have hinv : s'.Invariant := Transition.run_invariant
    (fun s a s' (h : s.Invariant) hstep hsafe => h.step hstep hsafe) hopen.invariant halong hrun
  have hphase := hinv.phase
  cases hhandover : s'.conn.handover with
  | none =>
    rw [hhandover] at hphase
    have hlistening := hrest.listening
    rw [hphase.listening] at hlistening
    cases hlistening
  | some handover =>
    obtain ⟨reply, sent⟩ := handover
    rw [hhandover] at hphase
    obtain ⟨D, hmirrored⟩ := hphase.mirrored
    have hview := hmirrored.quiescent hrest.server
    have hnothing : s'.upcoming sent = [] := by
      rw [upcoming, hrest.received]
      exact List.drop_of_length_le (Nat.le_max_left _ _)
    rw [complete, hnothing] at hview
    have hbase : s'.base = clientCopy s'.conn.frames := by simp only [base, hrest.select]
    refine ⟨OrdMap.ext fun id => ?_, reply, sent, rfl, fun msg hmsg => hphase.accounted msg ?_⟩
    · rw [get?_copy, ← hbase]
      exact congrFun hview id
    · rwa [hrest.received, List.take_length]

end Session

section Race

/-- The node manager sees node 7 connect while a client opens its session. -/
def openingRace : Session Unit where
  server := ⟨lampMemory, [], fun _ => nodeManager [.event (.nodeState 7 (.connected 60)) ""]⟩
  conn := .accepted

/-- The availability changes and is broadcast between the dump and the drain. -/
def openingRaceActions : List (Action Unit) :=
  [.conn .subscribe, .conn .handleCommand, .task (), .task (), .task (), .task (), .task (),
    .task (), .conn .setListening, .conn .tryRecv, .conn .tryRecv, .conn .sendReply]

/-- The client never learns that node 7 became available. -/
theorem drained_update_is_lost :
    openingRace.Opening ∧
      ∃ s', Transition.run Session.step openingRace openingRaceActions = some s' ∧ s'.AtRest ∧
        clientCopy s'.conn.frames ≠ s'.server.mem.registry.copy ∧
        ∃ msg, s'.channel = [msg] ∧ .event msg ∉ s'.conn.frames := by
  refine ⟨⟨⟨fun _ => .nodeManager _, rfl⟩, rfl⟩, _, rfl, ⟨fun _ => rfl, rfl, rfl, rfl⟩, fun h => ?_,
    _, rfl, fun h => ?_⟩
  · have hnode := congrArg (fun copy => (copy.get? 7).map (·.available)) h
    exact Bool.false_ne_true (Option.some.inj hnode)
  · cases List.mem_singleton.mp h

/-- The same connection after the node manager has finished. -/
theorem client_ends_with_registry_late : ∃ s',
    Transition.run Session.step openingRace (List.replicate 6 (.task ()) ++
      [.conn .subscribe, .conn .handleCommand, .conn .setListening, .conn .tryRecv,
        .conn .sendReply]) = some s' ∧
      clientCopy s'.conn.frames = s'.server.mem.registry.copy := by
  have halone : ∀ (c : Config Unit Memory Effect) i c', KeepsInFlight c i c' :=
    fun _ _ _ j hj => absurd rfl hj
  have halong : Transition.Along Session.step Session.HandoverSafe openingRace
      (List.replicate 6 (.task ()) ++ [.conn .subscribe, .conn .handleCommand, .conn .setListening,
        .conn .tryRecv, .conn .sendReply]) := by
    refine .append ?_ fun s hs => ?_
    · exact .replicate (fun s s' => halone s.server () s'.server) 6
    · cases hs
      refine fun s₁ h₁ => ⟨trivial, fun s₂ h₂ => ⟨trivial, fun s₃ h₃ => ⟨trivial, fun s₄ h₄ =>
        ⟨?_, fun s₅ h₅ => ⟨trivial, trivial⟩⟩⟩⟩⟩
      cases h₁
      cases h₂
      cases h₃
      rintro reply sent msg _ _ hmsg
      cases hmsg
  obtain ⟨hcopy, _⟩ := Session.client_ends_with_registry
    ⟨⟨fun _ => .nodeManager _, rfl⟩, rfl⟩ halong rfl ⟨fun _ => rfl, rfl, rfl, rfl⟩
  exact ⟨_, rfl, hcopy⟩

end Race

end MatterRsServer.Server
