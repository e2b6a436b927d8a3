import MatterRsServer.Lib.Broadcast
import MatterRsServer.Lib.Transition
import MatterRsServer.Server.Envelope

/-!
# A WebSocket connection

`handle_connection` and `handle_text_frame` of `crates/server/src/ws.rs`. A command is answered
by the controller at some later step; events go on being broadcast meanwhile, and the receiver
of the connection may fall behind. Every text frame that was read is answered once and in order.
Events are forwarded after the dump, from the end of the drain on: each once and in order, but
for those the receiver has lost.
-/
namespace MatterRsServer.Server
open Lib Lib.Broadcast Wire Controller

/-- The capacity of the controller's broadcast channel. -/
def broadcastCapacity : Nat := 1024

/-- What `socket.recv()` gives: a text, another message, or the end of the socket. -/
inductive Inbound where
  | text (text : FrameText)
  | other
  | ended

/-- Where the connection is. -/
inductive SocketStage where
  | connecting
  | selecting
  | handling (cmd : CommandMessage)
  | draining (reply : Reply)
  | replying (reply : Reply)
  | closed

/-- Where the receiver stood when the drain had ended, and how many events there were then. -/
structure Drained where
  next : Nat
  published : Nat

/-- `published` is what the controller has broadcast, `next` the position of the connection's
receiver, `frames` what was sent and `closings` the calls of `connection_closed`. `drained`,
`receipts` and `dump` are history only: the drain after the first `start_listening`, what the
receiver was told since, and the answer to that command. -/
structure Socket where
  published : List EventFrame
  stage : SocketStage
  listening : Bool
  next : Nat
  frames : List Json
  closings : Nat
  drained : Option Drained
  receipts : List (Receipt EventFrame)
  dump : Option Reply

/-- The steps of `handle_connection`; `sent` says that the socket took the frame. `abort` drops
the future, and `publish` is a broadcast of the controller. -/
inductive SocketStep where
  | connect (info : ServerInfoMessage) (sent : Bool)
  | receive (inbound : Inbound)
  | finish (result : Except CommandError Json)
  | drain
  | reply (sent : Bool)
  | event (sent : Bool)
  | shutdown (sent : Bool)
  | abort
  | publish (ev : EventFrame)

/-- The answer to a text that is no request. -/
def invalidRequest (details : String) : Reply := ⟨"", .error ⟨.invalidArguments, details⟩⟩

def CommandMessage.isStartListening (cmd : CommandMessage) : Bool := cmd.command == "start_listening"

/-- `serde_json::from_str` for a request. -/
def parseRequest (text : FrameText) : Option CommandMessage := text.bind CommandMessage.fromJson

namespace Socket

/-- A socket that was accepted when these events had been broadcast. -/
def accepted (published : List EventFrame) : Socket :=
  ⟨published, .connecting, false, 0, [], 0, none, [], none⟩

/-- The connection returns, which drops its `CloseGuard`. -/
def close (s : Socket) : Socket := { s with stage := .closed, closings := s.closings + 1 }

/-- `socket.send(..)`, and what comes next when the socket has taken the frame. -/
def send (s : Socket) (sent : Bool) (frame : Json) : Socket :=
  if sent then { s with frames := s.frames ++ [frame], stage := .selecting } else s.close

/-- The server info is sent, then the receiver is subscribed. -/
def connect (s : Socket) (info : ServerInfoMessage) (sent : Bool) : Socket :=
  if sent then
    { s with
      frames := s.frames ++ [infoFrame info]
      stage := .selecting
      next := s.published.length }
  else s.close

/-- The arm of `socket.recv()`, up to the call of the controller; `describe` is the text of the
error of `serde_json`. -/
def receive (describe : FrameText → String) (s : Socket) : Inbound → Socket
  | .ended => s.close
  | .other => s
  | .text text =>
    match parseRequest text with
    | none => { s with stage := .replying (invalidRequest (describe text)) }
    | some cmd => { s with stage := .handling cmd }

/-- `handle_text_frame` after the call of the controller. -/
def finish (s : Socket) (cmd : CommandMessage) (result : Except CommandError Json) : Socket :=
  match result with
  | .ok value =>
    if cmd.isStartListening && !s.listening then
      { s with stage := .draining ⟨cmd.messageId, .ok value⟩, listening := true }
    else { s with stage := .replying ⟨cmd.messageId, .ok value⟩ }
  | .error e => { s with stage := .replying ⟨cmd.messageId, .error e⟩ }

/-- The drain has ended. -/
def endDrain (s : Socket) (reply : Reply) : Socket :=
  { s with
    stage := .replying reply
    drained := some ⟨s.next, s.published.length⟩
    dump := some reply }

/-- One turn of `while events.try_recv().is_ok() {}`: it ends also where the receiver lags. -/
def drain (s : Socket) (reply : Reply) : Socket :=
  match tryRecv broadcastCapacity s.published s.next with
  | some (.message _, next) => { s with next := next }
  | some (.lagged _, next) => { s with next := next }.endDrain reply
  | none => s.endDrain reply

/-- The arm of `events.recv()`. -/
def receiveEvent (s : Socket) (sent : Bool) : Option Socket :=
  match tryRecv broadcastCapacity s.published s.next with
  | none => none
  | some (.lagged n, next) =>
    some { s with
      next := next
      receipts := if s.listening then s.receipts ++ [.lagged n] else s.receipts }
  | some (.message ev, next) =>
    if s.listening then
      if sent then
        some { s with
          next := next
          receipts := s.receipts ++ [.message ev]
          frames := s.frames ++ [ev.toJson] }
      else some s.close
    else some { s with next := next }

/-- The arm of `shutdown.changed()`. -/
def shutdown (s : Socket) (sent : Bool) : Socket :=
  { s with frames := if sent then s.frames ++ [serverShutdown.toJson] else s.frames }.close

def step (describe : FrameText → String) (s : Socket) : SocketStep → Option Socket
  | .publish ev => some { s with published := s.published ++ [ev] }
  | .connect info sent =>
    match s.stage with
    | .connecting => some (s.connect info sent)
    | _ => none
  | .receive inbound =>
    match s.stage with
    | .selecting => some (s.receive describe inbound)
    | _ => none
  | .finish result =>
    match s.stage with
    | .handling cmd => some (s.finish cmd result)
    | _ => none
  | .drain =>
    match s.stage with
    | .draining reply => some (s.drain reply)
    | _ => none
  | .reply sent =>
    match s.stage with
    | .replying reply => some (s.send sent reply.toJson)
    | _ => none
  | .event sent =>
    match s.stage with
    | .selecting => s.receiveEvent sent
    | _ => none
  | .shutdown sent =>
    match s.stage with
    | .selecting => some (s.shutdown sent)
    | _ => none
  | .abort =>
    match s.stage with
    | .closed => none
    | _ => some s.close

/-- The answers that a client finds among the frames. -/
def replies (frames : List Json) : List Reply := frames.filterMap readReply

/-- The events that a client finds among the frames. -/
def events (frames : List Json) : List EventFrame := frames.filterMap readEvent

/-- A step that reads no text and answers none. -/
def Quiet : SocketStep → Prop
  | .receive (.text _) => False
  | .finish _ => False
  | _ => True

/-- What a step can do. -/
inductive Moves (describe : FrameText → String) (s : Socket) : SocketStep → Socket → Prop
  | publish (ev : EventFrame) :
      Moves describe s (.publish ev) { s with published := s.published ++ [ev] }
  | closes {a : SocketStep} (hopen : s.stage ≠ .closed) (hquiet : Quiet a) :
      Moves describe s a s.close
  | connect (info : ServerInfoMessage) (hstage : s.stage = .connecting) :
      Moves describe s (.connect info true) { s with
        frames := s.frames ++ [infoFrame info]
        stage := .selecting
        next := s.published.length }
  | other (hstage : s.stage = .selecting) : Moves describe s (.receive .other) s
  | malformed {text : FrameText} (hstage : s.stage = .selecting) (hparse : parseRequest text = none) :
      Moves describe s (.receive (.text text))
        { s with stage := .replying (invalidRequest (describe text)) }
  | request {text : FrameText} {cmd : CommandMessage} (hstage : s.stage = .selecting)
      (hparse : parseRequest text = some cmd) :
      Moves describe s (.receive (.text text)) { s with stage := .handling cmd }
  | answered {cmd : CommandMessage} (result : Except CommandError Json)
      (hstage : s.stage = .handling cmd) :
      Moves describe s (.finish result) { s with stage := .replying ⟨cmd.messageId, result⟩ }
  | started {cmd : CommandMessage} (value : Json) (hstage : s.stage = .handling cmd)
      (hlistening : s.listening = false) :
      Moves describe s (.finish (.ok value))
        { s with stage := .draining ⟨cmd.messageId, .ok value⟩, listening := true }
  | drained {reply : Reply} {ev : EventFrame} {next : Nat} (hstage : s.stage = .draining reply)
      (hrecv : tryRecv broadcastCapacity s.published s.next = some (.message ev, next)) :
      Moves describe s .drain { s with next := next }
  | drainEnds {reply : Reply} {next : Nat} (hstage : s.stage = .draining reply)
      (hle : s.next ≤ next) (hlength : next ≤ s.published.length)
      (hend : s.published.length ≤ next ∨ next + broadcastCapacity = s.published.length) :
      Moves describe s .drain ({ s with next := next }.endDrain reply)
  | replied {reply : Reply} (hstage : s.stage = .replying reply) :
      Moves describe s (.reply true)
        { s with frames := s.frames ++ [reply.toJson], stage := .selecting }
  | forwarded {ev : EventFrame} {next : Nat} (hstage : s.stage = .selecting)
      (hlistening : s.listening = true)
      (hrecv : tryRecv broadcastCapacity s.published s.next = some (.message ev, next)) :
      Moves describe s (.event true) { s with
        next := next
        receipts := s.receipts ++ [.message ev]
        frames := s.frames ++ [ev.toJson] }
  | missed {n next : Nat} (sent : Bool) (hstage : s.stage = .selecting)
      (hlistening : s.listening = true)
      (hrecv : tryRecv broadcastCapacity s.published s.next = some (.lagged n, next)) :
      Moves describe s (.event sent)
        { s with next := next, receipts := s.receipts ++ [.lagged n] }
  | dropped {r : Receipt EventFrame} {next : Nat} (sent : Bool) (hstage : s.stage = .selecting)
      (hlistening : s.listening = false)
      (hrecv : tryRecv broadcastCapacity s.published s.next = some (r, next)) :
      Moves describe s (.event sent) { s with next := next }
  | saysGoodbye (hstage : s.stage = .selecting) :
      Moves describe s (.shutdown true)
        { s with frames := s.frames ++ [serverShutdown.toJson] }.close

variable {describe : FrameText → String} {s s' : Socket} {a : SocketStep}

theorem moves_receive {inbound : Inbound} (hstage : s.stage = .selecting) :
    Moves describe s (.receive inbound) (s.receive describe inbound) := by
  have hopen : s.stage ≠ .closed := by rw [hstage]; simp
  cases inbound with
  | ended => exact .closes hopen trivial
  | other => exact .other hstage
  | text text =>
    rw [receive]
    cases hparse : parseRequest text with
    | none => exact .malformed hstage hparse
    | some cmd => exact .request hstage hparse

theorem moves_finish {cmd : CommandMessage} {result : Except CommandError Json}
    (hstage : s.stage = .handling cmd) : Moves describe s (.finish result) (s.finish cmd result) := by
  cases result with
  | error e => exact .answered _ hstage
  | ok value =>
    rw [finish]
    split
    next hstart =>
      rw [Bool.and_eq_true, Bool.not_eq_true'] at hstart
      exact .started value hstage hstart.2
    · exact .answered _ hstage

theorem moves_drain {reply : Reply} (hstage : s.stage = .draining reply)
    (hle : s.next ≤ s.published.length) : Moves describe s .drain (s.drain reply) := by
  unfold drain
  cases hrecv : tryRecv broadcastCapacity s.published s.next with
  | none =>
    exact .drainEnds hstage (Nat.le_refl _) hle (.inl (tryRecv_eq_none_iff.mp hrecv))
  | some told =>
    obtain ⟨r, next⟩ := told
    have hnext := tryRecv_next hrecv
    rcases tryRecv_cases hrecv with ⟨hlag, rfl, holdest⟩ | ⟨-, rfl, ev, -, rfl⟩
    · refine .drainEnds hstage (Nat.le_of_lt hnext.1) hnext.2 (.inr ?_)
      rw [oldest] at hlag holdest
      omega
    · exact .drained hstage hrecv

theorem moves_event {sent : Bool} (hstage : s.stage = .selecting)
    (h : s.receiveEvent sent = some s') : Moves describe s (.event sent) s' := by
  have hopen : s.stage ≠ .closed := by rw [hstage]; simp
  unfold receiveEvent at h
  cases hrecv : tryRecv broadcastCapacity s.published s.next with
  | none =>
    rw [hrecv] at h
    cases h
  | some told =>
    obtain ⟨r, next⟩ := told
    rw [hrecv] at h
    cases hlistening : s.listening with
    | false =>
      have hmoved : Moves describe s (.event sent) _ := .dropped sent hstage hlistening hrecv
      cases r <;> simp only [hlistening, Bool.false_eq_true, if_false] at h <;> cases h <;>
        simpa [hlistening] using hmoved
    | true =>
      cases r with
      | lagged n =>
        simp only [hlistening, if_true] at h
        cases h
        have hmoved : Moves describe s (.event sent) _ := .missed sent hstage hlistening hrecv
        simpa [hlistening] using hmoved
      | message ev =>
        simp only [hlistening, if_true] at h
        cases sent with
        | false =>
          cases h
          exact .closes hopen trivial
        | true =>
          cases h
          have hmoved : Moves describe s (.event true) _ := .forwarded hstage hlistening hrecv
          simpa [hlistening] using hmoved

theorem step_moves (hle : s.next ≤ s.published.length) (h : s.step describe a = some s') :
    Moves describe s a s' := by
  unfold step at h
  split at h
  next ev =>
    cases h
    exact .publish ev
  next info sent =>
    split at h
    next hstage =>
      cases h
      cases sent with
      | false => exact .closes (by rw [hstage]; simp) trivial
      | true => exact .connect info hstage
    · cases h
  next inbound =>
    split at h
    next hstage =>
      cases h
      exact moves_receive hstage
    · cases h
  next result =>
    split at h
    next cmd hstage =>
      cases h
      exact moves_finish hstage
    · cases h
  next =>
    split at h
    next reply hstage =>
      obtain rfl := Option.some.inj h
      exact moves_drain hstage hle
    · cases h
  next sent =>
    split at h
    next reply hstage =>
      cases h
      cases sent with
      | false => exact .closes (by rw [hstage]; simp) trivial
      | true => exact .replied hstage
    · cases h
  next sent =>
    split at h
    next hstage => exact moves_event hstage h
    · cases h
  next sent =>
    split at h
    next hstage =>
      cases h
      cases sent with
      | false => exact .closes (by rw [hstage]; simp) trivial
      | true => exact .saysGoodbye hstage
    · cases h
  next =>
    split at h
    · cases h
    next hopen =>
      cases h
      exact .closes hopen trivial

theorem Moves.next_le (h : Moves describe s a s') (hle : s.next ≤ s.published.length) :
    s'.next ≤ s'.published.length := by
  cases h with
  | publish ev =>
    rw [List.length_append]
    exact Nat.le_add_right_of_le hle
  | closes hopen hquiet => exact hle
  | connect info hstage => exact Nat.le_refl _
  | other hstage => exact hle
  | malformed hstage hparse => exact hle
  | request hstage hparse => exact hle
  | answered result hstage => exact hle
  | started value hstage hlistening => exact hle
  | drained hstage hrecv => exact (tryRecv_next hrecv).2
  | drainEnds hstage hnext hlength hend => exact hlength
  | replied hstage => exact hle
  | forwarded hstage hlistening hrecv => exact (tryRecv_next hrecv).2
  | missed sent hstage hlistening hrecv => exact (tryRecv_next hrecv).2
  | dropped sent hstage hlistening hrecv => exact (tryRecv_next hrecv).2
  | saysGoodbye hstage => exact hle

end Socket

/-- The command that is being handled. -/
def SocketStage.pending : SocketStage → Option CommandMessage
  | .handling cmd => some cmd
  | _ => none

/-- The answer that is on its way to the socket. -/
def SocketStage.unsent : SocketStage → List Reply
  | .draining reply => [reply]
  | .replying reply => [reply]
  | _ => []

/-- The connection is open, and neither connecting nor draining. -/
def SocketStage.serving : SocketStage → Bool
  | .selecting | .handling _ | .replying _ => true
  | _ => false

/-- What a step adds to the answers: a text that is no request is answered at once, a command
when the controller has its result. -/
def respond (describe : FrameText → String) (pending : Option CommandMessage) :
    SocketStep → Option CommandMessage × List Reply
  | .receive (.text text) =>
    match parseRequest text with
    | none => (pending, [invalidRequest (describe text)])
    | some cmd => (some cmd, [])
  | .finish result => (none, (pending.map fun cmd => ⟨cmd.messageId, result⟩).toList)
  | _ => (pending, [])

/-- The answers to the texts of a run, in the order in which they were read. -/
def answers (describe : FrameText → String) : Option CommandMessage → List SocketStep → List Reply
  | _, [] => []
  | pending, a :: rest =>
    (respond describe pending a).2 ++ answers describe (respond describe pending a).1 rest

namespace Socket

variable {describe : FrameText → String} {s s' : Socket} {a : SocketStep}

theorem respond_of_quiet {pending : Option CommandMessage} (h : Quiet a) :
    respond describe pending a = (pending, []) := by
  cases a with
  | receive inbound =>
    cases inbound with
    | text text => exact h.elim
    | other => rfl
    | ended => rfl
  | finish result => exact h.elim
  | connect info sent => rfl
  | drain => rfl
  | reply sent => rfl
  | event sent => rfl
  | shutdown sent => rfl
  | abort => rfl
  | publish ev => rfl

@[simp] theorem replies_append (l m : List Json) : replies (l ++ m) = replies l ++ replies m :=
  List.filterMap_append

@[simp] theorem replies_reply (r : Reply) : replies [r.toJson] = [r] := by simp [replies]

@[simp] theorem replies_event (e : EventFrame) : replies [e.toJson] = [] := by simp [replies]

@[simp] theorem replies_info (info : ServerInfoMessage) : replies [infoFrame info] = [] := by
  simp [replies]

/-- What was sent and what is on its way to the socket. -/
def underway (s : Socket) : List Reply := replies s.frames ++ s.stage.unsent

/-- A step that leaves the connection open adds its answers to those underway. -/
theorem Moves.underway (h : Moves describe s a s') (hopen : s'.stage ≠ .closed) :
    s'.underway = s.underway ++ (respond describe s.stage.pending a).2 ∧
      (respond describe s.stage.pending a).1 = s'.stage.pending := by
  cases h with
  | publish ev => simp [Socket.underway, respond]
  | closes hold hquiet => exact absurd rfl hopen
  | connect info hstage => simp [Socket.underway, respond, hstage, SocketStage.unsent, SocketStage.pending]
  | other hstage => simp [respond]
  | malformed hstage hparse =>
    simp [Socket.underway, respond, hstage, hparse, SocketStage.unsent, SocketStage.pending]
  | request hstage hparse =>
    simp [Socket.underway, respond, hstage, hparse, SocketStage.unsent, SocketStage.pending]
  | answered result hstage =>
    simp [Socket.underway, respond, hstage, SocketStage.unsent, SocketStage.pending]
  | started value hstage hlistening =>
    simp [Socket.underway, respond, hstage, SocketStage.unsent, SocketStage.pending]
  | drained hstage hrecv => simp [Socket.underway, respond]
  | drainEnds hstage hnext hlength hend =>
    simp [Socket.underway, respond, hstage, endDrain, SocketStage.unsent, SocketStage.pending]
  | replied hstage => simp [Socket.underway, respond, hstage, SocketStage.unsent, SocketStage.pending]
  | forwarded hstage hlistening hrecv => simp [Socket.underway, respond]
  | missed sent hstage hlistening hrecv => simp [Socket.underway, respond]
  | dropped sent hstage hlistening hrecv => simp [Socket.underway, respond]
  | saysGoodbye hstage => exact absurd rfl hopen

/-- A step that closes the connection answers nothing; what was on its way is lost. -/
theorem Moves.closing (h : Moves describe s a s') (hopen : s.stage ≠ .closed)
    (hclosed : s'.stage = .closed) :
    replies s'.frames = replies s.frames ∧ respond describe s.stage.pending a = (s.stage.pending, []) := by
  cases h with
  | closes hold hquiet => exact ⟨rfl, respond_of_quiet hquiet⟩
  | saysGoodbye hstage => simp [close, respond]
  | publish ev => exact absurd hclosed hopen
  | other hstage => exact absurd hclosed hopen
  | drained hstage hrecv => exact absurd hclosed hopen
  | forwarded hstage hlistening hrecv => exact absurd hclosed hopen
  | missed sent hstage hlistening hrecv => exact absurd hclosed hopen
  | dropped sent hstage hlistening hrecv => exact absurd hclosed hopen
  | connect info hstage => cases hclosed
  | malformed hstage hparse => cases hclosed
  | request hstage hparse => cases hclosed
  | answered result hstage => cases hclosed
  | started value hstage hlistening => cases hclosed
  | drainEnds hstage hnext hlength hend => cases hclosed
  | replied hstage => cases hclosed

/-- `connection_closed` has been called once when the connection has ended, and not before. -/
structure ClosedOnce (s : Socket) : Prop where
  ended : s.stage = .closed → s.closings = 1
  isOpen : s.stage ≠ .closed → s.closings = 0

theorem ClosedOnce.step (h : s.ClosedOnce) (hle : s.next ≤ s.published.length)
    (hstep : s.step describe a = some s') : s'.ClosedOnce := by
  have hclose : s.stage ≠ .closed → ∀ t : Socket, t.closings = s.closings → t.close.ClosedOnce := by
    intro hopen t ht
    refine ⟨fun _ => ?_, fun hne => absurd rfl hne⟩
    rw [close, ht, h.isOpen hopen]
  have hkeep : s.stage ≠ .closed → s'.closings = s.closings → s'.stage ≠ .closed → s'.ClosedOnce :=
    fun hopen heq hopen' => ⟨fun hclosed => absurd hclosed hopen', fun _ => heq.trans (h.isOpen hopen)⟩
  cases step_moves hle hstep with
  | publish ev => exact ⟨h.ended, h.isOpen⟩
  | closes hopen hquiet => exact hclose hopen s rfl
  | saysGoodbye hstage => exact hclose (by simp [hstage]) _ rfl
  | other hstage => exact h
  | connect info hstage => exact hkeep (by simp [hstage]) rfl (by simp)
  | malformed hstage hparse => exact hkeep (by simp [hstage]) rfl (by simp)
  | request hstage hparse => exact hkeep (by simp [hstage]) rfl (by simp)
  | answered result hstage => exact hkeep (by simp [hstage]) rfl (by simp)
  | started value hstage hlistening => exact hkeep (by simp [hstage]) rfl (by simp)
  | drained hstage hrecv => exact hkeep (by simp [hstage]) rfl (by simp [hstage])
  | drainEnds hstage hnext hlength hend => exact hkeep (by simp [hstage]) rfl (by simp [endDrain])
  | replied hstage => exact hkeep (by simp [hstage]) rfl (by simp)
  | forwarded hstage hlistening hrecv => exact hkeep (by simp [hstage]) rfl (by simp [hstage])
  | missed sent hstage hlistening hrecv => exact hkeep (by simp [hstage]) rfl (by simp [hstage])
  | dropped sent hstage hlistening hrecv => exact hkeep (by simp [hstage]) rfl (by simp [hstage])

/-- After the end of the connection there is nothing but the controller's broadcasts. -/
theorem run_closed {steps : List SocketStep} (hclosed : s.stage = .closed)
    (h : Transition.run (step describe) s steps = some s') (pending : Option CommandMessage) :
    s'.stage = .closed ∧ s'.frames = s.frames ∧ answers describe pending steps = [] := by
  induction steps generalizing s with
  | nil =>
    cases h
    exact ⟨hclosed, rfl, rfl⟩
  | cons a rest ih =>
    obtain ⟨m, hm, hrest⟩ := Transition.run_cons h
    have hpublish : ∃ ev, a = .publish ev ∧ m = { s with published := s.published ++ [ev] } := by
      cases a with
      | publish ev =>
        cases hm
        exact ⟨ev, rfl, rfl⟩
      | _ => simp [step, hclosed] at hm
    obtain ⟨ev, rfl, rfl⟩ := hpublish
    exact ih (s := { s with published := s.published ++ [ev] }) hclosed hrest

/-- The answers of a run have been sent in order, but for one that is on its way or was lost with
the connection. -/
theorem run_answers {steps : List SocketStep} (hle : s.next ≤ s.published.length)
    (hopen : s.stage ≠ .closed) (h : Transition.run (step describe) s steps = some s') :
    ∃ lost, s.underway ++ answers describe s.stage.pending steps = replies s'.frames ++ lost ∧
      lost.length ≤ 1 ∧ (s'.stage ≠ .closed → lost = s'.stage.unsent) := by
  induction steps generalizing s with
  | nil =>
    cases h
    refine ⟨s'.stage.unsent, by simp [underway, answers], ?_, fun _ => rfl⟩
    cases s'.stage <;> simp [SocketStage.unsent]
  | cons a rest ih =>
    obtain ⟨m, hm, hrest⟩ := Transition.run_cons h
    have hmoves := step_moves hle hm
    by_cases hclosed : m.stage = .closed
    · obtain ⟨hsent, hrespond⟩ := hmoves.closing hopen hclosed
      obtain ⟨hend, hframes, hnone⟩ := run_closed hclosed hrest s.stage.pending
      refine ⟨s.stage.unsent, ?_, ?_, fun hne => absurd hend hne⟩
      · rw [hframes, hsent, answers, hrespond, hnone]
        simp [underway]
      · cases s.stage <;> simp [SocketStage.unsent]
    · obtain ⟨hunderway, hpending⟩ := hmoves.underway hclosed
      obtain ⟨lost, heq, hlost⟩ := ih (hmoves.next_le hle) hclosed hrest
      refine ⟨lost, ?_, hlost⟩
      rw [← heq, hunderway, answers, hpending, List.append_assoc]

/-- Every text that was read is answered once, in order and under its own `message_id`; an answer
can only be missing while it is on its way, or when the connection has ended. -/
theorem replies_in_order {published : List EventFrame} {steps : List SocketStep}
    (h : Transition.run (step describe) (accepted published) steps = some s) :
    ∃ unsent, answers describe none steps = replies s.frames ++ unsent ∧ unsent.length ≤ 1 ∧
      (s.stage ≠ .closed → unsent = s.stage.unsent) := by
  obtain ⟨lost, heq, hlost⟩ := run_answers (Nat.zero_le _) (by simp [accepted]) h
  exact ⟨lost, by simpa [underway, accepted, SocketStage.unsent, SocketStage.pending, replies] using heq, hlost⟩

@[simp] theorem events_append (l m : List Json) : events (l ++ m) = events l ++ events m :=
  List.filterMap_append

@[simp] theorem events_nil : events [] = [] := rfl

@[simp] theorem events_event (e : EventFrame) : events [e.toJson] = [e] := by simp [events]

@[simp] theorem events_reply (r : Reply) : events [r.toJson] = [] := by simp [events]

@[simp] theorem events_info (info : ServerInfoMessage) : events [infoFrame info] = [] := by
  simp [events]

/-- The receiver since the drain: it starts at the end of the channel, or as far back as the
channel reaches when the drain was cut short, and its receipts account for all it has passed. -/
structure Listens (s : Socket) (d : Drained) : Prop where
  start : d.next = d.published ∨ d.next + broadcastCapacity = d.published
  start_le : d.next ≤ s.next
  accounted : Accounts s.receipts (passedSince s.published d.next s.next)

/-- What the client is sent of the events: none before the dump, and after it those that the
receiver was given, with `bye` at the end. -/
structure Forwards (s : Socket) (d : Drained) (bye : List EventFrame) : Prop extends Listens s d where
  frames : ∃ before after, s.frames = before ++ after ∧ events before = [] ∧
    events after = received s.receipts ++ bye ∧
    (after = [] ∨ before.getLast? = s.dump.map Reply.toJson)

/-- The events among the frames of a connection. -/
structure Streamed (s : Socket) (bye : List EventFrame) : Prop where
  silent : s.drained = none → events s.frames = bye
  forwards : ∀ d, s.drained = some d → s.Forwards d bye

/-- Where the stream of an open connection is. -/
inductive Phase (s : Socket) : Prop
  | silent (hdrained : s.drained = none) (hreceipts : s.receipts = [])
      (hevents : events s.frames = [])
      (hlistening : s.listening = true ↔ ∃ reply, s.stage = .draining reply)
  | dumping {d : Drained} {reply : Reply} (hdrained : s.drained = some d)
      (hdump : s.dump = some reply) (hlistening : s.listening = true) (h : s.Listens d)
      (hstage : s.stage = .replying reply) (hreceipts : s.receipts = [])
      (hevents : events s.frames = [])
  | forwarding {d : Drained} {reply : Reply} {before after : List Json}
      (hdrained : s.drained = some d) (hdump : s.dump = some reply)
      (hlistening : s.listening = true) (h : s.Listens d) (hstage : s.stage.serving = true)
      (hframes : s.frames = before ++ reply.toJson :: after) (hbefore : events before = [])
      (hafter : events after = received s.receipts)

/-- The stream up to now, with `bye` as its last frame. -/
theorem Phase.streamed (h : Phase s) {bye : List EventFrame} {last : List Json}
    (hlast : events last = bye) (hopen : (∃ reply, s.stage = .replying reply) → last = []) :
    Streamed { s with frames := s.frames ++ last } bye := by
  cases h with
  | silent hdrained hreceipts hevents hlistening =>
    constructor
    · intro _
      simp [hevents, hlast]
    · intro d hd
      exact absurd (hdrained.symm.trans hd) (by simp)
  | @dumping d reply hdrained hdump hlistening hl hstage hreceipts hevents =>
    obtain rfl := hopen ⟨reply, hstage⟩
    obtain rfl : bye = [] := hlast.symm
    constructor
    · intro hnone
      exact absurd (hdrained.symm.trans hnone) (by simp)
    · intro d' hd'
      obtain rfl := Option.some.inj (hdrained.symm.trans hd')
      refine ⟨⟨hl.start, hl.start_le, hl.accounted⟩, s.frames, [], rfl, hevents, ?_, .inl rfl⟩
      simp [hreceipts, received]
  | @forwarding d reply before after hdrained hdump hlistening hl hstage hframes hbefore hafter =>
    constructor
    · intro hnone
      exact absurd (hdrained.symm.trans hnone) (by simp)
    · intro d' hd'
      obtain rfl := Option.some.inj (hdrained.symm.trans hd')
      refine ⟨⟨hl.start, hl.start_le, hl.accounted⟩, before ++ [reply.toJson], after ++ last, ?_, ?_,
        ?_, .inr ?_⟩
      · simp [hframes]
      · simp [hbefore]
      · simp [hafter, hlast]
      · simp [hdump]

theorem Phase.streamed_now (h : Phase s) : s.Streamed [] := by
  have hstreamed := h.streamed events_nil fun _ => rfl
  rwa [List.append_nil] at hstreamed

theorem Streamed.close {bye : List EventFrame} (h : s.Streamed bye) : s.close.Streamed bye := by
  refine ⟨h.silent, fun d hd => ?_⟩
  obtain ⟨hl, hframes⟩ := h.forwards d hd
  exact ⟨⟨hl.start, hl.start_le, hl.accounted⟩, hframes⟩

/-- The receiver goes on from where the drain has left it. -/
theorem Listens.receive {d : Drained} (h : s.Listens d) {r : Receipt EventFrame} {next : Nat}
    (hrecv : tryRecv broadcastCapacity s.published s.next = some (r, next)) (frames : List Json) :
    Listens { s with next := next, receipts := s.receipts ++ [r], frames := frames } d where
  start := h.start
  start_le := h.start_le.trans (Nat.le_of_lt (tryRecv_next hrecv).1)
  accounted := h.accounted.receive h.start_le hrecv

/-- A frame is read, or its command has been answered. -/
theorem Phase.restage (h : Phase s) {stage : SocketStage}
    (hold : s.stage = .selecting ∨ ∃ cmd, s.stage = .handling cmd) (hnew : stage.serving = true) :
    Phase { s with stage := stage } := by
  cases h with
  | silent hdrained hreceipts hevents hlistening =>
    refine .silent hdrained hreceipts hevents ?_
    have hquiet : ¬ s.listening = true := by
      rw [hlistening]
      rcases hold with h | ⟨cmd, h⟩ <;> simp [h]
    have hstage : ¬ ∃ reply, stage = .draining reply := by
      rintro ⟨reply, rfl⟩
      simp [SocketStage.serving] at hnew
    simp [hquiet, hstage]
  | dumping hdrained hdump hlistening hl hstage hreceipts hevents =>
    rcases hold with h | ⟨cmd, h⟩ <;> simp [hstage] at h
  | forwarding hdrained hdump hlistening hl hstage hframes hbefore hafter =>
    exact .forwarding hdrained hdump hlistening ⟨hl.start, hl.start_le, hl.accounted⟩ hnew hframes
      hbefore hafter

/-- An open connection stays in its stream. -/
theorem Moves.phase (h : Moves describe s a s') (hle : s.next ≤ s.published.length)
    (hopen : s'.stage ≠ .closed) (hphase : Phase s) : Phase s' := by
  cases h with
  | closes hold hquiet => exact absurd rfl hopen
  | saysGoodbye hstage => exact absurd rfl hopen
  | publish ev =>
    have hlistens : ∀ d, s.Listens d → Listens { s with published := s.published ++ [ev] } d := by
      intro d hl
      refine ⟨hl.start, hl.start_le, ?_⟩
      rw [passedSince_send hle]
      exact hl.accounted
    cases hphase with
    | silent hdrained hreceipts hevents hlistening =>
      exact .silent hdrained hreceipts hevents hlistening
    | dumping hdrained hdump hlistening hl hstage hreceipts hevents =>
      exact .dumping hdrained hdump hlistening (hlistens _ hl) hstage hreceipts hevents
    | forwarding hdrained hdump hlistening hl hstage hframes hbefore hafter =>
      exact .forwarding hdrained hdump hlistening (hlistens _ hl) hstage hframes hbefore hafter
  | other hstage => exact hphase
  | connect info hstage =>
    cases hphase with
    | silent hdrained hreceipts hevents hlistening =>
      refine .silent hdrained hreceipts (by simp [hevents]) ?_
      simpa [hstage] using hlistening
    | dumping hdrained hdump hlistening hl hold hreceipts hevents => simp [hstage] at hold
    | forwarding hdrained hdump hlistening hl hold hframes hbefore hafter =>
      simp [hstage, SocketStage.serving] at hold
  | malformed hstage hparse => exact hphase.restage (.inl hstage) rfl
  | request hstage hparse => exact hphase.restage (.inl hstage) rfl
  | answered result hstage => exact hphase.restage (.inr ⟨_, hstage⟩) rfl
  | started value hstage hquiet =>
    cases hphase with
    | silent hdrained hreceipts hevents hlistening =>
      exact .silent hdrained hreceipts hevents (by simp)
    | dumping hdrained hdump hlistening hl hold hreceipts hevents => simp [hstage] at hold
    | forwarding hdrained hdump hlistening hl hold hframes hbefore hafter =>
      simp [hlistening] at hquiet
  | drained hstage hrecv =>
    cases hphase with
    | silent hdrained hreceipts hevents hlistening =>
      exact .silent hdrained hreceipts hevents hlistening
    | dumping hdrained hdump hlistening hl hold hreceipts hevents => simp [hstage] at hold
    | forwarding hdrained hdump hlistening hl hold hframes hbefore hafter =>
      simp [hstage, SocketStage.serving] at hold
  | @drainEnds reply next hstage hnext hlength hend =>
    cases hphase with
    | silent hdrained hreceipts hevents hlistening =>
      refine .dumping rfl rfl (hlistening.mpr ⟨reply, hstage⟩) ⟨?_, Nat.le_refl _, ?_⟩ rfl hreceipts
        hevents
      · rcases hend with hend | hend
        · exact .inl (Nat.le_antisymm hlength hend)
        · exact .inr hend
      · have hnone : passedSince s.published next next = [] :=
          List.drop_of_length_le (List.length_take_le _ _)
        change Accounts s.receipts (passedSince s.published next next)
        rw [hnone, hreceipts]
        exact .nil
    | dumping hdrained hdump hlistening hl hold hreceipts hevents => simp [hstage] at hold
    | forwarding hdrained hdump hlistening hl hold hframes hbefore hafter =>
      simp [hstage, SocketStage.serving] at hold
  | @replied reply hstage =>
    cases hphase with
    | silent hdrained hreceipts hevents hlistening =>
      refine .silent hdrained hreceipts (by simp [hevents]) ?_
      simpa [hstage] using hlistening
    | @dumping d dump hdrained hdump hlistening hl hold hreceipts hevents =>
      obtain rfl : reply = dump := by simpa [hstage] using hold
      refine .forwarding hdrained hdump hlistening ⟨hl.start, hl.start_le, hl.accounted⟩
        rfl rfl hevents ?_
      simp [hreceipts, received]
    | @forwarding d dump before after hdrained hdump hlistening hl hold hframes hbefore hafter =>
      have hsent : s.frames ++ [reply.toJson] = before ++ dump.toJson :: (after ++ [reply.toJson]) := by
        simp [hframes]
      refine .forwarding hdrained hdump hlistening ⟨hl.start, hl.start_le, hl.accounted⟩ rfl hsent
        hbefore ?_
      simp [hafter]
  | @forwarded ev next hstage hlisten hrecv =>
    cases hphase with
    | silent hdrained hreceipts hevents hlistening =>
      rw [hlistening] at hlisten
      obtain ⟨reply, hreply⟩ := hlisten
      simp [hstage] at hreply
    | dumping hdrained hdump hlistening hl hold hreceipts hevents => simp [hstage] at hold
    | @forwarding d dump before after hdrained hdump hlistening hl hold hframes hbefore hafter =>
      have hsent : s.frames ++ [ev.toJson] = before ++ dump.toJson :: (after ++ [ev.toJson]) := by
        simp [hframes]
      refine .forwarding hdrained hdump hlistening (hl.receive hrecv _) hold hsent hbefore ?_
      simp [hafter, received]
  | missed sent hstage hlisten hrecv =>
    cases hphase with
    | silent hdrained hreceipts hevents hlistening =>
      rw [hlistening] at hlisten
      obtain ⟨reply, hreply⟩ := hlisten
      simp [hstage] at hreply
    | dumping hdrained hdump hlistening hl hold hreceipts hevents => simp [hstage] at hold
    | forwarding hdrained hdump hlistening hl hold hframes hbefore hafter =>
      refine .forwarding hdrained hdump hlistening (hl.receive hrecv _) hold hframes hbefore ?_
      simp [hafter, received]
  | dropped sent hstage hquiet hrecv =>
    cases hphase with
    | silent hdrained hreceipts hevents hlistening =>
      exact .silent hdrained hreceipts hevents hlistening
    | dumping hdrained hdump hlistening hl hold hreceipts hevents => simp [hstage] at hold
    | forwarding hdrained hdump hlistening hl hold hframes hbefore hafter =>
      simp [hlistening] at hquiet

/-- A connection that ends has sent nothing more, or the goodbye. -/
theorem Moves.ends (h : Moves describe s a s') (hphase : Phase s) (hopen : s.stage ≠ .closed)
    (hclosed : s'.stage = .closed) : ∃ bye, (bye = [] ∨ bye = [serverShutdown]) ∧ s'.Streamed bye := by
  cases h with
  | closes hold hquiet =>
    refine ⟨[], .inl rfl, ?_⟩
    exact hphase.streamed_now.close
  | saysGoodbye hstage =>
    exact ⟨[serverShutdown], .inr rfl, (hphase.streamed (by simp) (by simp [hstage])).close⟩
  | publish ev => exact absurd hclosed hopen
  | other hstage => exact absurd hclosed hopen
  | drained hstage hrecv => exact absurd hclosed hopen
  | forwarded hstage hlistening hrecv => exact absurd hclosed hopen
  | missed sent hstage hlistening hrecv => exact absurd hclosed hopen
  | dropped sent hstage hlistening hrecv => exact absurd hclosed hopen
  | connect info hstage => cases hclosed
  | malformed hstage hparse => cases hclosed
  | request hstage hparse => cases hclosed
  | answered result hstage => cases hclosed
  | started value hstage hlistening => cases hclosed
  | drainEnds hstage hnext hlength hend => cases hclosed
  | replied hstage => cases hclosed

/-- What is broadcast after the end changes nothing of what was sent. -/
theorem Streamed.publish {bye : List EventFrame} (h : s.Streamed bye)
    (hle : s.next ≤ s.published.length) (ev : EventFrame) :
    Streamed { s with published := s.published ++ [ev] } bye := by
  refine ⟨h.silent, fun d hd => ?_⟩
  obtain ⟨hl, hframes⟩ := h.forwards d hd
  refine ⟨⟨hl.start, hl.start_le, ?_⟩, hframes⟩
  rw [passedSince_send hle]
  exact hl.accounted

/-- What holds of a connection between two steps. -/
inductive Served (s : Socket) : Prop
  | isOpen (hopen : s.stage ≠ .closed) (h : Phase s)
  | isClosed (hclosed : s.stage = .closed) (bye : List EventFrame)
      (hbye : bye = [] ∨ bye = [serverShutdown]) (h : s.Streamed bye)

theorem Served.step (h : Served s) (hle : s.next ≤ s.published.length)
    (hstep : s.step describe a = some s') : Served s' := by
  have hmoves := step_moves hle hstep
  cases h with
  | isOpen hopen hphase =>
    by_cases hclosed : s'.stage = .closed
    · obtain ⟨bye, hbye, hstreamed⟩ := hmoves.ends hphase hopen hclosed
      exact .isClosed hclosed bye hbye hstreamed
    · exact .isOpen hclosed (hmoves.phase hle hclosed hphase)
  | isClosed hclosed bye hbye hstreamed =>
    obtain ⟨ev, rfl⟩ : ∃ ev, s' = { s with published := s.published ++ [ev] } := by
      cases a with
      | publish ev => exact ⟨ev, (Option.some.inj hstep).symm⟩
      | _ => simp [Socket.step, hclosed] at hstep
    exact .isClosed hclosed bye hbye (hstreamed.publish hle ev)

/-- What every step keeps, every run from an accepted socket keeps. -/
theorem run_kept {Inv : Socket → Prop} (hstep : ∀ (t : Socket) (a : SocketStep) (t' : Socket),
      t.next ≤ t.published.length → Inv t → t.step describe a = some t' → Inv t')
    {published : List EventFrame} {steps : List SocketStep} (h0 : Inv (accepted published))
    (h : Transition.run (Socket.step describe) (accepted published) steps = some s) : Inv s := by
  have hkept : ∀ (t : Socket) (a : SocketStep) (t' : Socket),
      (t.next ≤ t.published.length ∧ Inv t) → t.step describe a = some t' → True →
      t'.next ≤ t'.published.length ∧ Inv t' := by
    intro t a t' ht hnext _
    exact ⟨(step_moves ht.1 hnext).next_le ht.1, hstep t a t' ht.1 ht.2 hnext⟩
  exact (Transition.run_invariant hkept ⟨Nat.zero_le _, h0⟩ (.of_forall fun _ _ _ _ => trivial) h).2

theorem closed_once {published : List EventFrame} {steps : List SocketStep}
    (h : Transition.run (Socket.step describe) (accepted published) steps = some s) : s.ClosedOnce :=
  run_kept (fun _ _ _ hle hs hstep => hs.step hle hstep) ⟨by simp [accepted], fun _ => rfl⟩ h

def plainInfo : ServerInfoMessage :=
  ⟨1, 1, none, schemaVersion, minSupportedSchemaVersion, "0.1.0", false, none, false, false, none, none⟩

/-- An event that comes too early, a text that is no request, then `start_listening`, one more
event and the end of the server. -/
def sessionSteps : List SocketStep :=
  [.connect plainInfo true, .publish ⟨"node_added", .null⟩,
    .receive (.text none), .reply true,
    .receive (.text (some (.arr [.str "1", .str "start_listening", .null]))), .finish (.ok (.arr [])),
    .drain, .drain, .reply true, .publish ⟨"node_removed", .null⟩, .event true, .shutdown true]

def sessionEnd : Socket where
  published := [⟨"node_added", .null⟩, ⟨"node_removed", .null⟩]
  stage := .closed
  listening := true
  next := 2
  frames := [infoFrame plainInfo, (invalidRequest "EOF").toJson,
    (Reply.mk "1" (.ok (.arr []))).toJson, (EventFrame.mk "node_removed" .null).toJson,
    serverShutdown.toJson]
  closings := 1
  drained := some ⟨1, 1⟩
  receipts := [.message ⟨"node_removed", .null⟩]
  dump := some ⟨"1", .ok (.arr [])⟩

theorem run_session : Transition.run (step fun _ => "EOF") (accepted []) sessionSteps =
    some sessionEnd := by
  rfl

theorem replies_of_session : ∃ unsent,
    answers (fun _ => "EOF") none sessionSteps = replies sessionEnd.frames ++ unsent ∧
      unsent.length ≤ 1 ∧ (sessionEnd.stage ≠ .closed → unsent = sessionEnd.stage.unsent) :=
  replies_in_order run_session

end Socket

end MatterRsServer.Server
