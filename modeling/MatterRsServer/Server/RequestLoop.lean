import MatterRsServer.Lib.Places
import MatterRsServer.Controller.AttributePath
import MatterRsServer.Controller.StoredJson
import MatterRsServer.Server.Supervision

/-!
# Requests to the stack thread

`StackHandle` of `crates/stack/src/lib.rs` and `run_stack` with `request_loop` of `runtime.rs`.
Requests cross to the stack thread through one channel, each with a reply sender. The loop serves
the registry requests itself, in the order in which they were sent; every other request becomes a
task of its own, which ends in any order, or in a panic. Whatever ends the thread drops the
senders that it still holds, and who waits for one of them is told that the thread is down.
-/
namespace MatterRsServer.Server
open Lib Wire Controller Stack

/-- `StackRequest`, less the reply sender that it carries. -/
inductive StackRequest where
  | commission (req : CommissionRequest)
  | read (nodeId : NodeId) (paths : List AttributePathSpec) (fabricFiltered : Bool)
  | write (nodeId : NodeId) (endpoint : UInt16) (cluster attr : UInt32) (value : Json)
  | invoke (nodeId : NodeId) (endpoint : UInt16) (cluster : UInt32) (commandName : String)
      (payload : Json) (timedMs : Option UInt16)
  | interview (nodeId : NodeId)
  | openWindow (nodeId : NodeId) (timeoutSecs : UInt16)
  | deviceFabrics (nodeId : NodeId)
  | removeDeviceFabric (nodeId : NodeId) (fabricIndex : UInt8)
  | updateFabricLabel (label : String)
  | startSupervisor (nodeId : NodeId)
  | stopSupervisor (nodeId : NodeId)
  | nodeAddresses (nodeId : NodeId)
  | browse (timeoutMs : UInt32)
  | shutdown

/-- The requests without a `Reply`. -/
def StackRequest.isControl : StackRequest → Bool
  | .startSupervisor _ | .stopSupervisor _ | .shutdown => true
  | _ => false

/-- `THREAD_DOWN`, as `send` and `request` report it. -/
def threadDown : StackError := ⟨.sdk, "stack thread is down"⟩

/-- `SECOND_STACK_MESSAGE`. -/
def secondStackMessage : String :=
  "a Matter stack is already running in this process (rs-matter's state lives in process-wide " ++
    "statics, so there can only be one)"

structure ReadyInfo where
  identity : ServerIdentity
  fabricIndex : UInt8

/-- `run_stack`: before `claim_statics`, before the ready handshake, in the executor, after it, and
returned. -/
inductive ThreadStage where
  | spawned | starting | serving | stopping | exited
deriving DecidableEq

/-- The long-running futures under `select4`. -/
inductive StackFuture where
  | transport | responder | requests | mdns | persist
deriving DecidableEq

/-- The arms of the `select4` that resolve; the other two end in `pending()`. -/
def StackFuture.stopsStack : StackFuture → Bool
  | .transport | .responder | .requests => true
  | .mdns | .persist => false

/-- A handle, its channel and the stack thread. A request is known by its number among those sent;
`settled` are the numbers that no message and no task stands for any more. -/
structure StackService (ρ : Type) where
  sent : List StackRequest
  queue : List (Nat × StackRequest)
  tasks : List (Nat × StackRequest)
  settled : List Nat
  answers : List (Nat × Except StackError ρ)
  supervisors : OrdMap NodeId SupervisorTask
  stage : ThreadStage
  ready : Option (Except String ReadyInfo)

/-- What happens between two awaits: `ω` is what the outside contributes to an operation, and an
outcome that is missing is a panic. -/
inductive ServiceStep (ω : Type) where
  | send (req : StackRequest)
  | claim (taken : Bool)
  | boot (outcome : Except String ReadyInfo)
  | receive
  | finish (call : Nat) (outcome : Option ω)
  | ends (future : StackFuture)
  | exit

namespace StackService

variable {ω ρ : Type}

/-- `spawn`. -/
def spawn : StackService ρ := ⟨[], [], [], [], [], ∅, .spawned, none⟩

/-- The receiver of the requests has been dropped. -/
def isDown (s : StackService ρ) : Bool :=
  match s.stage with
  | .stopping | .exited => true
  | _ => false

/-- The reply senders of these requests are dropped. -/
def dropReplies (s : StackService ρ) (calls : List (Nat × StackRequest)) : StackService ρ :=
  { s with
    settled := s.settled ++ calls.map Prod.fst
    answers := s.answers ++
      (calls.filter fun c => !c.2.isControl).map fun c => (c.1, .error threadDown) }

/-- `StackHandle::send`. -/
def send (s : StackService ρ) (req : StackRequest) : StackService ρ :=
  let number := s.sent.length
  if s.isDown then { s with sent := s.sent ++ [req] }.dropReplies [(number, req)]
  else { s with sent := s.sent ++ [req], queue := s.queue ++ [(number, req)] }

/-- The receiver is dropped, and what is queued with it. -/
def closeQueue (s : StackService ρ) (stage : ThreadStage) : StackService ρ :=
  { s with queue := [], stage := stage }.dropReplies s.queue

/-- The registry arms of `request_loop`. -/
def serveControl (supervisors : OrdMap NodeId SupervisorTask) : StackRequest →
    OrdMap NodeId SupervisorTask
  | .startSupervisor nodeId => supervisors.insert nodeId ⟨nodeId⟩
  | .stopSupervisor nodeId => supervisors.erase nodeId
  | .shutdown => ∅
  | _ => supervisors

/-- One turn of `request_loop` with the request that it has received. -/
def receive (s : StackService ρ) (call : Nat) (req : StackRequest) : StackService ρ :=
  let served := { s with
    settled := s.settled ++ [call]
    supervisors := serveControl s.supervisors req }
  match req with
  | .shutdown => served.closeQueue .stopping
  | .startSupervisor _ => served
  | .stopSupervisor _ => served
  | req => { s with tasks := s.tasks ++ [(call, req)] }

/-- `handle_request` has the operation's result, or has panicked. -/
def finish (handle : ω → StackRequest → Except StackError ρ) (s : StackService ρ) (call : Nat)
    (req : StackRequest) (outcome : Option ω) : StackService ρ :=
  let s := { s with tasks := s.tasks.eraseP fun c => c.1 == call }
  match outcome with
  | some world => { s with
      settled := s.settled ++ [call]
      answers := s.answers ++ [(call, handle world req)] }
  | none => s.dropReplies [(call, req)]

/-- A future under the `select4` ends; the loop does when every handle is gone and the queue empty. -/
def ends (s : StackService ρ) (future : StackFuture) : Option (StackService ρ) :=
  if future = .requests ∧ s.queue ≠ [] then none
  else if future.stopsStack then some (s.closeQueue .stopping)
  else some s

/-- The arms of the loop and of `run_stack`; a task runs only while the executor does. -/
def step (handle : ω → StackRequest → Except StackError ρ) (s : StackService ρ) :
    ServiceStep ω → Option (StackService ρ)
  | .send req => some (s.send req)
  | .claim taken =>
    match s.stage, taken with
    | .spawned, true => some { s.closeQueue .exited with ready := some (.error secondStackMessage) }
    | .spawned, false => some { s with stage := .starting }
    | _, _ => none
  | .boot outcome =>
    match s.stage, outcome with
    | .starting, .ok info => some { s with stage := .serving, ready := some (.ok info) }
    | .starting, .error e => some { s.closeQueue .exited with ready := some (.error e) }
    | _, _ => none
  | .receive =>
    match s.stage, s.queue with
    | .serving, (call, req) :: rest => some ({ s with queue := rest }.receive call req)
    | _, _ => none
  | .finish call outcome =>
    match s.stage, s.tasks.find? fun c => c.1 == call with
    | .serving, some (_, req) => some (s.finish handle call req outcome)
    | _, _ => none
  | .ends future =>
    match s.stage with
    | .serving => s.ends future
    | _ => none
  | .exit =>
    match s.stage with
    | .stopping => some ({ s with stage := .exited, tasks := [] }.dropReplies s.tasks)
    | _ => none

/-- What a step can do. -/
inductive Moves (handle : ω → StackRequest → Except StackError ρ) (s : StackService ρ) :
    ServiceStep ω → StackService ρ → Prop
  | send (req : StackRequest) : Moves handle s (.send req) (s.send req)
  | claims (hstage : s.stage = .spawned) :
      Moves handle s (.claim false) { s with stage := .starting }
  | second (hstage : s.stage = .spawned) :
      Moves handle s (.claim true)
        { s.closeQueue .exited with ready := some (.error secondStackMessage) }
  | boots (info : ReadyInfo) (hstage : s.stage = .starting) :
      Moves handle s (.boot (.ok info)) { s with stage := .serving, ready := some (.ok info) }
  | fails (e : String) (hstage : s.stage = .starting) :
      Moves handle s (.boot (.error e)) { s.closeQueue .exited with ready := some (.error e) }
  | receive {call : Nat} {req : StackRequest} {rest : List (Nat × StackRequest)}
      (hserving : s.stage = .serving) (hqueue : s.queue = (call, req) :: rest) :
      Moves handle s .receive ({ s with queue := rest }.receive call req)
  | finish {call : Nat} {req : StackRequest} (outcome : Option ω) (hserving : s.stage = .serving)
      (htask : (call, req) ∈ s.tasks) :
      Moves handle s (.finish call outcome) (s.finish handle call req outcome)
  | degrades (future : StackFuture) (hserving : s.stage = .serving)
      (hruns : future.stopsStack = false) : Moves handle s (.ends future) s
  | stops (future : StackFuture) (hserving : s.stage = .serving)
      (hstops : future.stopsStack = true) :
      Moves handle s (.ends future) (s.closeQueue .stopping)
  | exit (hstage : s.stage = .stopping) :
      Moves handle s .exit ({ s with stage := .exited, tasks := [] }.dropReplies s.tasks)

theorem step_moves {handle : ω → StackRequest → Except StackError ρ} {s s' : StackService ρ}
    {a : ServiceStep ω} (h : s.step handle a = some s') : Moves handle s a s' := by
  unfold step at h
  split at h
  next req =>
    cases h
    exact .send req
  next taken =>
    split at h
    next hstage =>
      cases h
      exact .second hstage
    next hstage =>
      cases h
      exact .claims hstage
    · cases h
  next outcome =>
    split at h
    next info hstage =>
      cases h
      exact .boots info hstage
    next e hstage =>
      cases h
      exact .fails e hstage
    · cases h
  next =>
    split at h
    next call req rest hstage hqueue =>
      cases h
      exact .receive hstage hqueue
    · cases h
  next call outcome =>
    split at h
    next number req hstage hfind =>
      cases h
      have hcall := List.find?_some hfind
      obtain rfl : number = call := by simpa using hcall
      exact .finish outcome hstage (List.mem_of_find?_eq_some hfind)
    · cases h
  next future =>
    split at h
    next hstage =>
      unfold ends at h
      split at h
      · cases h
      · split at h
        next hstops =>
          cases h
          exact .stops future hstage hstops
        next hruns =>
          cases h
          exact .degrades future hstage (Bool.not_eq_true _ ▸ hruns)
    · cases h
  next =>
    split at h
    next hstage =>
      cases h
      exact .exit hstage
    · cases h

/-- A step that ends the thread, or keeps it from starting. -/
def Stops : ServiceStep ω → Prop
  | .claim taken => taken = true
  | .boot outcome => ∃ e, outcome = .error e
  | .ends future => future.stopsStack = true
  | _ => False

/-- Someone waits for the answer to this request. -/
def expectsReply (sent : List StackRequest) (call : Nat) : Bool :=
  (sent[call]?).any fun req => !req.isControl

/-- Where an answer comes from: from the operation that was asked for, or from the end of its task
or of the thread. -/
inductive Origin (handle : ω → StackRequest → Except StackError ρ) (sent : List StackRequest)
    (isDown : Bool) (steps : List (ServiceStep ω)) (call : Nat) : Except StackError ρ → Prop
  | operation {world : ω} {req : StackRequest} (hsent : sent[call]? = some req)
      (hdone : .finish call (some world) ∈ steps) :
      Origin handle sent isDown steps call (handle world req)
  | panicked (hpanic : .finish call none ∈ steps) :
      Origin handle sent isDown steps call (.error threadDown)
  | down (hdown : isDown = true) : Origin handle sent isDown steps call (.error threadDown)

/-- Every request of a run is accounted for: it is queued, has its own task or is settled; when
settled it has been answered, if anyone waits for an answer, by its own operation or because its
task or the thread is gone. -/
structure Accounted (handle : ω → StackRequest → Except StackError ρ) (s : StackService ρ)
    (steps : List (ServiceStep ω)) : Prop where
  places : Places s.sent.length (s.queue.map Prod.fst) (s.tasks.map Prod.fst) s.settled
  known : ∀ c ∈ s.queue ++ s.tasks, s.sent[c.1]? = some c.2
  jobs : ∀ c ∈ s.tasks, c.2.isControl = false
  answered : s.answers.map Prod.fst = s.settled.filter (expectsReply s.sent)
  origin : ∀ a ∈ s.answers, Origin handle s.sent s.isDown steps a.1 a.2
  kept : ∀ call world, .finish call (some world) ∈ steps →
    ∃ req, s.sent[call]? = some req ∧ (call, handle world req) ∈ s.answers
  closed : s.isDown = true → s.queue = []
  parked : s.stage ≠ .serving → s.stage ≠ .stopping → s.tasks = []
  cause : s.isDown = true → (∃ a ∈ steps, Stops a) ∨ .shutdown ∈ s.sent

variable {handle : ω → StackRequest → Except StackError ρ} {s s' : StackService ρ}
  {steps : List (ServiceStep ω)} {a : ServiceStep ω}

theorem expectsReply_append {sent : List StackRequest} {call : Nat} (hcall : call < sent.length)
    (req : StackRequest) : expectsReply (sent ++ [req]) call = expectsReply sent call := by
  rw [expectsReply, List.getElem?_append_left hcall, expectsReply]

theorem expectsReply_of_getElem? {sent : List StackRequest} {call : Nat} {req : StackRequest}
    (h : sent[call]? = some req) : expectsReply sent call = !req.isControl := by
  rw [expectsReply, h]
  rfl

/-- Among these requests, the ones that someone waits for. -/
theorem filter_expectsReply {sent : List StackRequest} {calls : List (Nat × StackRequest)}
    (h : ∀ c ∈ calls, sent[c.1]? = some c.2) :
    (calls.map Prod.fst).filter (expectsReply sent) =
      (calls.filter fun c => !c.2.isControl).map Prod.fst := by
  rw [List.filter_map]
  congr 1
  exact List.filter_congr fun c hc => expectsReply_of_getElem? (h c hc)

/-- A later state of the same service, after one more step. -/
structure Extends (s s' : StackService ρ) : Prop where
  sent : ∀ (call : Nat) (req : StackRequest), s.sent[call]? = some req → s'.sent[call]? = some req
  down : s.isDown = true → s'.isDown = true

theorem Origin.mono {call : Nat} {r : Except StackError ρ}
    (h : Origin handle s.sent s.isDown steps call r) (hext : Extends s s') (a : ServiceStep ω) :
    Origin handle s'.sent s'.isDown (steps ++ [a]) call r := by
  cases h with
  | operation hsent hdone =>
    exact .operation (hext.sent _ _ hsent) (List.mem_append_left _ hdone)
  | panicked hpanic => exact .panicked (List.mem_append_left _ hpanic)
  | down hdown => exact .down (hext.down hdown)

theorem answered_dropReplies {calls : List (Nat × StackRequest)}
    (h : s.answers.map Prod.fst = s.settled.filter (expectsReply s.sent))
    (hknown : ∀ c ∈ calls, s.sent[c.1]? = some c.2) :
    (s.dropReplies calls).answers.map Prod.fst =
      (s.dropReplies calls).settled.filter (expectsReply s.sent) := by
  simp only [dropReplies, List.map_append, List.map_map, List.filter_append, h,
    filter_expectsReply hknown]
  rfl

theorem origin_dropReplies {calls : List (Nat × StackRequest)}
    (h : ∀ a ∈ s.answers, Origin handle s'.sent s'.isDown steps a.1 a.2)
    (hcalls : ∀ c ∈ calls, Origin handle s'.sent s'.isDown steps c.1 (.error threadDown)) :
    ∀ a ∈ (s.dropReplies calls).answers, Origin handle s'.sent s'.isDown steps a.1 a.2 := by
  intro a ha
  rcases List.mem_append.mp ha with ha | ha
  · exact h a ha
  · obtain ⟨c, hc, rfl⟩ := List.mem_map.mp ha
    exact hcalls c (List.mem_filter.mp hc).1

theorem mem_dropReplies {calls : List (Nat × StackRequest)} {x : Nat × Except StackError ρ}
    (h : x ∈ s.answers) : x ∈ (s.dropReplies calls).answers :=
  List.mem_append_left _ h

/-- The results that are in stay in. -/
theorem Accounted.kept_of (h : Accounted handle s steps) (hext : Extends s s')
    (hanswers : ∀ x ∈ s.answers, x ∈ s'.answers) (hnot : ∀ call world, a ≠ .finish call (some world)) :
    ∀ call world, .finish call (some world) ∈ steps ++ [a] →
      ∃ req, s'.sent[call]? = some req ∧ (call, handle world req) ∈ s'.answers := by
  intro call world hmem
  rcases List.mem_append.mp hmem with hmem | hmem
  · obtain ⟨req, hreq, hin⟩ := h.kept call world hmem
    exact ⟨req, hext.sent _ _ hreq, hanswers _ hin⟩
  · exact absurd (List.mem_singleton.mp hmem).symm (hnot call world)

theorem Accounted.cause_of (h : Accounted handle s steps)
    (hsent : .shutdown ∈ s.sent → .shutdown ∈ s'.sent) (hold : s.isDown = true) (a : ServiceStep ω) :
    (∃ b ∈ steps ++ [a], Stops b) ∨ .shutdown ∈ s'.sent := by
  rcases h.cause hold with ⟨b, hb, hstops⟩ | hshut
  · exact .inl ⟨b, List.mem_append_left _ hb, hstops⟩
  · exact .inr (hsent hshut)

/-- The thread is down: what is queued is dropped with the receiver. -/
theorem Accounted.closeQueue (h : Accounted handle s steps) {stage : ThreadStage}
    {supervisors : OrdMap NodeId SupervisorTask} {ready : Option (Except String ReadyInfo)}
    (hstage : stage = .stopping ∨ stage = .exited ∧ s.tasks = [])
    (hnot : ∀ call world, a ≠ .finish call (some world)) (hcause : Stops a ∨ .shutdown ∈ s.sent) :
    Accounted handle
      { s.closeQueue stage with supervisors := supervisors, ready := ready } (steps ++ [a]) := by
  have hdown : ({ s.closeQueue stage with supervisors := supervisors, ready := ready } :
      StackService ρ).isDown = true := by
    rcases hstage with rfl | ⟨rfl, -⟩ <;> rfl
  have hext : Extends s { s.closeQueue stage with supervisors := supervisors, ready := ready } :=
    ⟨fun _ _ hsent => hsent, fun _ => hdown⟩
  have hknown : ∀ c ∈ s.queue, s.sent[c.1]? = some c.2 :=
    fun c hc => h.known c (List.mem_append_left _ hc)
  constructor
  · exact h.places.dropWaiting
  · intro c hc
    exact h.known c (List.mem_append_right _ hc)
  · exact h.jobs
  · exact answered_dropReplies h.answered hknown
  · exact origin_dropReplies (fun x hx => (h.origin x hx).mono hext a) fun c _ => .down hdown
  · exact h.kept_of hext (fun x hx => mem_dropReplies hx) hnot
  · intro _
    rfl
  · intro _ hstopping
    rcases hstage with rfl | ⟨rfl, htasks⟩
    · exact absurd rfl hstopping
    · exact htasks
  · intro _
    rcases hcause with hstops | hshut
    · exact .inl ⟨a, List.mem_append_right _ (List.mem_singleton_self a), hstops⟩
    · exact .inr hshut

/-- A step that changes nothing that is accounted for. -/
theorem Accounted.pass (h : Accounted handle s steps) {stage : ThreadStage}
    {ready : Option (Except String ReadyInfo)} (hdown : s.isDown = false)
    (hstage : stage = .starting ∨ stage = .serving)
    (hparked : stage = .starting → s.tasks = [])
    (hnot : ∀ call world, a ≠ .finish call (some world)) :
    Accounted handle { s with stage := stage, ready := ready } (steps ++ [a]) := by
  have hopen : ({ s with stage := stage, ready := ready } : StackService ρ).isDown = false := by
    rcases hstage with rfl | rfl <;> rfl
  have hext : Extends s { s with stage := stage, ready := ready } :=
    ⟨fun _ _ hsent => hsent, fun hold => by simp [hdown] at hold⟩
  constructor
  · exact h.places
  · exact h.known
  · exact h.jobs
  · exact h.answered
  · exact fun x hx => (h.origin x hx).mono hext a
  · exact h.kept_of hext (fun x hx => hx) hnot
  · intro hnow
    simp [hopen] at hnow
  · intro hserving _
    rcases hstage with rfl | rfl
    · exact hparked rfl
    · exact absurd rfl hserving
  · intro hnow
    simp [hopen] at hnow

theorem Accounted.send (h : Accounted handle s steps) (req : StackRequest) :
    Accounted handle (s.send req) (steps ++ [.send req]) := by
  have hext : Extends s (s.send req) := by
    constructor
    · intro call old hold
      have hlt := (List.getElem?_eq_some_iff.mp hold).1
      unfold StackService.send
      split <;> exact (List.getElem?_append_left hlt).trans hold
    · intro hold
      unfold StackService.send
      rw [if_pos hold]
      exact hold
  have hnew : (s.sent ++ [req])[s.sent.length]? = some req := by simp
  have hanswered : s.answers.map Prod.fst = s.settled.filter (expectsReply (s.sent ++ [req])) := by
    rw [h.answered]
    refine List.filter_congr fun call hcall => (expectsReply_append ?_ req).symm
    exact h.places.lt (List.mem_append_right _ hcall)
  have hknown : ∀ c ∈ s.queue ++ s.tasks, (s.sent ++ [req])[c.1]? = some c.2 := by
    intro c hc
    have hold := h.known c hc
    exact (List.getElem?_append_left (List.getElem?_eq_some_iff.mp hold).1).trans hold
  have hshut : .shutdown ∈ s.sent → .shutdown ∈ s.sent ++ [req] := List.mem_append_left _
  have hkept := h.kept_of (a := .send req) hext
  unfold StackService.send at hext hkept ⊢
  by_cases hdown : s.isDown = true
  · rw [if_pos hdown] at hext hkept ⊢
    have hqueue := h.closed hdown
    constructor
    · have hplaces := h.places
      simp only [hqueue, List.map_nil] at hplaces
      simpa [dropReplies, hqueue] using hplaces.refuse
    · exact hknown
    · exact h.jobs
    · refine answered_dropReplies hanswered fun c hc => ?_
      obtain rfl := List.mem_singleton.mp hc
      exact hnew
    · exact origin_dropReplies (fun x hx => (h.origin x hx).mono hext _) fun _ _ => .down hdown
    · exact hkept (fun x hx => mem_dropReplies hx) (by simp)
    · exact fun _ => hqueue
    · exact h.parked
    · exact fun hold => h.cause_of hshut hold _
  · rw [if_neg hdown] at hext hkept ⊢
    constructor
    · simpa using h.places.submit
    · intro c hc
      rw [List.append_assoc, List.mem_append, List.mem_append, List.mem_singleton] at hc
      rcases hc with hc | rfl | hc
      · exact hknown c (List.mem_append_left _ hc)
      · exact hnew
      · exact hknown c (List.mem_append_right _ hc)
    · exact h.jobs
    · exact hanswered
    · exact fun x hx => (h.origin x hx).mono hext _
    · exact hkept (fun x hx => hx) (by simp)
    · exact fun hold => absurd hold hdown
    · exact h.parked
    · exact fun hold => absurd hold hdown

/-- A registry request is served as soon as it is received. -/
theorem Accounted.serve (h : Accounted handle s steps) {call : Nat} {req : StackRequest}
    {rest : List (Nat × StackRequest)} (hqueue : s.queue = (call, req) :: rest)
    (hcontrol : req.isControl = true) (supervisors : OrdMap NodeId SupervisorTask) :
    Accounted handle { s with
      queue := rest
      settled := s.settled ++ [call]
      supervisors := supervisors } steps := by
  have hplaces := h.places
  have hhead := h.known (call, req) (by simp [hqueue])
  have hopen : ¬ s.isDown = true := by
    intro hdown
    simp [h.closed hdown] at hqueue
  constructor
  · simp only [hqueue, List.map_cons] at hplaces
    exact hplaces.serve
  · intro c hc
    exact h.known c (by
      rw [hqueue]
      exact List.mem_cons_of_mem _ hc)
  · exact h.jobs
  · have hsilent : expectsReply s.sent call = false := by
      rw [expectsReply_of_getElem? hhead, hcontrol]
      rfl
    simp [h.answered, hsilent]
  · exact h.origin
  · exact h.kept
  · exact fun hdown => absurd hdown hopen
  · exact h.parked
  · exact h.cause

/-- Any other request becomes a task. -/
theorem Accounted.begin (h : Accounted handle s steps) {call : Nat} {req : StackRequest}
    {rest : List (Nat × StackRequest)} (hserving : s.stage = .serving)
    (hqueue : s.queue = (call, req) :: rest) (hjob : req.isControl = false) :
    Accounted handle { s with queue := rest, tasks := s.tasks ++ [(call, req)] } steps := by
  have hplaces := h.places
  have hopen : ¬ s.isDown = true := by simp [isDown, hserving]
  constructor
  · simp only [hqueue, List.map_cons] at hplaces
    simpa using hplaces.begin
  · intro c hc
    apply h.known c
    rw [hqueue]
    simp only [List.mem_append, List.mem_cons, List.not_mem_nil, or_false] at hc ⊢
    rcases hc with hc | hc | hc
    · exact .inl (.inr hc)
    · exact .inr hc
    · exact .inl (.inl hc)
  · intro c hc
    rcases List.mem_append.mp hc with hc | hc
    · exact h.jobs c hc
    · obtain rfl := List.mem_singleton.mp hc
      exact hjob
  · exact h.answered
  · exact h.origin
  · exact h.kept
  · exact fun hdown => absurd hdown hopen
  · exact fun hnot _ => absurd hserving hnot
  · exact h.cause

/-- One more step that changes nothing. -/
theorem Accounted.later (h : Accounted handle s steps)
    (hnot : ∀ call world, a ≠ .finish call (some world)) : Accounted handle s (steps ++ [a]) where
  places := h.places
  known := h.known
  jobs := h.jobs
  answered := h.answered
  origin := fun x hx => (h.origin x hx).mono ⟨fun _ _ hsent => hsent, id⟩ a
  kept := h.kept_of ⟨fun _ _ hsent => hsent, id⟩ (fun _ hx => hx) hnot
  closed := h.closed
  parked := h.parked
  cause := fun hdown => h.cause_of id hdown a

theorem Accounted.receive (h : Accounted handle s steps) {call : Nat} {req : StackRequest}
    {rest : List (Nat × StackRequest)} (hserving : s.stage = .serving)
    (hqueue : s.queue = (call, req) :: rest) :
    Accounted handle ({ s with queue := rest }.receive call req) (steps ++ [.receive]) := by
  have hnot : ∀ (c : Nat) (world : ω), ServiceStep.receive ≠ .finish c (some world) := by simp
  have hsent : req ∈ s.sent :=
    List.mem_of_getElem? (h.known (call, req) (by simp [hqueue]))
  cases req with
  | shutdown =>
    exact (h.serve hqueue rfl ∅).closeQueue (.inl rfl) hnot (.inr hsent)
  | startSupervisor nodeId => exact (h.serve hqueue rfl _).later hnot
  | stopSupervisor nodeId => exact (h.serve hqueue rfl _).later hnot
  | _ => exact (h.begin hserving hqueue rfl).later hnot

/-- The task of a request ends. -/
theorem Accounted.finish (h : Accounted handle s steps) {call : Nat} {req : StackRequest}
    (hserving : s.stage = .serving) (htask : (call, req) ∈ s.tasks) (outcome : Option ω) :
    Accounted handle (s.finish handle call req outcome) (steps ++ [.finish call outcome]) := by
  have hmem : call ∈ s.tasks.map Prod.fst := List.mem_map_of_mem htask
  have hreq : s.sent[call]? = some req := h.known (call, req) (List.mem_append_right _ htask)
  have hopen : ¬ s.isDown = true := by simp [isDown, hserving]
  have hext : Extends s s := ⟨fun _ _ hsent => hsent, id⟩
  have hnumbers : (s.tasks.eraseP fun c => c.1 == call).map Prod.fst =
      (s.tasks.map Prod.fst).erase call := by
    rw [List.erase_eq_eraseP', List.eraseP_map]
    rfl
  have hplaces := h.places.finish hmem
  rw [← hnumbers] at hplaces
  have hsub : ∀ c ∈ s.tasks.eraseP (fun c => c.1 == call), c ∈ s.tasks := fun c hc =>
    List.mem_of_mem_eraseP hc
  have hknown : ∀ c ∈ s.queue ++ s.tasks.eraseP (fun c => c.1 == call), s.sent[c.1]? = some c.2 := by
    intro c hc
    apply h.known c
    rcases List.mem_append.mp hc with hc | hc
    · exact List.mem_append_left _ hc
    · exact List.mem_append_right _ (hsub c hc)
  cases outcome with
  | none =>
    constructor
    · exact hplaces
    · exact hknown
    · exact fun c hc => h.jobs c (hsub c hc)
    · refine answered_dropReplies h.answered fun c hc => ?_
      obtain rfl := List.mem_singleton.mp hc
      exact hreq
    · refine origin_dropReplies (fun x hx => (h.origin x hx).mono hext _) fun c hc => ?_
      obtain rfl := List.mem_singleton.mp hc
      exact .panicked (by simp)
    · have hlater : Extends s (s.finish handle call req none) := ⟨fun _ _ hsent => hsent, id⟩
      exact h.kept_of hlater (fun x hx => mem_dropReplies hx) (by simp)
    · exact fun hdown => absurd hdown hopen
    · exact fun hnot => absurd hserving hnot
    · exact fun hdown => absurd hdown hopen
  | some world =>
    constructor
    · exact hplaces
    · exact hknown
    · exact fun c hc => h.jobs c (hsub c hc)
    · have hexpects : expectsReply s.sent call = true := by
        rw [expectsReply_of_getElem? hreq, h.jobs _ htask]
        rfl
      simp [StackService.finish, h.answered, hexpects]
    · intro x hx
      rcases List.mem_append.mp hx with hx | hx
      · exact (h.origin x hx).mono hext _
      · obtain rfl := List.mem_singleton.mp hx
        exact .operation hreq (by simp)
    · intro c w hc
      rcases List.mem_append.mp hc with hc | hc
      · obtain ⟨r, hr, hin⟩ := h.kept c w hc
        exact ⟨r, hr, List.mem_append_left _ hin⟩
      · cases List.mem_singleton.mp hc
        exact ⟨req, hreq, by simp [StackService.finish]⟩
    · exact fun hdown => absurd hdown hopen
    · exact fun hnot => absurd hserving hnot
    · exact fun hdown => absurd hdown hopen

/-- `run_stack` returns: the executor is dropped, and its tasks with it. -/
theorem Accounted.exit (h : Accounted handle s steps) (hstage : s.stage = .stopping) :
    Accounted handle ({ s with stage := .exited, tasks := [] }.dropReplies s.tasks)
      (steps ++ [.exit]) := by
  have hdown : s.isDown = true := by simp [isDown, hstage]
  have hext : Extends s ({ s with stage := .exited, tasks := [] }.dropReplies s.tasks) :=
    ⟨fun _ _ hsent => hsent, fun _ => rfl⟩
  have hknown : ∀ c ∈ s.tasks, s.sent[c.1]? = some c.2 :=
    fun c hc => h.known c (List.mem_append_right _ hc)
  constructor
  · exact h.places.dropRunning
  · intro c hc
    simp only [dropReplies, List.append_nil] at hc
    exact h.known c (List.mem_append_left _ hc)
  · simp [dropReplies]
  · exact answered_dropReplies h.answered hknown
  · exact origin_dropReplies (fun x hx => (h.origin x hx).mono hext _) fun c _ => .down rfl
  · exact h.kept_of hext (fun x hx => mem_dropReplies hx) (by simp)
  · exact fun _ => h.closed hdown
  · exact fun _ _ => rfl
  · exact fun _ => h.cause_of id hdown _

theorem Accounted.step (h : Accounted handle s steps) (hstep : s.step handle a = some s') :
    Accounted handle s' (steps ++ [a]) := by
  cases step_moves hstep with
  | send req => exact h.send req
  | claims hstage =>
    exact h.pass (by simp [isDown, hstage]) (.inl rfl)
      (fun _ => h.parked (by simp [hstage]) (by simp [hstage])) (by simp)
  | second hstage =>
    exact h.closeQueue (.inr ⟨rfl, h.parked (by simp [hstage]) (by simp [hstage])⟩) (by simp)
      (.inl rfl)
  | boots info hstage =>
    exact h.pass (by simp [isDown, hstage]) (.inr rfl) (by simp) (by simp)
  | fails e hstage =>
    exact h.closeQueue (.inr ⟨rfl, h.parked (by simp [hstage]) (by simp [hstage])⟩) (by simp)
      (.inl ⟨e, rfl⟩)
  | receive hserving hqueue => exact h.receive hserving hqueue
  | finish outcome hserving htask => exact h.finish hserving htask outcome
  | degrades future hserving hruns => exact h.later (by simp)
  | stops future hserving hstops => exact h.closeQueue (.inl rfl) (by simp) (.inl hstops)
  | exit hstage => exact h.exit hstage

theorem accounted_spawn : Accounted handle (spawn : StackService ρ) ([] : List (ServiceStep ω)) where
  places := .start
  known := by simp [spawn]
  jobs := by simp [spawn]
  answered := rfl
  origin := by simp [spawn]
  kept := by simp
  closed := by simp [spawn]
  parked := fun _ _ => rfl
  cause := by simp [spawn, isDown]

theorem Accounted.run (h : Accounted handle s steps) {rest : List (ServiceStep ω)}
    (hrun : Transition.run (StackService.step handle) s rest = some s') :
    Accounted handle s' (steps ++ rest) := by
  induction rest generalizing s steps with
  | nil =>
    cases hrun
    rwa [List.append_nil]
  | cons a rest ih =>
    obtain ⟨m, hm, hrest⟩ := Transition.run_cons hrun
    have hlast := ih (h.step hm) hrest
    rwa [List.append_assoc] at hlast

/-- In every run each request is accounted for, and no caller is answered twice; once the thread has
returned, every request that someone waits for has been answered. -/
theorem requests_accounted
    (hrun : Transition.run (StackService.step handle) (spawn : StackService ρ) steps = some s) :
    s.Accounted handle steps ∧ (s.answers.map Prod.fst).Nodup ∧
      (s.stage = .exited → (s.answers.map Prod.fst).Perm
        ((List.range s.sent.length).filter (expectsReply s.sent))) := by
  have hspawn : Accounted handle (spawn : StackService ρ) [] := accounted_spawn
  have h : s.Accounted handle steps := hspawn.run hrun
  refine ⟨h, ?_, fun hexited => ?_⟩
  · rw [h.answered]
    have hsettled := (List.nodup_append.mp h.places.nodup).2.1
    exact hsettled.filter _
  · have hqueue := h.closed (by simp [isDown, hexited])
    have htasks := h.parked (by simp [hexited]) (by simp [hexited])
    have hall := h.places.once
    rw [hqueue, htasks] at hall
    rw [h.answered]
    exact hall.filter _

/-- The requests that the loop has received, in the order in which they were sent. -/
def received (s : StackService ρ) : List StackRequest :=
  s.sent.take (s.sent.length - s.queue.length)

theorem received_send (hle : s.queue.length ≤ s.sent.length) (hopen : s.isDown = false)
    (req : StackRequest) : (s.send req).received = s.received := by
  unfold StackService.send
  rw [if_neg (by simp [hopen]), received, received]
  simp only [List.length_append, List.length_singleton]
  have hcount : s.sent.length + 1 - (s.queue.length + 1) = s.sent.length - s.queue.length := by omega
  rw [hcount, List.take_append_of_le_length (by omega)]

theorem Accounted.received_tail (h : Accounted handle s steps) {call : Nat} {req : StackRequest}
    {rest : List (Nat × StackRequest)} (hqueue : s.queue = (call, req) :: rest) :
    s.sent.take (s.sent.length - rest.length) = s.received ++ [req] := by
  have hplaces := h.places
  have hhead := h.known (call, req) (by simp [hqueue])
  have hle := h.places.length_le
  rw [List.length_map, hqueue, List.length_cons] at hle
  simp only [hqueue, List.map_cons] at hplaces
  have hcall := hplaces.head_eq
  rw [List.length_map] at hcall
  have hcount : s.sent.length - rest.length = call + 1 := by omega
  rw [hcount, List.take_add_one, hhead, received, hqueue, List.length_cons, ← hcall]
  rfl

/-- Until the receiver is dropped, the registry is what the requests received so far have made of
it, in the order in which they were sent. -/
def InOrder (s : StackService ρ) : Prop :=
  s.isDown = false → s.supervisors = s.received.foldl serveControl ∅

theorem InOrder.receive (h : s.InOrder) (hacc : Accounted handle s steps) {call : Nat}
    {req : StackRequest} {rest : List (Nat × StackRequest)} (hserving : s.stage = .serving)
    (hqueue : s.queue = (call, req) :: rest) :
    ({ s with queue := rest }.receive call req).InOrder := by
  intro hopen
  have hold := h (by simp [isDown, hserving])
  have htail := hacc.received_tail hqueue
  have hserved : serveControl s.supervisors req =
      (s.sent.take (s.sent.length - rest.length)).foldl serveControl ∅ := by
    rw [htail, List.foldl_append, ← hold]
    rfl
  cases req with
  | shutdown => cases hopen
  | startSupervisor nodeId => exact hserved
  | stopSupervisor nodeId => exact hserved
  | _ => exact hserved

theorem InOrder.send (h : s.InOrder) (hacc : Accounted handle s steps) (req : StackRequest) :
    (s.send req).InOrder := by
  intro hopen
  have hopen' : s.isDown = false := by
    unfold StackService.send at hopen
    split at hopen <;> exact hopen
  have hle := hacc.places.length_le
  rw [List.length_map] at hle
  rw [received_send hle hopen', ← h hopen']
  unfold StackService.send
  split <;> rfl

theorem InOrder.step (h : s.InOrder) (hacc : Accounted handle s steps)
    (hstep : s.step handle a = some s') : s'.InOrder := by
  cases step_moves hstep with
  | send req => exact h.send hacc req
  | claims hstage => exact fun _ => h (by simp [isDown, hstage])
  | boots info hstage => exact fun _ => h (by simp [isDown, hstage])
  | receive hserving hqueue => exact h.receive hacc hserving hqueue
  | finish outcome hserving htask =>
    have hold := h (by simp [isDown, hserving])
    cases outcome with
    | none => exact fun _ => hold
    | some world => exact fun _ => hold
  | degrades future hserving hruns => exact h
  | second hstage => exact fun hopen => Bool.noConfusion hopen
  | fails e hstage => exact fun hopen => Bool.noConfusion hopen
  | stops future hserving hstops => exact fun hopen => Bool.noConfusion hopen
  | exit hstage => exact fun hopen => Bool.noConfusion hopen

def someInfo : ReadyInfo := ⟨⟨1, 1, 0xFFF1, 112233, 1, [], [], [], [], []⟩, 1⟩

/-- What comes from outside is the whole result. -/
def answerWith (world : Except StackError Json) (_ : StackRequest) : Except StackError Json := world

/-- A request from before the boot, a supervisor, an interview that overtakes it and a browse that
panics. -/
def servingSteps : List (ServiceStep (Except StackError Json)) :=
  [.send (.interview 1), .claim false, .boot (.ok someInfo), .send (.startSupervisor 1), .receive,
    .receive, .send (.interview 2), .receive, .finish 2 (some (.ok .null)), .send (.browse 1000),
    .receive, .finish 3 none]

def servingEnd : StackService Json where
  sent := [.interview 1, .startSupervisor 1, .interview 2, .browse 1000]
  queue := []
  tasks := [(0, .interview 1)]
  settled := [1, 2, 3]
  answers := [(2, .ok .null), (3, .error threadDown)]
  supervisors := .ofList [(1, ⟨1⟩)]
  stage := .serving
  ready := some (.ok someInfo)

/-- Then a shutdown, with a request behind it and one after it. -/
def shutdownEnd : StackService Json :=
  { servingEnd with
    sent := servingEnd.sent ++ [.shutdown, .interview 2, .interview 3]
    tasks := []
    settled := [1, 2, 3, 4, 5, 0, 6]
    answers := servingEnd.answers ++
      [(5, .error threadDown), (0, .error threadDown), (6, .error threadDown)]
    supervisors := ∅
    stage := .exited }

theorem requests_of_shutdown :
    shutdownEnd.Accounted answerWith (servingSteps ++
      [.send .shutdown, .send (.interview 2), .receive, .exit, .send (.interview 3)]) ∧
    (shutdownEnd.answers.map Prod.fst).Nodup ∧
    (shutdownEnd.stage = .exited → (shutdownEnd.answers.map Prod.fst).Perm
      ((List.range shutdownEnd.sent.length).filter (expectsReply shutdownEnd.sent))) :=
  requests_accounted rfl

end StackService

end MatterRsServer.Server
