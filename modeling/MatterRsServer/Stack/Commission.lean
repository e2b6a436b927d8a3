import MatterRsServer.Lib.Course
import MatterRsServer.Stack.Fabrics
import MatterRsServer.Stack.Sweep
import MatterRsServer.Stack.Targets

/-!
# Commissioning a device

`commission` of `ops/commission.rs`: PASE with the device that the target names, CASE with the
node that it has become, and the label of our fabric. What the codes decode to, what the network
and the device answer, and when, are parameters.
-/
namespace MatterRsServer.Stack
open Lib Controller Browsing

def commissionTimeoutSecs : Nat := 60

/-- `BROWSE_TIMEOUT`, in seconds. -/
def browseTimeoutSecs : Nat := 30

/-- What `commission` does that can be seen from outside. -/
inductive CommissionStep (β : Type) where
  | browse (filter : CommissionableFilter)
  | pase (addr : Address β) (passcode : UInt32) (nodeId : NodeId)
  | completeViaCase (addr : Address β) (fabricIndex : UInt8)
  | pushFabricLabel (nodeId : NodeId) (warning : Option String)
  | noteAddress (nodeId : NodeId) (ip : String)

/-- The codes, the network, the issuer of certificates and the devices: `pase` is
`Commissioner::commission`, `rcacFabricId` the fabric id in the subject of the root certificate,
and `labelDue` the time after which the label is answered. -/
structure CommissionEnv (σ β : Type) where
  rate : TickRate
  display : β → String
  parseQr : String → Except String (UInt32 × CommissionableFilter)
  parsePairingCode : String → Except String (UInt32 × CommissionableFilter)
  turn : CommissionableFilter → Turn β
  rcacFabricId : Option UInt64
  fabricId : UInt64
  canonSecretKey : Except Im.Error Unit
  nocGenerator : UInt64 → Except Im.Error Unit
  pase : Address β → UInt32 → NodeId → Awaited Im.Error UInt8
  completeViaCase : Address β → UInt8 → Awaited Im.Error Unit
  devices : Im.Devices σ
  labelDue : Nat

section
variable {σ β : Type}

namespace CommissionEnv

def seconds (env : CommissionEnv σ β) (secs : Nat) : Nat := fromMillis env.rate (1000 * secs)

/-- The search for a device, in its turn for the browse slot. -/
def browse (env : CommissionEnv σ β) (filter : CommissionableFilter) : BrowseCall β :=
  browseOne env.rate [] (env.seconds browseTimeoutSecs) (env.turn filter)

def discovery (env : CommissionEnv σ β) : Discovery β where
  parseQr := env.parseQr
  parsePairingCode := env.parsePairingCode
  browseOne filter := (env.browse filter).result.map Prod.fst

/-- The search at the end of `resolve_target`. -/
def search (env : CommissionEnv σ β) (passcode : UInt32) (filter : CommissionableFilter) :
    Course (CommissionStep β) StackError (UInt32 × Address β) where
  steps := [.browse filter]
  spent := (env.browse filter).took
  result := discovered env.discovery passcode filter

/-- `resolve_target`, with the search that it makes. -/
def resolve (env : CommissionEnv σ β) :
    PaseTarget → Course (CommissionStep β) StackError (UInt32 × Address β)
  | .code code =>
    Course.ofExcept (Stack.parsePairingCode env.discovery (.ofList (Words.trim code.toList))) >>=
      fun parsed => env.search parsed.1 parsed.2
  | .onNetwork passcode longDiscriminator shortDiscriminator vendorId =>
    env.search passcode {
      discriminator := longDiscriminator
      shortDiscriminator := shortDiscriminator
      vendorId := vendorId
      productId := none
      deviceType := none
      commissioningModeOnly :=
        longDiscriminator.isNone && shortDiscriminator.isNone && vendorId.isNone }
  | .address passcode addr => .ofExcept (resolveTarget env.discovery (.address passcode addr))

/-- The key and the generator of certificates. The fabric id of the root certificate wins. -/
def issuer (env : CommissionEnv σ β) : Except StackError Unit := do
  env.canonSecretKey.mapError Im.mapErr
  (env.nocGenerator (env.rcacFabricId.getD env.fabricId)).mapError Im.mapErr

def paseLate : StackError :=
  ⟨.timeout, s!"commissioning timed out after {commissionTimeoutSecs}s (a previous " ++
    "failed attempt may hold the device's PASE session for ~60s)"⟩

def caseLate : StackError :=
  ⟨.timeout, s!"CASE completion timed out after {commissionTimeoutSecs}s; the device's " ++
    "60s failsafe has expired, so it has rolled back the partial commissioning " ++
    "and may report Busy for ~60s"⟩

/-- The label, whose failure is a warning. -/
def pushLabel (env : CommissionEnv σ β) [DecidableEq σ] (req : CommissionRequest) :
    Course (CommissionStep β) StackError Unit where
  steps := [.pushFabricLabel req.nodeId
    (Im.pushFabricLabel env.devices req.nodeId req.fabricLabel)]
  spent := min env.labelDue (env.seconds Im.imTimeoutSecs)
  result := .ok ()

/-- `commission`, from the resolved target on. -/
def commissionAt [DecidableEq σ] (env : CommissionEnv σ β) (req : CommissionRequest)
    (passcode : UInt32) (addr : Address β) :
    Course (CommissionStep β) StackError CommissionOutcome := do
  Course.ofExcept env.issuer
  let fabricIndex ← Course.within (.pase addr passcode req.nodeId)
    (env.seconds commissionTimeoutSecs) (env.pase addr passcode req.nodeId) Im.mapErr paseLate
  Course.within (.completeViaCase addr fabricIndex) (env.seconds commissionTimeoutSecs)
    (env.completeViaCase addr fabricIndex) Im.mapErr caseLate
  env.pushLabel req
  Course.step (.noteAddress req.nodeId (ipOf (addrToString env.display addr)))
  return ⟨fabricIndex, addrToString env.display addr⟩

def commission [DecidableEq σ] (env : CommissionEnv σ β) (req : CommissionRequest) :
    Course (CommissionStep β) StackError CommissionOutcome :=
  env.resolve req.target >>= fun target => env.commissionAt req target.1 target.2

theorem result_resolve (env : CommissionEnv σ β) (target : PaseTarget) :
    (env.resolve target).result = resolveTarget env.discovery target := by
  cases target with
  | code code =>
    unfold resolve resolveTarget
    dsimp only
    cases Stack.parsePairingCode env.discovery (.ofList (Words.trim code.toList)) <;> rfl
  | onNetwork passcode long short vendor => rfl
  | address passcode addr => rfl

/-- The target is not one that could be looked for. -/
def Malformed (env : CommissionEnv σ β) : PaseTarget → Prop
  | .code code => ∃ e,
    Stack.parsePairingCode env.discovery (.ofList (Words.trim code.toList)) = .error e
  | .onNetwork _ _ _ _ => False
  | .address _ addr => Inet.SocketAddr.parse addr = none

/-- The device at the address goes through both phases in time. -/
structure Joins (env : CommissionEnv σ β) (req : CommissionRequest) (passcode : UInt32)
    (addr : Address β) (fabricIndex : UInt8) : Prop where
  target : resolveTarget env.discovery req.target = .ok (passcode, addr)
  issuer : env.issuer = .ok ()
  pase : (env.pase addr passcode req.nodeId).InTime (env.seconds 60) fabricIndex
  complete : (env.completeViaCase addr fabricIndex).InTime (env.seconds 60) ()

/-- A step that may be taken before a commissioning has succeeded. -/
def Provisional (env : CommissionEnv σ β) (req : CommissionRequest) : CommissionStep β → Prop
  | .browse _ => True
  | .pase addr passcode nodeId =>
    nodeId = req.nodeId ∧ resolveTarget env.discovery req.target = .ok (passcode, addr)
  | .completeViaCase addr fabricIndex => ∃ passcode,
    resolveTarget env.discovery req.target = .ok (passcode, addr) ∧
      (env.pase addr passcode req.nodeId).InTime (env.seconds 60) fabricIndex
  | .pushFabricLabel _ _ => False
  | .noteAddress _ _ => False

theorem mapErr_kind (e : Im.Error) : (Im.mapErr e).kind ≠ .invalidArguments := by
  obtain ⟨code, text⟩ := e
  cases code <;> simp [Im.mapErr]

section
variable {env : CommissionEnv σ β}

/-- Only a browse is a step of the search. -/
theorem steps_resolve {target : PaseTarget} {w : CommissionStep β}
    (h : w ∈ (env.resolve target).steps) : ∃ filter, w = .browse filter := by
  cases target with
  | code code =>
    rcases Course.mem_steps_bind.mp h with hnone | ⟨parsed, -, hsearch⟩
    · cases hnone
    · exact ⟨_, List.mem_singleton.mp hsearch⟩
  | onNetwork passcode long short vendor => exact ⟨_, List.mem_singleton.mp h⟩
  | address passcode addr => cases h

theorem spent_resolve_le (hfair : ∀ filter, (env.browse filter).Fair env.rate)
    (target : PaseTarget) : (env.resolve target).spent ≤ env.seconds 30 := by
  have hsearch : ∀ passcode filter, (env.search passcode filter).spent ≤ env.seconds 30 := by
    intro passcode filter
    have htook := (hfair filter).took_le
    have hbudget := fromMillis_budgetMs_le env.rate (env.seconds 30)
    have hgrain : env.rate.perMs ≤ env.seconds 30 := Nat.le_mul_of_pos_left _ (by decide)
    exact htook.trans (hbudget.trans (max_le (Nat.le_refl _) hgrain))
  cases target with
  | code code =>
    have hle := Course.spent_bind_le (m := 0)
      (x := Course.ofExcept (Stack.parsePairingCode env.discovery (.ofList (Words.trim code.toList))))
      (Nat.le_refl _) fun parsed => hsearch parsed.1 parsed.2
    rw [Nat.zero_add] at hle
    exact hle
  | onNetwork passcode long short vendor => exact hsearch passcode _
  | address passcode addr => exact Nat.zero_le _

theorem parsePairingCode_kind {code : String} {e : StackError}
    (h : Stack.parsePairingCode env.discovery code = .error e) : e.kind = .invalidArguments := by
  have hmapped : ∀ {r : Except String (UInt32 × CommissionableFilter)} {what : String},
      r.mapError (invalidCode what) = .error e → e.kind = .invalidArguments := by
    intro r what h
    cases r with
    | ok parsed => cases h
    | error text =>
      cases h
      rfl
  unfold Stack.parsePairingCode at h
  split at h
  · exact hmapped h
  · exact hmapped h

theorem browse_kind {filter : CommissionableFilter} {e : StackError}
    (h : (env.browse filter).result = .error e) : e.kind ≠ .invalidArguments := by
  unfold browse browseOne at h
  dsimp only at h
  split at h
  next r _ =>
    cases r with
    | ok found => cases h
    | error cause =>
      cases h
      exact mapErr_kind cause
  next =>
    cases h
    exact fun hkind => by cases hkind

theorem discovered_kind {passcode : UInt32} {filter : CommissionableFilter} {e : StackError}
    (h : discovered env.discovery passcode filter = .error e) : e.kind ≠ .invalidArguments := by
  cases hbrowse : (env.browse filter).result with
  | ok found =>
    have hfound : env.discovery.browseOne filter = .ok found.1 :=
      congrArg (Except.map Prod.fst) hbrowse
    rw [discovered, hfound] at h
    cases h
  | error e' =>
    have hlost : env.discovery.browseOne filter = .error e' :=
      congrArg (Except.map Prod.fst) hbrowse
    rw [discovered, hlost] at h
    cases h
    exact browse_kind hbrowse

/-- A search fails for the network, and a target only when it is malformed. -/
theorem invalidArguments_resolve {target : PaseTarget} :
    (∃ e, resolveTarget env.discovery target = .error e ∧ e.kind = .invalidArguments) ↔
      env.Malformed target := by
  cases target with
  | code code =>
    have hresolve : resolveTarget env.discovery (.code code) =
        (Stack.parsePairingCode env.discovery (.ofList (Words.trim code.toList))).bind
          fun parsed => discovered env.discovery parsed.1 parsed.2 := rfl
    rw [hresolve]
    cases hparsed : Stack.parsePairingCode env.discovery (.ofList (Words.trim code.toList)) with
    | ok parsed =>
      refine iff_of_false ?_ ?_
      · rintro ⟨e, h, hkind⟩
        exact discovered_kind h hkind
      · rintro ⟨e, he⟩
        rw [hparsed] at he
        cases he
    | error e =>
      exact iff_of_true ⟨e, rfl, parsePairingCode_kind hparsed⟩ ⟨e, hparsed⟩
  | onNetwork passcode long short vendor =>
    refine iff_of_false ?_ id
    rintro ⟨e, h, hkind⟩
    exact discovered_kind h hkind
  | address passcode addr =>
    change _ ↔ Inet.SocketAddr.parse addr = none
    cases haddr : Inet.SocketAddr.parse addr with
    | none =>
      have hresolve : resolveTarget env.discovery (.address passcode addr) =
          .error ⟨.invalidArguments, "invalid ip_addr: invalid socket address syntax"⟩ := by
        simp only [resolveTarget, parseSocketAddr, haddr, bind, Except.bind]
      exact iff_of_true ⟨_, hresolve, rfl⟩ rfl
    | some sa =>
      have hresolve : resolveTarget env.discovery (.address passcode addr) =
          .ok (passcode, .udp sa) := by
        simp only [resolveTarget, parseSocketAddr, haddr, bind, Except.bind]
        rfl
      refine iff_of_false ?_ (by simp)
      rintro ⟨e, h, -⟩
      rw [hresolve] at h
      cases h

theorem issuer_kind {e : StackError} (h : env.issuer = .error e) : e.kind ≠ .invalidArguments := by
  unfold issuer at h
  cases hkey : env.canonSecretKey with
  | error cause =>
    rw [hkey] at h
    cases h
    exact mapErr_kind cause
  | ok _ =>
    rw [hkey] at h
    cases hgenerator : env.nocGenerator (env.rcacFabricId.getD env.fabricId) with
    | error cause =>
      rw [hgenerator] at h
      cases h
      exact mapErr_kind cause
    | ok _ =>
      rw [hgenerator] at h
      cases h

theorem malformed_resolve {target : PaseTarget} (h : env.Malformed target) :
    (env.resolve target).steps = [] ∧ (env.resolve target).spent = 0 := by
  cases target with
  | code code =>
    obtain ⟨e, he⟩ := h
    have hparsed : (Course.ofExcept (ω := CommissionStep β) (Stack.parsePairingCode env.discovery
      (.ofList (Words.trim code.toList)))).result = .error e := (Course.result_ofExcept _).trans he
    rw [resolve, Course.bind_of_error hparsed]
    exact ⟨rfl, rfl⟩
  | onNetwork passcode long short vendor => exact h.elim
  | address passcode addr => exact ⟨rfl, rfl⟩

variable [DecidableEq σ] {req : CommissionRequest} {passcode : UInt32} {addr : Address β}
  {fabricIndex : UInt8}

theorem result_commissionAt (htarget : resolveTarget env.discovery req.target = .ok (passcode, addr))
    {outcome : CommissionOutcome} :
    (env.commissionAt req passcode addr).result = .ok outcome ↔ ∃ fabricIndex,
      env.Joins req passcode addr fabricIndex ∧
        outcome = ⟨fabricIndex, addrToString env.display addr⟩ := by
  unfold commissionAt
  simp only [Course.result_bind_eq_ok, Course.result_within_eq_ok]
  constructor
  · rintro ⟨_, hissuer, fabricIndex, hpase, _, hcomplete, _, -, _, -, houtcome⟩
    cases houtcome
    exact ⟨fabricIndex, ⟨htarget, hissuer, hpase, hcomplete⟩, rfl⟩
  · rintro ⟨fabricIndex, hjoins, rfl⟩
    exact ⟨(), hjoins.issuer, fabricIndex, hjoins.pase, (), hjoins.complete, (), rfl, (), rfl, rfl⟩

/-- The device is named and its address noted when it has joined. -/
theorem steps_commissionAt (h : env.Joins req passcode addr fabricIndex) :
    (env.commissionAt req passcode addr).steps =
      [.pase addr passcode req.nodeId, .completeViaCase addr fabricIndex,
        .pushFabricLabel req.nodeId (Im.pushFabricLabel env.devices req.nodeId req.fabricLabel),
        .noteAddress req.nodeId (ipOf (addrToString env.display addr))] := by
  have hissuer : (Course.ofExcept (ω := CommissionStep β) env.issuer).result = .ok () :=
    (Course.result_ofExcept _).trans h.issuer
  have hpase : (env.pase addr passcode req.nodeId).InTime (env.seconds commissionTimeoutSecs)
      fabricIndex := h.pase
  have hcomplete : (env.completeViaCase addr fabricIndex).InTime
      (env.seconds commissionTimeoutSecs) () := h.complete
  rw [commissionAt, Course.steps_bind_of_ok hissuer,
    Course.steps_bind_of_ok (Course.result_within_eq_ok.mpr hpase),
    Course.steps_bind_of_ok (Course.result_within_eq_ok.mpr hcomplete), Course.steps_within,
    Course.steps_within]
  rfl

/-- A device that does not join is left without a label, and its address is not noted. -/
theorem provisional_commissionAt
    (htarget : resolveTarget env.discovery req.target = .ok (passcode, addr))
    (hnone : ∀ fabricIndex, ¬ env.Joins req passcode addr fabricIndex) {w : CommissionStep β}
    (hw : w ∈ (env.commissionAt req passcode addr).steps) : env.Provisional req w := by
  unfold commissionAt at hw
  rcases Course.mem_steps_bind.mp hw with hw | ⟨_, hissuer, hw⟩
  · cases hw
  rcases Course.mem_steps_bind.mp hw with hw | ⟨fabricIndex, hpase, hw⟩
  · rw [Course.steps_within, List.mem_singleton] at hw
    subst hw
    exact ⟨rfl, htarget⟩
  have hpase := Course.result_within_eq_ok.mp hpase
  rcases Course.mem_steps_bind.mp hw with hw | ⟨_, hcomplete, -⟩
  · rw [Course.steps_within, List.mem_singleton] at hw
    subst hw
    exact ⟨passcode, htarget, hpase⟩
  · have hcomplete := Course.result_within_eq_ok.mp hcomplete
    exact absurd ⟨htarget, hissuer, hpase, hcomplete⟩ (hnone fabricIndex)

theorem kind_commissionAt {e : StackError}
    (h : (env.commissionAt req passcode addr).result = .error e) : e.kind ≠ .invalidArguments := by
  unfold commissionAt at h
  rcases Course.result_bind_eq_error.mp h with h | ⟨_, -, h⟩
  · exact issuer_kind h
  rcases Course.result_bind_eq_error.mp h with h | ⟨_, -, h⟩
  · rcases Course.result_within_eq_error h with rfl | ⟨cause, rfl⟩
    · exact fun hkind => by cases hkind
    · exact mapErr_kind cause
  rcases Course.result_bind_eq_error.mp h with h | ⟨_, -, h⟩
  · rcases Course.result_within_eq_error h with rfl | ⟨cause, rfl⟩
    · exact fun hkind => by cases hkind
    · exact mapErr_kind cause
  -- what follows does not fail
  cases h

theorem spent_commissionAt_le :
    (env.commissionAt req passcode addr).spent ≤
      env.seconds 60 + (env.seconds 60 + env.seconds 30) := by
  have hbound : (env.commissionAt req passcode addr).spent ≤
      0 + (env.seconds 60 + (env.seconds 60 + (env.seconds 30 + 0))) :=
    Course.spent_bind_le (Nat.le_refl 0) fun _ =>
      Course.spent_bind_le Course.spent_within_le fun _ =>
        Course.spent_bind_le Course.spent_within_le fun _ =>
          Course.spent_bind_le (Nat.min_le_right _ _) fun _ => Nat.le_refl 0
  omega

theorem result_commission {outcome : CommissionOutcome} :
    (env.commission req).result = .ok outcome ↔ ∃ passcode addr fabricIndex,
      env.Joins req passcode addr fabricIndex ∧
        outcome = ⟨fabricIndex, addrToString env.display addr⟩ := by
  rw [commission, Course.result_bind_eq_ok]
  simp only [result_resolve]
  constructor
  · rintro ⟨⟨passcode, addr⟩, htarget, hresult⟩
    obtain ⟨fabricIndex, hjoins⟩ := (result_commissionAt htarget).mp hresult
    exact ⟨passcode, addr, fabricIndex, hjoins⟩
  · rintro ⟨passcode, addr, fabricIndex, hjoins, houtcome⟩
    exact ⟨(passcode, addr), hjoins.target,
      (result_commissionAt hjoins.target).mpr ⟨fabricIndex, hjoins, houtcome⟩⟩

theorem steps_commission (h : env.Joins req passcode addr fabricIndex) :
    (env.commission req).steps = (env.resolve req.target).steps ++
      [.pase addr passcode req.nodeId, .completeViaCase addr fabricIndex,
        .pushFabricLabel req.nodeId (Im.pushFabricLabel env.devices req.nodeId req.fabricLabel),
        .noteAddress req.nodeId (ipOf (addrToString env.display addr))] := by
  have htarget := (result_resolve env req.target).trans h.target
  rw [commission, Course.steps_bind_of_ok htarget, steps_commissionAt h]

theorem provisional_commission {e : StackError} (h : (env.commission req).result = .error e)
    {w : CommissionStep β} (hw : w ∈ (env.commission req).steps) : env.Provisional req w := by
  rcases Course.mem_steps_bind.mp hw with hw | ⟨⟨passcode, addr⟩, htarget, hw⟩
  · obtain ⟨filter, rfl⟩ := steps_resolve hw
    trivial
  · rw [result_resolve] at htarget
    refine provisional_commissionAt htarget ?_ hw
    intro fabricIndex hjoins
    have hresult := result_commission.mpr ⟨passcode, addr, fabricIndex, hjoins, rfl⟩
    rw [h] at hresult
    cases hresult

theorem kind_commission {e : StackError} (h : (env.commission req).result = .error e) :
    e.kind = .invalidArguments ↔ env.Malformed req.target := by
  rw [← invalidArguments_resolve, ← result_resolve]
  rcases Course.result_bind_eq_error.mp h with hresolve | ⟨target, htarget, hresult⟩
  · constructor
    · intro hkind
      exact ⟨e, hresolve, hkind⟩
    · rintro ⟨e', he', hkind⟩
      rw [hresolve] at he'
      cases he'
      exact hkind
  · refine iff_of_false (kind_commissionAt hresult) ?_
    rintro ⟨e', he', -⟩
    rw [htarget] at he'
    cases he'

/-- Nothing is done about a malformed target. -/
theorem malformed_commission (h : env.Malformed req.target) :
    (env.commission req).steps = [] ∧ (env.commission req).spent = 0 ∧
      ∃ e, (env.commission req).result = .error e := by
  obtain ⟨e, hresolve, -⟩ := invalidArguments_resolve.mpr h
  obtain ⟨hsteps, hspent⟩ := malformed_resolve h
  rw [commission, Course.bind_of_error ((result_resolve env req.target).trans hresolve)]
  exact ⟨hsteps, hspent, e, rfl⟩

/-- A commissioning succeeds just if the device goes through both phases in time, and only then is
the device given our label and its address noted. It is refused for its arguments just if the target
is malformed, and then nothing is done. It is over within three minutes. -/
theorem commission_settles (hfair : ∀ filter, (env.browse filter).Fair env.rate)
    (req : CommissionRequest) :
    (∀ outcome, (env.commission req).result = .ok outcome ↔ ∃ passcode addr fabricIndex,
      env.Joins req passcode addr fabricIndex ∧
        outcome = ⟨fabricIndex, addrToString env.display addr⟩) ∧
    (∀ passcode addr fabricIndex, env.Joins req passcode addr fabricIndex →
      (env.commission req).steps = (env.resolve req.target).steps ++
        [.pase addr passcode req.nodeId, .completeViaCase addr fabricIndex,
          .pushFabricLabel req.nodeId (Im.pushFabricLabel env.devices req.nodeId req.fabricLabel),
          .noteAddress req.nodeId (ipOf (addrToString env.display addr))]) ∧
    (∀ e, (env.commission req).result = .error e →
      (∀ w ∈ (env.commission req).steps, env.Provisional req w) ∧
      (e.kind = .invalidArguments ↔ env.Malformed req.target)) ∧
    (env.Malformed req.target →
      (env.commission req).steps = [] ∧ (env.commission req).spent = 0) ∧
    (env.commission req).spent ≤ env.seconds 180 := by
  refine ⟨fun outcome => result_commission, fun _ _ _ => steps_commission, ?_, ?_, ?_⟩
  · intro e herror
    exact ⟨fun w => provisional_commission herror, kind_commission herror⟩
  · intro hmalformed
    obtain ⟨hsteps, hspent, -⟩ := malformed_commission hmalformed
    exact ⟨hsteps, hspent⟩
  · have hspent : (env.commission req).spent ≤
        env.seconds 30 + (env.seconds 60 + (env.seconds 60 + env.seconds 30)) :=
      Course.spent_bind_le (spent_resolve_le hfair req.target) fun _ => spent_commissionAt_le
    have hsum : env.seconds 30 + (env.seconds 60 + (env.seconds 60 + env.seconds 30)) =
        env.seconds 180 := by
      simp only [seconds, fromMillis]
      omega
    exact hspent.trans (Nat.le_of_eq hsum)

end

end CommissionEnv

end

def labelCommand : Im.ClusterMeta :=
  ⟨"OperationalCredentials", [⟨9, "UpdateFabricLabel", some "NOCResponse", false⟩],
    ⟨62, [], [⟨"UpdateFabricLabelRequest", [⟨0, "label", "char_string", false⟩]⟩]⟩⟩

/-- A device that joins, but then leaves the label unanswered. -/
def shyLamp : CommissionEnv UInt8 Empty where
  rate := microseconds
  display := Empty.elim
  parseQr _ := .error "InvalidData"
  parsePairingCode _ := .error "InvalidData"
  turn _ := ⟨0, none, 1000⟩
  rcacFabricId := some 1
  fabricId := 1
  canonSecretKey := .ok ()
  nocGenerator _ := .ok ()
  pase _ _ _ := ⟨2000000, .ok 1⟩
  completeViaCase _ _ := ⟨60000000, .ok ()⟩
  devices := {
    im := Im.numericCodes
    refusal _ := ⟨.other, "InvalidData"⟩
    cluster code := if code = Im.opCreds then some labelCommand else none
    input _ _ := some "UpdateFabricLabelRequest"
    unwritten _ := ⟨.other, "InvalidData"⟩
    bytes _ := .ok [0x15, 0x2c, 0x00, 0x04, 0x48, 0x6f, 0x6d, 0x65, 0x18]
    exchange _ := ⟨true, none⟩ }
  labelDue := 40000000

def lampTarget : PaseTarget := .address 20202021 "192.168.1.50:5540"

theorem joins_shyLamp (nodeId : NodeId) (label : String) :
    shyLamp.Joins ⟨nodeId, lampTarget, label⟩ 20202021 lateAddress 1 := by
  have hpase : 2000000 ≤ fromMillis microseconds 60000 := by decide
  have hcomplete : 60000000 ≤ fromMillis microseconds 60000 := by decide
  refine ⟨?_, rfl, ⟨hpase, rfl⟩, ⟨hcomplete, rfl⟩⟩
  have hparse : Inet.SocketAddr.parse "192.168.1.50:5540" =
      some (.v4 ⟨192, 168, 1, 50⟩ 5540) := by decide
  have haddr : parseSocketAddr (β := Empty) "192.168.1.50:5540" = .ok lateAddress := by
    rw [parseSocketAddr, hparse]
    rfl
  show (parseSocketAddr "192.168.1.50:5540" >>= _) = _
  rw [haddr]
  rfl

/-- The answer that comes at the end of the time is still one. -/
theorem commission_settles_shyLamp :
    (shyLamp.commission ⟨7, lampTarget, "Home"⟩).result = .ok ⟨1, "192.168.1.50:5540"⟩ ∧
      (shyLamp.commission ⟨7, lampTarget, "Home"⟩).spent ≤ 180000000 := by
  have htook : 1000 ≤ fromMillis microseconds (budgetMs microseconds 30000000) := by decide
  have hfair : ∀ filter, (shyLamp.browse filter).Fair shyLamp.rate :=
    fun _ => ⟨htook, fun _ _ => List.not_mem_nil⟩
  obtain ⟨hok, -, -, -, hspent⟩ := CommissionEnv.commission_settles hfair ⟨7, lampTarget, "Home"⟩
  have houtcome : (⟨1, "192.168.1.50:5540"⟩ : CommissionOutcome) =
      ⟨1, addrToString Empty.elim lateAddress⟩ := rfl
  exact ⟨(hok _).mpr ⟨_, _, _, joins_shyLamp 7 "Home", houtcome⟩, hspent⟩

end MatterRsServer.Stack
