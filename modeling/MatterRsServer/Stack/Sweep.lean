import MatterRsServer.Lib.Deadline
import MatterRsServer.Lib.Hex
import MatterRsServer.Stack.Addresses
import MatterRsServer.Stack.Responses

/-!
# A sweep on a budget

`browse` of `crates/stack/src/ops/discovery.rs`: the network is enumerated by browsing for one
device at a time, each browse bounded by what is left of one deadline. What a browse answers,
how long it takes and how much time passes before it are parameters.
-/
namespace MatterRsServer.Stack
open Lib Controller

/-- A clock of whole ticks for each millisecond, few enough that a `u32` of milliseconds fits the
`u64` of ticks. -/
structure TickRate where
  perMs : Nat
  pos : 0 < perMs
  fits : perMs < 2 ^ 32

namespace Browsing

/-- `Duration::from_millis`. -/
def fromMillis (rate : TickRate) (ms : Nat) : Nat := ms * rate.perMs

/-- `Duration::as_millis`. -/
def asMillis (rate : TickRate) (ticks : Nat) : Nat := ticks / rate.perMs

def deadlineAfter (now total : Nat) : Nat := if now + total < 2 ^ 64 then now + total else 2 ^ 64 - 1

/-- `saturating_duration_since`. -/
def remainingBudget (deadline now : Nat) : Nat := deadline - now

def slotMarginMs : Nat := 100

def innerBudgetMs (ms : Nat) : Nat := max (ms - slotMarginMs) (ms / 2)

def budgetMs (rate : TickRate) (budget : Nat) : Nat :=
  max (if asMillis rate budget < 2 ^ 32 then asMillis rate budget else 2 ^ 32 - 1) 1

/-- The longest duration of a `u32` of milliseconds is in range. -/
theorem fromMillis_lt (rate : TickRate) {ms : Nat} (h : ms < 2 ^ 32) : fromMillis rate ms < 2 ^ 64 := by
  have hmul := Nat.mul_lt_mul_of_lt_of_lt h rate.fits
  unfold fromMillis
  omega

theorem innerBudgetMs_lt {ms : Nat} (h : 0 < ms) : innerBudgetMs ms < ms := by
  unfold innerBudgetMs slotMarginMs
  omega

theorem budgetMs_pos (rate : TickRate) (budget : Nat) : 0 < budgetMs rate budget := by
  unfold budgetMs
  omega

theorem budgetMs_lt (rate : TickRate) (budget : Nat) : budgetMs rate budget < 2 ^ 32 := by
  unfold budgetMs
  split <;> omega

/-- In ticks, a budget is rounded down, or up to one millisecond. -/
theorem fromMillis_budgetMs_le (rate : TickRate) (budget : Nat) :
    fromMillis rate (budgetMs rate budget) ≤ max budget rate.perMs := by
  have hle : (if asMillis rate budget < 2 ^ 32 then asMillis rate budget else 2 ^ 32 - 1) ≤
      asMillis rate budget := by
    split <;> omega
  have hdown : asMillis rate budget * rate.perMs ≤ budget := Nat.div_mul_le_self _ _
  unfold fromMillis budgetMs
  rw [← Nat.mul_max_mul_right, Nat.one_mul]
  have hmul := Nat.mul_le_mul_right rate.perMs hle
  omega

theorem deadlineAfter_le (now total : Nat) : deadlineAfter now total - now ≤ total := by
  unfold deadlineAfter
  split <;> omega

section
variable {β : Type}

/-- What a browse answers, `none` when the outer timer fires first, the time it takes, and the
time that passes before the loop reads the clock for it. -/
structure Turn (β : Type) where
  idle : Nat
  arrived : Option (Except Im.Error (Address β × UInt64))
  took : Nat

/-- `browse_one` and what it came to. -/
structure BrowseCall (β : Type) where
  exclude : List UInt64
  outerMs : Nat
  innerMs : Nat
  result : Except StackError (Address β × UInt64)
  took : Nat

def browseOne (rate : TickRate) (exclude : List UInt64) (budget : Nat) (turn : Turn β) :
    BrowseCall β :=
  let ms := budgetMs rate budget
  { exclude := exclude
    outerMs := ms
    innerMs := innerBudgetMs ms
    result := match turn.arrived with
      | some r => r.mapError Im.mapErr
      | none => .error ⟨.timeout, s!"mDNS browse timed out after {ms}ms without getting a turn " ++
          "(another discovery or commissioning was holding the browse slot)"⟩
    took := turn.took }

structure DiscoveredDevice where
  instanceName : String
  address : String
deriving DecidableEq

structure Sweep where
  out : List DiscoveredDevice
  exclude : List UInt64

def maxSweep : Nat := 6

/-- `{:016X}` of the instance. -/
def instanceName (inst : UInt64) : String := .ofList (Hex.upper 16 inst.toNat)

namespace Sweep

def empty : Sweep := ⟨[], []⟩

def push (s : Sweep) (address : String) (inst : UInt64) : Sweep where
  out := s.out ++ [⟨instanceName inst, address⟩]
  exclude := s.exclude ++ [inst]

def isFull (s : Sweep) : Bool := maxSweep ≤ s.exclude.length

theorem isFull_eq_false {s : Sweep} : s.isFull = false ↔ s.exclude.length < maxSweep := by
  rw [isFull, decide_eq_false_iff_not, Nat.not_le]

@[simp] theorem length_push (s : Sweep) (address : String) (inst : UInt64) :
    (s.push address inst).exclude.length = s.exclude.length + 1 := by
  rw [push, List.length_append, List.length_singleton]

end Sweep

/-- The loop, with the calls that it makes. -/
def browseLoop (rate : TickRate) (display : β → String) (turns : Nat → Turn β) (deadline now : Nat)
    (sweep : Sweep) : List (BrowseCall β) × Sweep :=
  if sweep.isFull then ([], sweep)
  else
    let turn := turns sweep.exclude.length
    let start := now + turn.idle
    let remaining := remainingBudget deadline start
    if remaining = 0 then ([], sweep)
    else
      let call := browseOne rate sweep.exclude remaining turn
      match call.result with
      | .ok (addr, inst) =>
        let (calls, last) := browseLoop rate display turns deadline (start + turn.took)
          (sweep.push (addrToString display addr) inst)
        (call :: calls, last)
      | .error _ => ([call], sweep)
termination_by maxSweep - sweep.exclude.length
decreasing_by
  have hroom := Sweep.isFull_eq_false.mp (Bool.not_eq_true _ ▸ ‹¬ sweep.isFull = true›)
  rw [Sweep.length_push]
  omega

/-- `browse`, with the calls that it makes. -/
def browse (rate : TickRate) (display : β → String) (turns : Nat → Turn β) (now : Nat)
    (timeoutMs : UInt32) : List (BrowseCall β) × List DiscoveredDevice :=
  let deadline := deadlineAfter now (fromMillis rate timeoutMs.toNat)
  let (calls, sweep) := browseLoop rate display turns deadline now .empty
  (calls, sweep.out)

/-! ### What a sweep does -/

/-- A run of the loop from a time and what was found before it: it stops, or it calls
`browse_one` before the deadline and with room for one more. -/
inductive Browses (rate : TickRate) (display : β → String) (deadline : Nat) :
    Nat → Sweep → List (BrowseCall β) → Sweep → Prop
  | stop {now : Nat} {sweep : Sweep} : Browses rate display deadline now sweep [] sweep
  | failed {now start : Nat} {sweep : Sweep} {turn : Turn β} {e : StackError} :
      sweep.isFull = false → now ≤ start → start < deadline →
      (browseOne rate sweep.exclude (deadline - start) turn).result = .error e →
      Browses rate display deadline now sweep
        [browseOne rate sweep.exclude (deadline - start) turn] sweep
  | found {now start : Nat} {sweep last : Sweep} {turn : Turn β} {addr : Address β} {inst : UInt64}
      {calls : List (BrowseCall β)} : sweep.isFull = false → now ≤ start → start < deadline →
      (browseOne rate sweep.exclude (deadline - start) turn).result = .ok (addr, inst) →
      Browses rate display deadline (start + turn.took)
        (sweep.push (addrToString display addr) inst) calls last →
      Browses rate display deadline now sweep
        (browseOne rate sweep.exclude (deadline - start) turn :: calls) last

theorem browseLoop_browses (rate : TickRate) (display : β → String) (turns : Nat → Turn β)
    (deadline now : Nat) (sweep : Sweep) : Browses rate display deadline now sweep
      (browseLoop rate display turns deadline now sweep).1
      (browseLoop rate display turns deadline now sweep).2 := by
  fun_induction browseLoop with
  | case1 | case2 => exact .stop
  | case3 now sweep hfull turn start remaining hrem call addr inst hcall calls last hrest ih =>
    rw [hrest] at ih
    unfold remaining remainingBudget at hrem
    exact .found (by simpa using hfull) (Nat.le_add_right _ _) (by omega) hcall ih
  | case4 now sweep hfull turn start remaining hrem call e hcall =>
    unfold remaining remainingBudget at hrem
    exact .failed (by simpa using hfull) (Nat.le_add_right _ _) (by omega) hcall

namespace BrowseCall

/-- The instance that a call found. -/
def found (c : BrowseCall β) : Option UInt64 := c.result.toOption.map Prod.snd

def device (display : β → String) (c : BrowseCall β) : Option DiscoveredDevice :=
  c.result.toOption.map fun r => ⟨instanceName r.2, addrToString display r.1⟩

/-- The call kept to the budget it was given and to what it was to leave out. -/
structure Fair (rate : TickRate) (c : BrowseCall β) : Prop where
  took_le : c.took ≤ fromMillis rate c.outerMs
  fresh : ∀ inst, c.found = some inst → inst ∉ c.exclude

theorem found_of_ok {c : BrowseCall β} {addr : Address β} {inst : UInt64}
    (h : c.result = .ok (addr, inst)) : c.found = some inst := by
  rw [found, h]
  rfl

theorem device_of_ok {c : BrowseCall β} {addr : Address β} {inst : UInt64} {display : β → String}
    (h : c.result = .ok (addr, inst)) :
    c.device display = some ⟨instanceName inst, addrToString display addr⟩ := by
  rw [device, h]
  rfl

theorem found_of_error {c : BrowseCall β} {e : StackError} (h : c.result = .error e) :
    c.found = none := by
  rw [found, h]
  rfl

theorem device_of_error {c : BrowseCall β} {e : StackError} {display : β → String}
    (h : c.result = .error e) : c.device display = none := by
  rw [device, h]
  rfl

end BrowseCall

namespace Browses
variable {rate : TickRate} {display : β → String} {deadline now : Nat} {sweep last : Sweep}
  {calls : List (BrowseCall β)}

/-- No call is made without room for what it finds. -/
theorem length_le (h : Browses rate display deadline now sweep calls last)
    (hroom : sweep.exclude.length ≤ maxSweep) :
    calls.length + sweep.exclude.length ≤ maxSweep := by
  induction h with
  | stop => rwa [List.length_nil, Nat.zero_add]
  | failed hfull _ _ _ =>
    have hlt := Sweep.isFull_eq_false.mp hfull
    rw [List.length_singleton]
    omega
  | found hfull _ _ _ _ ih =>
    have hlt := Sweep.isFull_eq_false.mp hfull
    rw [Sweep.length_push] at ih
    have hrest := ih hlt
    rw [List.length_cons]
    omega

/-- A call leaves out what was found before it, which is fewer than the cap. -/
theorem exclude_eq (h : Browses rate display deadline now sweep calls last)
    {before after : List (BrowseCall β)} {c : BrowseCall β} (hc : calls = before ++ c :: after) :
    c.exclude = sweep.exclude ++ before.filterMap BrowseCall.found ∧
      c.exclude.length < maxSweep := by
  induction h generalizing before with
  | stop => exact absurd hc.symm (by simp)
  | failed hfull _ _ _ =>
    cases before with
    | nil =>
      obtain ⟨rfl, -⟩ := List.cons.inj hc
      exact ⟨(List.append_nil _).symm, Sweep.isFull_eq_false.mp hfull⟩
    | cons b before => exact absurd (List.cons.inj hc).2.symm (by simp)
  | found hfull _ _ hresult _ ih =>
    cases before with
    | nil =>
      obtain ⟨rfl, -⟩ := List.cons.inj hc
      exact ⟨(List.append_nil _).symm, Sweep.isFull_eq_false.mp hfull⟩
    | cons b before =>
      obtain ⟨rfl, hrest⟩ := List.cons.inj hc
      obtain ⟨heq, hlt⟩ := ih hrest
      refine ⟨?_, hlt⟩
      rw [heq, List.filterMap_cons_some (BrowseCall.found_of_ok hresult), Sweep.push,
        List.append_assoc]
      rfl

theorem innerMs_lt (h : Browses rate display deadline now sweep calls last) :
    ∀ c ∈ calls, c.innerMs < c.outerMs := by
  induction h with
  | stop => simp
  | failed => exact List.forall_mem_singleton.mpr (innerBudgetMs_lt (budgetMs_pos _ _))
  | found _ _ _ _ _ ih =>
    exact List.forall_mem_cons.mpr ⟨innerBudgetMs_lt (budgetMs_pos _ _), ih⟩

/-- The calls share the deadline, to within one millisecond. -/
theorem spends (h : Browses rate display deadline now sweep calls last)
    (hfair : ∀ c ∈ calls, c.Fair rate) :
    Spends rate.perMs deadline now (calls.map BrowseCall.took) := by
  induction h with
  | stop => exact .nil
  | failed _ hle hlt _ =>
    have htook := (hfair _ List.mem_cons_self).took_le
    exact .cons hle hlt (htook.trans (fromMillis_budgetMs_le _ _)) .nil
  | found _ hle hlt _ _ ih =>
    obtain ⟨hfirst, hrest⟩ := List.forall_mem_cons.mp hfair
    exact .cons hle hlt (hfirst.took_le.trans (fromMillis_budgetMs_le _ _)) (ih hrest)

/-- What was found stays, also when a later call fails. -/
theorem out_eq (h : Browses rate display deadline now sweep calls last) :
    last.out = sweep.out ++ calls.filterMap (BrowseCall.device display) := by
  induction h with
  | stop => exact (List.append_nil _).symm
  | failed _ _ _ hresult =>
    rw [List.filterMap_cons_none (BrowseCall.device_of_error hresult), List.filterMap_nil,
      List.append_nil]
  | found _ _ _ hresult _ ih =>
    rw [ih, List.filterMap_cons_some (BrowseCall.device_of_ok hresult), Sweep.push,
      List.append_assoc]
    rfl

theorem nodup (h : Browses rate display deadline now sweep calls last)
    (hfair : ∀ c ∈ calls, c.Fair rate) (hnd : sweep.exclude.Nodup) :
    (sweep.exclude ++ calls.filterMap BrowseCall.found).Nodup := by
  induction h with
  | stop => rwa [List.filterMap_nil, List.append_nil]
  | failed _ _ _ hresult =>
    rwa [List.filterMap_cons_none (BrowseCall.found_of_error hresult), List.filterMap_nil,
      List.append_nil]
  | found _ _ _ hresult _ ih =>
    obtain ⟨hfirst, hrest⟩ := List.forall_mem_cons.mp hfair
    have hfound := BrowseCall.found_of_ok hresult
    have hnew := ih hrest (List.nodup_append_comm.mp
      (List.nodup_cons.mpr ⟨hfirst.fresh _ hfound, hnd⟩))
    rw [List.filterMap_cons_some hfound]
    rwa [Sweep.push, List.append_assoc] at hnew

end Browses

theorem instanceName_injective : Function.Injective instanceName := by
  intro a b h
  have hlt : ∀ i : UInt64, i.toNat < 16 ^ 16 := fun i => i.toNat_lt
  exact UInt64.toNat_inj.mp (Hex.upper_injective (hlt a) (hlt b) (String.ofList_injective h))

theorem map_instanceName (display : β → String) (calls : List (BrowseCall β)) :
    (calls.filterMap (BrowseCall.device display)).map DiscoveredDevice.instanceName =
      (calls.filterMap BrowseCall.found).map instanceName := by
  rw [List.map_filterMap, List.map_filterMap]
  congr 1
  funext c
  rw [BrowseCall.device, BrowseCall.found, Option.map_map, Option.map_map]
  rfl

/-- A sweep for `timeoutMs` that made these calls and returned these devices. -/
structure SweptWithin (rate : TickRate) (display : β → String) (timeoutMs : UInt32)
    (calls : List (BrowseCall β)) (devices : List DiscoveredDevice) : Prop where
  calls_le : calls.length ≤ 6
  exclude_eq : ∀ before c after, calls = before ++ c :: after →
    c.exclude = before.filterMap BrowseCall.found ∧ c.exclude.length ≤ 5
  inner_lt : ∀ c ∈ calls, c.innerMs < c.outerMs
  time_lt : (calls.map BrowseCall.took).sum < fromMillis rate timeoutMs.toNat + fromMillis rate 1
  devices_eq : devices = calls.filterMap (BrowseCall.device display)
  distinct : (devices.map DiscoveredDevice.instanceName).Nodup

/-- Whatever the calls find and however long they take within their budgets, the sweep keeps to
its own. -/
theorem browse_sweptWithin (rate : TickRate) (display : β → String) (turns : Nat → Turn β)
    (now : Nat) (timeoutMs : UInt32)
    (h : ∀ c ∈ (browse rate display turns now timeoutMs).1, c.Fair rate) :
    SweptWithin rate display timeoutMs (browse rate display turns now timeoutMs).1
      (browse rate display turns now timeoutMs).2 := by
  have hrun := browseLoop_browses rate display turns
    (deadlineAfter now (fromMillis rate timeoutMs.toNat)) now .empty
  have hdevices : (browse rate display turns now timeoutMs).2 =
      (browse rate display turns now timeoutMs).1.filterMap (BrowseCall.device display) :=
    hrun.out_eq
  exact {
    calls_le := hrun.length_le (Nat.zero_le _)
    exclude_eq := fun before c after hc => by
      obtain ⟨heq, hlt⟩ := hrun.exclude_eq hc
      exact ⟨heq, Nat.le_of_lt_succ hlt⟩
    inner_lt := hrun.innerMs_lt
    time_lt := by
      have hsum := (hrun.spends h).sum_lt rate.pos
      have hle := deadlineAfter_le now (fromMillis rate timeoutMs.toNat)
      have hgrain : fromMillis rate 1 = rate.perMs := Nat.one_mul _
      rw [hgrain]
      exact lt_of_lt_of_le hsum (Nat.add_le_add_right hle _)
    devices_eq := hdevices
    distinct := by
      rw [hdevices, map_instanceName]
      exact (hrun.nodup h List.nodup_nil).map instanceName_injective }

/-- Ticks of a microsecond. -/
def microseconds : TickRate := ⟨1000, by decide, by decide⟩

def lateAddress : Address Empty := .udp (.v4 ⟨192, 168, 1, 50⟩ 5540)

/-- A network on which one device answers a tick after the second millisecond, and no other. -/
def lateDevice : Nat → Turn Empty
  | 0 => ⟨0, some (.ok (lateAddress, 0xabcd)), 2001⟩
  | _ => ⟨0, none, 1000⟩

/-- The device is found, and the rest of the time is spent on a browse that finds nobody. -/
theorem browseLoop_lateDevice {deadline : Nat} (h : 2001 < deadline) :
    browseLoop microseconds Empty.elim lateDevice deadline 0 .empty =
      ([browseOne microseconds [] deadline (lateDevice 0),
        browseOne microseconds [0xabcd] (deadline - 2001) (lateDevice 1)],
       Sweep.empty.push (addrToString Empty.elim lateAddress) 0xabcd) := by
  let found := Sweep.empty.push (addrToString Empty.elim lateAddress) 0xabcd
  have hlast : browseLoop microseconds Empty.elim lateDevice deadline 2001 found =
      ([browseOne microseconds [0xabcd] (deadline - 2001) (lateDevice 1)], found) := by
    have hrest : remainingBudget deadline 2001 ≠ 0 := by
      unfold remainingBudget
      omega
    rw [browseLoop, if_neg (by decide)]
    exact if_neg hrest
  have hwhole : remainingBudget deadline 0 ≠ 0 := by
    unfold remainingBudget
    omega
  rw [browseLoop, if_neg (by decide)]
  refine (if_neg hwhole).trans ?_
  change (_ :: (browseLoop microseconds Empty.elim lateDevice deadline 2001 found).1,
    (browseLoop microseconds Empty.elim lateDevice deadline 2001 found).2) = _
  rw [hlast]
  rfl

/-- The second browse of the sweep is a tick short of its millisecond. -/
theorem browse_lateDevice (timeoutMs : UInt32) (h : 3 ≤ timeoutMs.toNat) :
    browse microseconds Empty.elim lateDevice 0 timeoutMs =
      ([browseOne microseconds [] (timeoutMs.toNat * 1000) (lateDevice 0),
        browseOne microseconds [0xabcd] (timeoutMs.toNat * 1000 - 2001) (lateDevice 1)],
       [⟨instanceName 0xabcd, addrToString Empty.elim lateAddress⟩]) := by
  have hdeadline : deadlineAfter 0 (fromMillis microseconds timeoutMs.toNat) =
      timeoutMs.toNat * 1000 := by
    have hlt := timeoutMs.toNat_lt
    have hfits : 0 + timeoutMs.toNat * 1000 < 2 ^ 64 := by omega
    exact (if_pos hfits).trans (Nat.zero_add _)
  have hlate : 2001 < timeoutMs.toNat * 1000 := by omega
  rw [browse, hdeadline, browseLoop_lateDevice hlate]
  rfl

theorem browse_sweptWithin_lateDevice :
    SweptWithin microseconds Empty.elim 3 (browse microseconds Empty.elim lateDevice 0 3).1
        (browse microseconds Empty.elim lateDevice 0 3).2 ∧
      ((browse microseconds Empty.elim lateDevice 0 3).1.map BrowseCall.took).sum = 3001 := by
  refine ⟨browse_sweptWithin microseconds Empty.elim lateDevice 0 3 ?_, ?_⟩
  · rw [browse_lateDevice 3 (by decide)]
    refine List.forall_mem_cons.mpr ⟨⟨by decide, ?_⟩, List.forall_mem_singleton.mpr ⟨by decide, ?_⟩⟩
    · intro inst _
      exact List.not_mem_nil
    · intro inst hfound
      cases hfound
  · rw [browse_lateDevice 3 (by decide)]
    rfl

end

end Browsing

end MatterRsServer.Stack
