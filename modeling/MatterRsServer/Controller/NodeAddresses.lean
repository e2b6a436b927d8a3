import MatterRsServer.Controller.DeviceCommands
import MatterRsServer.Lib.FirstSeen

/-!
# The addresses of a node

`merged_addresses`, `get_node_ip_addresses` and `ping_node` of `commands/nodes.rs`: what the stack
knows of a node's addresses comes first, then what its record says.
-/
namespace MatterRsServer.Controller
open Lib Wire

/-- `MAX_PING_ATTEMPTS`. -/
def maxPingAttempts : Nat := 10

/-- `ping_attempts`. -/
def pingAttempts (display : Json → String) (args : Args) : Except CommandError Nat := do
  let attempts ← optU64Strict display args "attempts"
  return min (max (attempts.getD 1) 1) maxPingAttempts

/-- `a.split('%').next()`: the address without its zone. -/
def bareAddress (a : String) : String := .ofList (a.toList.takeWhile (· ≠ '%'))

/-- An address as `get_node_ip_addresses` shows it: with its zone when it is asked for `scoped`. -/
def shownAddress (args : Args) (a : String) : String :=
  if (optBool args "scoped").getD false then a else bareAddress a

/-- What the two sources say, the stack first. -/
def knownAddresses (live : Except StackError (List String)) (record : Option NodeRecord) : List String :=
  live.toOption.getD [] ++ (record.map (·.addresses)).getD []

/-- `merged_addresses`. -/
def mergedAddresses (live : Except StackError (List String)) (record : Option NodeRecord) :
    List String := firstSeen [] (knownAddresses live record)

/-- The arguments of `ping`: `-6`, the attempts and the address. -/
structure PingCall where
  v6 : Bool
  attempts : Nat
  address : String
deriving DecidableEq

/-- `ping_one`, on Linux. -/
def pingOne (address : String) (attempts : Nat) : PingCall :=
  let bare := bareAddress address
  ⟨bare.toList.contains ':', attempts, bare⟩

section
variable (known : NodeId → Bool) (nodeAddresses : NodeId → Except StackError (List String))
  (record : NodeId → Option NodeRecord)

/-- `get_node_ip_addresses`. -/
def getNodeIpAddresses (args : Args) : Except CommandError (List String) := do
  let nodeId ← nodeArg known args
  let addrs := (mergedAddresses (nodeAddresses nodeId) (record nodeId)).map (shownAddress args)
  return firstSeen [] addrs

/-- `ping_node`: `ping` says whether the command succeeds. -/
def pingNode (display : Json → String) (ping : PingCall → Bool) (args : Args) :
    Except CommandError (OrdMap String Json) := do
  let nodeId ← nodeArg known args
  let attempts ← pingAttempts display args
  let addrs := mergedAddresses (nodeAddresses nodeId) (record nodeId)
  return addrs.foldl (fun results a => results.insert a (.bool (ping (pingOne a attempts)))) ∅

end

theorem get?_foldl_ping (verdict : String → Json) (addrs : List String) (results : OrdMap String Json)
    (a : String) : (addrs.foldl (fun results a => results.insert a (verdict a)) results).get? a =
      if a ∈ addrs then some (verdict a) else results.get? a := by
  induction addrs generalizing results with
  | nil => rfl
  | cons b addrs ih =>
    rw [List.foldl_cons, ih, OrdMap.get?_insert]
    by_cases ha : a ∈ addrs
    · simp [ha]
    · by_cases hab : a = b
      · subst hab
        simp
      · simp [ha, hab]

theorem pingAttempts_eq_ok {display : Json → String} {args : Args} {n : Nat}
    (h : pingAttempts display args = .ok n) : 1 ≤ n ∧ n ≤ maxPingAttempts := by
  obtain ⟨attempts, -, hn⟩ := Result.bind_eq_ok h
  cases hn
  simp only [maxPingAttempts]
  omega

/-- `get_node_ip_addresses` lists what the stack and the record know, each address once and in the
order in which they come first; without `scoped` the zones are dropped, and addresses that differ in
their zones only are one. `ping_node` pings each of them once, without its zone and with one to ten
attempts, and answers one verdict for each. -/
theorem addresses_listed {known : NodeId → Bool} {record : NodeId → Option NodeRecord}
    {nodeAddresses : NodeId → Except StackError (List String)} {args : Args} {nodeId : NodeId}
    (hnode : nodeArg known args = .ok nodeId) :
    let all := (knownAddresses (nodeAddresses nodeId) (record nodeId)).map (shownAddress args)
    (∃ listed, getNodeIpAddresses known nodeAddresses record args = .ok listed ∧ listed.Nodup ∧
      (∀ a, a ∈ listed ↔ a ∈ all) ∧
      ∀ a ∈ listed, ∀ b ∈ listed, listed.idxOf a < listed.idxOf b ↔ all.idxOf a < all.idxOf b) ∧
    ∀ display ping results, pingNode known nodeAddresses record display ping args = .ok results →
      ∃ attempts, 1 ≤ attempts ∧ attempts ≤ maxPingAttempts ∧ ∀ a, results.get? a =
        if a ∈ knownAddresses (nodeAddresses nodeId) (record nodeId) then
          some (.bool (ping (pingOne a attempts)))
        else none := by
  dsimp only
  generalize hall : (knownAddresses (nodeAddresses nodeId) (record nodeId)).map (shownAddress args) = all
  constructor
  · have hlisted : getNodeIpAddresses known nodeAddresses record args = .ok (firstSeen [] all) := by
      have hmap := firstSeen_map_firstSeen (shownAddress args) (List.forall_mem_nil (shownAddress args · ∈ []))
        (knownAddresses (nodeAddresses nodeId) (record nodeId))
      rw [hall] at hmap
      rw [getNodeIpAddresses, hnode, ← hmap]
      rfl
    refine ⟨_, hlisted, nodup_firstSeen [] all, fun a => ?_, fun a ha b hb => ?_⟩
    · rw [mem_firstSeen]
      simp
    · exact idxOf_firstSeen_lt ha hb
  · intro display ping results h
    obtain ⟨n, hn, h⟩ := Result.bind_eq_ok h
    obtain rfl : nodeId = n := Except.ok.inj (hnode.symm.trans hn)
    obtain ⟨attempts, hattempts, h⟩ := Result.bind_eq_ok h
    obtain ⟨hone, hmax⟩ := pingAttempts_eq_ok hattempts
    refine ⟨attempts, hone, hmax, fun a => ?_⟩
    cases h
    rw [get?_foldl_ping fun a => .bool (ping (pingOne a attempts))]
    have hmem : a ∈ mergedAddresses (nodeAddresses nodeId) (record nodeId) ↔
        a ∈ knownAddresses (nodeAddresses nodeId) (record nodeId) := by
      rw [mergedAddresses, mem_firstSeen]
      simp
    simp only [hmem]
    rfl

/-- The same address in two zones, known to the stack and from the record. -/
theorem addresses_listed_zones : ∃ listed,
    getNodeIpAddresses (fun _ => true) (fun _ => .ok ["fe80::1%2", "10.0.0.7"])
      (fun _ => some { lamp with addresses := ["fe80::1%3"] })
      (.ofList [("node_id", .ofU64 7)]) = .ok listed ∧ listed.Nodup ∧ "fe80::1" ∈ listed := by
  obtain ⟨⟨listed, hlisted, hnodup, hmem, -⟩, -⟩ := @addresses_listed (fun _ => true)
    (fun _ => some { lamp with addresses := ["fe80::1%3"] }) (fun _ => .ok ["fe80::1%2", "10.0.0.7"])
    (.ofList [("node_id", .ofU64 7)]) 7 rfl
  refine ⟨listed, hlisted, hnodup, (hmem _).mpr ?_⟩
  decide

end MatterRsServer.Controller
