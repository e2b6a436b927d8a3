import MatterRsServer.Controller.Commissioning
import MatterRsServer.Stack.Commission

/-!
# A commissioning from the client to the device and back

`do_commission` of `commands/commissioning.rs` over `commission` of `ops/commission.rs`: a node is
registered when its device has joined, at the address where PASE has found it.
-/
namespace MatterRsServer.Server
open Lib Lib.Inet Controller Stack

variable {ι : Type} [DecidableEq ι] {σ β : Type} [DecidableEq σ]

/-- The stack answers the command by commissioning a device, as `handle_request` does. -/
def ServesCommission (env : CommissionEnv σ β) (a : CommissionAttempt)
    (deeds : List (Deed Memory Effect)) : Prop :=
  ∀ nodeId label, .stack (.commission ⟨nodeId, a.target, label⟩) ∈ Deed.outputs deeds →
    a.commission = (env.commission ⟨nodeId, a.target, label⟩).result

/-- The device has joined, and it is registered under the fabric index that it gave and at the
address where PASE has found it. -/
def JoinedAs (env : CommissionEnv σ β) (req : CommissionRequest) (s : Memory) : Prop :=
  ∃ passcode addr fabricIndex record, env.Joins req passcode addr fabricIndex ∧
    s.registry.get? req.nodeId = some ⟨record, false⟩ ∧ record.deviceFabricIndex = fabricIndex ∧
    ∀ sa, addr.IsSocket sa → record.addresses = [.ofList sa.hostText] ∧
      .noteAddress req.nodeId (.ofList sa.hostText) ∈ (env.commission req).steps

/-- A device that has not joined was given no label; from one that has, our fabric is removed. -/
def Withdrawn (env : CommissionEnv σ β) (req : CommissionRequest)
    (deeds : List (Deed Memory Effect)) : Prop :=
  (∀ w ∈ (env.commission req).steps, env.Provisional req w) ∨
    ∃ passcode addr fabricIndex, env.Joins req passcode addr fabricIndex ∧
      .stack (.removeDeviceFabric req.nodeId fabricIndex) ∈ Deed.outputs deeds

theorem code_commissionFailed {e : StackError} (h : e.kind = .invalidArguments) :
    (commissionFailed e).code = .invalidArguments := by
  simp only [commissionFailed, stackErr, h]

section
variable {env : CommissionEnv σ β} {a : CommissionAttempt} {req : CommissionRequest}
  {deeds : List (Deed Memory Effect)}

theorem withdrawn_of_leaves (hanswer : a.commission = (env.commission req).result)
    (hleaves : LeavesNoNode a req.nodeId deeds) {e : StackError}
    (hcause : a.commission = .error e ∨
      ∃ outcome, a.commission = .ok outcome ∧ a.interview = .error e) :
    Withdrawn env req deeds := by
  rcases hcause with ha | ⟨outcome, ha, hinterview⟩
  · have herror := hanswer.symm.trans ha
    exact .inl fun w hw => CommissionEnv.provisional_commission herror hw
  · obtain ⟨passcode, addr, fabricIndex, hjoins, rfl⟩ :=
      CommissionEnv.result_commission.mp (hanswer.symm.trans ha)
    have hremoved := (hleaves.cleanup req.nodeId fabricIndex).mpr
      ⟨rfl, _, e, ha, hinterview, rfl⟩
    exact .inr ⟨passcode, addr, fabricIndex, hjoins, hremoved⟩

theorem joinedAs_of_registers (hanswer : a.commission = (env.commission req).result)
    {value : Wire.Json} {s : Memory} (hregisters : Registers a req.nodeId value deeds s) :
    JoinedAs env req s := by
  obtain ⟨outcome, attributes, before, ha, -, hentry, haddresses, -⟩ := hregisters
  obtain ⟨passcode, addr, fabricIndex, hjoins, rfl⟩ :=
    CommissionEnv.result_commission.mp (hanswer.symm.trans ha)
  refine ⟨passcode, addr, fabricIndex, _, hjoins, hentry, rfl, ?_⟩
  intro sa hsa
  have hhost := (haddresses sa (addrToString_of_isSocket hsa env.display)).1
  have hip : ipOf (addrToString env.display addr) = .ofList sa.hostText :=
    congrArg Prod.fst (splitIpPort_addrToString env.display hsa).1
  refine ⟨hhost, ?_⟩
  rw [CommissionEnv.steps_commission hjoins, hip]
  simp

end

/-- Among any tasks of the process: if nobody else touches the node of the id that it takes, the
command registers the device that has joined, at the address where PASE has found it, or it leaves
no node and withdraws from the device. A malformed target is refused before anything is done. -/
theorem device_commissioned {c d c' : Config ι Memory Effect} {i : ι} {before sched : List ι}
    {fuel : Nat} {controllerNodeId : NodeId} {a : CommissionAttempt} {env : CommissionEnv σ β}
    (htask : c.task i = doCommission fuel controllerNodeId a) (hbefore : i ∉ before)
    (hstart : c.run before = some d) (hrun : d.run sched = some c') (hdone : c'.task i = .done)
    (hserves : ServesCommission env a (Config.deeds i d sched)) :
    ∃ req : CommissionRequest, req.target = a.target ∧
      .stack (.commission req) ∈ Deed.outputs (Config.deeds i d sched) ∧
      (Undisturbed i req.nodeId d sched → ∃ result, Returns result (Config.deeds i d sched) ∧
        (∀ value, result = .ok value → JoinedAs env req c'.mem) ∧
        (∀ e, result = .error e → (∀ x ∈ Config.deeds i d sched, x.Within Memory.KeepsNodes) ∧
          Withdrawn env req (Config.deeds i d sched)) ∧
        (env.Malformed a.target → (env.commission req).steps = [] ∧
          ∃ e, result = .error e ∧ e.code = .invalidArguments)) := by
  obtain ⟨id, cfg, m, first, rest, hsteps, hfirst, -, hnode⟩ :=
    doCommission_does htask hbefore hstart hrun hdone
  have hdeeds : Config.deeds i d sched = storing first m cfg id ++ rest := by
    simp [hsteps, storing]
  obtain ⟨x, later, hrest, -⟩ := does_commissionNode hnode
  have hsent : .stack (.commission ⟨id, a.target, x.config.fabricLabel⟩) ∈
      Deed.outputs (Config.deeds i d sched) := by
    simp [hsteps, hrest]
  have hanswer := hserves id x.config.fabricLabel hsent
  refine ⟨⟨id, a.target, x.config.fabricLabel⟩, rfl, hsent, fun hundisturbed => ?_⟩
  have hways := ways_of_does (fun s s' h => h id hundisturbed)
    (keepsNodes_storing hfirst m cfg id) (outputs_storing hfirst m cfg id) hnode
  rw [← hdeeds] at hways
  have hrefused : env.Malformed a.target → (env.commission
      ⟨id, a.target, x.config.fabricLabel⟩).steps = [] ∧
      ∃ e, a.commission = .error e ∧ e.kind = .invalidArguments := by
    intro hmalformed
    have htarget : env.Malformed (CommissionRequest.mk id a.target x.config.fabricLabel).target :=
      hmalformed
    obtain ⟨hnone, -, e, he⟩ := CommissionEnv.malformed_commission htarget
    exact ⟨hnone, e, hanswer.trans he, (CommissionEnv.kind_commission he).mpr hmalformed⟩
  rcases hways with ⟨e, hcause, hreturns, hleaves⟩ | ⟨value, hreturns, hregisters⟩
  · refine ⟨_, hreturns, ?_, ?_, ?_⟩
    · intro value hvalue
      cases hvalue
    · intro _ _
      exact ⟨hleaves.nodes, withdrawn_of_leaves hanswer hleaves hcause⟩
    · intro hmalformed
      obtain ⟨hnone, e', he', hkind⟩ := hrefused hmalformed
      rcases hcause with ha | ⟨outcome, ha, -⟩
      · obtain rfl : e = e' := Except.error.inj (ha.symm.trans he')
        exact ⟨hnone, _, rfl, code_commissionFailed hkind⟩
      · cases ha.symm.trans he'
  · refine ⟨_, hreturns, ?_, ?_, ?_⟩
    · intro _ _
      exact joinedAs_of_registers hanswer hregisters
    · intro e herror
      cases herror
    · intro hmalformed
      obtain ⟨-, e', he', -⟩ := hrefused hmalformed
      obtain ⟨outcome, _, _, ha, -⟩ := hregisters
      cases ha.symm.trans he'

/-- A commissioning of the lamp that joins, as the only command. -/
def lampArrival : Config Unit Memory Effect where
  mem := lampMemory
  log := []
  task _ := doCommission 9 112233 ⟨lampTarget, .ok ⟨1, "192.168.1.50:5540"⟩, .ok ∅, ""⟩

def arrivalSchedule : List Unit := List.replicate 16 ()

theorem device_commissioned_shyLamp : ∃ c', lampArrival.run arrivalSchedule = some c' ∧
    (c'.mem.registry.get? 8).map (·.record.addresses) = some ["192.168.1.50"] ∧
    ∃ req result, req.target = lampTarget ∧
      Returns result (Config.deeds () lampArrival arrivalSchedule) ∧
      ∀ value, result = .ok value → JoinedAs shyLamp req c'.mem := by
  have hserves : ServesCommission shyLamp
      ⟨lampTarget, .ok ⟨1, "192.168.1.50:5540"⟩, .ok ∅, ""⟩
      (Config.deeds () lampArrival arrivalSchedule) := by
    intro nodeId label _
    exact (CommissionEnv.result_commission.mpr ⟨_, _, _, joins_shyLamp nodeId label, rfl⟩).symm
  have hrun : lampArrival.run arrivalSchedule = some _ := rfl
  obtain ⟨req, htarget, -, houtcome⟩ :=
    device_commissioned rfl List.not_mem_nil rfl hrun rfl hserves
  have hundisturbed : Undisturbed () req.nodeId lampArrival arrivalSchedule := by
    apply Transition.Along.of_forall
    exact fun j _ _ _ hne => absurd rfl hne
  obtain ⟨result, hreturns, hjoined, -⟩ := houtcome hundisturbed
  exact ⟨_, hrun, by decide, req, result, htarget, hreturns, hjoined⟩

end MatterRsServer.Server
