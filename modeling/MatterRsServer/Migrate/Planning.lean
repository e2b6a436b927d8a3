import MatterRsServer.Lib.Call
import MatterRsServer.Migrate.Convert

/-!
# Where the planning panics

`plan_nodes` and `config_from` (`crates/migrate/src/convert.rs`) over any store, with the calls
that can panic: the conversion of a discovery time to a date, the successor of the largest node
id, and an arm marked as unreachable.
-/
namespace MatterRsServer.Migrate
open Lib Lib.Result Wire Controller

/-- A time since the epoch, to the nanosecond. -/
structure SystemTime where
  secs : Nat
  nanos : Nat

/-- `UNIX_EPOCH + Duration::from_millis(ms)`: the seconds are an `i64`. -/
def afterEpoch (ms : UInt64) : Option SystemTime :=
  if ms.toNat / 1000 < 2 ^ 63 then some ⟨ms.toNat / 1000, ms.toNat % 1000 * 1000000⟩ else none

/-- The calendar library: the last second that has a date, how it formats the ones that have, and
the date of the migration. -/
structure Calendar where
  lastSecond : Nat
  format : SystemTime → String
  now : String

/-- `format_node_date`: a time without a date is unwrapped. -/
def Calendar.formatNodeDate (calendar : Calendar) (t : SystemTime) : Option String :=
  if t.secs ≤ calendar.lastSecond then some (calendar.format t) else none

/-- The dates, for the times that have one. -/
def Calendar.dates (calendar : Calendar) : Dates where
  ofMillis ms := calendar.format ⟨ms.toNat / 1000, ms.toNat % 1000 * 1000000⟩
  now := calendar.now

/-- `entries_from_array`, which builds a tagged value. -/
def taggedEntries (v : Json) : Except DecodeError Tagged := (entriesFromArray v).map .mapEntries

/-- `as_map_entries`, with the arm that its author holds unreachable. -/
def asMapEntriesCall (texts : Texts) (v : Json) : Call DecodeError (List (Json × Json)) :=
  match parseTagged texts v with
  | some (.ok (.mapEntries e)) => .of (.ok e)
  | some (.ok _) => .of (.error (wrongType texts "Map" v))
  | some (.error e) => .of (.error e)
  | none =>
    match taggedEntries v with
    | .ok (.mapEntries e) => .of (.ok e)
    | .ok _ => .panics
    | .error e =>
      match v with
      | .arr _ => .of (.error e)
      | _ => .of (.error (wrongType texts "Map" v))

/-- `discoveryData.discoveredAt`. -/
def discoveredAt (obj : List (String × Json)) : Option Json :=
  (Entries.get? "discoveryData" obj).bind fun d => d.get "discoveredAt"

def discoveryDateCall (texts : Texts) (calendar : Calendar) (obj : List (String × Json)) :
    Call ConvertError String :=
  match discoveredAt obj with
  | some v => do
    let ms ← Call.of
      (u64Field texts v "nodes.commissionedNodes[value].discoveryData.discoveredAt")
    .unwrap ((afterEpoch ms).bind calendar.formatNodeDate)
  | none => .of (.ok calendar.now)

/-- One turn of the loop of `plan_nodes`. -/
def planNodeCall (texts : Texts) (calendar : Calendar) (indexes : FabricIndexes)
    (entry : Json × Json) : Call ConvertError NodePlan := do
  let nodeId ← Call.of (u64Field texts entry.1 "nodes.commissionedNodes[key]")
  let obj ← Call.of (asObject entry.2 "nodes.commissionedNodes[value]")
  let date ← discoveryDateCall texts calendar obj
  let addresses ← Call.of (operationalAddresses texts obj)
  let index := deviceFabricIndex (indexes.get? nodeId)
  return ⟨⟨nodeId, date, date, index.1, addresses, ∅⟩, index.2⟩

/-- `plan_nodes`. -/
def planNodesCall (texts : Texts) (calendar : Calendar) (db : Data) (rootPublicKey : Bytes) :
    Call ConvertError (List NodePlan) :=
  match commissionedNodes db with
  | none => .of (.ok [])
  | some commissioned => do
    let entries ← (asMapEntriesCall texts commissioned).adapt (.decode "nodes.commissionedNodes")
    let plans ← entries.mapM
      (planNodeCall texts calendar (fabricIndexByNodeId texts db rootPublicKey))
    return plans.insertionSort fun a b => a.record.nodeId ≤ b.record.nodeId

/-- `a + b` on a `u64`: a build with overflow checks panics, one without wraps. -/
def addU64 (overflowChecks : Bool) (a b : UInt64) : Option UInt64 :=
  if a.toNat + b.toNat < 2 ^ 64 then some (a + b)
  else if overflowChecks then none
  else some (a + b)

/-- `config_from`. -/
def configFromCall (overflowChecks : Bool) (source : SourceFabric) (nodes : List NodePlan) :
    Option ConfigData := do
  let nextNodeId ←
    match (nodes.map fun p => p.record.nodeId).max? with
    | some max => addU64 overflowChecks max 1
    | none => some 1
  return ⟨normalizeFabricLabel (some source.label), nextNodeId, ∅, ∅⟩

/-! ### Without a panic -/

theorem asMapEntriesCall_eq (texts : Texts) (v : Json) :
    asMapEntriesCall texts v = .of (asMapEntries texts v) := by
  unfold asMapEntriesCall asMapEntries taggedEntries
  cases parseTagged texts v with
  | some tagged =>
    cases tagged with
    | error e => rfl
    | ok tagged => cases tagged <;> rfl
  | none =>
    cases v with
    | arr items =>
      dsimp only
      cases entriesFromArray (.arr items) with
      | error e => rfl
      | ok entries => rfl
    | _ => rfl

theorem afterEpoch_eq (ms : UInt64) :
    afterEpoch ms = some ⟨ms.toNat / 1000, ms.toNat % 1000 * 1000000⟩ := by
  have hms := ms.toNat_lt
  exact if_pos (by omega)

section Calls

variable {texts : Texts} {calendar : Calendar} {indexes : FabricIndexes} {db : Data}

theorem discoveryDateCall_agrees (obj : List (String × Json)) :
    (discoveryDateCall texts calendar obj).Agrees (discoveryDate texts calendar.dates obj) := by
  unfold discoveryDateCall discoveryDate
  rw [← discoveredAt]
  cases discoveredAt obj with
  | none => exact Call.agrees_of _
  | some v =>
    dsimp only
    cases u64Field texts v "nodes.commissionedNodes[value].discoveryData.discoveredAt" with
    | error e => exact Call.agrees_of _
    | ok ms =>
      rw [Call.of_ok_bind, afterEpoch_eq, Option.bind_some, Calendar.formatNodeDate]
      split
      · exact Call.agrees_of _
      · intro r hr
        cases hr

/-- Where the planning of a node returns, it returns what it would with a date for every time. -/
theorem planNodeCall_agrees (entry : Json × Json) :
    (planNodeCall texts calendar indexes entry).Agrees
      (planNode texts calendar.dates indexes entry) := by
  unfold planNodeCall planNode
  apply Call.agrees_bind (Call.agrees_of _)
  intro nodeId
  apply Call.agrees_bind (Call.agrees_of _)
  intro obj
  apply Call.agrees_bind (discoveryDateCall_agrees obj)
  intro date
  exact Call.agrees_bind (Call.agrees_of _) fun addresses => Call.agrees_pure _

theorem planNodesCall_agrees (rootPublicKey : Bytes) :
    (planNodesCall texts calendar db rootPublicKey).Agrees
      (planNodes texts calendar.dates db rootPublicKey) := by
  unfold planNodesCall planNodes
  cases commissionedNodes db with
  | none => exact Call.agrees_of _
  | some commissioned =>
    dsimp only
    rw [asMapEntriesCall_eq, Call.adapt_of]
    apply Call.agrees_bind (Call.agrees_of _)
    intro entries
    exact Call.agrees_bind (Call.agrees_mapM planNodeCall_agrees entries) fun _ =>
      Call.agrees_pure _

end Calls

/-! ### Which store panics -/

theorem atPath_eq_ok {α : Type} {path : String} {r : Except DecodeError α} {a : α} :
    atPath path r = .ok a ↔ r = .ok a := by
  cases r with
  | error e => simp [atPath, Except.mapError]
  | ok b => simp [atPath, Except.mapError]

theorem asObject_eq_ok {v : Json} {full : String} {obj : List (String × Json)} :
    asObject v full = .ok obj ↔ v = .obj obj := by
  cases v with
  | obj members => simp [asObject]
  | _ => simp [asObject]

/-- `operationalServerAddress.ip`. -/
def operationalIp (obj : List (String × Json)) : Option Json :=
  (Entries.get? "operationalServerAddress" obj).bind fun a => a.get "ip"

/-- The loop gets to this discovery time of the entry. -/
def ReadsTime (texts : Texts) (entry : Json × Json) (ms : UInt64) : Prop :=
  ∃ nodeId obj v, asU64 texts entry.1 = .ok nodeId ∧ entry.2 = .obj obj ∧
    discoveredAt obj = some v ∧ asU64 texts v = .ok ms

/-- The entry has an id and an object, and what the loop looks at in it can be read. -/
def ReadsEntry (texts : Texts) (entry : Json × Json) : Prop :=
  ∃ nodeId obj, asU64 texts entry.1 = .ok nodeId ∧ entry.2 = .obj obj ∧
    (∀ v, discoveredAt obj = some v → ∃ ms, asU64 texts v = .ok ms) ∧
    ∀ v, operationalIp obj = some v → ∃ ip, asStr texts v = .ok ip

section Entries

variable {texts : Texts} {calendar : Calendar} {indexes : FabricIndexes} {entry : Json × Json}
  {obj : List (String × Json)}

theorem discoveryDateCall_returns : (discoveryDateCall texts calendar obj).Returns ↔
    ∀ v, discoveredAt obj = some v → ∀ ms, asU64 texts v = .ok ms →
      ms.toNat / 1000 ≤ calendar.lastSecond := by
  unfold discoveryDateCall
  cases discoveredAt obj with
  | none => simp
  | some v =>
    simp only [Option.some.injEq, forall_eq', Call.returns_bind, Call.returns_of, true_and,
      Call.of_inj]
    apply forall_congr'
    intro ms
    constructor
    · intro h hms
      have hreturns := h (atPath_eq_ok.mpr hms)
      rw [afterEpoch_eq, Option.bind_some, Calendar.formatNodeDate] at hreturns
      by_contra hlate
      rw [if_neg hlate] at hreturns
      exact Call.not_returns_panics hreturns
    · intro h hms
      rw [afterEpoch_eq, Option.bind_some, Calendar.formatNodeDate,
        if_pos (h (atPath_eq_ok.mp hms))]
      exact Call.returns_of _

theorem exists_discoveryDateCall : (∃ date, discoveryDateCall texts calendar obj = .of (.ok date)) ↔
    (∀ v, discoveredAt obj = some v → ∃ ms, asU64 texts v = .ok ms) ∧
      (discoveryDateCall texts calendar obj).Returns := by
  unfold discoveryDateCall
  cases discoveredAt obj with
  | none => simp
  | some v =>
    simp only [Option.some.injEq, forall_eq', Call.bind_eq_ok, Call.of_inj, Call.returns_bind,
      Call.returns_of, true_and]
    constructor
    · rintro ⟨date, ms, hms, hdate⟩
      refine ⟨⟨ms, atPath_eq_ok.mp hms⟩, fun ms' hms' => ?_⟩
      obtain rfl : ms = ms' := Except.ok.inj (hms.symm.trans hms')
      rw [hdate]
      exact Call.returns_of _
    · rintro ⟨⟨ms, hms⟩, hreturns⟩
      have hdate := hreturns ms (atPath_eq_ok.mpr hms)
      cases ht : (afterEpoch ms).bind calendar.formatNodeDate with
      | none =>
        rw [ht] at hdate
        exact absurd hdate Call.not_returns_panics
      | some date => exact ⟨date, ms, atPath_eq_ok.mpr hms, by rw [ht]; rfl⟩

theorem exists_operationalAddresses : (∃ l, operationalAddresses texts obj = .ok l) ↔
    ∀ v, operationalIp obj = some v → ∃ ip, asStr texts v = .ok ip := by
  unfold operationalAddresses
  rw [← operationalIp]
  cases operationalIp obj with
  | none => simp
  | some v =>
    simp only [Option.some.injEq, forall_eq', strField]
    constructor
    · rintro ⟨l, hl⟩
      cases hip : asStr texts v with
      | error e =>
        rw [hip] at hl
        cases hl
      | ok ip => exact ⟨ip, rfl⟩
    · rintro ⟨ip, hip⟩
      rw [hip]
      exact ⟨_, rfl⟩

theorem planNodeCall_returns : (planNodeCall texts calendar indexes entry).Returns ↔
    ∀ ms, ReadsTime texts entry ms → ms.toNat / 1000 ≤ calendar.lastSecond := by
  simp only [planNodeCall, Call.returns_bind, Call.returns_of, Call.returns_pure, implies_true,
    and_true, true_and, Call.of_inj, discoveryDateCall_returns]
  constructor
  · rintro h ms ⟨nodeId, obj, v, hid, hobj, hv, hms⟩
    exact h nodeId (atPath_eq_ok.mpr hid) obj (asObject_eq_ok.mpr hobj) v hv ms hms
  · intro h nodeId hid obj hobj v hv ms hms
    exact h ms ⟨nodeId, obj, v, atPath_eq_ok.mp hid, asObject_eq_ok.mp hobj, hv, hms⟩

/-- A node is planned if its entry can be read and the calendar has its date. -/
theorem exists_planNodeCall : (∃ plan, planNodeCall texts calendar indexes entry = .of (.ok plan)) ↔
    ReadsEntry texts entry ∧ (planNodeCall texts calendar indexes entry).Returns := by
  constructor
  · rintro ⟨plan, hplan⟩
    refine ⟨?_, by rw [hplan]; exact Call.returns_of _⟩
    simp only [planNodeCall, Call.bind_eq_ok, Call.of_inj] at hplan
    obtain ⟨nodeId, hid, obj, hobj, date, hdate, addresses, haddresses, -⟩ := hplan
    exact ⟨nodeId, obj, atPath_eq_ok.mp hid, asObject_eq_ok.mp hobj,
      (exists_discoveryDateCall.mp ⟨date, hdate⟩).1, exists_operationalAddresses.mp ⟨_, haddresses⟩⟩
  · rintro ⟨⟨nodeId, obj, hid, hobj, hdate, haddresses⟩, hreturns⟩
    have hdateReturns : (discoveryDateCall texts calendar obj).Returns :=
      discoveryDateCall_returns.mpr fun v hv ms hms =>
        planNodeCall_returns.mp hreturns ms ⟨nodeId, obj, v, hid, hobj, hv, hms⟩
    obtain ⟨date, hdate⟩ := exists_discoveryDateCall.mpr ⟨hdate, hdateReturns⟩
    obtain ⟨addresses, haddresses⟩ := exists_operationalAddresses.mpr haddresses
    simp only [planNodeCall, Call.bind_eq_ok, Call.of_inj, Call.pure_eq_ok]
    exact ⟨_, nodeId, atPath_eq_ok.mpr hid, obj, asObject_eq_ok.mpr hobj, date, hdate, addresses,
      haddresses, rfl⟩

end Entries

/-- The list of commissioned nodes, if the store has one that can be read as such. -/
def listedEntries (texts : Texts) (db : Data) : Option (List (Json × Json)) :=
  (commissionedNodes db).bind fun v => (asMapEntries texts v).toOption

/-- The plan is made or refused with an error, and the configuration of a plan that is made has a
counter past all its nodes. -/
structure PlansOrRefuses (texts : Texts) (calendar : Calendar) (overflowChecks : Bool) (db : Data) :
    Prop where
  source : (Call.of (readSourceFabric texts db)).Returns
  nodes : ∀ rootPublicKey, (planNodesCall texts calendar db rootPublicKey).Returns
  config : ∀ rootPublicKey plans, planNodesCall texts calendar db rootPublicKey = .of (.ok plans) →
    ∀ source, ∃ config, configFromCall overflowChecks source plans = some config ∧
      ∀ p ∈ plans, p.record.nodeId < config.nextNodeId

/-- The limits that the code does not check: no time past the last date is reached, and if
everything can be read, no node has the largest id. -/
structure WithinLimits (texts : Texts) (calendar : Calendar) (db : Data) : Prop where
  dates : ∀ entries, listedEntries texts db = some entries → ∀ before entry after,
    entries = before ++ entry :: after → (∀ x ∈ before, ReadsEntry texts x) →
    ∀ ms, ReadsTime texts entry ms → ms.toNat / 1000 ≤ calendar.lastSecond
  ids : (∀ entries, listedEntries texts db = some entries → ∀ x ∈ entries, ReadsEntry texts x) →
    ∀ id ∈ listedIds texts db, id.toNat + 1 < 2 ^ 64

section Store

variable {texts : Texts} {calendar : Calendar} {db : Data} {rootPublicKey : Bytes}

theorem planNodesCall_of_listed {entries : List (Json × Json)}
    (h : listedEntries texts db = some entries) :
    planNodesCall texts calendar db rootPublicKey = (do
      let plans ← entries.mapM
        (planNodeCall texts calendar (fabricIndexByNodeId texts db rootPublicKey))
      return plans.insertionSort fun a b => a.record.nodeId ≤ b.record.nodeId) := by
  obtain ⟨v, hv, hentries⟩ := Option.bind_eq_some_iff.mp h
  rw [planNodesCall, hv]
  dsimp only
  rw [asMapEntriesCall_eq]
  cases hmap : asMapEntries texts v with
  | error e =>
    rw [hmap] at hentries
    cases hentries
  | ok entries' =>
    rw [hmap] at hentries
    cases hentries
    rfl

theorem planNodesCall_returns : (planNodesCall texts calendar db rootPublicKey).Returns ↔
    ∀ entries, listedEntries texts db = some entries → ∀ before entry after,
      entries = before ++ entry :: after → (∀ x ∈ before, ReadsEntry texts x) →
      ∀ ms, ReadsTime texts entry ms → ms.toNat / 1000 ≤ calendar.lastSecond := by
  cases hlisted : listedEntries texts db with
  | none =>
    simp only [reduceCtorEq, false_implies, implies_true, iff_true]
    unfold listedEntries at hlisted
    unfold planNodesCall
    cases hv : commissionedNodes db with
    | none => exact Call.returns_of _
    | some v =>
      rw [hv, Option.bind_some] at hlisted
      dsimp only
      rw [asMapEntriesCall_eq]
      cases hmap : asMapEntries texts v with
      | error e => exact Call.returns_of _
      | ok entries =>
        rw [hmap] at hlisted
        cases hlisted
  | some entries =>
    rw [planNodesCall_of_listed hlisted, Call.returns_bind,
      Call.returns_mapM fun _ => exists_planNodeCall]
    simp only [planNodeCall_returns, Option.some.injEq, forall_eq', Call.returns_pure,
      implies_true, and_true]

/-- Of a plan that is made, every entry could be read. -/
theorem readable_of_planned {plans : List NodePlan}
    (h : planNodesCall texts calendar db rootPublicKey = .of (.ok plans))
    {entries : List (Json × Json)} (hlisted : listedEntries texts db = some entries) :
    ∀ x ∈ entries, ReadsEntry texts x := by
  rw [planNodesCall_of_listed hlisted, Call.bind_eq_ok] at h
  obtain ⟨unsorted, hunsorted, -⟩ := h
  intro x hx
  exact (exists_planNodeCall.mp (Call.exists_mapM_eq_ok.mp ⟨unsorted, hunsorted⟩ x hx)).1

theorem listedIds_eq : listedIds texts db =
    ((listedEntries texts db).getD []).filterMap fun e => (asU64 texts e.1).toOption := by
  unfold listedIds listedEntries
  cases commissionedNodes db with
  | none => rfl
  | some v =>
    rw [Option.map_some, Option.bind_some]
    cases asMapEntries texts v with
    | error e => rfl
    | ok entries => rfl

/-- If all is readable and in the calendar, and there is a list, then the plan is made. -/
theorem exists_planned {entries : List (Json × Json)}
    (hlisted : listedEntries texts db = some entries) (hreadable : ∀ x ∈ entries, ReadsEntry texts x)
    (hreturns : (planNodesCall texts calendar db rootPublicKey).Returns) :
    ∃ plans, planNodesCall texts calendar db rootPublicKey = .of (.ok plans) := by
  have hdates := planNodesCall_returns.mp hreturns entries hlisted
  have hmapM : ∃ plans, entries.mapM (planNodeCall texts calendar
      (fabricIndexByNodeId texts db rootPublicKey)) = .of (.ok plans) := by
    apply Call.exists_mapM_eq_ok.mpr
    intro x hx
    obtain ⟨before, after, rfl⟩ := List.append_of_mem hx
    apply exists_planNodeCall.mpr
    refine ⟨hreadable x hx, planNodeCall_returns.mpr ?_⟩
    exact hdates before x after rfl fun y hy => hreadable y (by simp [hy])
  obtain ⟨unsorted, hunsorted⟩ := hmapM
  rw [planNodesCall_of_listed hlisted, hunsorted]
  exact ⟨_, rfl⟩

end Store

theorem lt_add_one_iff (a : UInt64) : a < a + 1 ↔ a.toNat + 1 < 2 ^ 64 := by
  have ha := a.toNat_lt
  have hone : (1 : UInt64).toNat = 1 := rfl
  rw [UInt64.lt_iff_toNat_lt, UInt64.toNat_add, hone]
  omega

/-- Whatever the build does at the limit, there is no larger id beyond it. -/
theorem exists_addU64_past {overflowChecks : Bool} {a : UInt64} :
    (∃ next, addU64 overflowChecks a 1 = some next ∧ a < next) ↔ a.toNat + 1 < 2 ^ 64 := by
  unfold addU64
  constructor
  · rintro ⟨next, hnext, hlt⟩
    obtain rfl : a + 1 = next := by
      split at hnext
      · exact Option.some.inj hnext
      · split at hnext
        · cases hnext
        · exact Option.some.inj hnext
    exact (lt_add_one_iff a).mp hlt
  · intro hfits
    exact ⟨a + 1, if_pos hfits, (lt_add_one_iff a).mpr hfits⟩

/-- The counter of a plan is past its nodes if the largest id has a successor. -/
theorem exists_configFromCall_past {overflowChecks : Bool} {source : SourceFabric}
    {plans : List NodePlan} : (∃ config, configFromCall overflowChecks source plans = some config ∧
        ∀ p ∈ plans, p.record.nodeId < config.nextNodeId) ↔
      ∀ p ∈ plans, p.record.nodeId.toNat + 1 < 2 ^ 64 := by
  unfold configFromCall
  cases hmax : (plans.map fun p => p.record.nodeId).max? with
  | none =>
    have hnil : plans = [] := by simpa using hmax
    subst hnil
    simp
  | some max =>
    obtain ⟨hmem, hle⟩ := List.max?_eq_some_iff.mp hmax
    obtain ⟨p, hp, rfl⟩ := List.mem_map.mp hmem
    have hlargest : ∀ q ∈ plans, q.record.nodeId ≤ p.record.nodeId := fun q hq =>
      hle _ (List.mem_map.mpr ⟨q, hq, rfl⟩)
    simp only [Option.bind_eq_bind, Option.bind_eq_some_iff, Option.pure_def, Option.some.injEq]
    constructor
    · rintro ⟨config, ⟨next, hnext, rfl⟩, hpast⟩ q hq
      have hfits := exists_addU64_past.mp ⟨next, hnext, hpast p hp⟩
      have hq := UInt64.le_iff_toNat_le.mp (hlargest q hq)
      omega
    · intro hfits
      obtain ⟨next, hnext, hlt⟩ := exists_addU64_past.mpr (hfits p hp)
      exact ⟨_, ⟨next, hnext, rfl⟩, fun q hq => lt_of_le_of_lt (hlargest q hq) hlt⟩

/-- The planning of a store goes through or is refused exactly within the limits. -/
theorem plansOrRefuses_iff (texts : Texts) (calendar : Calendar) (overflowChecks : Bool)
    (db : Data) : PlansOrRefuses texts calendar overflowChecks db ↔
      WithinLimits texts calendar db := by
  have hplanned : ∀ {rootPublicKey plans},
      planNodesCall texts calendar db rootPublicKey = .of (.ok plans) →
      ∀ id, id ∈ listedIds texts db ↔ ∃ p ∈ plans, p.record.nodeId = id := by
    intro rootPublicKey plans h id
    have hperm := planNodes_perm (planNodesCall_agrees rootPublicKey _ h).symm
    rw [← hperm.mem_iff, List.mem_map]
  constructor
  · intro h
    refine ⟨planNodesCall_returns.mp (h.nodes []), fun hreadable id hid => ?_⟩
    have hsome : ∃ entries, listedEntries texts db = some entries := by
      rw [listedIds_eq] at hid
      cases hlisted : listedEntries texts db with
      | none =>
        rw [hlisted] at hid
        cases hid
      | some entries => exact ⟨entries, rfl⟩
    obtain ⟨entries, hlisted⟩ := hsome
    obtain ⟨plans, hplans⟩ := exists_planned hlisted (hreadable entries hlisted) (h.nodes [])
    obtain ⟨p, hp, rfl⟩ := (hplanned hplans id).mp hid
    have hpast := h.config [] plans hplans ⟨0, 0, 0, "", [], [], [], [], []⟩
    exact exists_configFromCall_past.mp hpast p hp
  · intro h
    refine ⟨Call.returns_of _, fun _ => planNodesCall_returns.mpr h.dates, ?_⟩
    intro rootPublicKey plans hplans source
    apply exists_configFromCall_past.mpr
    intro p hp
    apply h.ids fun entries hlisted => readable_of_planned hplans hlisted
    exact (hplanned hplans _).mpr ⟨p, hp, rfl⟩

section Limits

/-- Nothing in the stores below is a tagged document. -/
def untaggedTexts : Texts := ⟨fun _ => .error "expected value at line 1 column 1", fun _ => ""⟩

/-- The year 262142 is the last one. -/
def lastYear : Calendar := ⟨8210266876799, fun _ => "", "2026-08-13T10:00:00.000000"⟩

/-- A store that lists one node. -/
def storeOf (key value : Json) : Data :=
  .ofList [("nodes", .ofList [("commissionedNodes", .arr [.arr [key, value]])])]

/-- A node whose id is the largest `u64`. -/
def largestId : Data := storeOf (.ofU64 18446744073709551615) (.obj [])

/-- Node 1, discovered as late as a `u64` of milliseconds can say. -/
def latestTime : Data := storeOf (.ofU64 1)
  (.obj [("discoveryData", .obj [("discoveredAt", .ofU64 18446744073709551615)])])

theorem not_plans_largestId (overflowChecks : Bool) :
    ¬ PlansOrRefuses untaggedTexts lastYear overflowChecks largestId := by
  intro h
  have hplans : planNodesCall untaggedTexts lastYear largestId [] = .of (.ok
      [⟨⟨18446744073709551615, lastYear.now, lastYear.now, 0, [], ∅⟩, (deviceFabricIndex none).2⟩]) :=
    rfl
  have hpast := h.config [] _ hplans ⟨0, 0, 0, "", [], [], [], [], []⟩
  exact absurd (exists_configFromCall_past.mp hpast _ (List.mem_singleton_self _)) (by decide)

theorem not_plans_latestTime (overflowChecks : Bool) :
    ¬ PlansOrRefuses untaggedTexts lastYear overflowChecks latestTime := by
  intro h
  have hpanics : planNodesCall untaggedTexts lastYear latestTime [] = .panics := rfl
  exact Call.not_returns_panics (hpanics ▸ h.nodes [])

/-- In a build with overflow checks and in one without. -/
theorem planning_past_limits :
    (∀ overflowChecks, ¬ PlansOrRefuses untaggedTexts lastYear overflowChecks largestId) ∧
    ∀ overflowChecks, ¬ PlansOrRefuses untaggedTexts lastYear overflowChecks latestTime :=
  ⟨not_plans_largestId, not_plans_latestTime⟩

end Limits

end MatterRsServer.Migrate
