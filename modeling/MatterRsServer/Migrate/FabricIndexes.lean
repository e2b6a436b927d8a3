import MatterRsServer.Migrate.Convert
import MatterRsServer.Migrate.TaggedDocuments
import Mathlib.Data.Set.Insert

/-!
# The fabric index of a migrated device

`fabric_index_by_node_id` gathers what the cached fabric tables claim. A node's index is the
one that all claims for it share; the order in which they are found does not show.
-/
namespace MatterRsServer.Migrate
open Lib Wire Controller

/-- A well-formed entry with our root public key says that the node has the index. -/
def EntryClaims (texts : Texts) (rootPublicKey : Bytes) (entry : Json) (nodeId : NodeId)
    (index : UInt64) : Prop :=
  ∃ members, entry = .obj members ∧
    (Entries.get? "rootPublicKey" members).map (asBytes texts) = some (.ok rootPublicKey) ∧
    (Entries.get? "nodeId" members).map (asU64 texts) = some (.ok nodeId) ∧
    (Entries.get? "fabricIndex" members).map (asU64 texts) = some (.ok index)

/-- The entry stands in the `fabrics` attribute of the context, a cached cluster. -/
def Cached (context : String × OrdMap String Json) (entry : Json) : Prop :=
  isFabricCache context.1 = true ∧
    ∃ array, (context.2.get? "1").bind Json.asArray = some array ∧ entry ∈ array

/-- The indexes that the caches of a store claim for a node on our fabric. -/
def claimedIndexes (texts : Texts) (db : Data) (rootPublicKey : Bytes) (nodeId : NodeId) :
    Set UInt64 :=
  {index | ∃ context ∈ db.entries, ∃ entry, Cached context entry ∧
    EntryClaims texts rootPublicKey entry nodeId index}

/-- What is remembered of a node, against the claims heard so far. -/
def Tells (claimed : Set UInt64) : Option (Except String UInt8) → Prop
  | none => claimed = ∅
  | some (.ok i) => claimed = {i.toUInt64} ∧ 1 ≤ i ∧ i ≤ 254
  | some (.error _) =>
    (∃ j ∈ claimed, ¬ (1 ≤ j ∧ j ≤ 254)) ∨ ∃ j ∈ claimed, ∃ k ∈ claimed, j ≠ k

namespace Tells

theorem toUInt64_toUInt8 {j : UInt64} (h : j ≤ 254) : j.toUInt8.toUInt64 = j := by
  apply UInt64.toNat_inj.mp
  have hle : j.toNat ≤ 254 := UInt64.le_iff_toNat_le.mp h
  simp only [UInt8.toNat_toUInt64, UInt64.toNat_toUInt8]
  omega

theorem range_toUInt8 {j : UInt64} (h : 1 ≤ j ∧ j ≤ 254) : 1 ≤ j.toUInt8 ∧ j.toUInt8 ≤ 254 := by
  have hlo : 1 ≤ j.toNat := UInt64.le_iff_toNat_le.mp h.1
  have hhi : j.toNat ≤ 254 := UInt64.le_iff_toNat_le.mp h.2
  have hval : j.toUInt8.toNat = j.toNat := by
    rw [UInt64.toNat_toUInt8]
    omega
  constructor
  · apply UInt8.le_iff_toNat_le.mpr
    rw [hval]
    exact hlo
  · apply UInt8.le_iff_toNat_le.mpr
    rw [hval]
    exact hhi

/-- A refusal is never taken back. -/
theorem refused_mono {claimed more : Set UInt64} {reason : String} (hsub : claimed ⊆ more)
    (h : Tells claimed (some (.error reason))) : Tells more (some (.error reason)) := by
  rcases h with ⟨j, hj, hrange⟩ | ⟨j, hj, k, hk, hne⟩
  · exact Or.inl ⟨j, hsub hj, hrange⟩
  · exact Or.inr ⟨j, hsub hj, k, hsub hk, hne⟩

/-- An index is remembered exactly when it is the only one claimed, and a possible one. -/
theorem agreed_iff {claimed : Set UInt64} {v : Option (Except String UInt8)}
    (h : Tells claimed v) (i : UInt8) :
    v = some (.ok i) ↔ 1 ≤ i ∧ i ≤ 254 ∧ claimed = {i.toUInt64} := by
  constructor
  · rintro rfl
    exact ⟨h.2.1, h.2.2, h.1⟩
  · rintro ⟨hlo, hhi, hclaimed⟩
    match v, h with
    | none, h =>
      rw [show claimed = ∅ from h] at hclaimed
      exact absurd hclaimed.symm (Set.singleton_ne_empty _)
    | some (.ok j), h =>
      have hsame : i.toUInt64 = j.toUInt64 := Set.singleton_injective (hclaimed.symm.trans h.1)
      rw [UInt8.toUInt64_inj.mp hsame]
    | some (.error _), h =>
      rcases h with ⟨j, hj, hrange⟩ | ⟨j, hj, k, hk, hne⟩
      · rw [hclaimed, Set.mem_singleton_iff] at hj
        rw [hj] at hrange
        refine absurd ⟨?_, ?_⟩ hrange
        · exact UInt64.le_iff_toNat_le.mpr (UInt8.le_iff_toNat_le.mp hlo)
        · exact UInt64.le_iff_toNat_le.mpr (UInt8.le_iff_toNat_le.mp hhi)
      · rw [hclaimed, Set.mem_singleton_iff] at hj hk
        exact absurd (hj.trans hk.symm) hne

end Tells

/-- One claim: the node it names hears of it, every other node's verdict stays. -/
theorem tells_claimIndex {map : FabricIndexes} {claimed : NodeId → Set UInt64}
    (h : ∀ n, Tells (claimed n) (map.get? n)) (source : String) (nodeId : NodeId)
    (index : UInt64) (n : NodeId) :
    Tells {j | j ∈ claimed n ∨ (n = nodeId ∧ j = index)}
      ((claimIndex map source nodeId index).get? n) := by
  by_cases hn : n = nodeId
  · subst hn
    have hbefore := h n
    have hset : {j | j ∈ claimed n ∨ (n = n ∧ j = index)} = insert index (claimed n) := by
      ext j
      simp [or_comm]
    rw [hset]
    unfold claimIndex
    by_cases hrange : 1 ≤ index ∧ index ≤ 254
    · rw [if_neg (not_not.mpr hrange)]
      cases hget : map.get? n with
      | none =>
        rw [hget] at hbefore
        dsimp only
        rw [OrdMap.get?_insert_self, show claimed n = ∅ from hbefore]
        refine ⟨?_, Tells.range_toUInt8 hrange⟩
        rw [Tells.toUInt64_toUInt8 hrange.2]
        exact insert_empty_eq index
      | some verdict =>
        cases verdict with
        | error reason =>
          rw [hget] at hbefore
          dsimp only
          rw [hget]
          exact hbefore.refused_mono (Set.subset_insert _ _)
        | ok prev =>
          rw [hget] at hbefore
          dsimp only
          by_cases hprev : prev = index.toUInt8
          · rw [if_pos hprev, hget]
            refine ⟨?_, hbefore.2⟩
            rw [hbefore.1, hprev, Tells.toUInt64_toUInt8 hrange.2]
            exact Set.insert_eq_of_mem (Set.mem_singleton _)
          · rw [if_neg hprev, OrdMap.get?_insert_self]
            refine Or.inr ⟨index, Set.mem_insert _ _, prev.toUInt64, ?_, ?_⟩
            · rw [hbefore.1]
              exact Set.mem_insert_of_mem _ (Set.mem_singleton _)
            · rintro rfl
              exact hprev (by simp)
    · rw [if_pos hrange, OrdMap.get?_insert_self]
      exact Or.inl ⟨index, Set.mem_insert _ _, hrange⟩
  · have hset : {j | j ∈ claimed n ∨ (n = nodeId ∧ j = index)} = claimed n := by
      ext j
      simp [hn]
    have hsame : (claimIndex map source nodeId index).get? n = map.get? n := by
      unfold claimIndex
      split
      · exact OrdMap.get?_insert_of_ne _ hn _
      · split
        · exact OrdMap.get?_insert_of_ne _ hn _
        · split
          · rfl
          · exact OrdMap.get?_insert_of_ne _ hn _
        · rfl
    rw [hset, hsame]
    exact h n

/-- An entry either claims nothing and is passed over, or makes one claim. -/
theorem claimEntry_cases (texts : Texts) (rootPublicKey : Bytes) (source : String)
    (map : FabricIndexes) (entry : Json) :
    ((∀ n j, ¬ EntryClaims texts rootPublicKey entry n j) ∧
      claimEntry texts rootPublicKey source map entry = map) ∨
    ∃ nodeId index, (∀ n j, EntryClaims texts rootPublicKey entry n j ↔ n = nodeId ∧ j = index) ∧
      claimEntry texts rootPublicKey source map entry = claimIndex map source nodeId index := by
  unfold claimEntry
  split
  next members =>
    split
    next key hkey =>
      by_cases hne : key = rootPublicKey
      · rw [if_neg (not_not.mpr hne)]
        subst hne
        split
        next nodeId index hnode hindex =>
          refine Or.inr ⟨nodeId, index, fun n j => ⟨?_, ?_⟩, rfl⟩
          · rintro ⟨_, hobj, -, hn, hj⟩
            cases hobj
            rw [hnode] at hn
            rw [hindex] at hj
            exact ⟨(Except.ok.inj (Option.some.inj hn)).symm,
              (Except.ok.inj (Option.some.inj hj)).symm⟩
          · rintro ⟨rfl, rfl⟩
            exact ⟨members, rfl, hkey, hnode, hindex⟩
        next hneither =>
          refine Or.inl ⟨?_, rfl⟩
          rintro n j ⟨_, hobj, -, hn, hj⟩
          cases hobj
          exact hneither n j hn hj
      · rw [if_pos hne]
        refine Or.inl ⟨?_, rfl⟩
        rintro n j ⟨_, hobj, hown, -, -⟩
        cases hobj
        rw [hkey] at hown
        exact hne (Except.ok.inj (Option.some.inj hown))
    next hunread =>
      refine Or.inl ⟨?_, rfl⟩
      rintro n j ⟨_, hobj, hown, -, -⟩
      cases hobj
      exact hunread _ hown
  next hnot =>
    refine Or.inl ⟨?_, rfl⟩
    rintro n j ⟨members, rfl, -⟩
    exact hnot members rfl

/-- A list of entries: every node hears of the claims for it. -/
theorem tells_claimEntries (texts : Texts) (rootPublicKey : Bytes) (source : String)
    (entries : List Json) {map : FabricIndexes} {claimed : NodeId → Set UInt64}
    (h : ∀ n, Tells (claimed n) (map.get? n)) (n : NodeId) :
    Tells {j | j ∈ claimed n ∨ ∃ entry ∈ entries, EntryClaims texts rootPublicKey entry n j}
      ((entries.foldl (claimEntry texts rootPublicKey source) map).get? n) := by
  induction entries generalizing map claimed with
  | nil => simpa using h n
  | cons entry entries ih =>
    rw [List.foldl_cons]
    rcases claimEntry_cases texts rootPublicKey source map entry with ⟨hnone, heq⟩ | ⟨m, k, hone, heq⟩
    · rw [heq]
      have hset : {j | j ∈ claimed n ∨ ∃ e ∈ entry :: entries, EntryClaims texts rootPublicKey e n j} =
          {j | j ∈ claimed n ∨ ∃ e ∈ entries, EntryClaims texts rootPublicKey e n j} := by
        ext j
        simp [hnone n j]
      rw [hset]
      exact ih h
    · rw [heq]
      have hset : {j | j ∈ claimed n ∨ ∃ e ∈ entry :: entries, EntryClaims texts rootPublicKey e n j} =
          {j | j ∈ {j | j ∈ claimed n ∨ (n = m ∧ j = k)} ∨
            ∃ e ∈ entries, EntryClaims texts rootPublicKey e n j} := by
        ext j
        simp [hone n j, or_assoc]
      rw [hset]
      exact ih fun n => tells_claimIndex h source m k n

theorem tells_contexts (texts : Texts) (rootPublicKey : Bytes)
    (contexts : List (String × OrdMap String Json)) {map : FabricIndexes}
    {claimed : NodeId → Set UInt64} (h : ∀ n, Tells (claimed n) (map.get? n)) (n : NodeId) :
    Tells {j | j ∈ claimed n ∨ ∃ context ∈ contexts, ∃ entry, Cached context entry ∧
        EntryClaims texts rootPublicKey entry n j}
      ((contexts.foldl (fun map e =>
        if isFabricCache e.1 then
          match (e.2.get? "1").bind Json.asArray with
          | some array => array.foldl (claimEntry texts rootPublicKey e.1) map
          | none => map
        else map) map).get? n) := by
  induction contexts generalizing map claimed with
  | nil => simpa using h n
  | cons context contexts ih =>
    rw [List.foldl_cons]
    have hsplit : {j | j ∈ claimed n ∨ ∃ c ∈ context :: contexts, ∃ entry, Cached c entry ∧
          EntryClaims texts rootPublicKey entry n j} =
        {j | j ∈ {j | j ∈ claimed n ∨ ∃ entry, Cached context entry ∧
            EntryClaims texts rootPublicKey entry n j} ∨
          ∃ c ∈ contexts, ∃ entry, Cached c entry ∧
            EntryClaims texts rootPublicKey entry n j} := by
      ext j
      simp [or_assoc]
    rw [hsplit]
    have hstep : ∀ m, Tells ((fun m => {j | j ∈ claimed m ∨ ∃ entry, Cached context entry ∧
        EntryClaims texts rootPublicKey entry m j}) m) ((if isFabricCache context.1 then
          match (context.2.get? "1").bind Json.asArray with
          | some array => array.foldl (claimEntry texts rootPublicKey context.1) map
          | none => map
        else map).get? m) := by
      intro m
      by_cases hcache : isFabricCache context.1 = true
      · rw [if_pos hcache]
        cases harray : (context.2.get? "1").bind Json.asArray with
        | none => simpa [Cached, harray] using h m
        | some array =>
          have hentries := tells_claimEntries texts rootPublicKey context.1 array h m
          simpa [Cached, harray, hcache] using hentries
      · rw [if_neg hcache]
        simpa [Cached, hcache] using h m
    exact ih hstep

/-- What the scan remembers of a node is what all caches together say of it. -/
theorem tells_fabricIndexByNodeId (texts : Texts) (db : Data) (rootPublicKey : Bytes)
    (n : NodeId) :
    Tells (claimedIndexes texts db rootPublicKey n)
      ((fabricIndexByNodeId texts db rootPublicKey).get? n) := by
  have hstart : ∀ m : NodeId, Tells ((fun _ => ∅ : NodeId → Set UInt64) m)
      ((∅ : FabricIndexes).get? m) := fun m => rfl
  have hscan := tells_contexts texts rootPublicKey db.entries hstart n
  have hset : claimedIndexes texts db rootPublicKey n =
      {j | j ∈ (∅ : Set UInt64) ∨ ∃ context ∈ db.entries, ∃ entry, Cached context entry ∧
        EntryClaims texts rootPublicKey entry n j} := by
    ext j
    simp [claimedIndexes]
  rw [hset]
  exact hscan

/-- The plan of a node with the index that the scan found for it. -/
def NodePlan.withIndex (indexes : FabricIndexes) (plan : NodePlan) : NodePlan :=
  let index := deviceFabricIndex (indexes.get? plan.record.nodeId)
  ⟨{ plan.record with deviceFabricIndex := index.1 }, index.2⟩

/-- The scan decides a node's index and nothing else of its plan. -/
theorem planNode_withIndex (texts : Texts) (dates : Dates) (indexes : FabricIndexes)
    (entry : Json × Json) :
    planNode texts dates indexes entry =
      (planNode texts dates ∅ entry).map (NodePlan.withIndex indexes) := by
  unfold planNode
  cases u64Field texts entry.1 "nodes.commissionedNodes[key]" with
  | error e => rfl
  | ok nodeId =>
    cases asObject entry.2 "nodes.commissionedNodes[value]" with
    | error e => rfl
    | ok obj =>
      cases hdate : discoveryDate texts dates obj with
      | error e => simp [hdate, bind, Except.bind, Except.map]
      | ok date =>
        cases haddresses : operationalAddresses texts obj with
        | error e => simp [hdate, haddresses, bind, Except.bind, Except.map]
        | ok addresses => simp [hdate, haddresses, bind, Except.bind, Except.map, pure,
            Except.pure, NodePlan.withIndex]

theorem mapM_except_map {ε α β γ : Type} (f : α → Except ε β) (g : β → γ) (l : List α) :
    l.mapM (fun a => (f a).map g) = (l.mapM f).map (List.map g) := by
  induction l with
  | nil => rfl
  | cons a l ih =>
    rw [List.mapM_cons, List.mapM_cons, ih]
    cases f a with
    | error e => rfl
    | ok b => cases l.mapM f <;> rfl

/-- The plans before the caches are consulted. -/
def unmatchedPlans (texts : Texts) (dates : Dates) (commissioned : Option Json) :
    Except ConvertError (List NodePlan) :=
  match commissioned with
  | none => .ok []
  | some commissioned => do
    let entries ← atPath "nodes.commissionedNodes" (asMapEntries texts commissioned)
    let plans ← entries.mapM (planNode texts dates ∅)
    return plans.insertionSort fun a b => a.record.nodeId ≤ b.record.nodeId

theorem planNodes_eq (texts : Texts) (dates : Dates) (db : Data) (rootPublicKey : Bytes) :
    planNodes texts dates db rootPublicKey =
      (unmatchedPlans texts dates (commissionedNodes db)).map
        (List.map (NodePlan.withIndex (fabricIndexByNodeId texts db rootPublicKey))) := by
  unfold planNodes unmatchedPlans
  cases commissionedNodes db with
  | none => rfl
  | some commissioned =>
    dsimp only
    cases atPath "nodes.commissionedNodes" (asMapEntries texts commissioned) with
    | error e => rfl
    | ok entries =>
      have hplans : entries.mapM (planNode texts dates (fabricIndexByNodeId texts db rootPublicKey)) =
          (entries.mapM (planNode texts dates ∅)).map
            (List.map (NodePlan.withIndex (fabricIndexByNodeId texts db rootPublicKey))) := by
        rw [← mapM_except_map]
        exact congrArg (fun f => entries.mapM f) (funext (planNode_withIndex texts dates _))
      simp only [bind, Except.bind, hplans]
      cases entries.mapM (planNode texts dates ∅) with
      | error e => rfl
      | ok plans =>
        have hsort := List.map_insertionSort (fun a b : NodePlan => a.record.nodeId ≤ b.record.nodeId)
          (fun a b : NodePlan => a.record.nodeId ≤ b.record.nodeId)
          (NodePlan.withIndex (fabricIndexByNodeId texts db rootPublicKey)) plans
          fun a _ b _ => Iff.rfl
        exact congrArg Except.ok hsort.symm

theorem deviceFabricIndex_not_ok {v : Option (Except String UInt8)}
    (h : ∀ i, v ≠ some (.ok i)) :
    (deviceFabricIndex v).1 = 0 ∧ ∃ reason, (deviceFabricIndex v).2 = .fallbackZero reason := by
  match v with
  | none => exact ⟨rfl, _, rfl⟩
  | some (.error _) => exact ⟨rfl, _, rfl⟩
  | some (.ok i) => exact absurd rfl (h i)

namespace Tells

theorem deviceFabricIndex_iff {claimed : Set UInt64} {v : Option (Except String UInt8)}
    (h : Tells claimed v) {i : UInt8} (hi : i ≠ 0) :
    ((deviceFabricIndex v).1 = i ∧ (deviceFabricIndex v).2 = .matchedByRootPublicKey) ↔
      1 ≤ i ∧ i ≤ 254 ∧ claimed = {i.toUInt64} := by
  rw [← h.agreed_iff]
  constructor
  · rintro ⟨hindex, -⟩
    by_contra hne
    by_cases hok : ∃ j, v = some (.ok j)
    · obtain ⟨j, rfl⟩ := hok
      exact hne (congrArg (fun j => some (Except.ok j)) hindex)
    · push Not at hok
      exact hi (hindex.symm.trans (deviceFabricIndex_not_ok hok).1)
  · rintro rfl
    exact ⟨rfl, rfl⟩

theorem deviceFabricIndex_fallback {claimed : Set UInt64} {v : Option (Except String UInt8)}
    (h : Tells claimed v) (hnone : ¬ ∃ i : UInt8, 1 ≤ i ∧ i ≤ 254 ∧ claimed = {i.toUInt64}) :
    (deviceFabricIndex v).1 = 0 ∧ ∃ reason, (deviceFabricIndex v).2 = .fallbackZero reason := by
  apply deviceFabricIndex_not_ok
  intro i hv
  exact hnone ⟨i, (h.agreed_iff i).mp hv⟩

/-- The claims alone decide the index. -/
theorem deviceFabricIndex_congr {claimed : Set UInt64} {v w : Option (Except String UInt8)}
    (hv : Tells claimed v) (hw : Tells claimed w) :
    (deviceFabricIndex v).1 = (deviceFabricIndex w).1 := by
  by_cases hagreed : ∃ i : UInt8, 1 ≤ i ∧ i ≤ 254 ∧ claimed = {i.toUInt64}
  · obtain ⟨i, hi⟩ := hagreed
    rw [(hv.agreed_iff i).mpr hi, (hw.agreed_iff i).mpr hi]
  · rw [(hv.deviceFabricIndex_fallback hagreed).1, (hw.deviceFabricIndex_fallback hagreed).1]

end Tells

/-- Each commissioned node is given the index that the caches agree on for it, and otherwise 0;
which cache says it, in which order and beside which other entries does not matter. -/
theorem deviceFabricIndex_matched {texts : Texts} {dates : Dates} {db : Data}
    {rootPublicKey : Bytes} {plans : List NodePlan}
    (h : planNodes texts dates db rootPublicKey = .ok plans) :
    (plans.map fun p => p.record.nodeId).Perm (listedIds texts db) ∧
    (∀ plan ∈ plans, ∀ i : UInt8, i ≠ 0 →
      ((plan.record.deviceFabricIndex = i ∧ plan.fabricIndex = .matchedByRootPublicKey) ↔
        1 ≤ i ∧ i ≤ 254 ∧
          claimedIndexes texts db rootPublicKey plan.record.nodeId = {i.toUInt64})) ∧
    (∀ plan ∈ plans,
      (¬ ∃ i : UInt8, 1 ≤ i ∧ i ≤ 254 ∧
        claimedIndexes texts db rootPublicKey plan.record.nodeId = {i.toUInt64}) →
      plan.record.deviceFabricIndex = 0 ∧ ∃ reason, plan.fabricIndex = .fallbackZero reason) ∧
    ∀ db' : Data, commissionedNodes db' = commissionedNodes db →
      ∃ plans', planNodes texts dates db' rootPublicKey = .ok plans' ∧
        ((∀ n, claimedIndexes texts db' rootPublicKey n = claimedIndexes texts db rootPublicKey n) →
          plans'.map NodePlan.record = plans.map NodePlan.record) := by
  have htells := tells_fabricIndexByNodeId texts db rootPublicKey
  have hperm := planNodes_perm h
  rw [planNodes_eq] at h
  cases hbase : unmatchedPlans texts dates (commissionedNodes db) with
  | error e =>
    rw [hbase] at h
    cases h
  | ok base =>
    rw [hbase] at h
    cases h
    refine ⟨hperm, ?_, ?_, ?_⟩
    · intro plan hplan i hi
      obtain ⟨p, _, rfl⟩ := List.mem_map.mp hplan
      exact (htells p.record.nodeId).deviceFabricIndex_iff hi
    · intro plan hplan hnone
      obtain ⟨p, _, rfl⟩ := List.mem_map.mp hplan
      exact (htells p.record.nodeId).deviceFabricIndex_fallback hnone
    · intro db' hdb
      refine ⟨base.map (NodePlan.withIndex (fabricIndexByNodeId texts db' rootPublicKey)), ?_, ?_⟩
      · rw [planNodes_eq, hdb, hbase]
        rfl
      · intro hclaims
        rw [List.map_map, List.map_map]
        apply List.map_congr_left
        intro p _
        have htells' := tells_fabricIndexByNodeId texts db' rootPublicKey p.record.nodeId
        rw [hclaims] at htells'
        have hindex := htells'.deviceFabricIndex_congr (htells p.record.nodeId)
        simp only [Function.comp_apply, NodePlan.withIndex, hindex]

section Caches

/-- A cached fabric entry of node 5 with the root public key `04`. -/
def cachedEntry (index : UInt64) : Json := .ofMembers
  [("rootPublicKey", .str (document "Uint8Array" (quotePlain "04"))), ("nodeId", .ofU64 5),
    ("fabricIndex", .ofU64 index)]

/-- A store with node 5 and two caches that name its index. -/
def cachedTwice (first second : UInt64) : Data := .ofList
  [("nodes", .ofList [("commissionedNodes", .arr [.arr [.ofU64 5, .obj []]])]),
    ("nodes.peer1.endpoints.0.62", .ofList [("1", .arr [cachedEntry first])]),
    ("nodes.peer7.endpoints.0.62", .ofList [("1", .arr [.null, cachedEntry second])])]

theorem deviceFabricIndex_matched_cachedTwice :
    (∃ plans, planNodes plainTexts ⟨fun _ => "", ""⟩ (cachedTwice 3 3) [4] = .ok plans) ∧
      claimedIndexes plainTexts (cachedTwice 3 3) [4] 5 = {3} := by
  have hplans : planNodes plainTexts ⟨fun _ => "", ""⟩ (cachedTwice 3 3) [4] =
      .ok [⟨⟨5, "", "", 3, [], ∅⟩, .matchedByRootPublicKey⟩] := by rfl
  have hmatched := (deviceFabricIndex_matched hplans).2.1 _ List.mem_cons_self 3 (by decide)
  exact ⟨⟨_, hplans⟩, (hmatched.mp ⟨rfl, rfl⟩).2.2⟩

end Caches

end MatterRsServer.Migrate
