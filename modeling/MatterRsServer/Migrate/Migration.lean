import MatterRsServer.Controller.Storage
import MatterRsServer.Migrate.Checks

/-!
# The migration

`run` of `crates/migrate/src/lib.rs`. Source and destination are two directory trees: the
source is read once, and every operation that writes is one on the destination. The write
begins with `server.json`, so a failure after it leaves an identity without the rest.
-/
namespace MatterRsServer.Migrate
open Lib Lib.Result Wire Controller

/-- An entry of the store root. -/
inductive EntryKind where
  | dir (content : NamespaceDir)
  | file
  | other

structure RootEntry where
  name : String
  kind : EntryKind

/-- `read_dir` of the store root: its entries in directory order, or why it cannot be read. -/
abbrev StoreRoot := Except String (List RootEntry)

inductive StoreError where
  | jsdb (e : JsdbError)
  | noNamespace (found : List String)
  | multipleNamespaces (count : Nat) (found : List String)

inductive MigrateError where
  | jsdb (e : StoreError)
  | convert (e : ConvertError)
  | stack (text : String)
  | samePath
  | write (path reason : String)

structure Options where
  fromPath : String
  toPath : String
  write : Bool

structure Report where
  namespaceName : String
  fabricId : UInt64
  compressedFabricId : UInt64
  vendorId : UInt16
  controllerNodeId : NodeId
  fabricLabel : String
  nextNodeId : NodeId
  nodes : List (NodeId × UInt8 × FabricIndexSource)
  checks : List CheckOutcome
  rcacSerialNote : Option String
  ignoredPythonLeftovers : List String
  wrote : Option String

/-- `Report::ok`. -/
def Report.ok (report : Report) : Bool := report.checks.all CheckOutcome.passed

/-- What the program relies on outside the repository, and the times of its two verifications. -/
structure Env where
  dec : Decoders
  toText : Json → String
  sdk : Sdk
  dates : Dates
  canonicalize : String → Option String
  mintedAt : Nat
  checkedAt : Nat

def Env.texts (env : Env) : Texts := ⟨env.dec.fromStr, env.toText⟩

def sortedNames (names : List String) : List String := names.insertionSort (· ≤ ·)

/-- The one `server-*` directory. -/
def namespaceOf (entry : RootEntry) : Option (String × NamespaceDir) :=
  match entry.kind with
  | .dir content =>
    if "server-".toList.isPrefixOf entry.name.toList then some (entry.name, content) else none
  | _ => none

/-- `JsDb::open_store`. -/
def openStore (dec : Decoders) (root : StoreRoot) : Except StoreError (Data × String) :=
  match root with
  | .error reason => .error (.jsdb (.io "" reason))
  | .ok entries =>
    match entries.filterMap namespaceOf with
    | [] => .error (.noNamespace (sortedNames (entries.map RootEntry.name)))
    | [(name, dir)] =>
      match openNamespace dec dir with
      | .ok db => .ok (db, name)
      | .error e => .error (.jsdb e)
    | namespaces =>
      .error (.multipleNamespaces namespaces.length (sortedNames (namespaces.map Prod.fst)))

/-- `is_hex16_json`. -/
def isHex16Json (name : String) : Bool :=
  match stripSuffix ".json".toList name.toList with
  | some stem => stem.length = 16 && stem.all isHexDigit
  | none => false

def isPythonLeftover (entry : RootEntry) : Bool :=
  match entry.kind with
  | .dir _ => entry.name = "certificates" || entry.name = "credentials"
  | .file =>
    ("chip_".toList.isPrefixOf entry.name.toList && ".ini".toList.isSuffixOf entry.name.toList) ||
      isHex16Json entry.name
  | .other => false

/-- `scan_python_leftovers`. -/
def scanPythonLeftovers (root : StoreRoot) : List String :=
  match root with
  | .error _ => []
  | .ok entries => sortedNames ((entries.filter isPythonLeftover).map RootEntry.name)

/-- `RCAC_SERIAL_NOTE`. -/
def rcacSerialNote : String :=
  "the migrated RCAC's serial number is not canonical DER; the server " ++
  "will warn about it at every boot. For a migrated fabric this is EXPECTED and HARMLESS — every " ++
  "commissioned device already trusts this exact root. It limits nothing except commissioning new " ++
  "matter.js-based test devices."

/-- What is going to be written, and the report of it. -/
structure MigrationPlan where
  identity : ServerIdentity
  config : ConfigData
  nodes : List NodePlan
  report : Report

def orConvertError {α : Type} : Except ConvertError α → Except MigrateError α :=
  Except.mapError .convert

/-- `stack_err`. -/
def orStackError {α : Type} : Except StackError α → Except MigrateError α :=
  Except.mapError fun e => .stack (stackErrText e)

def orStoreError {α : Type} : Except StoreError α → Except MigrateError α :=
  Except.mapError .jsdb

/-- Steps 2 to 9 of `run`, after the source has been opened. -/
def planMigration (env : Env) (db : Data) (name : String) (leftovers : List String) :
    Except MigrateError MigrationPlan := do
  let source ← orConvertError (readSourceFabric env.texts db)
  let rootPublicKey ← orStackError (sdkErr "rcac_tlv does not parse as a Matter TLV certificate"
    (env.sdk.rcacPublicKey source.rcacTlv))
  let identity ← orStackError (identityFromPreservedCa env.sdk env.mintedAt source.caPrivateKey
    source.rcacTlv source.fabricId source.vendorId source.controllerNodeId source.ipkEpochKey)
  let nodes ← orConvertError (planNodes env.texts env.dates db rootPublicKey)
  let config := configFrom source nodes
  let canonical ← orStackError (sdkErr "rcac_tlv does not parse as a Matter TLV certificate"
    (env.sdk.serialIsDerCanonical source.rcacTlv))
  return {
    identity := identity
    config := config
    nodes := nodes
    report := {
      namespaceName := name
      fabricId := source.fabricId
      compressedFabricId := identity.compressedFabricId
      vendorId := source.vendorId
      controllerNodeId := identity.controllerNodeId
      fabricLabel := config.fabricLabel
      nextNodeId := config.nextNodeId
      nodes := nodes.map fun n => (n.record.nodeId, n.record.deviceFabricIndex, n.fabricIndex)
      checks := runAll env.sdk env.checkedAt identity source config nodes
      rcacSerialNote := if canonical then none else some rcacSerialNote
      ignoredPythonLeftovers := leftovers
      wrote := none } }

/-- Steps 2 to 9 of `run`: everything that is read and computed. -/
def prepare (env : Env) (root : StoreRoot) : Except MigrateError MigrationPlan := do
  let (db, name) ← orStoreError (openStore env.dec root)
  planMigration env db name (scanPythonLeftovers root)

/-- The error of a write names what was written. -/
def writing {α : Type} (path : String) (m : Attempt Disk String α) : Attempt Disk MigrateError α :=
  Attempt.mapError (.write path) m

/-- The directory, and the identity first: its refusal to overwrite is the only guard. -/
def establish (opts : Options) (plan : MigrationPlan) : Attempt Disk MigrateError Unit := do
  writing opts.toPath Disk.openStorage
  writing (opts.toPath ++ "/server.json") (Disk.createIdentity plan.identity)

def writeNode (opts : Options) (p : NodePlan) : Attempt Disk MigrateError Unit :=
  writing (opts.toPath ++ "/nodes/" ++ nodeFileName p.record.nodeId) (Disk.saveNode p.record)

/-- The configuration and the node files. -/
def fill (opts : Options) (plan : MigrationPlan) : Attempt Disk MigrateError Unit := do
  writing (opts.toPath ++ "/config.json") (Disk.saveConfig plan.config)
  plan.nodes.forM (writeNode opts)

/-- The error of a recount that found other than what was planned. -/
def miscount (opts : Options) (plan : MigrationPlan) (found : Nat) : MigrateError :=
  .write (opts.toPath ++ "/nodes") s!"planned {plan.nodes.length} node file(s) but found {found} after writing"

/-- The write half of check 4. -/
def recount (opts : Options) (plan : MigrationPlan) : Attempt Disk MigrateError Report := do
  let written ← Disk.loadNodes
  if written.length ≠ plan.nodes.length then
    throw (miscount opts plan written.length)
  else return { plan.report with wrote := some opts.toPath }

/-- Steps 11 and 12 of `run`. -/
def writePlan (opts : Options) (plan : MigrationPlan) : Attempt Disk MigrateError Report := do
  establish opts plan
  fill opts plan
  recount opts plan

/-- Everything that `run` can reach: the store it reads and the disk it writes to. -/
structure World where
  source : StoreRoot
  disk : Faulty Disk

/-- Step 1 of `run`. -/
def isSamePath (env : Env) (opts : Options) (present : Bool) : Bool :=
  opts.fromPath = opts.toPath ||
    (present &&
      match env.canonicalize opts.fromPath, env.canonicalize opts.toPath with
      | some a, some b => a = b
      | _, _ => false)

def run (env : Env) (opts : Options) (w : World) : Except MigrateError Report × World :=
  if isSamePath env opts w.disk.state.dir.present then (.error .samePath, w)
  else
    match prepare env w.source with
    | .error e => (.error e, w)
    | .ok plan =>
      if ¬ plan.report.ok ∨ ¬ opts.write then (.ok plan.report, w)
      else
        let r := writePlan opts plan w.disk
        (r.1, { w with disk := r.2 })

def MigrationPlan.records (plan : MigrationPlan) : List NodeRecord := plan.nodes.map NodePlan.record

/-- The node files once the planned ones are written. -/
def withRecords (nodes : OrdMap String FileText) (records : List NodeRecord) :
    OrdMap String FileText :=
  records.foldl (fun nodes r => nodes.insert (nodeFileName r.nodeId) (some r.toJson)) nodes

/-- How many operations the directory and `server.json` take. -/
def establishCost : Nat := 8

/-- How many operations `config.json` and the node files take. -/
def fillCost (plan : MigrationPlan) : Nat := 5 + 4 * plan.nodes.length

/-- The records that the recount finds after the writes, given which reads fail. -/
def recounted (plan : MigrationPlan) (disk : Faulty Disk) : List NodeRecord :=
  { disk.state.dir with nodes := withRecords disk.state.dir.nodes plan.records }.loadNodes fun i =>
    (disk.faults (disk.performed + (establishCost + fillCost plan) + i)).isNone

/-- The write phase is reached. -/
structure Reaches (env : Env) (opts : Options) (w : World) (plan : MigrationPlan) : Prop where
  otherPath : isSamePath env opts w.disk.state.dir.present = false
  prepared : prepare env w.source = .ok plan
  checked : plan.report.ok = true
  write : opts.write = true

/-- The directory holds what was planned: every planned node has a file with a planned record. -/
structure HoldsPlan (dir : StorageDir) (plan : MigrationPlan) : Prop where
  server : dir.server = some (some plan.identity.toJson)
  config : dir.config = some (some plan.config.toJson)
  nodes : ∀ r ∈ plan.records, ∃ q ∈ plan.records, q.nodeId = r.nodeId ∧
    dir.nodes.get? (nodeFileName r.nodeId) = some (some q.toJson)

def KeepsIdentity (d t : Disk) : Prop := t.dir.server = d.dir.server

theorem performs_establish (opts : Options) (plan : MigrationPlan) :
    Attempt.Performs (fun d : Disk => d.dir.server = none) (establish opts plan) establishCost
      (fun d => Disk.wrote { d with dir :=
        { d.dir with present := true, nodesDir := true, sessionsDir := true } } .server
        plan.identity.toJson) KeepsIdentity := by
  have hopen : Attempt.Performs (fun d : Disk => d.dir.server = none)
      (writing opts.toPath Disk.openStorage) 2 _ KeepsIdentity :=
    (Disk.performs_openStorage.mapError (g := MigrateError.write opts.toPath)).mono (fun _ _ => trivial)
      fun _ _ _ h => h.server
  have hcreate : Attempt.Performs (fun d : Disk => d.dir.server = none)
      (writing (opts.toPath ++ "/server.json") (Disk.createIdentity plan.identity)) 6 _
      KeepsIdentity :=
    (Disk.performs_createIdentity plan.identity).mapError.mono (fun _ h => h) fun _ _ _ h => h.server
  exact hopen.seq hcreate (fun _ h => h) fun _ _ _ h => h

theorem performs_writeNode (opts : Options) (p : NodePlan) :
    Attempt.Performs (fun _ => True) (writeNode opts p) 4
      (fun d => d.wrote (.node (nodeFileName p.record.nodeId)) p.record.toJson) KeepsIdentity :=
  (Disk.performs_writeJsonAtomic _ _ _).mapError.mono (fun _ h => h) fun _ _ _ h => h.server

def filled (plan : MigrationPlan) (d : Disk) : Disk :=
  plan.nodes.foldl
    (fun d p => d.wrote (.node (nodeFileName p.record.nodeId)) p.record.toJson)
    (d.wrote .config plan.config.toJson)

theorem performs_fill (opts : Options) (plan : MigrationPlan) :
    Attempt.Performs (fun _ => True) (fill opts plan) (fillCost plan) (filled plan)
      KeepsIdentity := by
  have hconfig : Attempt.Performs (fun _ => True)
      (writing (opts.toPath ++ "/config.json") (Disk.saveConfig plan.config)) 5 _ KeepsIdentity :=
    (Disk.performs_writeJsonAtomic _ _ _).mapError.mono (fun _ h => h) fun _ _ _ h => h.server
  have hnodes := Attempt.Performs.forM (performs_writeNode opts) (fun _ _ h => h) (fun _ _ _ _ h => h)
    plan.nodes
  exact hconfig.seq hnodes (fun _ h => h) fun _ _ _ h => h

theorem dir_foldl_wrote (nodes : List NodePlan) (d : Disk) :
    let t := nodes.foldl
      (fun d p => d.wrote (.node (nodeFileName p.record.nodeId)) p.record.toJson) d
    t.dir.server = d.dir.server ∧ t.dir.config = d.dir.config ∧
      t.dir.nodes = withRecords d.dir.nodes (nodes.map NodePlan.record) := by
  induction nodes generalizing d with
  | nil => exact ⟨rfl, rfl, rfl⟩
  | cons p nodes ih => exact ih _

/-- The directory after a write phase without failures. -/
theorem dir_filled (plan : MigrationPlan) (d : Disk) :
    (filled plan d).dir.server = d.dir.server ∧
      (filled plan d).dir.config = some (some plan.config.toJson) ∧
      (filled plan d).dir.nodes = withRecords d.dir.nodes plan.records :=
  dir_foldl_wrote plan.nodes _

theorem get?_withRecords_of_ne {records : List NodeRecord} {name : String}
    (h : ∀ q ∈ records, nodeFileName q.nodeId ≠ name) (nodes : OrdMap String FileText) :
    (withRecords nodes records).get? name = nodes.get? name := by
  induction records generalizing nodes with
  | nil => rfl
  | cons head records ih =>
    have hne : name ≠ nodeFileName head.nodeId := fun heq => h head (by simp) heq.symm
    exact (ih (fun q hq => h q (by simp [hq])) _).trans (OrdMap.get?_insert_of_ne nodes hne _)

/-- A planned file holds the last record planned for its node. -/
theorem get?_withRecords {records : List NodeRecord} {r : NodeRecord} (h : r ∈ records)
    (nodes : OrdMap String FileText) : ∃ q ∈ records, q.nodeId = r.nodeId ∧
      (withRecords nodes records).get? (nodeFileName r.nodeId) = some (some q.toJson) := by
  induction records generalizing nodes r with
  | nil => cases h
  | cons head records ih =>
    by_cases hlater : ∃ q ∈ records, q.nodeId = r.nodeId
    · obtain ⟨q, hq, hid⟩ := hlater
      obtain ⟨p, hp, hpid, hget⟩ := ih hq (nodes.insert (nodeFileName head.nodeId) (some head.toJson))
      exact ⟨p, by simp [hp], hpid.trans hid, hid ▸ hget⟩
    · obtain rfl : r = head := (List.mem_cons.mp h).resolve_right fun hr => hlater ⟨r, hr, rfl⟩
      refine ⟨r, by simp, rfl, ?_⟩
      exact get?_withRecords_of_ne (fun q hq hid => hlater ⟨q, hq, nodeFileName_injective hid⟩) _ |>.trans
        (OrdMap.get?_insert_self _ _ _)

theorem loadNodes_congr {dir dir' : StorageDir} (h : dir.nodes = dir'.nodes)
    (readable : Nat → Bool) : dir.loadNodes readable = dir'.loadNodes readable := by
  unfold StorageDir.loadNodes StorageDir.readNodes
  rw [h]

theorem recount_eq (opts : Options) (plan : MigrationPlan) (t : Faulty Disk) :
    ∃ t', t'.state.dir = t.state.dir ∧ recount opts plan t =
      (if (t.state.dir.loadNodes fun i => (t.faults (t.performed + i)).isNone).length ≠
          plan.nodes.length then
        .error (miscount opts plan
          (t.state.dir.loadNodes fun i => (t.faults (t.performed + i)).isNone).length)
      else .ok { plan.report with wrote := some opts.toPath }, t') := by
  refine ⟨(Disk.loadNodes (ε := MigrateError) t).2, rfl, ?_⟩
  have hload : Disk.loadNodes (ε := MigrateError) t =
      (.ok (t.state.dir.loadNodes fun i => (t.faults (t.performed + i)).isNone), _) := rfl
  unfold recount
  rw [Attempt.bind_ok hload]
  split <;> rfl

/-- What the write phase comes to. -/
theorem writePlan_cases (opts : Options) (plan : MigrationPlan) {s : Faulty Disk}
    (hserver : s.state.dir.server = none) :
    (¬ s.Clear establishCost ∧ ∃ e s', writePlan opts plan s = (.error e, s') ∧
      s'.state.dir.server = none) ∨
    (s.Clear establishCost ∧ ¬ s.Clear (establishCost + fillCost plan) ∧
      ∃ e s', writePlan opts plan s = (.error e, s') ∧
        s'.state.dir.server = some (some plan.identity.toJson)) ∨
    (s.Clear (establishCost + fillCost plan) ∧
      ∃ s', HoldsPlan s'.state.dir plan ∧
        s'.state.dir.nodes = withRecords s.state.dir.nodes plan.records ∧
        writePlan opts plan s =
          (if (recounted plan s).length ≠ plan.nodes.length then
            .error (miscount opts plan (recounted plan s).length)
          else .ok { plan.report with wrote := some opts.toPath }, s')) := by
  by_cases hestablish : s.Clear establishCost
  · have hfirst := Attempt.bind_ok (k := fun _ => do fill opts plan; recount opts plan)
      ((performs_establish opts plan).done s hserver hestablish)
    generalize hmid : s.after establishCost _ = m at hfirst
    have hserver' : m.state.dir.server = some (some plan.identity.toJson) := by rw [← hmid]; rfl
    have hnodes : m.state.dir.nodes = s.state.dir.nodes := by rw [← hmid]; rfl
    have hclear : s.Clear (establishCost + fillCost plan) ↔ m.Clear (fillCost plan) := by
      rw [← hmid, Faulty.clear_add]
      exact and_iff_right hestablish
    by_cases hfill : m.Clear (fillCost plan)
    · refine Or.inr (Or.inr ⟨hclear.mpr hfill, ?_⟩)
      have hsecond := Attempt.bind_ok (k := fun _ => recount opts plan)
        ((performs_fill opts plan).done m trivial hfill)
      obtain ⟨hkeep, hconfig, hfiles⟩ := dir_filled plan m.state
      rw [hnodes] at hfiles
      have hfound : (m.after (fillCost plan) (filled plan)).state.dir.loadNodes (fun i =>
          ((m.after (fillCost plan) (filled plan)).faults
            ((m.after (fillCost plan) (filled plan)).performed + i)).isNone) = recounted plan s := by
        rw [← hmid]
        rw [← hmid] at hfiles
        simp only [recounted, Faulty.after, Nat.add_assoc]
        exact loadNodes_congr hfiles _
      obtain ⟨t', hdir, hrecount⟩ := recount_eq opts plan (m.after (fillCost plan) (filled plan))
      rw [hfound] at hrecount
      refine ⟨t', ⟨?_, ?_, fun r hr => ?_⟩, ?_, hfirst.trans (hsecond.trans hrecount)⟩
      · rw [hdir]
        exact hkeep.trans hserver'
      · rw [hdir]
        exact hconfig
      · rw [hdir, show (m.after (fillCost plan) (filled plan)).state.dir.nodes = _ from hfiles]
        exact get?_withRecords hr _
      · rw [hdir]
        exact hfiles
    · obtain ⟨e, s', hrun, hkeep⟩ := (performs_fill opts plan).failed m trivial hfill
      refine Or.inr (Or.inl ⟨hestablish, fun hc => hfill (hclear.mp hc), e, s', ?_, hkeep.trans hserver'⟩)
      exact hfirst.trans (Attempt.bind_error hrun)
  · obtain ⟨e, s', hrun, hkeep⟩ := (performs_establish opts plan).failed s hserver hestablish
    exact Or.inl ⟨hestablish, e, s', Attempt.bind_error hrun, hkeep.trans hserver⟩

/-- What a plan is made of: the opened store, its fabric, and what they determine. -/
structure Planned (env : Env) (root : StoreRoot) (plan : MigrationPlan) (db : Data)
    (source : SourceFabric) : Prop where
  opened : ∃ name, openStore env.dec root = .ok (db, name)
  read : readSourceFabric env.texts db = .ok source
  identity : identityFromPreservedCa env.sdk env.mintedAt source.caPrivateKey source.rcacTlv
    source.fabricId source.vendorId source.controllerNodeId source.ipkEpochKey = .ok plan.identity
  nodes : ∃ rootPublicKey, planNodes env.texts env.dates db rootPublicKey = .ok plan.nodes
  config : plan.config = configFrom source plan.nodes
  checks : plan.report.checks = runAll env.sdk env.checkedAt plan.identity source plan.config plan.nodes
  wrote : plan.report.wrote = none

theorem prepare_eq_ok {env : Env} {root : StoreRoot} {plan : MigrationPlan}
    (h : prepare env root = .ok plan) : ∃ db source, Planned env root plan db source := by
  obtain ⟨⟨db, name⟩, hopen, h⟩ := bind_eq_ok h
  obtain ⟨source, hsource, h⟩ := bind_eq_ok h
  obtain ⟨key, _, h⟩ := bind_eq_ok h
  obtain ⟨identity, hidentity, h⟩ := bind_eq_ok h
  obtain ⟨nodes, hnodes, h⟩ := bind_eq_ok h
  obtain ⟨_, _, h⟩ := bind_eq_ok h
  cases h
  exact ⟨db, source, {
    opened := ⟨name, mapError_eq_ok hopen⟩
    read := mapError_eq_ok hsource
    identity := mapError_eq_ok hidentity
    nodes := ⟨key, mapError_eq_ok hnodes⟩
    config := rfl
    checks := rfl
    wrote := rfl }⟩

theorem prepare_wrote {env : Env} {root : StoreRoot} {plan : MigrationPlan}
    (h : prepare env root = .ok plan) : plan.report.wrote = none := by
  obtain ⟨_, _, hplanned⟩ := prepare_eq_ok h
  exact hplanned.wrote

section Run

variable {env : Env} {opts : Options} {w : World} {plan : MigrationPlan}

theorem run_of_reaches (h : Reaches env opts w plan) : run env opts w =
    ((writePlan opts plan w.disk).1, { w with disk := (writePlan opts plan w.disk).2 }) := by
  simp [run, h.otherPath, h.prepared, h.checked, h.write]

/-- Short of the write phase, nothing is written and nothing is reported as written. -/
theorem run_of_not_reaches (h : ∀ plan, ¬ Reaches env opts w plan) : (run env opts w).2 = w ∧
    ∀ report, (run env opts w).1 = .ok report → report.wrote = none := by
  unfold run
  split
  · exact ⟨rfl, fun _ heq => by cases heq⟩
  next hpath =>
    split
    · exact ⟨rfl, fun _ heq => by cases heq⟩
    next plan hplan =>
      split
      · refine ⟨rfl, fun report heq => ?_⟩
        cases heq
        exact prepare_wrote hplan
      next hboth =>
        obtain ⟨hchecked, hwrite⟩ := not_or.mp hboth
        exact absurd ⟨by simpa using hpath, hplan, not_not.mp hchecked, not_not.mp hwrite⟩ (h plan)

theorem Reaches.unique {plan' : MigrationPlan} (h : Reaches env opts w plan)
    (h' : Reaches env opts w plan') : plan = plan' :=
  Except.ok.inj (h.prepared.symm.trans h'.prepared)

end Run

section Runs

/-- A byte string as matter.js writes it. -/
def taggedBytes (hex : String) : Json :=
  .str (tagPrefix ++ "Uint8Array\",\"__value__\":\"" ++ hex ++ "\"\x7d")

/-- The parser, on tagged byte strings. -/
def parseTaggedBytes (s : String) : Except String Json :=
  match stripSuffix "\"\x7d".toList s.toList with
  | some chars => .ok (.ofMembers [("__object__", .str "Uint8Array"),
      ("__value__", .str (.ofList (chars.drop (tagPrefix.length + 25))))])
  | none => .error "expected a document"

/-- The text of `n` zero bytes. -/
def zeros (n : Nat) : String := .ofList (List.replicate (2 * n) '0')

/-- A fabric whose keys are all zero, with the given node entries. -/
def zeroFabric (nodes : List Json) : Data := .ofList
  [("credentials", .ofList [("fabric", .ofMembers [("fabricId", .ofU64 1), ("nodeId", .ofU64 112233),
      ("rootVendorId", .ofU64 65521), ("identityProtectionKey", taggedBytes (zeros 16)),
      ("operationalIdentityProtectionKey", taggedBytes (zeros 16)),
      ("operationalId", taggedBytes (zeros 8))])]),
    ("certificates", .ofList [("rootKeyPair", .ofMembers [("privateKey", taggedBytes (zeros 32))]),
      ("rootCertBytes", taggedBytes (zeros 1))]),
    ("nodes", .ofList [("commissionedNodes", .arr nodes)])]

/-- A root certificate without a fabric id, and keys that fit the zero fabric. -/
def zeroSdk : Sdk where
  rcacFabricId _ := .error "NotFound"
  rcacCaId _ := .ok 1
  rcacPublicKey _ := .ok [4]
  serialIsDerCanonical _ := .ok true
  mint _ _ _ _ _ _ := .ok ⟨[1], [2], 0⟩
  verifyIdentity _ _ := .ok ()
  deriveOperationalIpk _ _ := .ok (List.replicate 16 0)

/-- An environment in which the snapshot of the store is `data`. -/
def zeroEnv (data : Data) : Env where
  dec := {
    gunzip := fun _ => .error "not compressed"
    fromStr := parseTaggedBytes
    fromSlice := fun _ => .ok (.ofMembers [("kind", .str "wal"), ("type", .str "kv")])
    snapshot := fun _ => .ok (⟨0, 0⟩, data) }
  toText := fun _ => ""
  sdk := zeroSdk
  dates := ⟨fun _ => "", ""⟩
  canonicalize := some
  mintedAt := 0
  checkedAt := 0

/-- A store with one namespace, of a snapshot only. -/
def zeroRoot : StoreRoot :=
  .ok [⟨"server-1-fff1", .dir ⟨some .empty, none, some ⟨.empty, none⟩, none⟩⟩]

def writeOptions : Options := ⟨"matterjs", "matter-rs", true⟩

/-- A destination that holds the given node files and nothing else. -/
def destination (nodes : OrdMap String FileText) (faults : Nat → Option String) : World where
  source := zeroRoot
  disk := ⟨⟨⟨false, false, false, none, none, nodes, ∅⟩, 0⟩, faults, 0⟩

/-- The entry of a node that was never reached. -/
def nodeEntry (id : NodeId) : Json := .arr [.ofU64 id, .obj []]

end Runs

end MatterRsServer.Migrate
