import MatterRsServer.Controller.Storage
import MatterRsServer.Lib.Utf8

/-!
# The controller's identity

`ensure_identity` of `crates/stack/src/identity.rs`: the stored identity is installed, and one
is minted only where there is no `server.json`. What `rs-matter` does with certificates, keys and
fabrics is a parameter, and any of it may fail.
-/
namespace MatterRsServer.Stack
open Lib Controller

/-- `CONTROLLER_NODE_ID`. -/
def controllerNodeId : NodeId := 112233

/-- `FABRIC_LABEL_MAX_BYTES`. -/
def fabricLabelMaxBytes : Nat := 32

/-- `RCAC_DRAW_ATTEMPTS`. -/
def rcacDrawAttempts : Nat := 32

/-- The arguments of `Fabrics::add`; there is never an ICAC. -/
structure FabricArgs where
  controllerKey : Bytes
  rcacTlv : Bytes
  nocTlv : Bytes
  ipk : Bytes
  vendorId : UInt16
  caseAdminSubject : NodeId

/-- What `Fabrics::add` says of the fabric that it has added. -/
structure Installed where
  fabIdx : UInt8
  compressed : UInt64

/-- `rs-matter`, over the state `μ` of the `Matter` instance and `κ` of the crypto backend:
`serialNumber` and `certNodeId` read a certificate, `secretKey` and `aeadKey` are the `try_new` of
the two canonical forms. -/
structure RsMatter (μ κ : Type) where
  serialNumber : Bytes → Except String Bytes
  certNodeId : Bytes → Except String NodeId
  secretKey : Bytes → Except String Bytes
  aeadKey : Bytes → Except String Bytes
  generateRcac : κ → UInt64 → Except String (Bytes × Bytes) × κ
  generateSecretKey : κ → Except String Bytes × κ
  csr : Bytes → Except String Bytes
  writeCanon : Bytes → Except String Bytes
  generateNoc : κ → (caKey rcac csr : Bytes) → NodeId → Except String Bytes × κ
  randomIpk : κ → Except String Bytes × κ
  addFabric : μ → FabricArgs → Except String Installed × μ
  removeFabric : μ → UInt8 → Except String Unit × μ
  updateLabel : μ → UInt8 → String → Except String Unit × μ

abbrev Crypto (κ α : Type) := ExceptT String (StateM κ) α

/-- The process as far as `ensure_identity` touches it; `removals` are the fabrics whose removal
it has requested. -/
structure Boot (μ κ : Type) where
  disk : Disk
  matter : μ
  crypto : κ
  removals : List UInt8

namespace RsMatter

variable {μ κ : Type}

/-- `serial_is_der_canonical`. -/
def serialIsDerCanonical (rs : RsMatter μ κ) (cert : Bytes) : Except String Bool :=
  (rs.serialNumber cert).map fun
    | [] => false
    | first :: rest =>
      if first &&& 0x80 ≠ 0 then false
      else !(first = 0 && rest.head?.any fun b => b &&& 0x80 = 0)

/-- The loop of `generate_usable_rcac`, with the draws that are left. -/
def drawRcac (rs : RsMatter μ κ) (fabricId : UInt64) : Nat → Option String → Crypto κ (Bytes × Bytes)
  | 0, lastErr => throw (lastErr.getD "InvalidData")
  | draws + 1, lastErr => fun k =>
    match rs.generateRcac k fabricId with
    | (.error e, k') => drawRcac rs fabricId draws (some e) k'
    | (.ok (priv, rcac), k') =>
      match rs.serialIsDerCanonical rcac with
      | .error e => (.error e, k')
      | .ok true => (.ok (priv, rcac), k')
      | .ok false => drawRcac rs fabricId draws lastErr k'

/-- `generate_usable_rcac`. -/
def generateUsableRcac (rs : RsMatter μ κ) (fabricId : UInt64) : Crypto κ (Bytes × Bytes) :=
  rs.drawRcac fabricId rcacDrawAttempts none

/-- `finish_identity`. -/
def finishIdentity (rs : RsMatter μ κ) (fabricId : UInt64) (vendorId : UInt16)
    (rcacPriv rcac : Bytes) : Crypto κ ServerIdentity := do
  let controllerSecretKey ← ExceptT.mk rs.generateSecretKey
  let csr ← ExceptT.mk (pure (rs.csr controllerSecretKey))
  let controllerKey ← ExceptT.mk (pure (rs.writeCanon controllerSecretKey))
  let controllerNoc ← ExceptT.mk fun k => rs.generateNoc k rcacPriv rcac csr controllerNodeId
  let ipk ← ExceptT.mk rs.randomIpk
  return {
    version := identityVersion
    fabricId := fabricId
    vendorId := vendorId
    controllerNodeId := controllerNodeId
    compressedFabricId := 0
    caPrivateKey := rcacPriv
    rcacTlv := rcac
    controllerPrivateKey := controllerKey
    controllerNocTlv := controllerNoc
    ipk := ipk }

/-- `generate`. -/
def generate (rs : RsMatter μ κ) (fabricId : UInt64) (vendorId : UInt16) : Crypto κ ServerIdentity := do
  let (rcacPriv, rcac) ← rs.generateUsableRcac fabricId
  rs.finishIdentity fabricId vendorId rcacPriv rcac

/-- What `install` hands to `Fabrics::add`, when the stored node id is that of the NOC. -/
def fabricArgs (rs : RsMatter μ κ) (id : ServerIdentity) : Except String FabricArgs := do
  let nocNodeId ← rs.certNodeId id.controllerNocTlv
  if nocNodeId ≠ id.controllerNodeId then throw "InvalidData"
  let controllerKey ← rs.secretKey id.controllerPrivateKey
  let ipk ← rs.aeadKey id.ipk
  return ⟨controllerKey, id.rcacTlv, id.controllerNocTlv, ipk, id.vendorId, id.controllerNodeId⟩

/-- `install`. -/
def install (rs : RsMatter μ κ) (id : ServerIdentity) : Attempt (Boot μ κ) String Installed := fun s =>
  match rs.fabricArgs id with
  | .error e => (.error e, s)
  | .ok args =>
    let added := rs.addFabric s.state.matter args
    (added.1, { s with state := { s.state with matter := added.2 } })

/-- `Fabrics::remove`. -/
def remove (rs : RsMatter μ κ) (fabIdx : UInt8) : Attempt (Boot μ κ) String Unit := fun s =>
  let removed := rs.removeFabric s.state.matter fabIdx
  (removed.1, { s with state := { s.state with
    matter := removed.2
    removals := s.state.removals ++ [fabIdx] } })

/-- `Fabrics::update_label`. -/
def label (rs : RsMatter μ κ) (fabIdx : UInt8) (name : String) : Attempt (Boot μ κ) String Unit := fun s =>
  let updated := rs.updateLabel s.state.matter fabIdx name
  (updated.1, { s with state := { s.state with matter := updated.2 } })

theorem crypto_bind {α β : Type} {m : Crypto κ α} {f : α → Crypto κ β} {k k' : κ} {b : β}
    (h : (m >>= f) k = (.ok b, k')) : ∃ a k1, m k = (.ok a, k1) ∧ f a k1 = (.ok b, k') := by
  change (ExceptT.bindCont f : _ → StateM κ (Except String β)) (m k).1 (m k).2 = _ at h
  cases hm : m k with
  | mk r k1 =>
    rw [hm] at h
    cases r with
    | error e => cases h
    | ok a => exact ⟨a, k1, rfl, h⟩

/-- A root certificate that is drawn has a serial number that every peer encodes in one way. -/
theorem canonical_of_drawRcac {rs : RsMatter μ κ} {fabricId : UInt64} {draws : Nat}
    {lastErr : Option String} {k k' : κ} {priv rcac : Bytes}
    (h : rs.drawRcac fabricId draws lastErr k = (.ok (priv, rcac), k')) :
    rs.serialIsDerCanonical rcac = .ok true := by
  induction draws generalizing lastErr k with
  | zero => cases h
  | succ draws ih =>
    simp only [drawRcac] at h
    split at h
    · exact ih h
    · split at h
      · cases h
      · cases h
        assumption
      · exact ih h

/-- What a minted identity is: the requested fabric and vendor, under the controller's own node
id, with a root certificate that every peer accepts. -/
theorem generate_minted {rs : RsMatter μ κ} {fabricId : UInt64} {vendorId : UInt16}
    {id : ServerIdentity} {k k' : κ} (h : rs.generate fabricId vendorId k = (.ok id, k')) :
    id.fabricId = fabricId ∧ id.vendorId = vendorId ∧ id.controllerNodeId = controllerNodeId ∧
      rs.serialIsDerCanonical id.rcacTlv = .ok true := by
  obtain ⟨⟨priv, rcac⟩, k1, hdraw, h⟩ := crypto_bind h
  obtain ⟨controllerSecretKey, k2, -, h⟩ := crypto_bind h
  obtain ⟨csr, k3, -, h⟩ := crypto_bind h
  obtain ⟨controllerKey, k4, -, h⟩ := crypto_bind h
  obtain ⟨controllerNoc, k5, -, h⟩ := crypto_bind h
  obtain ⟨ipk, k6, -, h⟩ := crypto_bind h
  cases h
  exact ⟨rfl, rfl, rfl, canonical_of_drawRcac hdraw⟩

end RsMatter

/-- The longest prefix of at most `budget` bytes. -/
def takeBytes : Nat → List Char → List Char
  | _, [] => []
  | budget, c :: rest =>
    if c.utf8Size ≤ budget then c :: takeBytes (budget - c.utf8Size) rest else []

/-- `truncate_to_bytes`. -/
def truncateToBytes (s : String) (maxBytes : Nat) : String :=
  if s.utf8ByteSize ≤ maxBytes then s else .ofList (takeBytes maxBytes s.toList)

theorem takeBytes_isPrefix (budget : Nat) (l : List Char) : takeBytes budget l <+: l := by
  induction l generalizing budget with
  | nil => exact List.nil_prefix
  | cons c rest ih =>
    unfold takeBytes
    split
    · exact List.cons_prefix_cons.mpr ⟨rfl, ih _⟩
    · exact List.nil_prefix

theorem takeBytes_fits (budget : Nat) (l : List Char) :
    ((takeBytes budget l).map Char.utf8Size).sum ≤ budget := by
  induction l generalizing budget with
  | nil => simp [takeBytes]
  | cons c rest ih =>
    unfold takeBytes
    split
    · have hrest := ih (budget - c.utf8Size)
      simp only [List.map_cons, List.sum_cons]
      omega
    · simp

/-- A label that was cut is a beginning of the label, and is not refused for its length. -/
theorem truncateToBytes_fits (s : String) (maxBytes : Nat) :
    (truncateToBytes s maxBytes).utf8ByteSize ≤ maxBytes ∧
      (truncateToBytes s maxBytes).toList <+: s.toList := by
  unfold truncateToBytes
  split
  next hfits => exact ⟨hfits, List.prefix_refl _⟩
  next =>
    rw [Utf8.utf8ByteSize_ofList, String.toList_ofList]
    exact ⟨takeBytes_fits _ _, takeBytes_isPrefix _ _⟩

example : truncateToBytes "ééé" 5 = "éé" := by decide

section Ensure

variable {μ κ : Type}

def onDisk {α : Type} (m : Attempt Disk String α) : Attempt (Boot μ κ) String α :=
  m.focus Boot.disk fun boot disk => { boot with disk := disk }

def onCrypto {α : Type} (m : Crypto κ α) : Attempt (Boot μ κ) String α := fun s =>
  let r := m s.state.crypto
  (r.1, { s with state := { s.state with crypto := r.2 } })

/-- The branch of a stored identity: only the compressed id is ever corrected, and whether that
is saved does not matter. -/
def keepStored (rs : RsMatter μ κ) (stored : ServerIdentity) :
    Attempt (Boot μ κ) String (ServerIdentity × UInt8) := do
  let installed ← rs.install stored
  let corrected := { stored with compressedFabricId := installed.compressed }
  if installed.compressed ≠ stored.compressedFabricId then do
    Attempt.ignoring (onDisk (Disk.saveIdentity corrected))
    return (corrected, installed.fabIdx)
  else return (stored, installed.fabIdx)

/-- A new identity, installed but not yet stored. -/
def generateAndInstall (rs : RsMatter μ κ) (fabricId : UInt64) (vendorId : UInt16) :
    Attempt (Boot μ κ) String (ServerIdentity × UInt8) := do
  let identity ← onCrypto (rs.generate fabricId vendorId)
  let installed ← rs.install identity
  return ({ identity with compressedFabricId := installed.compressed }, installed.fabIdx)

/-- The branch of no `server.json`: when the new identity cannot be stored, its fabric is
backed out. -/
def createFirst (rs : RsMatter μ κ) (fabricId : UInt64) (vendorId : UInt16) :
    Attempt (Boot μ κ) String (ServerIdentity × UInt8) := do
  let (identity, fabIdx) ← generateAndInstall rs fabricId vendorId
  Attempt.cleaning (onDisk (Disk.createIdentity identity)) (rs.remove fabIdx)
  return (identity, fabIdx)

def provideIdentity (rs : RsMatter μ κ) (fabricId : UInt64) (vendorId : UInt16) :
    Option ServerIdentity → Attempt (Boot μ κ) String (ServerIdentity × UInt8)
  | some stored => keepStored rs stored
  | none => createFirst rs fabricId vendorId

/-- `ensure_identity`. -/
def ensureIdentity (rs : RsMatter μ κ) (fabricId : UInt64) (vendorId : UInt16) (fabricLabel : String) :
    Attempt (Boot μ κ) String (ServerIdentity × UInt8) := do
  let loaded ← onDisk Disk.loadIdentity
  let (identity, fabIdx) ← provideIdentity rs fabricId vendorId loaded
  Attempt.ignoring (rs.label fabIdx (truncateToBytes fabricLabel fabricLabelMaxBytes))
  return (identity, fabIdx)

variable {rs : RsMatter μ κ} {s : Faulty (Boot μ κ)}

/-- Nothing has happened to the files, and no removal was requested. -/
structure Aside (s s' : Faulty (Boot μ κ)) : Prop where
  disk : s'.state.disk = s.state.disk
  removals : s'.state.removals = s.state.removals

theorem Aside.trans {s s' t : Faulty (Boot μ κ)} (h : Aside s s') (h' : Aside s' t) : Aside s t :=
  ⟨h'.disk.trans h.disk, h'.removals.trans h.removals⟩

theorem aside_install (rs : RsMatter μ κ) (id : ServerIdentity) (s : Faulty (Boot μ κ)) :
    Aside s (rs.install id s).2 := by
  unfold RsMatter.install
  split
  · exact ⟨rfl, rfl⟩
  · exact ⟨rfl, rfl⟩

theorem aside_generateAndInstall (rs : RsMatter μ κ) (fabricId : UInt64) (vendorId : UInt16)
    (s : Faulty (Boot μ κ)) : Aside s (generateAndInstall rs fabricId vendorId s).2 := by
  unfold generateAndInstall
  obtain ⟨r, s1, hgenerate⟩ : ∃ r s1, onCrypto (rs.generate fabricId vendorId) s = (r, s1) := ⟨_, _, rfl⟩
  have hfirst : Aside s s1 := by
    cases hgenerate
    exact ⟨rfl, rfl⟩
  cases r with
  | error e =>
    rw [Attempt.bind_error hgenerate]
    exact hfirst
  | ok identity =>
    rw [Attempt.bind_ok hgenerate]
    have hsecond := hfirst.trans (aside_install rs identity s1)
    obtain ⟨r, s2, hinstall⟩ : ∃ r s2, rs.install identity s1 = (r, s2) := ⟨_, _, rfl⟩
    rw [hinstall] at hsecond
    cases r with
    | error e =>
      rw [Attempt.bind_error hinstall]
      exact hsecond
    | ok installed =>
      rw [Attempt.bind_ok hinstall]
      exact hsecond

/-- What reading the identity comes to. -/
theorem onDisk_loadIdentity (s : Faulty (Boot μ κ)) :
    onDisk Disk.loadIdentity s =
      (match s.faults s.performed with
        | some reason => .error reason
        | none => s.state.disk.dir.loadIdentity, s.after 1 fun boot => boot) := by
  unfold onDisk Attempt.focus
  cases hfault : s.faults s.performed with
  | some reason =>
    have hop : (Disk.fileOp fun dir => dir) ⟨s.state.disk, s.faults, s.performed⟩ =
        (.error reason, ⟨s.state.disk, s.faults, s.performed + 1⟩) := by
      simp only [Disk.fileOp, Attempt.operation, hfault]
    have hload : Disk.loadIdentity ⟨s.state.disk, s.faults, s.performed⟩ =
        (.error reason, ⟨s.state.disk, s.faults, s.performed + 1⟩) := Attempt.bind_error hop
    rw [hload]
    rfl
  | none =>
    have hop : (Disk.fileOp fun dir => dir) ⟨s.state.disk, s.faults, s.performed⟩ =
        (.ok (), ⟨s.state.disk, s.faults, s.performed + 1⟩) := by
      simp only [Disk.fileOp, Attempt.operation, hfault]
      rfl
    have hload : Disk.loadIdentity ⟨s.state.disk, s.faults, s.performed⟩ =
        (s.state.disk.dir.loadIdentity, ⟨s.state.disk, s.faults, s.performed + 1⟩) := Attempt.bind_ok hop
    rw [hload]
    rfl

/-- A file operation of the disk that is done, or has failed, within the process. -/
theorem onDisk_done_or_failed {P : Disk → Prop} {m : Disk.FileOp} {n : Nat} {f : Disk → Disk}
    (h : Attempt.Performs P m n f Disk.SameFiles) (hs : P s.state.disk) :
    ∃ s', s'.state.removals = s.state.removals ∧
      ((onDisk m s = (.ok (), s') ∧ s'.state.disk = f s.state.disk) ∨
        ∃ e, onDisk m s = (.error e, s') ∧ s.state.disk.SameFiles s'.state.disk) := by
  unfold onDisk Attempt.focus
  obtain hdone | ⟨e, t, hfailed, hsame⟩ :=
    h.done_or_failed (s := ⟨s.state.disk, s.faults, s.performed⟩) hs
  · rw [hdone]
    exact ⟨⟨{ s.state with disk := f s.state.disk }, s.faults, s.performed + n⟩, rfl, .inl ⟨rfl, rfl⟩⟩
  · rw [hfailed]
    exact ⟨⟨{ s.state with disk := t.state }, t.faults, t.performed⟩, rfl, .inr ⟨e, rfl, hsame⟩⟩

theorem saveIdentity_keeps {stored : ServerIdentity} (compressed : UInt64)
    (hstored : s.state.disk.dir.loadIdentity = .ok (some stored)) :
    ∃ kept, (onDisk (Disk.saveIdentity { stored with compressedFabricId := compressed })
      s).2.state.disk.dir.loadIdentity = .ok (some { stored with compressedFabricId := kept }) := by
  obtain ⟨s', -, ⟨hsave, hdisk⟩ | ⟨e, hsave, hdisk⟩⟩ := onDisk_done_or_failed (s := s)
    (Disk.performs_writeJsonAtomic .server
      ({ stored with compressedFabricId := compressed } : ServerIdentity).toJson true) trivial
  · refine ⟨compressed, ?_⟩
    rw [Disk.saveIdentity, hsave, hdisk, Disk.loadIdentity_wrote]
  · refine ⟨stored.compressedFabricId, ?_⟩
    rw [Disk.saveIdentity, hsave, hdisk.loadIdentity, hstored]

/-- A stored identity stays what it is, up to its compressed id. -/
theorem keepStored_keeps {stored : ServerIdentity}
    (hstored : s.state.disk.dir.loadIdentity = .ok (some stored)) :
    (∃ compressed, (keepStored rs stored s).2.state.disk.dir.loadIdentity =
      .ok (some { stored with compressedFabricId := compressed })) ∧
    ∀ id fabIdx, (keepStored rs stored s).1 = .ok (id, fabIdx) →
      ∃ derived, id = { stored with compressedFabricId := derived } := by
  have haside := aside_install rs stored s
  obtain ⟨r, s1, hinstall⟩ : ∃ r s1, rs.install stored s = (r, s1) := ⟨_, _, rfl⟩
  rw [hinstall] at haside
  have hload : s1.state.disk.dir.loadIdentity = .ok (some stored) := by
    rw [haside.disk, hstored]
  unfold keepStored
  cases r with
  | error e =>
    rw [Attempt.bind_error hinstall]
    exact ⟨⟨stored.compressedFabricId, hload⟩, nofun⟩
  | ok installed =>
    rw [Attempt.bind_ok hinstall]
    by_cases hsame : installed.compressed = stored.compressedFabricId
    · simp only [hsame, ne_eq, not_true_eq_false, if_false]
      refine ⟨⟨stored.compressedFabricId, hload⟩, fun id fabIdx hid => ?_⟩
      cases hid
      exact ⟨_, rfl⟩
    · simp only [ne_eq, hsame, not_false_eq_true, if_true]
      rw [Attempt.ignoring_bind]
      refine ⟨saveIdentity_keeps _ hload, fun id fabIdx hid => ?_⟩
      cases hid
      exact ⟨_, rfl⟩

/-- A new identity is on the disk when it is returned; where it cannot be stored, its fabric
is to be removed. -/
theorem createFirst_outcome (rs : RsMatter μ κ) (fabricId : UInt64) (vendorId : UInt16)
    (hserver : s.state.disk.dir.server = none) :
    (∀ id fabIdx, (createFirst rs fabricId vendorId s).1 = .ok (id, fabIdx) →
      (createFirst rs fabricId vendorId s).2.state.disk.dir.loadIdentity = .ok (some id)) ∧
    (∀ e, (createFirst rs fabricId vendorId s).1 = .error e →
      (createFirst rs fabricId vendorId s).2.state.disk.dir.server = none) ∧
    ∀ id fabIdx s1, generateAndInstall rs fabricId vendorId s = (.ok (id, fabIdx), s1) →
      ∀ e, (onDisk (Disk.createIdentity id) s1).1 = .error e →
        (createFirst rs fabricId vendorId s).1 = .error e ∧
        (createFirst rs fabricId vendorId s).2.state.removals = s.state.removals ++ [fabIdx] := by
  have haside := aside_generateAndInstall rs fabricId vendorId s
  obtain ⟨r, s1, hnew⟩ : ∃ r s1, generateAndInstall rs fabricId vendorId s = (r, s1) := ⟨_, _, rfl⟩
  rw [hnew] at haside
  have hnone : s1.state.disk.dir.server = none := by
    rw [haside.disk, hserver]
  unfold createFirst
  rw [hnew]
  cases r with
  | error e =>
    rw [Attempt.bind_error hnew]
    exact ⟨nofun, fun _ _ => hnone, nofun⟩
  | ok new =>
    obtain ⟨identity, fabIdx⟩ := new
    rw [Attempt.bind_ok hnew]
    obtain ⟨s2, hremovals, ⟨hcreate, hdisk⟩ | ⟨e, hcreate, hdisk⟩⟩ :=
      onDisk_done_or_failed (s := s1) (Disk.performs_createIdentity identity) hnone
    · simp only [Attempt.bind_ok (Attempt.cleaning_ok hcreate)]
      refine ⟨fun id idx hid => ?_, nofun, fun id idx s1' hid e he => ?_⟩
      · cases hid
        change s2.state.disk.dir.loadIdentity = _
        rw [hdisk, Disk.loadIdentity_wrote]
      · cases hid
        rw [hcreate] at he
        cases he
    · simp only [Attempt.bind_error (Attempt.cleaning_error hcreate)]
      refine ⟨nofun, fun _ _ => ?_, fun id idx s1' hid e' he => ?_⟩
      · change s2.state.disk.dir.server = none
        rw [hdisk.server, hnone]
      · cases hid
        rw [hcreate] at he
        cases he
        refine ⟨rfl, ?_⟩
        change s2.state.removals ++ [_] = _
        rw [hremovals, haside.removals]

/-- The label is of no consequence. -/
theorem ensureIdentity_provided (rs : RsMatter μ κ) (fabricId : UInt64) (vendorId : UInt16)
    (fabricLabel : String) {loaded : Option ServerIdentity}
    {s1 : Faulty (Boot μ κ)} (hload : onDisk Disk.loadIdentity s = (.ok loaded, s1)) :
    (ensureIdentity rs fabricId vendorId fabricLabel s).1 =
      (provideIdentity rs fabricId vendorId loaded s1).1 ∧
    Aside (provideIdentity rs fabricId vendorId loaded s1).2
      (ensureIdentity rs fabricId vendorId fabricLabel s).2 := by
  unfold ensureIdentity
  rw [Attempt.bind_ok hload]
  obtain ⟨r, s2, hprovide⟩ : ∃ r s2, provideIdentity rs fabricId vendorId loaded s1 = (r, s2) :=
    ⟨_, _, rfl⟩
  rw [hprovide]
  cases r with
  | error e =>
    rw [Attempt.bind_error hprovide]
    exact ⟨rfl, rfl, rfl⟩
  | ok provided =>
    rw [Attempt.bind_ok hprovide]
    simp only [Attempt.ignoring_bind]
    exact ⟨rfl, rfl, rfl⟩

/-- Whatever `rs-matter` does and whichever operations fail: a stored identity stays what it is
but for its compressed id; a file that cannot be read, or is no identity, is an error and is
left alone; where there was none, what is returned is what the file now holds; and when it
could not be created there is still none, and the fabric that was installed is to be removed. -/
theorem ensureIdentity_never_loses (rs : RsMatter μ κ) (s : Faulty (Boot μ κ)) (fabricId : UInt64)
    (vendorId : UInt16) (fabricLabel : String) :
    (∀ stored, s.state.disk.dir.loadIdentity = .ok (some stored) →
      (∃ compressed, (ensureIdentity rs fabricId vendorId fabricLabel s).2.state.disk.dir.loadIdentity =
        .ok (some { stored with compressedFabricId := compressed })) ∧
      ∀ id fabIdx, (ensureIdentity rs fabricId vendorId fabricLabel s).1 = .ok (id, fabIdx) →
        ∃ derived, id = { stored with compressedFabricId := derived }) ∧
    ((∃ reason, s.faults s.performed = some reason) ∨ (∃ e, s.state.disk.dir.loadIdentity = .error e) →
      (∃ e, (ensureIdentity rs fabricId vendorId fabricLabel s).1 = .error e) ∧
      (ensureIdentity rs fabricId vendorId fabricLabel s).2.state.disk = s.state.disk) ∧
    (s.state.disk.dir.server = none →
      (∀ id fabIdx, (ensureIdentity rs fabricId vendorId fabricLabel s).1 = .ok (id, fabIdx) →
        (ensureIdentity rs fabricId vendorId fabricLabel s).2.state.disk.dir.loadIdentity =
          .ok (some id)) ∧
      (∀ e, (ensureIdentity rs fabricId vendorId fabricLabel s).1 = .error e →
        (ensureIdentity rs fabricId vendorId fabricLabel s).2.state.disk.dir.server = none) ∧
      (s.faults s.performed = none → ∀ id fabIdx s1,
        generateAndInstall rs fabricId vendorId (s.after 1 fun boot => boot) = (.ok (id, fabIdx), s1) →
        ∀ e, (onDisk (Disk.createIdentity id) s1).1 = .error e →
          (ensureIdentity rs fabricId vendorId fabricLabel s).1 = .error e ∧
          (ensureIdentity rs fabricId vendorId fabricLabel s).2.state.removals =
            s.state.removals ++ [fabIdx])) := by
  have hread := onDisk_loadIdentity s
  cases hfault : s.faults s.performed with
  | some reason =>
    rw [hfault] at hread
    have hends : ensureIdentity rs fabricId vendorId fabricLabel s =
        (.error reason, s.after 1 fun boot => boot) := Attempt.bind_error hread
    rw [hends]
    refine ⟨fun stored hstored => ⟨⟨stored.compressedFabricId, hstored⟩, nofun⟩,
      fun _ => ⟨⟨reason, rfl⟩, rfl⟩, fun hserver => ⟨nofun, fun _ _ => hserver, nofun⟩⟩
  | none =>
    rw [hfault] at hread
    cases hfile : s.state.disk.dir.loadIdentity with
    | error e =>
      rw [hfile] at hread
      have hends : ensureIdentity rs fabricId vendorId fabricLabel s =
          (.error e, s.after 1 fun boot => boot) := Attempt.bind_error hread
      rw [hends]
      refine ⟨nofun, fun _ => ⟨⟨e, rfl⟩, rfl⟩, fun hserver => ?_⟩
      rw [StorageDir.loadIdentity_of_none hserver] at hfile
      cases hfile
    | ok loaded =>
      rw [hfile] at hread
      obtain ⟨hresult, haside⟩ := ensureIdentity_provided rs fabricId vendorId fabricLabel hread
      rw [hresult, haside.disk, haside.removals]
      cases loaded with
      | some stored =>
        refine ⟨fun id hid => ?_, ?_, fun hserver => ?_⟩
        · cases hid
          exact keepStored_keeps (s := s.after 1 fun boot => boot) hfile
        · rintro (⟨reason, hreason⟩ | ⟨e, he⟩)
          · cases hreason
          · cases he
        · rw [StorageDir.loadIdentity_of_none hserver] at hfile
          cases hfile
      | none =>
        refine ⟨nofun, ?_, fun hserver => ?_⟩
        · rintro (⟨reason, hreason⟩ | ⟨e, he⟩)
          · cases hreason
          · cases he
        · obtain ⟨hstored, hnone, hcreate⟩ :=
            createFirst_outcome rs fabricId vendorId (s := s.after 1 fun boot => boot) hserver
          exact ⟨hstored, hnone, fun _ => hcreate⟩

end Ensure

section FirstBoot

/-- Every certificate has the serial number 1 and the controller's node id, and every fabric
the compressed id 5. -/
def plainMatter : RsMatter Unit Unit where
  serialNumber _ := .ok [1]
  certNodeId _ := .ok controllerNodeId
  secretKey key := .ok key
  aeadKey key := .ok key
  generateRcac k _ := (.ok ([2], [3]), k)
  generateSecretKey k := (.ok [4], k)
  csr key := .ok key
  writeCanon key := .ok key
  generateNoc k _ _ _ _ := (.ok [6], k)
  randomIpk k := (.ok [7], k)
  addFabric m _ := (.ok ⟨1, 5⟩, m)
  removeFabric m _ := (.ok (), m)
  updateLabel m _ _ := (.ok (), m)

/-- An empty storage directory; the `n`-th file operation fails. -/
def firstBoot (n : Nat) : Faulty (Boot Unit Unit) where
  state := ⟨⟨⟨true, true, true, none, none, ∅, ∅⟩, 0⟩, (), (), []⟩
  faults i := if i = n then some "disk full" else none
  performed := 0

def mintedIdentity : ServerIdentity := ⟨1, 9, 0xFFF1, controllerNodeId, 5, [2], [3], [4], [6], [7]⟩

/-- A first start that succeeds, one whose write fails, and a restart with other arguments. -/
theorem ensureIdentity_never_loses_firstBoot :
    (ensureIdentity plainMatter 9 0xFFF1 "Home" (firstBoot 100)).2.state.disk.dir.loadIdentity =
      .ok (some mintedIdentity) ∧
    (ensureIdentity plainMatter 9 0xFFF1 "Home" (firstBoot 3)).2.state.removals = [1] ∧
    ∃ compressed, (ensureIdentity plainMatter 4 0x1234 "Other"
      (ensureIdentity plainMatter 9 0xFFF1 "Home" (firstBoot 100)).2).2.state.disk.dir.loadIdentity =
        .ok (some { mintedIdentity with compressedFabricId := compressed }) := by
  have hcreated := (ensureIdentity_never_loses plainMatter (firstBoot 100) 9 0xFFF1 "Home").2.2 rfl
  have hfailed := (ensureIdentity_never_loses plainMatter (firstBoot 3) 9 0xFFF1 "Home").2.2 rfl
  have hloaded := hcreated.1 mintedIdentity 1 rfl
  refine ⟨hloaded, (hfailed.2.2 rfl mintedIdentity 1 _ rfl "disk full" rfl).2, ?_⟩
  exact ((ensureIdentity_never_loses plainMatter _ 4 0x1234 "Other").1 mintedIdentity hloaded).1

end FirstBoot

end MatterRsServer.Stack
