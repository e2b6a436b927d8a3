import Mathlib.Data.Int.CardIntervalMod
import MatterRsServer.Controller.DeviceCommands
import MatterRsServer.Stack.CommandArgs

/-!
# Opening a commissioning window

`ops/window.rs`: a passcode, a discriminator and a salt are drawn, the device is told the verifier
of the passcode, and the caller gets the passcode and the codes made of it. The random number
generator, the arithmetic on the curve and the texts of the codes are parameters.
-/
namespace MatterRsServer.Stack.Im
open Lib Wire Gen Controller

def maxPasscode : UInt32 := 99999998

def invalidPasscodes : List UInt32 :=
  [0, 11111111, 22222222, 33333333, 44444444, 55555555, 66666666, 77777777, 88888888, 99999999,
    12345678, 87654321]

def pakeIterations : UInt32 := 2000

def saltLen : Nat := 32

/-- `passcode_is_legal`. -/
def PasscodeIsLegal (passcode : UInt32) : Prop :=
  1 ≤ passcode ∧ passcode ≤ maxPasscode ∧ passcode ∉ invalidPasscodes

/-- `RngCore::fill_bytes`. -/
structure Rng (ρ : Type) where
  fillBytes : Nat → ρ → List UInt8 × ρ
  length_fillBytes : ∀ n r, (fillBytes n r).1.length = n

/-- A little-endian number. -/
def fromLeBytes (bytes : List UInt8) : Nat := bytes.foldr (fun b n => b.toNat + 256 * n) 0

/-- `to_le_bytes`. -/
def toLeBytes (n : UInt32) : List UInt8 :=
  [UInt8.ofNat n.toNat, UInt8.ofNat (n.toNat / 256), UInt8.ofNat (n.toNat / 65536),
    UInt8.ofNat (n.toNat / 16777216)]

/-- The reduction of a drawn word. -/
def passcodeOf (word : UInt32) : UInt32 := word % maxPasscode + 1

def discriminatorOf (word : UInt16) : UInt16 := word % 4096

section Draws
variable {ρ : Type} (rng : Rng ρ)

/-- One turn of the loop over passcodes. -/
def drawPasscode (r : ρ) : UInt32 × ρ :=
  let drawn := rng.fillBytes 4 r
  (passcodeOf (UInt32.ofNat (fromLeBytes drawn.1)), drawn.2)

/-- The generator after some turns. -/
def afterDraws (r : ρ) : Nat → ρ
  | 0 => r
  | n + 1 => (drawPasscode rng (afterDraws r n)).2

/-- The loop; `none` when it has not ended within its fuel. -/
def choosePasscode : Nat → ρ → Option (UInt32 × ρ)
  | 0, _ => none
  | fuel + 1, r =>
    let drawn := drawPasscode rng r
    if drawn.1 ∈ invalidPasscodes then choosePasscode fuel drawn.2 else some drawn

structure WindowSecrets where
  passcode : UInt32
  discriminator : UInt16
  salt : List UInt8

/-- What `generate_window_secrets` draws after the passcode. -/
def finishSecrets (passcode : UInt32) (r : ρ) : WindowSecrets :=
  let d := rng.fillBytes 2 r
  let salt := rng.fillBytes saltLen d.2
  ⟨passcode, discriminatorOf (UInt16.ofNat (fromLeBytes d.1)), salt.1⟩

/-- `generate_window_secrets`. -/
def generateWindowSecrets (fuel : Nat) (r : ρ) : Option WindowSecrets :=
  (choosePasscode rng fuel r).map fun chosen => finishSecrets rng chosen.1 chosen.2

end Draws

/-- Everything that is drawn from is in range, forbidden or not. -/
theorem toNat_passcodeOf (word : UInt32) : (passcodeOf word).toNat = word.toNat % 99999998 + 1 := by
  have hlt : word.toNat % 99999998 < 99999998 := Nat.mod_lt _ (by decide)
  have hmod : (word % maxPasscode).toNat = word.toNat % 99999998 := UInt32.toNat_mod _ _
  have hone : UInt32.toNat 1 = 1 := rfl
  rw [passcodeOf, UInt32.toNat_add, hmod, hone]
  exact Nat.mod_eq_of_lt (by omega)

theorem toNat_discriminatorOf (word : UInt16) :
    (discriminatorOf word).toNat = word.toNat % 4096 := UInt16.toNat_mod _ _

/-- How many numbers below `b` leave the remainder `v`. -/
theorem count_mod_eq {r v : Nat} (hv : v < r) (b : Nat) :
    Nat.count (fun w => w % r = v) b = b / r + if v < b % r then 1 else 0 := by
  have hmodEq : Nat.count (fun w => w % r = v) b = Nat.count (fun w => w ≡ v [MOD r]) b := by
    have hiff : ∀ w, w % r = v ↔ w ≡ v [MOD r] := by
      intro w
      rw [Nat.ModEq, Nat.mod_eq_of_lt hv]
    exact Nat.le_antisymm (Nat.count_mono_left fun w _ => (hiff w).mp)
      (Nat.count_mono_left fun w _ => (hiff w).mpr)
  rw [hmodEq, Nat.count_modEq_card _ (Nat.zero_lt_of_lt hv), Nat.mod_eq_of_lt hv]

/-- Of the words, 43 give a passcode up to 94967380 and 42 any other one. -/
theorem count_passcodeOf {p : UInt32} (hpos : 1 ≤ p) (hle : p ≤ maxPasscode) :
    Nat.count (fun w => passcodeOf (UInt32.ofNat w) = p) (2 ^ 32) =
      if p.toNat ≤ 94967380 then 43 else 42 := by
  have hp : 1 ≤ p.toNat ∧ p.toNat ≤ 99999998 := ⟨hpos, hle⟩
  have hword : ∀ w < 2 ^ 32, (passcodeOf (UInt32.ofNat w) = p ↔ w % 99999998 = p.toNat - 1) := by
    intro w hw
    rw [← UInt32.toNat_inj, toNat_passcodeOf, UInt32.toNat_ofNat_of_lt' hw]
    omega
  have hcount : Nat.count (fun w => passcodeOf (UInt32.ofNat w) = p) (2 ^ 32) =
      Nat.count (fun w => w % 99999998 = p.toNat - 1) (2 ^ 32) :=
    Nat.le_antisymm (Nat.count_mono_left fun w hw => (hword w hw).mp)
      (Nat.count_mono_left fun w hw => (hword w hw).mpr)
  have hlt : p.toNat - 1 < 99999998 := by omega
  rw [hcount, count_mod_eq hlt]
  by_cases hlow : p.toNat ≤ 94967380
  · have hrest : p.toNat - 1 < 2 ^ 32 % 99999998 := by omega
    rw [if_pos hlow, if_pos hrest]
    norm_num
  · have hrest : ¬ p.toNat - 1 < 2 ^ 32 % 99999998 := by omega
    rw [if_neg hlow, if_neg hrest]
    norm_num

/-- Every discriminator comes of 16 words. -/
theorem count_discriminatorOf {d : UInt16} (hlt : d < 4096) :
    Nat.count (fun w => discriminatorOf (UInt16.ofNat w) = d) (2 ^ 16) = 16 := by
  have hd : d.toNat < 4096 := hlt
  have hword : ∀ w < 2 ^ 16, (discriminatorOf (UInt16.ofNat w) = d ↔ w % 4096 = d.toNat) := by
    intro w hw
    rw [← UInt16.toNat_inj, toNat_discriminatorOf, UInt16.toNat_ofNat_of_lt' hw]
  have hcount : Nat.count (fun w => discriminatorOf (UInt16.ofNat w) = d) (2 ^ 16) =
      Nat.count (fun w => w % 4096 = d.toNat) (2 ^ 16) :=
    Nat.le_antisymm (Nat.count_mono_left fun w hw => (hword w hw).mp)
      (Nat.count_mono_left fun w hw => (hword w hw).mpr)
  have hrest : ¬ d.toNat < 2 ^ 16 % 4096 := by omega
  rw [hcount, count_mod_eq hd, if_neg hrest]
  norm_num

section Draws
variable {ρ : Type} {rng : Rng ρ}

theorem afterDraws_succ (r : ρ) (n : Nat) :
    afterDraws rng r (n + 1) = afterDraws rng (drawPasscode rng r).2 n := by
  induction n with
  | zero => rfl
  | succ n ih => rw [afterDraws, ih, afterDraws]

/-- The loop ends with the first draw that is not forbidden, and only with that one. -/
theorem choosePasscode_eq_some {fuel : Nat} {r : ρ} {chosen : UInt32 × ρ} :
    choosePasscode rng fuel r = some chosen ↔ ∃ n < fuel,
      (∀ i < n, (drawPasscode rng (afterDraws rng r i)).1 ∈ invalidPasscodes) ∧
      drawPasscode rng (afterDraws rng r n) = chosen ∧ chosen.1 ∉ invalidPasscodes := by
  induction fuel generalizing r with
  | zero => simp [choosePasscode]
  | succ fuel ih =>
    rw [choosePasscode]
    by_cases hfirst : (drawPasscode rng r).1 ∈ invalidPasscodes
    · rw [if_pos hfirst, ih]
      constructor
      · rintro ⟨n, hn, hbefore, hdrawn, hlegal⟩
        refine ⟨n + 1, by omega, fun i hi => ?_, ?_, hlegal⟩
        · cases i with
          | zero => exact hfirst
          | succ i =>
            rw [afterDraws_succ]
            exact hbefore i (by omega)
        · rw [afterDraws_succ]
          exact hdrawn
      · rintro ⟨n, hn, hbefore, hdrawn, hlegal⟩
        cases n with
        | zero =>
          have hbad : chosen.1 ∈ invalidPasscodes := by
            rw [← hdrawn]
            exact hfirst
          exact absurd hbad hlegal
        | succ n =>
          refine ⟨n, by omega, fun i hi => ?_, ?_, hlegal⟩
          · have hi := hbefore (i + 1) (by omega)
            rwa [afterDraws_succ] at hi
          · rwa [afterDraws_succ] at hdrawn
    · rw [if_neg hfirst]
      constructor
      · intro h
        obtain rfl := Option.some.inj h
        exact ⟨0, by omega, fun i hi => by omega, rfl, hfirst⟩
      · rintro ⟨n, hn, hbefore, hdrawn, hlegal⟩
        cases n with
        | zero =>
          rw [← hdrawn]
          rfl
        | succ n => exact absurd (hbefore 0 (by omega)) hfirst

theorem choosePasscode_legal {fuel : Nat} {r : ρ} {chosen : UInt32 × ρ}
    (h : choosePasscode rng fuel r = some chosen) : PasscodeIsLegal chosen.1 := by
  obtain ⟨n, -, -, hdrawn, hlegal⟩ := choosePasscode_eq_some.mp h
  have hpasscode : chosen.1 = passcodeOf (UInt32.ofNat (fromLeBytes
      (rng.fillBytes 4 (afterDraws rng r n)).1)) := by
    rw [← hdrawn]
    rfl
  have hvalue := toNat_passcodeOf (UInt32.ofNat (fromLeBytes
    (rng.fillBytes 4 (afterDraws rng r n)).1))
  rw [← hpasscode] at hvalue
  have hpos : 1 ≤ chosen.1.toNat := by omega
  have hle : chosen.1.toNat ≤ 99999998 := by omega
  exact ⟨hpos, hle, hlegal⟩

/-- More fuel draws nothing else. -/
theorem choosePasscode_mono {fuel more : Nat} {r : ρ} {chosen : UInt32 × ρ} (hle : fuel ≤ more)
    (h : choosePasscode rng fuel r = some chosen) : choosePasscode rng more r = some chosen := by
  obtain ⟨n, hn, hbefore, hdrawn, hlegal⟩ := choosePasscode_eq_some.mp h
  exact choosePasscode_eq_some.mpr ⟨n, by omega, hbefore, hdrawn, hlegal⟩

theorem generateWindowSecrets_legal {fuel : Nat} {r : ρ} {s : WindowSecrets}
    (h : generateWindowSecrets rng fuel r = some s) :
    PasscodeIsLegal s.passcode ∧ s.discriminator < 4096 ∧ s.salt.length = saltLen := by
  obtain ⟨chosen, hchosen, rfl⟩ := Option.map_eq_some_iff.mp h
  refine ⟨choosePasscode_legal hchosen, ?_, rng.length_fillBytes _ _⟩
  have hvalue := toNat_discriminatorOf (UInt16.ofNat (fromLeBytes (rng.fillBytes 2 chosen.2).1))
  have hlt : (finishSecrets rng chosen.1 chosen.2).discriminator.toNat < 4096 := by
    change (discriminatorOf _).toNat < 4096
    omega
  exact hlt

theorem generateWindowSecrets_eq_some {fuel : Nat} {r : ρ} {s : WindowSecrets} :
    generateWindowSecrets rng fuel r = some s ↔ ∃ n < fuel,
      (∀ i < n, (drawPasscode rng (afterDraws rng r i)).1 ∈ invalidPasscodes) ∧
      (drawPasscode rng (afterDraws rng r n)).1 ∉ invalidPasscodes ∧
      finishSecrets rng (drawPasscode rng (afterDraws rng r n)).1 (afterDraws rng r (n + 1)) = s := by
  unfold generateWindowSecrets
  rw [Option.map_eq_some_iff]
  constructor
  · rintro ⟨chosen, hchosen, hs⟩
    obtain ⟨n, hn, hbefore, rfl, hlegal⟩ := choosePasscode_eq_some.mp hchosen
    exact ⟨n, hn, hbefore, hlegal, hs⟩
  · rintro ⟨n, hn, hbefore, hlegal, hs⟩
    exact ⟨_, choosePasscode_eq_some.mpr ⟨n, hn, hbefore, rfl, hlegal⟩, hs⟩

end Draws

/-- The passcode is the first drawn one that is not forbidden, and is legal. Of the words it is
drawn from, 43 give each passcode up to 94967380 and 42 each other one; every discriminator comes
of 16 words. -/
theorem secrets_drawn :
    (∀ (ρ : Type) (rng : Rng ρ) (fuel : Nat) (r : ρ) (s : WindowSecrets),
      (generateWindowSecrets rng fuel r = some s ↔ ∃ n < fuel,
        (∀ i < n, (drawPasscode rng (afterDraws rng r i)).1 ∈ invalidPasscodes) ∧
        (drawPasscode rng (afterDraws rng r n)).1 ∉ invalidPasscodes ∧
        finishSecrets rng (drawPasscode rng (afterDraws rng r n)).1
          (afterDraws rng r (n + 1)) = s) ∧
      (generateWindowSecrets rng fuel r = some s →
        PasscodeIsLegal s.passcode ∧ s.discriminator < 4096 ∧ s.salt.length = saltLen)) ∧
    (∀ p, PasscodeIsLegal p → Nat.count (fun w => passcodeOf (UInt32.ofNat w) = p) (2 ^ 32) =
      if p.toNat ≤ 94967380 then 43 else 42) ∧
    ∀ d : UInt16, d < 4096 →
      Nat.count (fun w => discriminatorOf (UInt16.ofNat w) = d) (2 ^ 16) = 16 :=
  ⟨fun _ _ _ _ _ => ⟨generateWindowSecrets_eq_some, generateWindowSecrets_legal⟩,
   fun _ hp => count_passcodeOf hp.1 hp.2.1, fun _ hd => count_discriminatorOf hd⟩

/-! ### The verifier -/

def canonScalarLen : Nat := 32

def canonPointLen : Nat := 65

def w0sLen : Nat := 40

/-- The parts of `Crypto` that the verifier is made of. The canonical forms have fixed lengths. -/
structure PaseCrypto (S P : Type) where
  pbkdf : Except Error (List UInt8 → Nat → List UInt8 → Nat → Except Error (List UInt8))
  ecScalarModP : List UInt8 → Except Error S
  ecGeneratorPoint : Except Error P
  mul : P → S → Except Error P
  scalarCanon : S → Except Error (List UInt8)
  pointCanon : P → Except Error (List UInt8)
  length_scalarCanon : ∀ s bytes, scalarCanon s = .ok bytes → bytes.length = canonScalarLen
  length_pointCanon : ∀ p bytes, pointCanon p = .ok bytes → bytes.length = canonPointLen

section Verifier
variable {S P : Type}

def computePaseVerifier (crypto : PaseCrypto S P) (passcode iterations : UInt32)
    (salt : List UInt8) : Except Error (List UInt8) := do
  let derive ← crypto.pbkdf
  let w0sW1s ← derive (toLeBytes passcode) iterations.toNat salt (2 * w0sLen)
  let w0 ← crypto.ecScalarModP (w0sW1s.take w0sLen)
  let w1 ← crypto.ecScalarModP (w0sW1s.drop w0sLen)
  let generator ← crypto.ecGeneratorPoint
  let l ← crypto.mul generator w1
  let w0Canon ← crypto.scalarCanon w0
  let lCanon ← crypto.pointCanon l
  return w0Canon ++ lCanon

/-- The verifier is as long as the field that takes it. -/
theorem length_computePaseVerifier {crypto : PaseCrypto S P} {passcode iterations : UInt32}
    {salt verifier : List UInt8}
    (h : computePaseVerifier crypto passcode iterations salt = .ok verifier) :
    verifier.length = 97 := by
  unfold computePaseVerifier at h
  obtain ⟨derive, -, h⟩ := Result.bind_eq_ok h
  obtain ⟨w0sW1s, -, h⟩ := Result.bind_eq_ok h
  obtain ⟨w0, -, h⟩ := Result.bind_eq_ok h
  obtain ⟨w1, -, h⟩ := Result.bind_eq_ok h
  obtain ⟨generator, -, h⟩ := Result.bind_eq_ok h
  obtain ⟨l, -, h⟩ := Result.bind_eq_ok h
  obtain ⟨w0Canon, hscalar, h⟩ := Result.bind_eq_ok h
  obtain ⟨lCanon, hpoint, h⟩ := Result.bind_eq_ok h
  cases h
  rw [List.length_append, crypto.length_scalarCanon _ _ hscalar, crypto.length_pointCanon _ _ hpoint]
  rfl

end Verifier

/-! ### The window -/

def adminCommissioning : UInt32 := 60

def basicInfo : UInt32 := 40

def basicInfoVendorId : UInt32 := 2

def basicInfoProductId : UInt32 := 4

/-- The generator, the curve, the devices and the codes: `pairingCode` is `compute_pairing_code`
and `buildQr` is `build_qr`, both of a password and a discriminator. -/
structure WindowOpener (σ ρ S P : Type) where
  rand : Except Error ρ
  rng : Rng ρ
  crypto : PaseCrypto S P
  devices : Devices σ
  readAttributes : NodeId → List AttributePathSpec → Bool →
    Except StackError (List (String × Json))
  pairingCode : List UInt8 → UInt16 → String
  buildQr : List UInt8 → UInt16 → UInt16 → UInt16 → Except Error String

def bytesOf (bytes : List UInt8) : ByteArray := ⟨bytes.toArray⟩

def windowPayload (timeoutSecs : UInt16) (s : WindowSecrets) (verifier : List UInt8) : Json :=
  .ofMembers [("commissioningTimeout", .ofU64 timeoutSecs.toUInt64),
    ("PAKEPasscodeVerifier", .str (base64Encode (bytesOf verifier))),
    ("discriminator", .ofU64 s.discriminator.toUInt64),
    ("iterations", .ofU64 pakeIterations.toUInt64),
    ("salt", .str (base64Encode (bytesOf s.salt)))]

/-- The closure of `vid_pid_from`. -/
def idFrom (pairs : List (String × Json)) (attr : UInt32) : UInt16 :=
  match ((pairs.find? fun p => p.1 = s!"{rootEndpoint}/{basicInfo}/{attr}").bind fun p =>
    p.2.asU64).filter fun v => v < 2 ^ 16 with
  | some v => UInt16.ofNat v
  | none => 0

def vidPidFrom (pairs : List (String × Json)) : UInt16 × UInt16 :=
  (idFrom pairs basicInfoVendorId, idFrom pairs basicInfoProductId)

section Window
variable {σ ρ S P : Type} [DecidableEq σ]

def basicInfoVidPid (o : WindowOpener σ ρ S P) (nodeId : NodeId) : UInt16 × UInt16 :=
  match o.readAttributes nodeId
    [⟨some rootEndpoint, some basicInfo, some basicInfoVendorId⟩,
      ⟨some rootEndpoint, some basicInfo, some basicInfoProductId⟩] false with
  | .ok pairs => vidPidFrom pairs
  | .error _ => (0, 0)

/-- `open_window` with what it has drawn. -/
def openWith (o : WindowOpener σ ρ S P) (nodeId : NodeId) (timeoutSecs : UInt16)
    (s : WindowSecrets) : Except StackError WindowInfo := do
  let verifier ← (computePaseVerifier o.crypto s.passcode pakeIterations s.salt).mapError mapErr
  let _ ← invoke o.devices.invoker nodeId rootEndpoint adminCommissioning
    "openCommissioningWindow" (windowPayload timeoutSecs s verifier) (some 10000)
  -- From here on the window is open, and what cannot be read is left out of the code.
  let vidPid := basicInfoVidPid o nodeId
  let password := toLeBytes s.passcode
  let setupQrCode ← (o.buildQr password s.discriminator vidPid.1 vidPid.2).mapError mapErr
  return ⟨s.passcode, o.pairingCode password s.discriminator, setupQrCode⟩

/-- `open_window`; `none` when no legal passcode was drawn within the fuel. -/
def openWindow (o : WindowOpener σ ρ S P) (fuel : Nat) (nodeId : NodeId) (timeoutSecs : UInt16) :
    Option (Except StackError WindowInfo) :=
  match o.rand with
  | .error e => some (.error (mapErr e))
  | .ok r => (generateWindowSecrets o.rng fuel r).map (openWith o nodeId timeoutSecs)

/-- `OpenCommissioningWindowRequest`. -/
def openWindowFields : List Field :=
  [⟨0, "commissioningTimeout", "int16u", false⟩, ⟨1, "PAKEPasscodeVerifier", "octet_string", false⟩,
    ⟨2, "discriminator", "int16u", false⟩, ⟨3, "iterations", "int32u", false⟩,
    ⟨4, "salt", "octet_string", false⟩]

/-- What the device is told. -/
def windowArgs (timeoutSecs : UInt16) (s : WindowSecrets) (verifier : List UInt8) : Tlv :=
  contextStruct [(0, .uint timeoutSecs.toUInt64), (1, .octets (bytesOf verifier)),
    (2, .uint s.discriminator.toUInt64), (3, .uint 2000), (4, .octets (bytesOf s.salt))]

theorem commandArgs_window {tables : Cluster}
    (hstruct : tables.findStruct "OpenCommissioningWindowRequest" =
      some ⟨"OpenCommissioningWindowRequest", openWindowFields⟩)
    (timeoutSecs : UInt16) (s : WindowSecrets) (verifier : List UInt8) :
    commandArgs tables (some "OpenCommissioningWindowRequest")
        (windowPayload timeoutSecs s verifier) =
      some (windowArgs timeoutSecs s verifier) := by
  have htimeout : timeoutSecs.toUInt64.toNat < 2 ^ (8 * 2) := by
    rw [UInt16.toNat_toUInt64]
    exact timeoutSecs.toNat_lt
  have hdiscriminator : s.discriminator.toUInt64.toNat < 2 ^ (8 * 2) := by
    rw [UInt16.toNat_toUInt64]
    exact s.discriminator.toNat_lt
  have hiterations : UInt64.toNat 2000 < 2 ^ (8 * 4) := by decide
  have hmembers : List.Forall₂ (WritesMember (resolveNamed openWindowFields tables))
      [("commissioningTimeout", .ofU64 timeoutSecs.toUInt64),
        ("PAKEPasscodeVerifier", .str (base64Encode (bytesOf verifier))),
        ("discriminator", .ofU64 s.discriminator.toUInt64),
        ("iterations", .ofU64 pakeIterations.toUInt64),
        ("salt", .str (base64Encode (bytesOf s.salt)))]
      [(0, .uint timeoutSecs.toUInt64), (1, .octets (bytesOf verifier)),
        (2, .uint s.discriminator.toUInt64), (3, .uint 2000), (4, .octets (bytesOf s.salt))] := by
    refine .cons ?_ (.cons ?_ (.cons ?_ (.cons ?_ (.cons ?_ .nil))))
    · exact writesMember_named ⟨0, "commissioningTimeout", "int16u", false⟩ (.unsigned 2)
        (.uint timeoutSecs.toUInt64) (by decide) (by decide) rfl (by decide) (by decide) htimeout rfl
    · exact writesMember_named ⟨1, "PAKEPasscodeVerifier", "octet_string", false⟩ .octets
        (.octets (bytesOf verifier)) (by decide) (by decide) rfl (by decide) (by decide) trivial rfl
    · exact writesMember_named ⟨2, "discriminator", "int16u", false⟩ (.unsigned 2)
        (.uint s.discriminator.toUInt64) (by decide) (by decide) rfl (by decide) (by decide)
        hdiscriminator rfl
    · exact writesMember_named ⟨3, "iterations", "int32u", false⟩ (.unsigned 4) (.uint 2000)
        (by decide) (by decide) rfl (by decide) (by decide) hiterations rfl
    · exact writesMember_named ⟨4, "salt", "octet_string", false⟩ .octets
        (.octets (bytesOf s.salt)) (by decide) (by decide) rfl (by decide) (by decide) trivial rfl
  exact commandArgs_object hstruct (by simp) hmembers (by simp)

/-- The tables have the command as the IDL declares it. -/
structure DeclaresWindow (d : Devices σ) (cmeta : ClusterMeta) : Prop where
  cluster : d.cluster adminCommissioning = some cmeta
  command : cmeta.findCommandCi "openCommissioningWindow" =
    some ⟨0, "OpenCommissioningWindow", none, true⟩
  input : d.input cmeta ⟨0, "OpenCommissioningWindow", none, true⟩ =
    some "OpenCommissioningWindowRequest"
  struct : cmeta.tables.findStruct "OpenCommissioningWindowRequest" =
    some ⟨"OpenCommissioningWindowRequest", openWindowFields⟩

/-- The device has answered, and with nothing but successes. -/
def Accepted (d : Devices σ) (request : InvokeRequest) : Prop :=
  ∃ chunk, (d.exchange request).arrived = some (.ok chunk) ∧ ∀ s ∈ chunk.statuses, s = d.im.success

theorem openWith_eq_ok {o : WindowOpener σ ρ S P} {nodeId : NodeId} {timeoutSecs : UInt16}
    {s : WindowSecrets} {info : WindowInfo} (h : openWith o nodeId timeoutSecs s = .ok info) :
    ∃ verifier answer,
      computePaseVerifier o.crypto s.passcode pakeIterations s.salt = .ok verifier ∧
      invoke o.devices.invoker nodeId rootEndpoint adminCommissioning "openCommissioningWindow"
        (windowPayload timeoutSecs s verifier) (some 10000) = .ok answer ∧
      info.setupPinCode = s.passcode ∧
      info.setupManualCode = o.pairingCode (toLeBytes s.passcode) s.discriminator ∧
      o.buildQr (toLeBytes s.passcode) s.discriminator (basicInfoVidPid o nodeId).1
        (basicInfoVidPid o nodeId).2 = .ok info.setupQrCode := by
  unfold openWith at h
  obtain ⟨verifier, hverifier, h⟩ := Result.bind_eq_ok h
  obtain ⟨answer, hanswer, h⟩ := Result.bind_eq_ok h
  obtain ⟨qr, hqr, h⟩ := Result.bind_eq_ok h
  cases h
  exact ⟨verifier, answer, Result.mapError_eq_ok hverifier, hanswer, rfl, rfl,
    Result.mapError_eq_ok hqr⟩

/-- What the device is sent, when it accepts. -/
theorem invoke_window {d : Devices σ} {cmeta : ClusterMeta} (hd : DeclaresWindow d cmeta)
    {nodeId : NodeId} {timeoutSecs : UInt16} {s : WindowSecrets} {verifier : List UInt8}
    {answer : Json} (h : invoke d.invoker nodeId rootEndpoint adminCommissioning
      "openCommissioningWindow" (windowPayload timeoutSecs s verifier) (some 10000) = .ok answer) :
    ∃ bytes, d.bytes (windowArgs timeoutSecs s verifier) = .ok bytes ∧
      Accepted d ⟨nodeId, rootEndpoint, adminCommissioning, 0, bytes, some 10000⟩ := by
  obtain ⟨cmeta', cmd, bytes, hcluster, hcommand, hbytes, chunk, verdict, hchunk, hrun, hresult⟩ :=
    invoke_eq_ok h
  obtain rfl : cmeta = cmeta' := Option.some.inj (hd.cluster.symm.trans hcluster)
  obtain rfl := Option.some.inj (hd.command.symm.trans hcommand)
  have hargs : d.encodeCommandArgs cmeta ⟨0, "OpenCommissioningWindow", none, true⟩
      (windowPayload timeoutSecs s verifier) = d.bytes (windowArgs timeoutSecs s verifier) := by
    unfold Devices.encodeCommandArgs
    rw [hd.input, commandArgs_window hd.struct]
  exact ⟨bytes, hargs.symm.trans hbytes, chunk, hchunk, takeChunks_success hrun hresult⟩

/-- A window that is reported open was opened with the verifier of the reported passcode, and
both codes are made of that passcode and of the discriminator that the device was told. What the
device says of its vendor and product shows in the second code at most. -/
theorem window_opened {o : WindowOpener σ ρ S P} {cmeta : ClusterMeta}
    (hd : DeclaresWindow o.devices cmeta) {fuel : Nat} {nodeId : NodeId} {timeoutSecs : UInt16}
    {info : WindowInfo} (h : openWindow o fuel nodeId timeoutSecs = some (.ok info)) :
    ∃ s verifier bytes, s.passcode = info.setupPinCode ∧
      PasscodeIsLegal s.passcode ∧ s.discriminator < 4096 ∧ s.salt.length = saltLen ∧
      computePaseVerifier o.crypto s.passcode 2000 s.salt = .ok verifier ∧
      verifier.length = 97 ∧
      o.devices.bytes (windowArgs timeoutSecs s verifier) = .ok bytes ∧
      Accepted o.devices ⟨nodeId, rootEndpoint, adminCommissioning, 0, bytes, some 10000⟩ ∧
      info.setupManualCode = o.pairingCode (toLeBytes s.passcode) s.discriminator ∧
      ∀ readAttributes, openWindow { o with readAttributes } fuel nodeId timeoutSecs =
        some ((o.buildQr (toLeBytes s.passcode) s.discriminator
            (basicInfoVidPid { o with readAttributes } nodeId).1
            (basicInfoVidPid { o with readAttributes } nodeId).2).mapError mapErr |>.map
          fun setupQrCode => { info with setupQrCode }) := by
  unfold openWindow at h
  split at h
  next => cases h
  next r hrand =>
    obtain ⟨s, hs, hopen⟩ := Option.map_eq_some_iff.mp h
    obtain ⟨hlegal, hdiscriminator, hsalt⟩ := generateWindowSecrets_legal hs
    obtain ⟨verifier, answer, hverifier, hinvoke, hpin, hmanual, hqr⟩ := openWith_eq_ok hopen
    obtain ⟨bytes, hbytes, haccepted⟩ := invoke_window hd hinvoke
    refine ⟨s, verifier, bytes, hpin.symm, hlegal, hdiscriminator, hsalt, hverifier,
      length_computePaseVerifier hverifier, hbytes, haccepted, hmanual, fun readAttributes => ?_⟩
    have hinfo : ∀ setupQrCode, ({ info with setupQrCode } : WindowInfo) =
        ⟨s.passcode, o.pairingCode (toLeBytes s.passcode) s.discriminator, setupQrCode⟩ := by
      intro setupQrCode
      rw [hpin, hmanual]
    simp only [openWindow, hrand, hs, Option.map_some, openWith, hverifier, hinvoke,
      Except.mapError, bind, Except.bind, hinfo]
    cases o.buildQr (toLeBytes s.passcode) s.discriminator
      (basicInfoVidPid { o with readAttributes } nodeId).1
      (basicInfoVidPid { o with readAttributes } nodeId).2 with
    | error e => rfl
    | ok qr => rfl

end Window

/-! ### A window on one device -/

/-- A generator of zeros only. -/
def zeros : Rng Unit := ⟨fun n _ => (List.replicate n 0, ()), fun _ _ => List.length_replicate⟩

/-- A curve with one point. -/
def pointCurve : PaseCrypto Unit Unit where
  pbkdf := .ok fun _ _ _ n => .ok (List.replicate n 0)
  ecScalarModP _ := .ok ()
  ecGeneratorPoint := .ok ()
  mul _ _ := .ok ()
  scalarCanon _ := .ok (List.replicate canonScalarLen 0)
  pointCanon _ := .ok (List.replicate canonPointLen 4)
  length_scalarCanon := by
    intro s bytes h
    cases h
    exact List.length_replicate
  length_pointCanon := by
    intro p bytes h
    cases h
    exact List.length_replicate

def administratorCommissioning : ClusterMeta :=
  ⟨"AdministratorCommissioning", [⟨0, "OpenCommissioningWindow", none, true⟩],
    ⟨60, [], [⟨"OpenCommissioningWindowRequest", openWindowFields⟩]⟩⟩

/-- Devices that accept whatever they are asked, without a response. -/
def obliging : Devices UInt8 where
  im := numericCodes
  refusal _ := ⟨.other, "InvalidData"⟩
  cluster code := if code = adminCommissioning then some administratorCommissioning else none
  input _ _ := some "OpenCommissioningWindowRequest"
  unwritten _ := ⟨.other, "InvalidData"⟩
  bytes _ := .ok [0x15, 0x18]
  exchange _ := ⟨true, some (.ok (.last (.ok none)))⟩

def lampOpener : WindowOpener UInt8 Unit Unit Unit where
  rand := .ok ()
  rng := zeros
  crypto := pointCurve
  devices := obliging
  readAttributes _ _ _ := .error ⟨.timeout, "IM operation timed out after 30s"⟩
  pairingCode _ _ := "00000000018"
  buildQr _ _ _ _ := .ok "MT:00000CQM00OV0000000"

theorem declaresWindow_obliging : DeclaresWindow obliging administratorCommissioning :=
  ⟨rfl, rfl, rfl, by decide⟩

/-- What is drawn of zeros. -/
def lampSecrets : WindowSecrets := ⟨1, 0, List.replicate saltLen 0⟩

theorem secrets_drawn_lamp : PasscodeIsLegal 1 ∧
    Nat.count (fun w => passcodeOf (UInt32.ofNat w) = 1) (2 ^ 32) = 43 :=
  ⟨((secrets_drawn.1 Unit zeros 1 () lampSecrets).2 rfl).1,
   secrets_drawn.2.1 1 ((secrets_drawn.1 Unit zeros 1 () lampSecrets).2 rfl).1⟩

def lampVerifier : List UInt8 := List.replicate canonScalarLen 0 ++ List.replicate canonPointLen 4

theorem openWindow_lamp : openWindow lampOpener 1 7 180 =
    some (.ok ⟨1, "00000000018", "MT:00000CQM00OV0000000"⟩) := by
  have hargs := commandArgs_window declaresWindow_obliging.struct 180 lampSecrets lampVerifier
  have hinvoke : invoke obliging.invoker 7 rootEndpoint adminCommissioning
      "openCommissioningWindow" (windowPayload 180 lampSecrets lampVerifier) (some 10000) =
      .ok .null := by
    have hcluster : obliging.invoker.cluster adminCommissioning = some administratorCommissioning :=
      declaresWindow_obliging.cluster
    have hencode : obliging.invoker.encodeCommandArgs administratorCommissioning
        ⟨0, "OpenCommissioningWindow", none, true⟩ (windowPayload 180 lampSecrets lampVerifier) =
        .ok [0x15, 0x18] := by
      change obliging.encodeCommandArgs _ _ _ = _
      unfold Devices.encodeCommandArgs
      rw [declaresWindow_obliging.input, hargs]
      rfl
    simp only [invoke, hcluster, declaresWindow_obliging.command, hencode, Option.elim_some,
      Except.mapError, bind, Except.bind]
    rfl
  change some (openWith lampOpener 7 180 lampSecrets) = _
  unfold openWith
  change some (invoke obliging.invoker 7 rootEndpoint adminCommissioning
    "openCommissioningWindow" (windowPayload 180 lampSecrets lampVerifier) (some 10000) >>= _) = _
  rw [hinvoke]
  rfl

theorem window_opened_lamp : ∃ s verifier bytes, s.passcode = 1 ∧
    computePaseVerifier pointCurve 1 2000 s.salt = .ok verifier ∧
    obliging.bytes (windowArgs 180 s verifier) = .ok bytes := by
  obtain ⟨s, verifier, bytes, hpin, -, -, -, hverifier, -, hbytes, -⟩ :=
    window_opened declaresWindow_obliging openWindow_lamp
  rw [hpin] at hverifier
  exact ⟨s, verifier, bytes, hpin, hverifier, hbytes⟩

end MatterRsServer.Stack.Im
