import MatterRsServer.Controller.Credentials
import MatterRsServer.Lib.Call
import MatterRsServer.Lib.Hex
import MatterRsServer.Lib.Utf8

/-!
# Stored Thread datasets

`thread_dataset_info` and `get_all` of `crates/controller/src/commands/credentials.rs`. The text
of a dataset is sliced at every second byte before anyone has looked at it: a slice that is
reached and is not whole panics. What is read is walked triple by triple.
-/
namespace MatterRsServer.Controller
open Lib Lib.Utf8 Wire

/-- The network name and the extended PAN id. -/
structure DatasetInfo where
  name : Option String
  xpan : Option String
deriving DecidableEq

/-- The byte that is read at the position `i`, unless parsing or slicing fails. -/
def byteAt (hex : List Char) (i : Nat) : Call Unit UInt8 := do
  let piece ← Call.unwrap (slice hex i (i + 2))
  match Hex.parseU8 piece with
  | some byte => pure byte
  | none => throw ()

/-- The bytes of a text from the position `i` on, of which `len` bytes are left. -/
def hexBytesFrom (hex : List Char) (i len : Nat) : Call Unit (List UInt8) :=
  (List.range' i ((len + 1) / 2) 2).mapM (byteAt hex)

/-- The text of a value, if it is UTF-8. -/
def utf8Text (value : List UInt8) : Option String := String.fromUTF8? ⟨value.toArray⟩

def upperHexText (value : List UInt8) : String :=
  .ofList (value.flatMap fun b => Hex.upper 2 b.toNat)

/-- What a triple tells. -/
def note (info : DatasetInfo) (type : UInt8) (value : List UInt8) : DatasetInfo :=
  if type = 0x03 then { info with name := utf8Text value }
  else if type = 0x02 then { info with xpan := some (upperHexText value) }
  else info

/-- The loop over the bytes that are left. -/
def walkTriples (info : DatasetInfo) : List UInt8 → DatasetInfo
  | type :: len :: rest =>
    if len.toNat ≤ rest.length then
      walkTriples (note info type (rest.take len.toNat)) (rest.drop len.toNat)
    else info
  | _ => info
termination_by bytes => bytes.length
decreasing_by
  simp only [List.length_drop, List.length_cons]
  omega

/-- `thread_dataset_info`; `none` is a panic. -/
def threadDatasetInfo (hex : String) : Option DatasetInfo :=
  (hexBytesFrom hex.toList 0 (byteLen hex.toList)).run.map fun
    | .ok bytes => walkTriples ⟨none, none⟩ bytes
    | .error _ => ⟨none, none⟩

/-! ### What it is to tell -/

/-- A type and a value, whose length takes one byte. -/
structure Triple where
  type : UInt8
  value : List UInt8
  short : value.length < 256

def Triple.encode (t : Triple) : List UInt8 :=
  t.type :: UInt8.ofNat t.value.length :: t.value

def encodeTriples (triples : List Triple) : List UInt8 := triples.flatMap Triple.encode

/-- No beginning of the bytes that splits into complete triples is longer. -/
def LongestSplit (triples : List Triple) (bytes : List UInt8) : Prop :=
  encodeTriples triples <+: bytes ∧
    ∀ others, encodeTriples others <+: bytes →
      (encodeTriples others).length ≤ (encodeTriples triples).length

/-- The value of the last triple of a type. -/
def lastValue (type : UInt8) (triples : List Triple) : Option (List UInt8) :=
  (triples.filter fun t => t.type = type).getLast?.map Triple.value

def infoOf (triples : List Triple) : DatasetInfo :=
  ⟨(lastValue 0x03 triples).bind utf8Text, (lastValue 0x02 triples).map upperHexText⟩

/-- Reading a stored text does not panic, and pairs of digits are read for what they tell. -/
def ReadsDataset (hex : String) : Prop :=
  (∃ info, threadDatasetInfo hex = some info) ∧
    ∀ bytes, Hex.Spells hex.toList bytes → ∃ triples, LongestSplit triples bytes ∧
      threadDatasetInfo hex = some (infoOf triples)

/-- Cut into pieces of two bytes from the front, up to the first one that is no byte in
hexadecimal, the text falls apart between characters. -/
inductive WholePieces : List Char → Prop
  | nil : WholePieces []
  | last {piece rest : List Char} : byteLen piece = 2 → Hex.parseU8 piece = none →
      WholePieces (piece ++ rest)
  | byte {piece rest : List Char} : byteLen piece = 2 → WholePieces rest →
      WholePieces (piece ++ rest)

theorem wholePieces_append {piece rest : List Char} (hpiece : byteLen piece = 2) :
    WholePieces (piece ++ rest) ↔ Hex.parseU8 piece = none ∨ WholePieces rest := by
  have hunique {piece' rest' : List Char} (hpiece' : byteLen piece' = 2)
      (h : piece' ++ rest' = piece ++ rest) : piece' = piece ∧ rest' = rest := by
    have hsplit := splitAt_eq_some.mpr ⟨h.symm, hpiece'⟩
    rw [splitAt_eq_some.mpr ⟨rfl, hpiece⟩] at hsplit
    obtain ⟨rfl, rfl⟩ := Prod.mk.inj (Option.some.inj hsplit)
    exact ⟨rfl, rfl⟩
  constructor
  · intro h
    generalize hs : piece ++ rest = s at h
    cases h with
    | nil =>
      have hlen := congrArg byteLen hs
      rw [byteLen_append, byteLen_nil] at hlen
      omega
    | last hlen hnone =>
      obtain ⟨rfl, -⟩ := hunique hlen hs.symm
      exact Or.inl hnone
    | byte hlen hrest =>
      obtain ⟨-, rfl⟩ := hunique hlen hs.symm
      exact Or.inr hrest
  · rintro (hnone | hrest)
    · exact .last hpiece hnone
    · exact .byte hpiece hrest

/-! ### Reading the digits -/

theorem byteAt_append (a s : List Char) :
    byteAt (a ++ s) (byteLen a) = match splitAt s 2 with
      | none => Call.panics
      | some (piece, _) => match Hex.parseU8 piece with
        | some byte => Call.of (.ok byte)
        | none => Call.of (.error ()) := by
  have hslice := slice_append a s 0 2
  rw [Nat.add_zero, slice_zero] at hslice
  unfold byteAt
  rw [hslice]
  cases splitAt s 2 with
  | none => rfl
  | some p =>
    dsimp only [Option.map_some, Call.unwrap_some, Call.of_ok_bind]
    cases Hex.parseU8 p.1 with
    | none => rfl
    | some byte => rfl

/-- The bytes behind the next piece. -/
theorem hexBytesFrom_append (a rest : List Char) {piece : List Char} (hpiece : byteLen piece = 2) :
    hexBytesFrom (a ++ (piece ++ rest)) (byteLen a) (byteLen (piece ++ rest)) =
      (byteAt (a ++ (piece ++ rest)) (byteLen a) >>= fun byte =>
        hexBytesFrom ((a ++ piece) ++ rest) (byteLen (a ++ piece)) (byteLen rest) >>= fun bytes =>
          pure (byte :: bytes)) := by
  have hlen : (byteLen (piece ++ rest) + 1) / 2 = (byteLen rest + 1) / 2 + 1 := by
    rw [byteLen_append, hpiece]
    omega
  rw [hexBytesFrom, hlen, List.range'_succ, List.mapM_cons, byteLen_append, hpiece,
    List.append_assoc]
  rfl

/-- A text of whole pieces begins with one. -/
theorem WholePieces.splitAt_ne_none {s : List Char} (h : WholePieces s) (hne : s ≠ []) :
    splitAt s 2 ≠ none := by
  intro hsplit
  cases h with
  | nil => exact hne rfl
  | last hlen _ =>
    rw [splitAt_eq_some.mpr ⟨rfl, hlen⟩] at hsplit
    cases hsplit
  | byte hlen _ =>
    rw [splitAt_eq_some.mpr ⟨rfl, hlen⟩] at hsplit
    cases hsplit

/-- Where no piece can be sliced off, reading on panics. -/
theorem hexBytesFrom_panics {a s : List Char} (hne : s ≠ []) (hsplit : splitAt s 2 = none) :
    hexBytesFrom (a ++ s) (byteLen a) (byteLen s) = Call.panics := by
  have hbyte : byteAt (a ++ s) (byteLen a) = Call.panics := by rw [byteAt_append, hsplit]
  have hpos : 0 < byteLen s := lt_of_lt_of_le (List.length_pos_iff.mpr hne) (length_le_byteLen s)
  obtain ⟨k, hk⟩ : ∃ k, (byteLen s + 1) / 2 = k + 1 := ⟨(byteLen s + 1) / 2 - 1, by omega⟩
  rw [hexBytesFrom, hk, List.range'_succ, List.mapM_cons, hbyte, Call.panics_bind]

/-- The digits are read without a panic exactly if the text falls apart at every slice that is
reached; by induction on the text that is left. -/
theorem hexBytesFrom_returns_iff (a s : List Char) :
    (hexBytesFrom (a ++ s) (byteLen a) (byteLen s)).Returns ↔ WholePieces s := by
  induction hn : byteLen s using Nat.strongRecOn generalizing a s with
  | _ n ih =>
    subst hn
    by_cases hne : s = []
    · subst hne
      exact iff_of_true (Call.returns_pure _) .nil
    cases hsplit : splitAt s 2 with
    | none =>
      rw [hexBytesFrom_panics hne hsplit]
      exact iff_of_false Call.not_returns_panics fun h => h.splitAt_ne_none hne hsplit
    | some p =>
      obtain ⟨piece, rest⟩ := p
      obtain ⟨rfl, hpiece⟩ := splitAt_eq_some.mp hsplit
      have hshorter : byteLen rest < byteLen (piece ++ rest) := by
        rw [byteLen_append]
        omega
      rw [hexBytesFrom_append _ _ hpiece, byteAt_append, hsplit, wholePieces_append hpiece]
      dsimp only
      cases hbyte : Hex.parseU8 piece with
      | none =>
        dsimp only
        rw [Call.of_error_bind]
        exact iff_of_true (Call.returns_of _) (Or.inl rfl)
      | some byte =>
        have hrest := ih (byteLen rest) hshorter (a ++ piece) rest rfl
        dsimp only
        rw [Call.of_ok_bind, Call.returns_bind, hrest]
        simp

/-- Pairs of digits are read as the bytes that they spell. -/
theorem hexBytesFrom_spells (a : List Char) {s : List Char} {bytes : List UInt8}
    (h : Hex.Spells s bytes) :
    hexBytesFrom (a ++ s) (byteLen a) (byteLen s) = Call.of (.ok bytes) := by
  induction h generalizing a with
  | nil => rfl
  | @cons high low x y s bytes hhigh hlow _ ih =>
    have hpiece : byteLen [high, low] = 2 := by
      simp [Hex.utf8Size_of_toDigit hhigh, Hex.utf8Size_of_toDigit hlow]
    have hsplit : splitAt (high :: low :: s) 2 = some ([high, low], s) :=
      splitAt_eq_some.mpr ⟨rfl, hpiece⟩
    have hstep := hexBytesFrom_append a s hpiece
    rw [List.cons_append, List.cons_append, List.nil_append] at hstep
    rw [hstep, byteAt_append, hsplit]
    dsimp only
    rw [Hex.parseU8_pair hhigh hlow]
    dsimp only
    rw [Call.of_ok_bind, ih, Call.of_ok_bind]
    rfl

theorem threadDatasetInfo_isSome_iff (hex : String) :
    (∃ info, threadDatasetInfo hex = some info) ↔ WholePieces hex.toList := by
  have hreturns := hexBytesFrom_returns_iff [] hex.toList
  rw [List.nil_append, byteLen_nil] at hreturns
  rw [← hreturns]
  unfold threadDatasetInfo
  constructor
  · rintro ⟨info, h⟩
    obtain ⟨r, hr, -⟩ := Option.map_eq_some_iff.mp h
    exact ⟨r, hr⟩
  · rintro ⟨r, hr⟩
    rw [hr]
    exact ⟨_, rfl⟩

theorem threadDatasetInfo_spells {hex : String} {bytes : List UInt8}
    (h : Hex.Spells hex.toList bytes) :
    threadDatasetInfo hex = some (walkTriples ⟨none, none⟩ bytes) := by
  have hbytes := hexBytesFrom_spells [] h
  rw [List.nil_append, byteLen_nil] at hbytes
  rw [threadDatasetInfo, hbytes]
  rfl

/-! ### Walking the triples -/

/-- No triple is complete in what is left. -/
def Incomplete (tail : List UInt8) : Prop := ∀ t : Triple, ¬ t.encode <+: tail

theorem Triple.length_encode (t : Triple) : t.encode.length = t.value.length + 2 := rfl

theorem Triple.toNat_length (t : Triple) : (UInt8.ofNat t.value.length).toNat = t.value.length := by
  rw [UInt8.toNat_ofNat', Nat.mod_eq_of_lt t.short]

/-- What begins with a triple begins with no other one. -/
theorem Triple.encode_unique {t u : Triple} {bytes : List UInt8} (ht : t.encode <+: bytes)
    (hu : u.encode <+: bytes) : t.encode = u.encode := by
  obtain ⟨x, rfl⟩ := ht
  have hheads := hu
  simp only [Triple.encode, List.cons_append, List.cons_prefix_cons] at hheads
  have hlength : t.encode.length = u.encode.length := by
    rw [t.length_encode, u.length_encode, ← t.toNat_length, ← u.toNat_length, hheads.2.1]
  exact (List.prefix_of_prefix_length_le (List.prefix_append _ x) hu hlength.le).eq_of_length hlength

theorem encodeTriples_cons (t : Triple) (triples : List Triple) :
    encodeTriples (t :: triples) = t.encode ++ encodeTriples triples := List.flatMap_cons

/-- Bytes are complete triples and a tail that has none. -/
theorem exists_triples (bytes : List UInt8) :
    ∃ triples tail, bytes = encodeTriples triples ++ tail ∧ Incomplete tail := by
  induction hn : bytes.length using Nat.strongRecOn generalizing bytes with
  | _ n ih =>
    by_cases hcomplete : ∃ t : Triple, t.encode <+: bytes
    · obtain ⟨t, rest, rfl⟩ := hcomplete
      have hshorter : rest.length < n := by
        rw [← hn, List.length_append, t.length_encode]
        omega
      obtain ⟨triples, tail, hrest, htail⟩ := ih rest.length hshorter rest rfl
      refine ⟨t :: triples, tail, ?_, htail⟩
      rw [encodeTriples_cons, List.append_assoc, ← hrest]
    · exact ⟨[], bytes, rfl, fun t ht => hcomplete ⟨t, ht⟩⟩

theorem longestSplit_append {triples : List Triple} {tail : List UInt8} (h : Incomplete tail) :
    LongestSplit triples (encodeTriples triples ++ tail) := by
  refine ⟨List.prefix_append _ _, fun others hothers => ?_⟩
  induction triples generalizing others with
  | nil =>
    cases others with
    | nil => exact Nat.le_refl _
    | cons u others =>
      rw [encodeTriples_cons] at hothers
      exact absurd ((List.prefix_append _ _).trans hothers) (h u)
  | cons t triples ih =>
    cases others with
    | nil => exact Nat.zero_le _
    | cons u others =>
      have hu : u.encode <+: encodeTriples (t :: triples) ++ tail := by
        rw [encodeTriples_cons] at hothers
        exact (List.prefix_append _ _).trans hothers
      have ht : t.encode <+: encodeTriples (t :: triples) ++ tail := by
        rw [encodeTriples_cons, List.append_assoc]
        exact List.prefix_append _ _
      have hsame : t.encode = u.encode := Triple.encode_unique ht hu
      rw [encodeTriples_cons, encodeTriples_cons, List.append_assoc, ← hsame,
        List.prefix_append_right_inj] at hothers
      rw [encodeTriples_cons, encodeTriples_cons, ← hsame, List.length_append, List.length_append]
      exact Nat.add_le_add_left (ih others hothers) _

theorem walkTriples_encode (info : DatasetInfo) (t : Triple) (rest : List UInt8) :
    walkTriples info (t.encode ++ rest) = walkTriples (note info t.type t.value) rest := by
  have hbytes : t.encode ++ rest = t.type :: UInt8.ofNat t.value.length :: (t.value ++ rest) := rfl
  rw [hbytes, walkTriples, t.toNat_length, List.take_left, List.drop_left, if_pos]
  rw [List.length_append]
  exact Nat.le_add_right _ _

theorem walkTriples_incomplete (info : DatasetInfo) {tail : List UInt8} (h : Incomplete tail) :
    walkTriples info tail = info := by
  match tail with
  | [] => rw [walkTriples]; rintro _ _ _ ⟨⟩
  | [_] => rw [walkTriples]; rintro _ _ _ ⟨⟩
  | type :: len :: rest =>
    rw [walkTriples, if_neg]
    intro hle
    have hlength : (rest.take len.toNat).length = len.toNat := List.length_take_of_le hle
    have hshort : (rest.take len.toNat).length < 256 := by
      rw [hlength]
      exact len.toNat_lt
    refine h ⟨type, rest.take len.toNat, hshort⟩ ⟨rest.drop len.toNat, ?_⟩
    simp only [Triple.encode, hlength, UInt8.ofNat_toNat, List.cons_append, List.take_append_drop]

theorem walkTriples_append (info : DatasetInfo) (triples : List Triple) {tail : List UInt8}
    (h : Incomplete tail) : walkTriples info (encodeTriples triples ++ tail) =
      triples.foldl (fun info t => note info t.type t.value) info := by
  induction triples generalizing info with
  | nil => exact walkTriples_incomplete info h
  | cons t triples ih =>
    rw [encodeTriples_cons, List.append_assoc, walkTriples_encode, ih]
    rfl

theorem lastValue_concat (type : UInt8) (triples : List Triple) (t : Triple) :
    lastValue type (triples ++ [t]) =
      if t.type = type then some t.value else lastValue type triples := by
  unfold lastValue
  rw [List.filter_append]
  by_cases h : t.type = type
  · simp [h]
  · simp [h]

/-- Later triples of a type replace what earlier ones told. -/
theorem foldl_note (triples : List Triple) :
    triples.foldl (fun info t => note info t.type t.value) ⟨none, none⟩ = infoOf triples := by
  induction triples using List.reverseRecOn with
  | nil => rfl
  | append_singleton triples t ih =>
    rw [List.foldl_append, ih, List.foldl_cons, List.foldl_nil]
    unfold note infoOf
    rw [lastValue_concat, lastValue_concat]
    by_cases hname : t.type = 0x03
    · simp [hname]
    · by_cases hxpan : t.type = 0x02
      · simp [hxpan]
      · simp [hname, hxpan]

/-- A dataset is read without a panic, and for what it tells, exactly if its text falls apart
into whole pieces. -/
theorem readsDataset_iff (hex : String) : ReadsDataset hex ↔ WholePieces hex.toList := by
  unfold ReadsDataset
  rw [threadDatasetInfo_isSome_iff]
  refine ⟨And.left, fun h => ⟨h, fun bytes hbytes => ?_⟩⟩
  obtain ⟨triples, tail, rfl, htail⟩ := exists_triples bytes
  refine ⟨triples, longestSplit_append htail, ?_⟩
  rw [threadDatasetInfo_spells hbytes, walkTriples_append _ _ htail, foldl_note]

/-- The third digit is sliced together with what follows it, which is nothing. -/
theorem oddDataset_panics : ¬ ∀ hex, ReadsDataset hex := by
  intro h
  obtain ⟨info, hinfo⟩ := (h "0e0").1
  have hpanics : threadDatasetInfo "0e0" = none := by decide
  rw [hpanics] at hinfo
  cases hinfo

/-! ### The command -/

def threadEntry (id : String) (info : DatasetInfo) : Json :=
  .ofMembers (("id", .str id) ::
    ((info.name.toList.map fun n => ("networkName", .str n)) ++
      info.xpan.toList.map fun x => ("extPanId", .str x)))

/-- `get_all`. -/
def getAllCredentials (cfg : ConfigData) : Call CommandError Json := do
  let stored := cfg.wifiCredentials.entries.map fun e =>
    Json.ofMembers [("id", .str e.1), ("ssid", .str e.2.ssid)]
  let wifi :=
    if cfg.wifiCredentials.contains "default" then stored
    else .ofMembers [("id", .str "default"), ("ssid", .str "")] :: stored
  let read ← cfg.threadDatasets.entries.mapM fun e => do
    let info ← Call.unwrap (threadDatasetInfo e.2)
    pure (threadEntry e.1 info)
  let thread :=
    if cfg.threadDatasets.contains "default" then read
    else .ofMembers [("id", .str "default")] :: read
  pure (.ofMembers [("wifi", .arr wifi), ("thread", .arr thread)])

/-- One stored dataset is enough to make every listing panic. -/
theorem getAllCredentials_answers_iff (cfg : ConfigData) :
    (∃ v, getAllCredentials cfg = Call.of (.ok v)) ↔
      ∀ e ∈ cfg.threadDatasets.entries, WholePieces e.2.toList := by
  have hentry (e : String × String) :
      (∃ v, (do
        let info ← Call.unwrap (threadDatasetInfo e.2)
        pure (threadEntry e.1 info) : Call CommandError Json) = Call.of (.ok v)) ↔
        WholePieces e.2.toList := by
    rw [← threadDatasetInfo_isSome_iff]
    cases threadDatasetInfo e.2 with
    | none =>
      refine iff_of_false ?_ ?_
      · rintro ⟨v, ⟨⟩⟩
      · rintro ⟨info, ⟨⟩⟩
    | some info => exact iff_of_true ⟨_, rfl⟩ ⟨info, rfl⟩
  simp only [← hentry, ← Call.exists_mapM_eq_ok]
  unfold getAllCredentials
  simp only [Call.bind_eq_ok]
  constructor
  · rintro ⟨_, read, hread, -⟩
    exact ⟨read, hread⟩
  · rintro ⟨read, hread⟩
    exact ⟨_, read, hread, rfl⟩

theorem exists_toDigit {c : Char} (h : isAsciiHexdigit c = true) :
    ∃ d, Inet.toDigit 16 c = some d := by
  simp only [isAsciiHexdigit, Char.isDigit, Bool.or_eq_true, Bool.and_eq_true, decide_eq_true_eq]
    at h
  unfold Inet.toDigit
  rcases h with (h | h) | h
  · have hc : '0' ≤ c ∧ c ≤ '9' := h
    have hlt : c.toNat - '0'.toNat < 16 := by
      have hle : c.toNat ≤ '9'.toNat := UInt32.le_iff_toNat_le.mp hc.2
      simp only [Char.reduceToNat] at hle ⊢
      omega
    rw [if_pos hc, Option.filter_some, if_pos (decide_eq_true hlt)]
    exact ⟨_, rfl⟩
  · have hnot : ¬ ('0' ≤ c ∧ c ≤ '9') := fun hc => absurd (Char.le_trans h.1 hc.2) (by decide)
    have hc : 'a' ≤ c ∧ c ≤ 'z' := ⟨h.1, Char.le_trans h.2 (by decide)⟩
    have hlt : c.toNat - 'a'.toNat + 10 < 16 := by
      have hle : c.toNat ≤ 'f'.toNat := UInt32.le_iff_toNat_le.mp h.2
      simp only [Char.reduceToNat] at hle ⊢
      omega
    rw [if_neg hnot, if_pos hc, Option.filter_some, if_pos (decide_eq_true hlt)]
    exact ⟨_, rfl⟩
  · have hdigit : ¬ ('0' ≤ c ∧ c ≤ '9') := fun hc => absurd (Char.le_trans h.1 hc.2) (by decide)
    have hlower : ¬ ('a' ≤ c ∧ c ≤ 'z') := fun hc => absurd (Char.le_trans hc.1 h.2) (by decide)
    have hc : 'A' ≤ c ∧ c ≤ 'Z' := ⟨h.1, Char.le_trans h.2 (by decide)⟩
    have hlt : c.toNat - 'A'.toNat + 10 < 16 := by
      have hle : c.toNat ≤ 'F'.toNat := UInt32.le_iff_toNat_le.mp h.2
      simp only [Char.reduceToNat] at hle ⊢
      omega
    rw [if_neg hdigit, if_neg hlower, if_pos hc, Option.filter_some, if_pos (decide_eq_true hlt)]
    exact ⟨_, rfl⟩

/-- A text of digits, of an even length, spells bytes. -/
theorem exists_spells {s : List Char} (hall : ∀ c ∈ s, ∃ d, Inet.toDigit 16 c = some d)
    (heven : byteLen s % 2 = 0) : ∃ bytes, Hex.Spells s bytes := by
  match s with
  | [] => exact ⟨[], .nil⟩
  | [c] =>
    obtain ⟨d, hd⟩ := hall c List.mem_cons_self
    rw [byteLen_cons, Hex.utf8Size_of_toDigit hd, byteLen_nil] at heven
    cases heven
  | high :: low :: rest =>
    obtain ⟨x, hx⟩ := hall high List.mem_cons_self
    obtain ⟨y, hy⟩ := hall low (List.mem_cons_of_mem _ List.mem_cons_self)
    rw [byteLen_cons, byteLen_cons, Hex.utf8Size_of_toDigit hx, Hex.utf8Size_of_toDigit hy] at heven
    obtain ⟨bytes, hbytes⟩ := exists_spells
      (fun c hc => hall c (List.mem_cons_of_mem _ (List.mem_cons_of_mem _ hc)))
      (show byteLen rest % 2 = 0 by omega)
    exact ⟨_, .cons hx hy hbytes⟩

/-- What `set_thread` lets through is never the one. -/
theorem wholePieces_of_valid {hex : String} (h : validateThreadDataset hex = none) :
    WholePieces hex.toList := by
  have hvalid : ¬ (hex = "" ∨ hex.utf8ByteSize % 2 ≠ 0 ∨ ¬ hex.toList.all isAsciiHexdigit) := by
    intro hinvalid
    rw [validateThreadDataset, if_pos hinvalid] at h
    cases h
  simp only [not_or, not_not] at hvalid
  obtain ⟨-, heven, hall⟩ := hvalid
  have hdigits : ∀ c ∈ hex.toList, ∃ d, Inet.toDigit 16 c = some d := fun c hc =>
    exists_toDigit (List.all_eq_true.mp hall c hc)
  rw [utf8ByteSize_eq_byteLen] at heven
  obtain ⟨bytes, hbytes⟩ := exists_spells hdigits heven
  exact (threadDatasetInfo_isSome_iff hex).mp ⟨_, threadDatasetInfo_spells hbytes⟩

end MatterRsServer.Controller
