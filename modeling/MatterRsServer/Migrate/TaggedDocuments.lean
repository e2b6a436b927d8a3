import MatterRsServer.Migrate.Decode
import Mathlib.Tactic.IntervalCases

/-!
# The documents of tagged values

What matter.js writes for a value is read back as that value, and no value is read as two
types. JSON texts are read by a parser that is a parameter, as in `Texts`.
-/
namespace MatterRsServer.Migrate
open Lib Lib.Result Wire Controller

/-- The document of a value: its tag, and the text of its payload. -/
def document (tag payload : String) : String :=
  tagPrefix ++ tag ++ "\",\"__value__\":" ++ payload ++ "\x7d"

/-- What the document of a value holds. -/
def documentJson (tag : String) (payload : Json) : Json :=
  .ofMembers [("__object__", .str tag), ("__value__", payload)]

/-- The parser reads the documents that matter.js writes; `quote` is the text of a string. -/
structure ReadsDocuments (texts : Texts) (quote : String → String) : Prop where
  string : ∀ tag ∈ bigintTags ++ ["Uint8Array", "Map"], ∀ s,
    texts.fromStr (document tag (quote s)) = .ok (documentJson tag (.str s))
  number : ∀ tag ∈ numberTags, ∀ n : UInt64,
    texts.fromStr (document tag n.toNat.repr) = .ok (documentJson tag (.ofU64 n))

/-- A digit of a byte in either letter case. -/
def HexDigit (n : Nat) (c : Char) : Prop := c = Nat.digitChar n ∨ c = (Nat.digitChar n).toUpper

/-- Two digits for each byte. -/
inductive HexOf : List Char → Bytes → Prop
  | nil : HexOf [] []
  | cons {high low digits byte bytes} : HexDigit (byte.toNat / 16) high →
      HexDigit (byte.toNat % 16) low → HexOf digits bytes →
      HexOf (high :: low :: digits) (byte :: bytes)

theorem hexOf_hexEncode (bytes : Bytes) : HexOf (hexEncode bytes).toList bytes := by
  unfold hexEncode
  rw [String.toList_ofList]
  induction bytes with
  | nil => exact .nil
  | cons byte bytes ih => exact .cons (Or.inl rfl) (Or.inl rfl) ih

/-- A digit is one byte of text, and is read as its value. -/
theorem HexDigit.read {n : Nat} (hn : n < 16) {c : Char} (h : HexDigit n c) :
    String.utf8EncodeChar c = [c.val.toUInt8] ∧
      ∀ index, hexNibble c.val.toUInt8 index = .ok (UInt8.ofNat n) := by
  constructor
  · apply String.utf8EncodeChar_eq_singleton
    rcases h with rfl | rfl <;> interval_cases n <;> rfl
  · intro index
    rcases h with rfl | rfl <;> interval_cases n <;> rfl

theorem join_nibbles (b : UInt8) :
    UInt8.ofNat (b.toNat / 16) <<< 4 ||| UInt8.ofNat (b.toNat % 16) = b := by
  have hall : ∀ n < 256, UInt8.ofNat (n / 16) <<< 4 ||| UInt8.ofNat (n % 16) = UInt8.ofNat n := by
    decide +kernel
  simpa using hall b.toNat b.toNat_lt

theorem HexOf.utf8 {digits : List Char} {bytes : Bytes} (h : HexOf digits bytes) :
    digits.flatMap String.utf8EncodeChar = digits.map fun c => c.val.toUInt8 := by
  induction h with
  | nil => rfl
  | @cons high low digits byte bytes hhigh hlow _ ih =>
    have hlt := byte.toNat_lt
    simp only [List.flatMap_cons, List.map_cons, (hhigh.read (by omega)).1,
      (hlow.read (by omega)).1, ih, List.singleton_append]

theorem HexOf.hexPairs {digits : List Char} {bytes : Bytes} (h : HexOf digits bytes)
    (index : Nat) : hexPairs index (digits.map fun c => c.val.toUInt8) = .ok bytes := by
  induction h generalizing index with
  | nil => rfl
  | @cons high low digits byte bytes hhigh hlow _ ih =>
    have hlt := byte.toNat_lt
    simp only [List.map_cons, Migrate.hexPairs, (hhigh.read (by omega)).2,
      (hlow.read (by omega)).2, ih, join_nibbles, bind, Except.bind, pure, Except.pure]

theorem HexOf.length {digits : List Char} {bytes : Bytes} (h : HexOf digits bytes) :
    digits.length = 2 * bytes.length := by
  induction h with
  | nil => rfl
  | cons _ _ _ ih =>
    simp only [List.length_cons, ih]
    omega

/-- Hex text is read in either letter case. -/
theorem HexOf.hexDecode {digits : List Char} {bytes : Bytes} (h : HexOf digits bytes) :
    hexDecode (.ofList digits) = .ok bytes := by
  have hbytes : (String.ofList digits).toUTF8.data.toList = digits.map fun c => c.val.toUInt8 := by
    change (String.ofList digits).toByteArray.data.toList = _
    rw [String.toByteArray_ofList, List.utf8Encode, List.toList_data_toByteArray, h.utf8]
  have hsize : (String.ofList digits).utf8ByteSize = 2 * bytes.length := by
    rw [← String.size_toByteArray, String.toByteArray_ofList, List.utf8Encode, h.utf8,
      List.size_toByteArray, List.length_map, h.length]
  unfold Migrate.hexDecode
  rw [hsize, if_neg (by omega), hbytes]
  exact h.hexPairs 0

theorem documentJson_object (tag : String) (payload : Json) :
    (documentJson tag payload).get "__object__" = some (.str tag) := by
  simp [documentJson, Json.ofMembers, Json.get, Entries.insertAll, Entries.get?_insert]

theorem documentJson_value (tag : String) (payload : Json) :
    (documentJson tag payload).get "__value__" = some payload := by
  simp [documentJson, Json.ofMembers, Json.get, Entries.insertAll]

/-- A string that is taken for a document. -/
def LooksTagged (s : String) : Prop :=
  tagPrefix.toList <+: s.toList ∧ s.toList.getLast? = some '\x7d'

theorem looksTagged_document (tag payload : String) : LooksTagged (document tag payload) := by
  constructor
  · exact ⟨tag.toList ++ "\",\"__value__\":".toList ++ payload.toList ++ ['\x7d'], by
      simp [document]⟩
  · have hlist : (document tag payload).toList =
        (tagPrefix ++ tag ++ "\",\"__value__\":" ++ payload).toList ++ ['\x7d'] := by
      simp [document]
    rw [hlist, List.getLast?_append, List.getLast?_singleton, Option.some_or]

theorem LooksTagged.parseTagged {s : String} (h : LooksTagged s) (texts : Texts) :
    parseTagged texts (.str s) = some (parseTaggedInner texts s) := by
  have hprefix : tagPrefix.toList.isPrefixOf s.toList = true := List.isPrefixOf_iff_prefix.mpr h.1
  simp [Migrate.parseTagged, Json.asStr, hprefix, h.2]

/-- What a document stands for. -/
inductive Denotes (texts : Texts) (doc : Json) : Tagged → Prop
  | decimal {tag s n} : doc.get "__object__" = some (.str tag) → tag ∈ bigintTags →
      doc.get "__value__" = some (.str s) → parseU64 s = .ok n → Denotes texts doc (.u64 n)
  | number {tag v n} : doc.get "__object__" = some (.str tag) → tag ∈ numberTags →
      doc.get "__value__" = some v → readU64 v = some n → Denotes texts doc (.u64 n)
  | bytes {s bytes} : doc.get "__object__" = some (.str "Uint8Array") →
      doc.get "__value__" = some (.str s) → hexDecode s = .ok bytes → Denotes texts doc (.bytes bytes)
  | map {s inner entries} : doc.get "__object__" = some (.str "Map") →
      doc.get "__value__" = some (.str s) → texts.fromStr s = .ok inner →
      entriesFromArray inner = .ok entries → Denotes texts doc (.mapEntries entries)

theorem not_undefined_of_mem_bigintTags {tag : String} (h : tag ∈ bigintTags) :
    tag ≠ "Undefined" := by
  rintro rfl
  revert h
  decide

theorem not_mem_bigintTags_of_mem_numberTags {tag : String} (h : tag ∈ numberTags) :
    tag ≠ "Undefined" ∧ tag ∉ bigintTags := by
  simp only [numberTags, List.mem_cons, List.not_mem_nil, or_false] at h
  rcases h with rfl | rfl | rfl | rfl | rfl | rfl | rfl | rfl | rfl | rfl | rfl | rfl | rfl <;>
    decide

/-- A document is read as what it stands for. -/
theorem Denotes.parse {texts : Texts} {s : String} {doc : Json} {t : Tagged}
    (hdoc : texts.fromStr s = .ok doc) (h : Denotes texts doc t) :
    parseTaggedInner texts s = .ok t := by
  unfold parseTaggedInner
  cases h with
  | @decimal tag text n htag hmem hvalue hparse =>
    have hne := not_undefined_of_mem_bigintTags hmem
    simp [hdoc, malformedBy, htag, payload, Json.asStr, hne, hmem, hvalue, hparse, bind,
      Except.bind, pure, Except.pure]
  | @number tag v n htag hmem hvalue hread =>
    obtain ⟨hne, hnot⟩ := not_mem_bigintTags_of_mem_numberTags hmem
    simp [hdoc, malformedBy, htag, payload, Json.asStr, hne, hnot, hmem, hvalue, hread, bind,
      Except.bind, pure, Except.pure]
  | bytes htag hvalue hhex =>
    simp [hdoc, malformedBy, htag, payload, Json.asStr, hvalue, hhex, bigintTags, numberTags,
      bind, Except.bind, pure, Except.pure]
  | map htag hvalue hinner hentries =>
    simp [hdoc, malformedBy, htag, payload, Json.asStr, hvalue, hinner, hentries, bigintTags,
      numberTags, bind, Except.bind, pure, Except.pure]

theorem malformedBy_eq_ok {α : Type} {what : String} {x : Except String α} {a : α}
    (h : malformedBy what x = .ok a) : x = .ok a := by
  cases x with
  | error e => cases h
  | ok b => exact congrArg Except.ok (Except.ok.inj h)

theorem payload_eq_ok {α : Type} {reason : String} {x : Option α} {a : α}
    (h : payload reason x = .ok a) : x = some a := by
  cases x with
  | none => cases h
  | some b => exact congrArg some (Except.ok.inj h)

theorem bind_asStr_eq_some {x : Option Json} {s : String} (h : x.bind Json.asStr = some s) :
    x = some (.str s) := by
  obtain ⟨v, rfl, hv⟩ := Option.bind_eq_some_iff.mp h
  cases v with
  | str t => exact congrArg (fun t => some (Json.str t)) (Option.some.inj hv)
  | null | bool _ | num _ | arr _ | obj _ => cases hv

/-- What is read in a document, it stands for. -/
theorem denotes_of_parse {texts : Texts} {s : String} {t : Tagged}
    (h : parseTaggedInner texts s = .ok t) :
    ∃ doc, texts.fromStr s = .ok doc ∧
      (doc.get "__object__" = some (.str "Undefined") ∧ t = .undefined ∨ Denotes texts doc t) := by
  unfold parseTaggedInner at h
  obtain ⟨doc, hdoc, h⟩ := bind_eq_ok h
  refine ⟨doc, malformedBy_eq_ok hdoc, ?_⟩
  obtain ⟨tag, htag, h⟩ := bind_eq_ok h
  have hobject := bind_asStr_eq_some (payload_eq_ok htag)
  by_cases hundefined : tag = "Undefined"
  · rw [if_pos hundefined] at h
    rw [hundefined] at hobject
    exact Or.inl ⟨hobject, (Except.ok.inj h).symm⟩
  rw [if_neg hundefined] at h
  refine Or.inr ?_
  by_cases hbigint : tag ∈ bigintTags
  · rw [if_pos hbigint] at h
    obtain ⟨text, htext, h⟩ := bind_eq_ok h
    obtain ⟨n, hn, h⟩ := bind_eq_ok h
    cases h
    exact .decimal hobject hbigint (bind_asStr_eq_some (payload_eq_ok htext)) (malformedBy_eq_ok hn)
  rw [if_neg hbigint] at h
  by_cases hnumber : tag ∈ numberTags
  · rw [if_pos hnumber] at h
    obtain ⟨n, hn, h⟩ := bind_eq_ok h
    cases h
    obtain ⟨v, hvalue, hread⟩ := Option.bind_eq_some_iff.mp (payload_eq_ok hn)
    exact .number hobject hnumber hvalue hread
  rw [if_neg hnumber] at h
  by_cases hbytes : tag = "Uint8Array"
  · rw [if_pos hbytes] at h
    obtain ⟨text, htext, h⟩ := bind_eq_ok h
    obtain ⟨bytes, hhex, h⟩ := bind_eq_ok h
    cases h
    rw [hbytes] at hobject
    exact .bytes hobject (bind_asStr_eq_some (payload_eq_ok htext)) (malformedBy_eq_ok hhex)
  rw [if_neg hbytes] at h
  by_cases hmap : tag = "Map"
  · rw [if_pos hmap] at h
    obtain ⟨text, htext, h⟩ := bind_eq_ok h
    obtain ⟨inner, hinner, h⟩ := bind_eq_ok h
    obtain ⟨entries, hentries, h⟩ := bind_eq_ok h
    cases h
    rw [hmap] at hobject
    exact .map hobject (bind_asStr_eq_some (payload_eq_ok htext)) (malformedBy_eq_ok hinner) hentries
  · rw [if_neg hmap] at h
    cases h

/-- A document that stands for nothing: it is no JSON, it has no tag, the tag is unknown (or
`Undefined`), or the payload is not one of its tag. -/
inductive Unreadable (texts : Texts) (s : String) : Prop
  | notJson {e} : texts.fromStr s = .error e → Unreadable texts s
  | noTag {doc} : texts.fromStr s = .ok doc →
      (∀ tag, doc.get "__object__" ≠ some (.str tag)) → Unreadable texts s
  | unknownTag {doc tag} : texts.fromStr s = .ok doc → doc.get "__object__" = some (.str tag) →
      tag ∉ bigintTags ++ numberTags ++ ["Uint8Array", "Map"] → Unreadable texts s
  | badPayload {doc} : texts.fromStr s = .ok doc → (∀ t, ¬ Denotes texts doc t) →
      Unreadable texts s

theorem Denotes.known {texts : Texts} {doc : Json} {t : Tagged} (h : Denotes texts doc t) :
    ∃ tag ∈ bigintTags ++ numberTags ++ ["Uint8Array", "Map"],
      doc.get "__object__" = some (.str tag) := by
  cases h with
  | decimal htag hmem => exact ⟨_, by simp [hmem], htag⟩
  | number htag hmem => exact ⟨_, by simp [hmem], htag⟩
  | bytes htag => exact ⟨_, by simp, htag⟩
  | map htag => exact ⟨_, by simp, htag⟩

theorem Unreadable.parse {texts : Texts} {s : String} (h : Unreadable texts s) {t : Tagged}
    (ht : parseTaggedInner texts s = .ok t) : t = .undefined := by
  obtain ⟨doc, hdoc, ⟨_, rfl⟩ | hdenotes⟩ := denotes_of_parse ht
  · rfl
  exfalso
  obtain ⟨tag, hmem, htag⟩ := hdenotes.known
  cases h with
  | notJson herror =>
    rw [hdoc] at herror
    cases herror
  | noTag hok hnone =>
    cases hdoc.symm.trans hok
    exact hnone tag htag
  | unknownTag hok hother hunknown =>
    cases hdoc.symm.trans hok
    cases htag.symm.trans hother
    exact hunknown hmem
  | badPayload hok hnot =>
    cases hdoc.symm.trans hok
    exact hnot t hdenotes

/-- Which of `as_u64`, `as_bytes`, `as_str` and `as_map_entries` read the value. -/
def readings (texts : Texts) (v : Json) : List Bool :=
  [(asU64 texts v).isOk, (asBytes texts v).isOk, (asStr texts v).isOk, (asMapEntries texts v).isOk]

/-- The one that reads a tagged value. -/
def Tagged.readings : Tagged → List Bool
  | .u64 _ => [true, false, false, false]
  | .bytes _ => [false, true, false, false]
  | .mapEntries _ => [false, false, false, true]
  | .undefined => [false, false, false, false]

theorem readings_of_parse {texts : Texts} {v : Json} {t : Tagged}
    (h : parseTagged texts v = some (.ok t)) :
    readings texts v = t.readings := by
  cases t <;> simp [readings, Tagged.readings, asU64, asBytes, asStr, asMapEntries, h, Except.isOk,
    Except.toBool]

theorem readings_of_error {texts : Texts} {v : Json} {e : DecodeError}
    (h : parseTagged texts v = some (.error e)) :
    readings texts v = [false, false, false, false] := by
  simp [readings, asU64, asBytes, asStr, asMapEntries, h, Except.isOk, Except.toBool]

/-- No value is read as two types. -/
theorem readings_count (texts : Texts) (v : Json) :
    (readings texts v).count true ≤ 1 := by
  cases hparse : parseTagged texts v with
  | some outcome =>
    cases outcome with
    | ok t =>
      rw [readings_of_parse hparse]
      cases t <;> simp [Tagged.readings]
    | error e =>
      rw [readings_of_error hparse]
      decide
  | none =>
    cases v with
    | num n =>
      cases hn : readU64 (.num n) <;>
        simp [readings, asU64, asBytes, asStr, asMapEntries, hparse, hn, Json.asStr, Except.isOk,
          Except.toBool]
    | arr items =>
      cases hitems : entriesFromArray (.arr items) <;>
        simp [readings, asU64, asBytes, asStr, asMapEntries, hparse, hitems, Json.asStr, Except.isOk,
          Except.toBool, readU64, Json.asU64]
    | null | bool _ | str _ | obj _ =>
      simp [readings, asU64, asBytes, asStr, asMapEntries, hparse, Json.asStr, Except.isOk, Except.toBool,
        readU64, Json.asU64]

section Documents

variable {texts : Texts}

theorem parseTagged_document {tag text : String} {payload : Json} {t : Tagged}
    (hread : texts.fromStr (document tag text) = .ok (documentJson tag payload))
    (h : Denotes texts (documentJson tag payload) t) :
    parseTagged texts (.str (document tag text)) = some (.ok t) := by
  rw [(looksTagged_document tag text).parseTagged, h.parse hread]

theorem parseU64_repr (n : UInt64) : parseU64 n.toNat.repr = .ok n := by
  rw [parseU64, Text.parseUnsigned_repr n.toNat_lt]
  simp

theorem entriesFromArray_pairs (entries : List (Json × Json)) :
    entriesFromArray (.arr (entries.map fun e => .arr [e.1, e.2])) = .ok entries := by
  unfold entriesFromArray
  induction entries with
  | nil => rfl
  | cons e entries ih =>
    dsimp only at ih ⊢
    rw [List.map_cons, List.mapM_cons, entryOf, ih]
    rfl

end Documents

/-- What matter.js writes for a value is read as that value, no value is read as two types,
and a document that stands for nothing is not read at all. -/
theorem tagged_codec {texts : Texts} {quote : String → String} (h : ReadsDocuments texts quote) :
    (∀ tag ∈ bigintTags, ∀ n : UInt64,
      asU64 texts (.str (document tag (quote n.toNat.repr))) = .ok n) ∧
    (∀ tag ∈ numberTags, ∀ n : UInt64,
      asU64 texts (.str (document tag n.toNat.repr)) = .ok n) ∧
    (∀ digits bytes, HexOf digits bytes →
      asBytes texts (.str (document "Uint8Array" (quote (.ofList digits)))) = .ok bytes) ∧
    (∀ entries inner, texts.fromStr inner = .ok (.arr (entries.map fun e => .arr [e.1, e.2])) →
      asMapEntries texts (.str (document "Map" (quote inner))) = .ok entries) ∧
    (∀ v, (readings texts v).count true ≤ 1) ∧
    ∀ s, LooksTagged s → (asStr texts (.str s)).isOk = false ∧
      (Unreadable texts s → readings texts (.str s) = [false, false, false, false]) := by
  refine ⟨fun tag htag n => ?_, fun tag htag n => ?_, fun digits bytes hhex => ?_,
    fun entries inner hinner => ?_, readings_count texts, fun s hs => ⟨?_, fun hunread => ?_⟩⟩
  · have hread := h.string tag (by simp [htag]) n.toNat.repr
    have hdenotes : Denotes texts (documentJson tag (.str n.toNat.repr)) (.u64 n) :=
      .decimal (documentJson_object _ _) htag (documentJson_value _ _) (parseU64_repr n)
    rw [asU64, parseTagged_document hread hdenotes]
  · have hread := h.number tag htag n
    have hdenotes : Denotes texts (documentJson tag (.ofU64 n)) (.u64 n) :=
      .number (documentJson_object _ _) htag (documentJson_value _ _) (readU64_ofU64 n)
    rw [asU64, parseTagged_document hread hdenotes]
  · have hread := h.string "Uint8Array" (by simp) (.ofList digits)
    have hdenotes : Denotes texts (documentJson "Uint8Array" (.str (.ofList digits)))
        (.bytes bytes) :=
      .bytes (documentJson_object _ _) (documentJson_value _ _) hhex.hexDecode
    rw [asBytes, parseTagged_document hread hdenotes]
  · have hread := h.string "Map" (by simp) inner
    have hdenotes : Denotes texts (documentJson "Map" (.str inner)) (.mapEntries entries) :=
      .map (documentJson_object _ _) (documentJson_value _ _) hinner (entriesFromArray_pairs entries)
    simp only [asMapEntries, parseTagged_document hread hdenotes]
  · cases hparse : parseTaggedInner texts s <;>
      simp [asStr, hs.parseTagged, hparse, Except.isOk, Except.toBool]
  · cases hparse : parseTaggedInner texts s with
    | error e => exact readings_of_error (by rw [hs.parseTagged, hparse])
    | ok t =>
      rw [hunread.parse hparse] at hparse
      exact readings_of_parse (by rw [hs.parseTagged, hparse])

section Plain

/-- A string of JSON, with its quotes and backslashes escaped. -/
def escape (c : Char) : List Char := if c = '"' ∨ c = '\\' then ['\\', c] else [c]

def quotePlain (s : String) : String := .ofList ('"' :: (s.toList.flatMap escape ++ ['"']))

def unquote : List Char → Option (List Char)
  | ['"'] => some []
  | '\\' :: c :: s => (unquote s).map (c :: ·)
  | [] => none
  | c :: s => if c = '"' then none else (unquote s).map (c :: ·)

/-- A parser of tagged documents, and of one small map. -/
def readPlain (s : String) : Except String Json :=
  if s = "[[1,2]]" then .ok (.arr [.arr [.ofU64 1, .ofU64 2]])
  else
    match Text.splitOnce '"' (s.toList.drop tagPrefix.length) with
    | none => .error "expected a tag"
    | some (tag, rest) =>
      match (rest.drop 13).dropLast with
      | '"' :: text =>
        match unquote text with
        | some text => .ok (documentJson (.ofList tag) (.str (.ofList text)))
        | none => .error "expected a string"
      | digits =>
        match Text.parseUnsigned (2 ^ 64) digits with
        | some n => .ok (documentJson (.ofList tag) (.ofU64 (UInt64.ofNat n)))
        | none => .error "expected a number"

def plainTexts : Texts := ⟨readPlain, fun _ => ""⟩

theorem fromStr_plainTexts (s : String) : plainTexts.fromStr s = readPlain s := rfl

theorem unquote_escape (s : List Char) : unquote (s.flatMap escape ++ ['"']) = some s := by
  induction s with
  | nil => rfl
  | cons c s ih =>
    by_cases hc : c = '"' ∨ c = '\\'
    · have hescape : (c :: s).flatMap escape ++ ['"'] =
          '\\' :: c :: (s.flatMap escape ++ ['"']) := by
        simp [escape, hc]
      rw [hescape, unquote, ih]
      · rfl
    · have hescape : (c :: s).flatMap escape ++ ['"'] = c :: (s.flatMap escape ++ ['"']) := by
        simp [escape, hc]
      push Not at hc
      rw [hescape, unquote, if_neg hc.1, ih]
      · rfl
      · intro heq
        exact absurd heq hc.1
      · intro d t heq
        exact absurd heq hc.2

theorem readPlain_document {tag text : String} (htag : '"' ∉ tag.toList) :
    readPlain (document tag text) =
      match text.toList with
      | '"' :: text =>
        match unquote text with
        | some text => .ok (documentJson tag (.str (.ofList text)))
        | none => .error "expected a string"
      | digits =>
        match Text.parseUnsigned (2 ^ 64) digits with
        | some n => .ok (documentJson tag (.ofU64 (UInt64.ofNat n)))
        | none => .error "expected a number" := by
  have hlist : (document tag text).toList =
      tagPrefix.toList ++ (tag.toList ++ '"' :: (",\"__value__\":".toList ++ (text.toList ++ ['\x7d']))) := by
    simp [document]
  have hne : document tag text ≠ "[[1,2]]" := by
    intro heq
    have hhead : (document tag text).toList.head? = some '[' := by rw [heq]; rfl
    rw [hlist, List.head?_append_of_ne_nil _ (by decide)] at hhead
    revert hhead
    decide
  have hrest : (",\"__value__\":".toList ++ (text.toList ++ ['\x7d'])).drop 13 =
      text.toList ++ ['\x7d'] := by
    have hlength : ",\"__value__\":".toList.length = 13 := by decide
    rw [← hlength, List.drop_left]
  have hdrop : (document tag text).toList.drop tagPrefix.length =
      tag.toList ++ '"' :: (",\"__value__\":".toList ++ (text.toList ++ ['\x7d'])) := by
    rw [hlist]
    exact List.drop_left
  unfold readPlain
  rw [if_neg hne, hdrop, Text.splitOnce_append htag]
  dsimp only
  rw [hrest, List.dropLast_concat, String.ofList_toList]

theorem readsDocuments_plain : ReadsDocuments plainTexts quotePlain where
  string := by
    intro tag htag s
    have hplain : '"' ∉ tag.toList := by
      revert htag tag
      decide
    rw [fromStr_plainTexts]
    have hquote : (quotePlain s).toList = '"' :: (s.toList.flatMap escape ++ ['"']) :=
      String.toList_ofList
    simp only [readPlain_document hplain, hquote, unquote_escape, String.ofList_toList]
  number := by
    intro tag htag n
    have hplain : '"' ∉ tag.toList := by
      revert htag tag
      decide
    have hdigits : ∀ text, n.toNat.repr.toList ≠ '"' :: text := by
      intro text heq
      have hdigit : Char.isDigit '"' = true :=
        Text.isDigit_of_mem_repr (by rw [heq]; simp)
      revert hdigit
      decide
    rw [fromStr_plainTexts, readPlain_document hplain]
    split
    next text heq => exact absurd heq (hdigits text)
    next =>
      rw [Text.parseUnsigned_repr n.toNat_lt]
      simp

theorem tagged_codec_plain :
    asU64 plainTexts (.str (document "NodeId" (quotePlain (112233 : UInt64).toNat.repr))) =
      .ok 112233 ∧
    asU64 plainTexts (.str (document "VendorId" (65521 : UInt64).toNat.repr)) = .ok 65521 ∧
    asBytes plainTexts (.str (document "Uint8Array" (quotePlain (.ofList ['f', 'E', '0', '4'])))) =
      .ok [254, 4] ∧
    asMapEntries plainTexts (.str (document "Map" (quotePlain "[[1,2]]"))) =
      .ok [(.ofU64 1, .ofU64 2)] := by
  have hcodec := tagged_codec readsDocuments_plain
  have hhex : HexOf ['f', 'E', '0', '4'] [254, 4] :=
    .cons (Or.inl rfl) (Or.inr rfl) (.cons (Or.inl rfl) (Or.inl rfl) .nil)
  exact ⟨hcodec.1 "NodeId" (by decide) 112233, hcodec.2.1 "VendorId" (by decide) 65521,
    hcodec.2.2.1 _ _ hhex, hcodec.2.2.2.1 [(.ofU64 1, .ofU64 2)] "[[1,2]]" rfl⟩

end Plain

end MatterRsServer.Migrate
