import Mathlib.Algebra.GroupWithZero.Nat
import Mathlib.Data.List.Basic

/-!
# Numbers, letters and bytes of a string

What the program uses of its language's string library: unsigned decimal parsing and
printing, ASCII case folding, and the lossy decoding of UTF-8.
-/
namespace MatterRsServer.Lib.Text

/-- The optional sign in front of a number. -/
def dropPlus : List Char → List Char
  | '+' :: rest => rest
  | s => s

/-- `str::parse` of an unsigned type with `bound` values: an optional `+`, then at least one
digit, in range. -/
def parseUnsigned (bound : Nat) (s : List Char) : Option Nat :=
  if dropPlus s ≠ [] ∧ (dropPlus s).all Char.isDigit then
    if Nat.ofDigitChars 10 (dropPlus s) 0 < bound then some (Nat.ofDigitChars 10 (dropPlus s) 0)
    else none
  else none

theorem isDigit_of_mem_repr {n : Nat} {c : Char} (h : c ∈ n.repr.toList) : c.isDigit = true := by
  rw [Nat.toList_repr] at h
  exact Nat.isDigit_of_mem_toDigits (by decide) (by decide) h

theorem dropPlus_repr (n : Nat) : dropPlus n.repr.toList = n.repr.toList := by
  unfold dropPlus
  split
  · rename_i rest heq
    have hdigit : Char.isDigit '+' = true := isDigit_of_mem_repr (by rw [heq]; simp)
    exact absurd hdigit (by decide)
  · rfl

/-- A number that is in range is parsed from its own digits. -/
theorem parseUnsigned_repr {bound n : Nat} (h : n < bound) :
    parseUnsigned bound n.repr.toList = some n := by
  have hne : n.repr.toList ≠ [] := by
    rw [Nat.toList_repr]
    exact Nat.toDigits_ne_nil
  have hall : n.repr.toList.all Char.isDigit = true :=
    List.all_eq_true.mpr fun c hc => isDigit_of_mem_repr hc
  unfold parseUnsigned
  rw [dropPlus_repr, if_pos ⟨hne, hall⟩, Nat.toList_repr, Nat.ofDigitChars_ten_toDigits, if_pos h]

theorem repr_injective {m n : Nat} (h : m.repr = n.repr) : m = n := by
  have hm : parseUnsigned (m + n + 1) m.repr.toList = some m := parseUnsigned_repr (by omega)
  have hn : parseUnsigned (m + n + 1) n.repr.toList = some n := parseUnsigned_repr (by omega)
  rw [h, hn] at hm
  exact (Option.some.inj hm).symm

/-- A separator that does not occur in the fields splits a text in one way only. -/
theorem append_cons_inj {c : Char} {a b x y : List Char} (ha : c ∉ a) (hb : c ∉ b)
    (h : a ++ c :: x = b ++ c :: y) : a = b ∧ x = y := by
  induction a generalizing b with
  | nil =>
    cases b with
    | nil => exact ⟨rfl, (List.cons.inj h).2⟩
    | cons d b => exact absurd (by simp [(List.cons.inj h).1]) hb
  | cons d a ih =>
    cases b with
    | nil => exact absurd (by simp [(List.cons.inj h).1]) ha
    | cons e b =>
      obtain ⟨rfl, htail⟩ := List.cons.inj h
      obtain ⟨rfl, rfl⟩ := ih (fun hc => ha (by simp [hc])) (fun hc => hb (by simp [hc])) htail
      exact ⟨rfl, rfl⟩

/-- `str::split_once` on a character. -/
def splitOnce (c : Char) : List Char → Option (List Char × List Char)
  | [] => none
  | a :: l => if a = c then some ([], l) else (splitOnce c l).map fun p => (a :: p.1, p.2)

theorem splitOnce_append {c : Char} {a : List Char} (h : c ∉ a) (b : List Char) :
    splitOnce c (a ++ c :: b) = some (a, b) := by
  induction a with
  | nil => simp [splitOnce]
  | cons d a ih =>
    have hd : d ≠ c := by
      rintro rfl
      exact h (by simp)
    have hrest := ih fun hc => h (by simp [hc])
    simp [splitOnce, hd, hrest]

theorem splitOnce_eq_none {c : Char} {l : List Char} (h : c ∉ l) : splitOnce c l = none := by
  induction l with
  | nil => rfl
  | cons d l ih =>
    have hd : d ≠ c := by
      rintro rfl
      exact h (by simp)
    have hrest := ih fun hc => h (by simp [hc])
    simp [splitOnce, hd, hrest]

theorem mem_of_splitOnce {c : Char} {l a b : List Char} (h : splitOnce c l = some (a, b)) :
    b ⊆ l := by
  induction l generalizing a with
  | nil => cases h
  | cons d l ih =>
    unfold splitOnce at h
    split at h
    · cases h
      exact List.subset_cons_self d b
    · obtain ⟨⟨a', b'⟩, hsplit, hp⟩ := Option.map_eq_some_iff.mp h
      cases hp
      exact fun e he => List.mem_cons_of_mem d (ih hsplit he)

/-- `str::rsplit_once` on a character. -/
def rsplitOnce (c : Char) (l : List Char) : Option (List Char × List Char) :=
  (splitOnce c l.reverse).map fun p => (p.2.reverse, p.1.reverse)

theorem rsplitOnce_append {c : Char} {b : List Char} (h : c ∉ b) (a : List Char) :
    rsplitOnce c (a ++ c :: b) = some (a, b) := by
  have hb : c ∉ b.reverse := fun hc => h (List.mem_reverse.mp hc)
  have hsplit := splitOnce_append hb a.reverse
  simp [rsplitOnce, hsplit]

theorem rsplitOnce_eq_none {c : Char} {l : List Char} (h : c ∉ l) : rsplitOnce c l = none := by
  have hreverse : c ∉ l.reverse := fun hc => h (List.mem_reverse.mp hc)
  rw [rsplitOnce, splitOnce_eq_none hreverse, Option.map_none]

theorem mem_of_rsplitOnce {c : Char} {l a b : List Char} (h : rsplitOnce c l = some (a, b)) :
    a ⊆ l := by
  obtain ⟨⟨x, y⟩, hsplit, hp⟩ := Option.map_eq_some_iff.mp h
  cases hp
  exact fun d hd => List.mem_reverse.mp (mem_of_splitOnce hsplit (List.mem_reverse.mp hd))

/-- The letters of a string without their ASCII case. -/
def foldCase (s : String) : List Char := s.toList.map Char.toLower

/-- `str::eq_ignore_ascii_case`. -/
def eqIgnoreAsciiCase (a b : String) : Bool := foldCase a == foldCase b

theorem eqIgnoreAsciiCase_iff {a b : String} : eqIgnoreAsciiCase a b = true ↔ foldCase a = foldCase b := by
  unfold eqIgnoreAsciiCase
  exact beq_iff_eq

/-- A multi-byte character of which `missing` bytes are still to come; the next one lies
between `lo` and `hi`. -/
structure Partial where
  code : Nat
  missing : Nat
  lo : UInt8
  hi : UInt8

/-- A byte at the start of a character: what it yields at once, and what it opens. -/
def leadByte (b : UInt8) : List Char × Option Partial :=
  if b < 0x80 then ([Char.ofNat b.toNat], none)
  else if 0xC2 ≤ b ∧ b ≤ 0xDF then ([], some ⟨b.toNat % 32, 1, 0x80, 0xBF⟩)
  else if b = 0xE0 then ([], some ⟨0, 2, 0xA0, 0xBF⟩)
  else if b = 0xED then ([], some ⟨0x0D, 2, 0x80, 0x9F⟩)
  else if 0xE1 ≤ b ∧ b ≤ 0xEF then ([], some ⟨b.toNat % 16, 2, 0x80, 0xBF⟩)
  else if b = 0xF0 then ([], some ⟨0, 3, 0x90, 0xBF⟩)
  else if 0xF1 ≤ b ∧ b ≤ 0xF3 then ([], some ⟨b.toNat % 8, 3, 0x80, 0xBF⟩)
  else if b = 0xF4 then ([], some ⟨4, 3, 0x80, 0x8F⟩)
  else (['\uFFFD'], none)

/-- Decode byte by byte; each maximal ill-formed prefix of a character becomes one U+FFFD. -/
def decodeLossy : Option Partial → List UInt8 → List Char
  | none, [] => []
  | some _, [] => ['\uFFFD']
  | none, b :: rest => (leadByte b).1 ++ decodeLossy (leadByte b).2 rest
  | some p, b :: rest =>
    if p.lo ≤ b ∧ b ≤ p.hi then
      let code := p.code * 64 + b.toNat % 64
      if p.missing = 1 then Char.ofNat code :: decodeLossy none rest
      else decodeLossy (some ⟨code, p.missing - 1, 0x80, 0xBF⟩) rest
    else '\uFFFD' :: (leadByte b).1 ++ decodeLossy (leadByte b).2 rest

/-- `String::from_utf8_lossy`: valid input is borrowed as it is. -/
def fromUtf8Lossy (bytes : ByteArray) : String :=
  match String.fromUTF8? bytes with
  | some s => s
  | none => .ofList (decodeLossy none bytes.data.toList)

@[simp] theorem fromUtf8Lossy_toUTF8 (s : String) : fromUtf8Lossy s.toUTF8 = s := by
  unfold fromUtf8Lossy
  rw [String.fromUTF8?, dif_pos (show s.toUTF8.IsValidUTF8 from s.isValidUTF8)]
  rfl

/-- A byte sequence that some string has as its encoding is kept. -/
theorem toUTF8_fromUtf8Lossy {bytes : ByteArray} (h : bytes.IsValidUTF8) :
    (fromUtf8Lossy bytes).toUTF8 = bytes := by
  unfold fromUtf8Lossy
  rw [String.fromUTF8?, dif_pos h]
  rfl

end MatterRsServer.Lib.Text
