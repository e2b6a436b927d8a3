import Mathlib.Data.List.Basic
import Mathlib.Algebra.GroupWithZero.Nat

/-!
# Byte positions in a text

A text is the list of its characters, each of which takes one to four bytes. A byte position is
a boundary if it lies between two characters; only there can the text be cut.
-/
namespace MatterRsServer.Lib.Utf8

/-- `str::len`. -/
def byteLen (s : List Char) : Nat := (s.map Char.utf8Size).sum

@[simp] theorem byteLen_nil : byteLen [] = 0 := rfl

@[simp] theorem byteLen_cons (c : Char) (s : List Char) :
    byteLen (c :: s) = c.utf8Size + byteLen s := by simp [byteLen]

@[simp] theorem byteLen_append (a b : List Char) : byteLen (a ++ b) = byteLen a + byteLen b := by
  simp [byteLen]

theorem utf8ByteSize_ofList (l : List Char) : (String.ofList l).utf8ByteSize = byteLen l := by
  induction l with
  | nil => rfl
  | cons c l ih =>
    rw [String.ofList_cons, String.utf8ByteSize_append, ih, String.utf8ByteSize_singleton,
      byteLen_cons]

theorem utf8ByteSize_eq_byteLen (s : String) : s.utf8ByteSize = byteLen s.toList := by
  have hsize := utf8ByteSize_ofList s.toList
  rwa [String.ofList_toList] at hsize

theorem length_le_byteLen (s : List Char) : s.length ≤ byteLen s := by
  induction s with
  | nil => exact Nat.le_refl 0
  | cons c s ih =>
    have hc := c.utf8Size_pos
    rw [List.length_cons, byteLen_cons]
    omega

theorem byteLen_mono {a s : List Char} (h : a <+: s) : byteLen a ≤ byteLen s := by
  obtain ⟨b, rfl⟩ := h
  rw [byteLen_append]
  exact Nat.le_add_right _ _

/-- The two parts of a text at a byte position that is a boundary. -/
def splitAt : List Char → Nat → Option (List Char × List Char)
  | [], n => if n = 0 then some ([], []) else none
  | c :: s, n =>
    if n = 0 then some ([], c :: s)
    else if c.utf8Size ≤ n then (splitAt s (n - c.utf8Size)).map fun p => (c :: p.1, p.2)
    else none

theorem splitAt_zero (s : List Char) : splitAt s 0 = some ([], s) := by
  cases s with
  | nil => rfl
  | cons c s => exact if_pos rfl

theorem splitAt_append (a s : List Char) (n : Nat) :
    splitAt (a ++ s) (byteLen a + n) = (splitAt s n).map fun p => (a ++ p.1, p.2) := by
  induction a with
  | nil => simp
  | cons c a ih =>
    have hc := c.utf8Size_pos
    have hrest : c.utf8Size + byteLen a + n - c.utf8Size = byteLen a + n := by omega
    rw [byteLen_cons, List.cons_append, splitAt, if_neg (by omega), if_pos (by omega), hrest, ih,
      Option.map_map]
    rfl

theorem splitAt_eq_some {s a b : List Char} {n : Nat} :
    splitAt s n = some (a, b) ↔ s = a ++ b ∧ byteLen a = n := by
  constructor
  · intro h
    induction s generalizing a n with
    | nil =>
      unfold splitAt at h
      split at h
      next hn =>
        cases h
        exact ⟨rfl, hn.symm⟩
      next => cases h
    | cons c s ih =>
      unfold splitAt at h
      split at h
      next hn =>
        cases h
        exact ⟨rfl, hn.symm⟩
      next hn =>
        split at h
        next hle =>
          obtain ⟨⟨a', b'⟩, hsplit, hp⟩ := Option.map_eq_some_iff.mp h
          cases hp
          obtain ⟨rfl, hlen⟩ := ih hsplit
          refine ⟨rfl, ?_⟩
          rw [byteLen_cons, hlen]
          omega
        next => cases h
  · rintro ⟨rfl, rfl⟩
    have happ := splitAt_append a b 0
    rwa [Nat.add_zero, splitAt_zero, Option.map_some, List.append_nil] at happ

/-- `str::is_char_boundary`. -/
def isCharBoundary (s : List Char) (n : Nat) : Bool := (splitAt s n).isSome

theorem isCharBoundary_iff {s : List Char} {n : Nat} :
    isCharBoundary s n = true ↔ ∃ a, a <+: s ∧ byteLen a = n := by
  unfold isCharBoundary
  rw [Option.isSome_iff_exists]
  constructor
  · rintro ⟨⟨a, b⟩, h⟩
    obtain ⟨rfl, hlen⟩ := splitAt_eq_some.mp h
    exact ⟨a, List.prefix_append a b, hlen⟩
  · rintro ⟨a, ⟨b, rfl⟩, hlen⟩
    exact ⟨(a, b), splitAt_eq_some.mpr ⟨rfl, hlen⟩⟩

/-- `&s[i..j]`; `none` is a panic. -/
def slice (s : List Char) (i j : Nat) : Option (List Char) :=
  if i ≤ j then (splitAt s i).bind fun p => (splitAt p.2 (j - i)).map Prod.fst else none

theorem slice_zero (s : List Char) (n : Nat) : slice s 0 n = (splitAt s n).map Prod.fst := by
  rw [slice, if_pos (Nat.zero_le n), splitAt_zero, Option.bind_some, Nat.sub_zero]

/-- What has been passed does not show in a slice. -/
theorem slice_append (a s : List Char) (i j : Nat) :
    slice (a ++ s) (byteLen a + i) (byteLen a + j) = slice s i j := by
  have hle : byteLen a + i ≤ byteLen a + j ↔ i ≤ j := by omega
  have hsub : byteLen a + j - (byteLen a + i) = j - i := by omega
  simp only [slice, hle, hsub, splitAt_append, Option.bind_map, Function.comp_def]

end MatterRsServer.Lib.Utf8
