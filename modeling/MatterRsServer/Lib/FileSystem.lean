import Mathlib.Logic.Function.Basic

/-!
# A file system

Names stand for files, and an open file is written through the file itself. There are no hard
links: two names never stand for one file, and no operation here makes it so.
-/
namespace MatterRsServer.Lib

structure File where
  bytes : List UInt8
  mode : Nat

namespace File

/-- A write at an offset that is not past the end. -/
def writeAt (f : File) (offset : Nat) (chunk : List UInt8) : File :=
  { f with bytes := f.bytes.take offset ++ chunk ++ f.bytes.drop (offset + chunk.length) }

/-- A write at the end. -/
theorem bytes_writeAt_length (f : File) (chunk : List UInt8) :
    (f.writeAt f.bytes.length chunk).bytes = f.bytes ++ chunk := by
  simp [writeAt]

end File

/-- The files are numbered in the order in which they were made, and `made` of them were. -/
structure FileSystem (Path : Type) where
  entry : Path → Option Nat
  file : Nat → File
  made : Nat
  bounded : ∀ {p : Path} {i : Nat}, entry p = some i → i < made
  unlinked : ∀ {p q : Path} {i : Nat}, entry p = some i → entry q = some i → p = q

namespace FileSystem

variable {Path : Type}

def read (fs : FileSystem Path) (p : Path) : Option File := (fs.entry p).map fs.file

/-- Change a file that is there, under whatever name. -/
def edit (fs : FileSystem Path) (i : Nat) (f : File → File) : FileSystem Path :=
  { fs with file := Function.update fs.file i (f (fs.file i)) }

/-- Nothing has happened under the name `p`. -/
structure SameAt (fs fs' : FileSystem Path) (p : Path) : Prop where
  entry : fs'.entry p = fs.entry p
  read : fs'.read p = fs.read p

theorem SameAt.refl (fs : FileSystem Path) (p : Path) : fs.SameAt fs p := ⟨rfl, rfl⟩

theorem sameAt_edit (fs : FileSystem Path) (f : File → File) {i : Nat} {p q : Path}
    (hp : fs.entry p = some i) (h : q ≠ p) : fs.SameAt (fs.edit i f) q := by
  refine ⟨rfl, ?_⟩
  change (fs.entry q).map _ = (fs.entry q).map _
  cases hq : fs.entry q with
  | none => rfl
  | some j =>
    have hji : j ≠ i := by
      rintro rfl
      exact h (fs.unlinked hq hp)
    simp [edit, Function.update_of_ne hji]

theorem read_edit (fs : FileSystem Path) (f : File → File) {i : Nat} {p : Path}
    (hp : fs.entry p = some i) : (fs.edit i f).read p = (fs.read p).map f := by
  simp [read, edit, hp]

variable [DecidableEq Path]

/-- `p` becomes the name of a new file. -/
def create (fs : FileSystem Path) (p : Path) (f : File) : FileSystem Path where
  entry := Function.update fs.entry p (some fs.made)
  file := Function.update fs.file fs.made f
  made := fs.made + 1
  bounded {q i} h := by
    by_cases hq : q = p
    · subst hq
      rw [Function.update_self] at h
      cases h
      exact Nat.lt_succ_self _
    · rw [Function.update_of_ne hq] at h
      exact Nat.lt_succ_of_lt (fs.bounded h)
  unlinked {q r i} hq hr := by
    by_cases hqp : q = p <;> by_cases hrp : r = p
    · rw [hqp, hrp]
    · rw [hqp, Function.update_self] at hq
      rw [Function.update_of_ne hrp] at hr
      cases hq
      exact absurd (fs.bounded hr) (Nat.lt_irrefl _)
    · rw [hrp, Function.update_self] at hr
      rw [Function.update_of_ne hqp] at hq
      cases hr
      exact absurd (fs.bounded hq) (Nat.lt_irrefl _)
    · rw [Function.update_of_ne hqp] at hq
      rw [Function.update_of_ne hrp] at hr
      exact fs.unlinked hq hr

/-- Open for writing, creating the file when there is none and emptying it when there is one. -/
def openTruncate (fs : FileSystem Path) (p : Path) (mode : Nat) : FileSystem Path :=
  match fs.entry p with
  | some i => fs.edit i fun f => { f with bytes := [] }
  | none => fs.create p ⟨[], mode⟩

/-- Take a name away, and with it the file. -/
def remove (fs : FileSystem Path) (p : Path) : FileSystem Path where
  entry := Function.update fs.entry p none
  file := fs.file
  made := fs.made
  bounded {q i} h := by
    by_cases hq : q = p
    · subst hq
      rw [Function.update_self] at h
      cases h
    · rw [Function.update_of_ne hq] at h
      exact fs.bounded h
  unlinked {q r i} hq hr := by
    by_cases hqp : q = p
    · subst hqp
      rw [Function.update_self] at hq
      cases hq
    · by_cases hrp : r = p
      · subst hrp
        rw [Function.update_self] at hr
        cases hr
      · rw [Function.update_of_ne hqp] at hq
        rw [Function.update_of_ne hrp] at hr
        exact fs.unlinked hq hr

/-- The file named `p` is named `q` from now on, and the one named `q` is gone. -/
def rename (fs : FileSystem Path) (p q : Path) : FileSystem Path where
  entry := if (fs.entry p).isSome then
      Function.update (Function.update fs.entry p none) q (fs.entry p)
    else fs.entry
  file := fs.file
  made := fs.made
  bounded {r i} h := by
    by_cases hp : (fs.entry p).isSome = true
    · rw [if_pos hp] at h
      by_cases hq : r = q
      · subst hq
        rw [Function.update_self] at h
        exact fs.bounded h
      · rw [Function.update_of_ne hq] at h
        exact (fs.remove p).bounded h
    · rw [if_neg hp] at h
      exact fs.bounded h
  unlinked {r t i} hr ht := by
    by_cases hp : (fs.entry p).isSome = true
    · rw [if_pos hp] at hr ht
      -- a name of the moved file, other than the new one, would be the old one, which is gone
      have hmoved : ∀ {u : Path}, fs.entry p = some i →
          Function.update fs.entry p none u ≠ some i := by
        intro u hfile hu
        by_cases hup : u = p
        · rw [hup, Function.update_self] at hu
          cases hu
        · rw [Function.update_of_ne hup] at hu
          exact hup (fs.unlinked hu hfile)
      by_cases hrq : r = q <;> by_cases htq : t = q
      · rw [hrq, htq]
      · rw [hrq, Function.update_self] at hr
        rw [Function.update_of_ne htq] at ht
        exact absurd ht (hmoved hr)
      · rw [htq, Function.update_self] at ht
        rw [Function.update_of_ne hrq] at hr
        exact absurd hr (hmoved ht)
      · rw [Function.update_of_ne hrq] at hr
        rw [Function.update_of_ne htq] at ht
        exact (fs.remove p).unlinked hr ht
    · rw [if_neg hp] at hr ht
      exact fs.unlinked hr ht

theorem sameAt_create (fs : FileSystem Path) (f : File) {p q : Path} (h : q ≠ p) :
    fs.SameAt (fs.create p f) q := by
  have hentry : (fs.create p f).entry q = fs.entry q := Function.update_of_ne h _ _
  refine ⟨hentry, ?_⟩
  rw [read, read, hentry]
  cases hq : fs.entry q with
  | none => rfl
  | some j => simp [create, Function.update_of_ne (Nat.ne_of_lt (fs.bounded hq))]

theorem sameAt_openTruncate (fs : FileSystem Path) (mode : Nat) {p q : Path} (h : q ≠ p) :
    fs.SameAt (fs.openTruncate p mode) q := by
  unfold openTruncate
  split
  · rename_i i hp
    exact fs.sameAt_edit _ hp h
  · exact fs.sameAt_create _ h

/-- A file that has been opened is there, and empty. -/
theorem openTruncate_opened (fs : FileSystem Path) (p : Path) (mode : Nat) :
    ∃ i f, (fs.openTruncate p mode).entry p = some i ∧ (fs.openTruncate p mode).read p = some f ∧
      f.bytes = [] := by
  unfold openTruncate
  split
  · rename_i i hp
    have hread : fs.read p = some (fs.file i) := by simp [read, hp]
    exact ⟨i, _, hp, (fs.read_edit _ hp).trans (by rw [hread]; rfl), rfl⟩
  · refine ⟨fs.made, ⟨[], mode⟩, ?_, ?_, rfl⟩
    · simp [create]
    · simp [create, read]

theorem sameAt_remove (fs : FileSystem Path) {p q : Path} (h : q ≠ p) : fs.SameAt (fs.remove p) q := by
  have hentry : (fs.remove p).entry q = fs.entry q := Function.update_of_ne h _ _
  exact ⟨hentry, by rw [read, read, hentry]; rfl⟩

@[simp] theorem entry_remove_self (fs : FileSystem Path) (p : Path) : (fs.remove p).entry p = none :=
  Function.update_self _ _ _

theorem sameAt_rename (fs : FileSystem Path) {p q r : Path} (hp : r ≠ p) (hq : r ≠ q) :
    fs.SameAt (fs.rename p q) r := by
  have hentry : (fs.rename p q).entry r = fs.entry r := by
    change (if _ then _ else _ : Path → Option Nat) r = _
    split
    · rw [Function.update_of_ne hq, Function.update_of_ne hp]
    · rfl
  exact ⟨hentry, by rw [read, read, hentry]; rfl⟩

/-- What was read under the old name is read under the new one. -/
theorem read_rename (fs : FileSystem Path) {p : Path} {f : File} (q : Path)
    (h : fs.read p = some f) : (fs.rename p q).read q = some f := by
  obtain ⟨i, hi, hf⟩ := Option.map_eq_some_iff.mp h
  have hentry : (fs.rename p q).entry q = some i := by
    change (if _ then _ else _ : Path → Option Nat) q = _
    rw [if_pos (by simp [hi]), Function.update_self, hi]
  rw [read, hentry, ← hf]
  rfl

end FileSystem

end MatterRsServer.Lib
