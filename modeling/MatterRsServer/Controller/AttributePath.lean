import MatterRsServer.Controller.Credentials
import MatterRsServer.Stack.Reports

/-!
# Attribute paths

`parse_attribute_path` of `crates/controller/src/commands/interaction.rs`, against the keys
that the stack's accumulator prints.
-/
namespace MatterRsServer.Controller
open Lib

structure AttributePathSpec where
  endpoint : Option UInt16
  cluster : Option UInt32
  attr : Option UInt32

/-- The closure `seg`: the sentinel and everything that is no `u64` are wildcards. -/
def segment (s : List Char) (sentinel : Nat) : Option Nat :=
  match Text.parseUnsigned (2 ^ 64) s with
  | some n => if n = sentinel then none else some n
  | none => none

/-- The closure `too_big`. -/
def tooBig (path what : String) (n : Nat) : CommandError :=
  invalid s!"{what} in attribute path {path.quote} out of range: {n}"

/-- `try_from` of an id, if there is one. -/
def narrowed (path what : String) (size : Nat) (id : Option Nat) :
    Except CommandError (Option Nat) :=
  match id with
  | none => .ok none
  | some n => if n < size then .ok (some n) else .error (tooBig path what n)

def parseAttributePath (path : String) : Except CommandError AttributePathSpec :=
  match path.toList.splitOn '/' with
  | [endpoint, cluster, attr] => do
    let endpoint ← narrowed path "endpoint id" (2 ^ 16) (segment endpoint 0xFFFF)
    let cluster ← narrowed path "cluster id" (2 ^ 32) (segment cluster 0xFFFFFFFF)
    let attr ← narrowed path "attribute id" (2 ^ 32) (segment attr 0xFFFFFFFF)
    return {
      endpoint := endpoint.map UInt16.ofNat
      cluster := cluster.map UInt32.ofNat
      attr := attr.map UInt32.ofNat }
  | _ => .error (invalid s!"Invalid attribute path: {path}")

/-- A segment that consists of decimal digits. -/
def IsDecimal (s : List Char) : Prop := s ≠ [] ∧ ∀ c ∈ s, c.isDigit = true

instance (s : List Char) : Decidable (IsDecimal s) := inferInstanceAs (Decidable (_ ∧ _))

/-- The number that the digits of a segment spell. -/
def spelled (s : List Char) : Nat := Nat.ofDigitChars 10 s 0

/-- What a decimal segment stands for: a wildcard where it spells the sentinel, else its number. -/
def SegmentMeans (sentinel : Nat) (s : List Char) (id : Option Nat) : Prop :=
  IsDecimal s → id = if spelled s = sentinel then none else some (spelled s)

/-- A decimal segment whose number has no room in its id. -/
def TooLong (size : Nat) (s : List Char) : Prop := IsDecimal s ∧ size ≤ spelled s

/-- The path is refused, or each of its three decimal segments means what it spells. -/
structure NamesWhatItSpells (path : String) : Prop where
  threeSegments : (path.toList.splitOn '/').length ≠ 3 → ∃ e, parseAttributePath path = .error e
  exact : ∀ endpoint cluster attr spec,
    path.toList.splitOn '/' = [endpoint, cluster, attr] →
    parseAttributePath path = .ok spec →
      SegmentMeans 0xFFFF endpoint (spec.endpoint.map UInt16.toNat) ∧
      SegmentMeans 0xFFFFFFFF cluster (spec.cluster.map UInt32.toNat) ∧
      SegmentMeans 0xFFFFFFFF attr (spec.attr.map UInt32.toNat)
  refused : ∀ endpoint cluster attr,
    path.toList.splitOn '/' = [endpoint, cluster, attr] →
    TooLong (2 ^ 16) endpoint ∨ TooLong (2 ^ 32) cluster ∨ TooLong (2 ^ 32) attr →
      ∃ e, parseAttributePath path = .error e

/-- A segment that is read as a `u64` and has no room in its id. -/
def OutOfRange (size : Nat) (s : List Char) : Prop :=
  ∃ n, Text.parseUnsigned (2 ^ 64) s = some n ∧ size ≤ n

/-- No decimal segment spells `2 ^ 64` or more, unless another segment is out of range. -/
def FitsU64 (path : String) : Prop :=
  ∀ endpoint cluster attr, path.toList.splitOn '/' = [endpoint, cluster, attr] →
    (OutOfRange (2 ^ 16) endpoint ∨ OutOfRange (2 ^ 32) cluster ∨ OutOfRange (2 ^ 32) attr) ∨
    ∀ s ∈ [endpoint, cluster, attr], IsDecimal s → spelled s < 2 ^ 64

theorem IsDecimal.parse {s : List Char} (h : IsDecimal s) :
    Text.parseUnsigned (2 ^ 64) s = if spelled s < 2 ^ 64 then some (spelled s) else none := by
  have hplus : Text.dropPlus s = s := by
    unfold Text.dropPlus
    split
    · exact absurd (h.2 '+' (by simp)) (by decide)
    · rfl
  have hall : s.all Char.isDigit = true := List.all_eq_true.mpr h.2
  unfold Text.parseUnsigned
  rw [hplus, if_pos ⟨h.1, hall⟩]
  rfl

theorem IsDecimal.segment {s : List Char} (h : IsDecimal s) (hlt : spelled s < 2 ^ 64)
    (sentinel : Nat) :
    segment s sentinel = if spelled s = sentinel then none else some (spelled s) := by
  rw [Controller.segment, h.parse, if_pos hlt]

theorem TooLong.outOfRange {size : Nat} {s : List Char} (h : TooLong size s)
    (hlt : spelled s < 2 ^ 64) : OutOfRange size s :=
  ⟨spelled s, by rw [h.1.parse, if_pos hlt], h.2⟩

/-- A segment is refused exactly when it is out of range. -/
theorem narrowed_cases (path what : String) {size sentinel : Nat} (hsize : sentinel < size)
    (s : List Char) :
    (OutOfRange size s ∧ ∃ e, narrowed path what size (segment s sentinel) = .error e) ∨
    (¬ OutOfRange size s ∧ narrowed path what size (segment s sentinel) =
      .ok (segment s sentinel) ∧ ∀ n, segment s sentinel = some n → n < size) := by
  unfold OutOfRange segment
  cases hparse : Text.parseUnsigned (2 ^ 64) s with
  | none => exact Or.inr ⟨by simp, rfl, fun n h => by cases h⟩
  | some n =>
    dsimp only
    by_cases hsentinel : n = sentinel
    · rw [if_pos hsentinel]
      refine Or.inr ⟨?_, rfl, fun n h => by cases h⟩
      rintro ⟨m, hm, hle⟩
      cases hm
      omega
    · rw [if_neg hsentinel]
      by_cases hlt : n < size
      · refine Or.inr ⟨?_, by simp [narrowed, hlt], fun m hm => ?_⟩
        · rintro ⟨m, hm, hle⟩
          cases hm
          omega
        · cases hm
          exact hlt
      · exact Or.inl ⟨⟨n, rfl, by omega⟩, tooBig path what n, by simp [narrowed, hlt]⟩

theorem map_toNat_ofNat_16 {id : Option Nat} (h : ∀ n, id = some n → n < 2 ^ 16) :
    (id.map UInt16.ofNat).map UInt16.toNat = id := by
  cases id with
  | none => rfl
  | some n => simpa using h n rfl

theorem map_toNat_ofNat_32 {id : Option Nat} (h : ∀ n, id = some n → n < 2 ^ 32) :
    (id.map UInt32.ofNat).map UInt32.toNat = id := by
  cases id with
  | none => rfl
  | some n => simpa using h n rfl

/-- A path of three segments is refused exactly when one of them is out of range. -/
theorem parseAttributePath_cases {path : String} {endpoint cluster attr : List Char}
    (h : path.toList.splitOn '/' = [endpoint, cluster, attr]) :
    ((OutOfRange (2 ^ 16) endpoint ∨ OutOfRange (2 ^ 32) cluster ∨
        OutOfRange (2 ^ 32) attr) ∧ ∃ e, parseAttributePath path = .error e) ∨
    (¬ (OutOfRange (2 ^ 16) endpoint ∨ OutOfRange (2 ^ 32) cluster ∨
        OutOfRange (2 ^ 32) attr) ∧
      ∃ spec, parseAttributePath path = .ok spec ∧
        spec.endpoint.map UInt16.toNat = segment endpoint 0xFFFF ∧
        spec.cluster.map UInt32.toNat = segment cluster 0xFFFFFFFF ∧
        spec.attr.map UInt32.toNat = segment attr 0xFFFFFFFF) := by
  unfold parseAttributePath
  rw [h]
  dsimp only
  rcases narrowed_cases path "endpoint id" (by decide : 0xFFFF < 2 ^ 16) endpoint with
    ⟨hrange, e, herror⟩ | ⟨hendpoint, hok, hend⟩
  · rw [herror]
    exact Or.inl ⟨Or.inl hrange, e, rfl⟩
  rw [hok]
  rcases narrowed_cases path "cluster id" (by decide : 0xFFFFFFFF < 2 ^ 32) cluster with
    ⟨hrange, e, herror⟩ | ⟨hcluster, hok, hclu⟩
  · refine Or.inl ⟨Or.inr (Or.inl hrange), e, ?_⟩
    simp only [herror, bind, Except.bind]
  rcases narrowed_cases path "attribute id" (by decide : 0xFFFFFFFF < 2 ^ 32) attr with
    ⟨hrange, e, herror⟩ | ⟨hattribute, hok', hatt⟩
  · refine Or.inl ⟨Or.inr (Or.inr hrange), e, ?_⟩
    simp only [hok, herror, bind, Except.bind]
  · refine Or.inr ⟨by tauto, _, by simp only [hok, hok', bind, Except.bind, pure, Except.pure]; rfl,
      map_toNat_ofNat_16 hend, map_toNat_ofNat_32 hclu, map_toNat_ofNat_32 hatt⟩

/-- A path names what it spells exactly when its numbers fit a `u64`. -/
theorem namesWhatItSpells_iff (path : String) : NamesWhatItSpells path ↔ FitsU64 path := by
  constructor
  · intro h endpoint cluster attr hsplit
    rcases parseAttributePath_cases hsplit with ⟨hrange, -⟩ | ⟨hnone, spec, hok, -⟩
    · exact Or.inl hrange
    refine Or.inr fun s hs hdecimal => ?_
    by_contra hge
    have hlong : TooLong (2 ^ 16) endpoint ∨ TooLong (2 ^ 32) cluster ∨
        TooLong (2 ^ 32) attr := by
      simp only [List.mem_cons, List.not_mem_nil, or_false] at hs
      rcases hs with rfl | rfl | rfl
      · exact Or.inl ⟨hdecimal, by omega⟩
      · exact Or.inr (Or.inl ⟨hdecimal, by omega⟩)
      · exact Or.inr (Or.inr ⟨hdecimal, by omega⟩)
    obtain ⟨e, herror⟩ := h.refused endpoint cluster attr hsplit hlong
    rw [hok] at herror
    cases herror
  · intro h
    refine ⟨?_, ?_, ?_⟩
    · intro hlength
      unfold parseAttributePath
      split
      next heq => exact absurd (by rw [heq]; rfl) hlength
      next => exact ⟨_, rfl⟩
    · intro endpoint cluster attr spec hsplit hspec
      rcases parseAttributePath_cases hsplit with ⟨-, e, herror⟩ | ⟨hnone, spec', hok, hend, hclu, hatt⟩
      · rw [hspec] at herror
        cases herror
      rw [hspec] at hok
      cases hok
      have hfits := (h endpoint cluster attr hsplit).resolve_left hnone
      refine ⟨fun hdecimal => ?_, fun hdecimal => ?_, fun hdecimal => ?_⟩
      · rw [hend, hdecimal.segment (hfits _ (by simp) hdecimal)]
      · rw [hclu, hdecimal.segment (hfits _ (by simp) hdecimal)]
      · rw [hatt, hdecimal.segment (hfits _ (by simp) hdecimal)]
    · intro endpoint cluster attr hsplit hlong
      rcases parseAttributePath_cases hsplit with ⟨-, e, herror⟩ | ⟨hnone, spec, hok, -⟩
      · exact ⟨e, herror⟩
      exfalso
      have hfits := (h endpoint cluster attr hsplit).resolve_left hnone
      apply hnone
      rcases hlong with hlong | hlong | hlong
      · exact Or.inl (hlong.outOfRange (hfits _ (by simp) hlong.1))
      · exact Or.inr (Or.inl (hlong.outOfRange (hfits _ (by simp) hlong.1)))
      · exact Or.inr (Or.inr (hlong.outOfRange (hfits _ (by simp) hlong.1)))

theorem not_mem_repr (n : Nat) : '/' ∉ n.repr.toList := by
  intro h
  have hdigit : Char.isDigit '/' = true := Text.isDigit_of_mem_repr h
  revert hdigit
  decide

theorem splitOn_pathKey (p : Stack.Path) : (Stack.pathKey p).toList.splitOn '/' =
    [p.endpoint.toNat.repr.toList, p.cluster.toNat.repr.toList, p.attr.toNat.repr.toList] := by
  have hlist : (Stack.pathKey p).toList = p.endpoint.toNat.repr.toList ++
      '/' :: (p.cluster.toNat.repr.toList ++ '/' :: p.attr.toNat.repr.toList) := by
    simp [Stack.pathKey]
  rw [hlist, List.splitOn_append_cons_self, List.splitOn_append_cons_self,
    List.splitOn_eq_singleton (not_mem_repr _), List.splitOn_eq_singleton (not_mem_repr _),
    List.splitOn_eq_singleton (not_mem_repr _)]
  rfl

theorem segment_repr {n sentinel : Nat} (hlt : n < 2 ^ 64) (hne : n ≠ sentinel) :
    segment n.repr.toList sentinel = some n := by
  rw [segment, Text.parseUnsigned_repr hlt]
  exact if_neg hne

/-- The key of a concrete path is read as that path. -/
theorem parseAttributePath_pathKey {p : Stack.Path} (hendpoint : p.endpoint ≠ 0xFFFF)
    (hcluster : p.cluster ≠ 0xFFFFFFFF) (hattr : p.attr ≠ 0xFFFFFFFF) :
    parseAttributePath (Stack.pathKey p) = .ok ⟨some p.endpoint, some p.cluster, some p.attr⟩ := by
  have he := p.endpoint.toNat_lt
  have hc := p.cluster.toNat_lt
  have ha := p.attr.toNat_lt
  have hne : p.endpoint.toNat ≠ 0xFFFF := fun h => hendpoint (UInt16.toNat_inj.mp h)
  have hnc : p.cluster.toNat ≠ 0xFFFFFFFF := fun h => hcluster (UInt32.toNat_inj.mp h)
  have hna : p.attr.toNat ≠ 0xFFFFFFFF := fun h => hattr (UInt32.toNat_inj.mp h)
  unfold parseAttributePath
  rw [splitOn_pathKey]
  dsimp only
  rw [segment_repr (by omega) hne, segment_repr (by omega) hnc, segment_repr (by omega) hna]
  simp only [narrowed, if_pos he, if_pos hc, if_pos ha, bind, Except.bind, pure, Except.pure]
  simp

/-- Attribute paths name what they spell as long as their numbers fit a `u64`, and every path
that the accumulator prints names itself. -/
theorem attributePath_exact (path : String) :
    (NamesWhatItSpells path ↔ FitsU64 path) ∧
    ∀ p : Stack.Path, p.endpoint ≠ 0xFFFF → p.cluster ≠ 0xFFFFFFFF → p.attr ≠ 0xFFFFFFFF →
      parseAttributePath (Stack.pathKey p) =
        .ok ⟨some p.endpoint, some p.cluster, some p.attr⟩ :=
  ⟨namesWhatItSpells_iff path, fun _ => parseAttributePath_pathKey⟩

theorem attributePath_exact_onOff :
    parseAttributePath (Stack.pathKey ⟨1, 6, 0⟩) = .ok ⟨some 1, some 6, some 0⟩ :=
  (attributePath_exact "1/6/0").2 ⟨1, 6, 0⟩ (by decide) (by decide) (by decide)

/-- Twenty digits name every endpoint. -/
theorem twentyDigits_wildcard : ¬ NamesWhatItSpells "18446744073709551616/6/0" ∧
    parseAttributePath "18446744073709551616/6/0" = .ok ⟨none, some 6, some 0⟩ := by
  have hok : parseAttributePath "18446744073709551616/6/0" = .ok ⟨none, some 6, some 0⟩ := by rfl
  refine ⟨fun h => ?_, hok⟩
  have hlong : TooLong (2 ^ 16) "18446744073709551616".toList :=
    ⟨⟨by decide, List.all_eq_true.mp (by decide)⟩, by decide⟩
  obtain ⟨e, herror⟩ := h.refused "18446744073709551616".toList "6".toList "0".toList (by decide)
    (Or.inl hlong)
  rw [hok] at herror
  cases herror

end MatterRsServer.Controller
