import MatterRsServer.Lib.Text
import Mathlib.Data.List.DropRight
import Mathlib.Data.List.Infix

/-!
# Words of a line

Splitting, trimming and searching of text, on lists of characters, with the relation `Spells`
between a text and the words that stand in it: what a line-based reader sees of a line does
not depend on the white space between its words.
-/
namespace MatterRsServer.Lib.Words

open Text

/-- `char::is_whitespace`: the characters with the property `White_Space`. -/
def isWhite (c : Char) : Bool :=
  (9 ≤ c.toNat && c.toNat ≤ 13) || (0x2000 ≤ c.toNat && c.toNat ≤ 0x200A) ||
    [0x20, 0x85, 0xA0, 0x1680, 0x2028, 0x2029, 0x202F, 0x205F, 0x3000].contains c.toNat

/-- `str::trim_end_matches` with a set of characters. -/
def trimEnd (p : Char → Bool) (s : List Char) : List Char := s.rdropWhile p

/-- `str::trim`. -/
def trim (s : List Char) : List Char := trimEnd isWhite (s.dropWhile isWhite)

/-- The words of `s`, of which `word` is what has been read of the first one. -/
def splitFrom (word : List Char) : List Char → List (List Char)
  | [] => if word = [] then [] else [word]
  | c :: s =>
    if isWhite c then if word = [] then splitFrom [] s else word :: splitFrom [] s
    else splitFrom (word ++ [c]) s

/-- `str::split_whitespace`. -/
def splitWhitespace (s : List Char) : List (List Char) := splitFrom [] s

/-- One line of a text, without its line end. -/
def stripLineEnd (line : List Char) : List Char :=
  if line.getLast? = some '\r' then line.dropLast else line

/-- The lines of `s`, of which `line` is what has been read of the first one. -/
def linesFrom (line : List Char) : List Char → List (List Char)
  | [] => if line = [] then [] else [line]
  | '\n' :: s => stripLineEnd line :: linesFrom [] s
  | c :: s => linesFrom (line ++ [c]) s

/-- `str::lines`. -/
def lines (s : List Char) : List (List Char) := linesFrom [] s

/-- What stands before and after the first occurrence of `pat`. -/
def cut (pat : List Char) : List Char → Option (List Char × List Char)
  | [] => if pat = [] then some ([], []) else none
  | c :: s =>
    if pat.isPrefixOf (c :: s) then some ([], (c :: s).drop pat.length)
    else (cut pat s).map fun p => (c :: p.1, p.2)

/-! ### Occurrences of a pattern -/

theorem cut_eq_none {pat s : List Char} (h : ¬ pat <:+: s) : cut pat s = none := by
  induction s with
  | nil =>
    have hne : pat ≠ [] := by
      rintro rfl
      exact h (List.infix_refl _)
    simp [cut, hne]
  | cons c s ih =>
    have hprefix : ¬ pat <+: c :: s := fun hp => h hp.isInfix
    have htail : ¬ pat <:+: s := fun ht => h (ht.trans (List.suffix_cons c s).isInfix)
    have hfalse : pat.isPrefixOf (c :: s) = false :=
      Bool.eq_false_iff.mpr fun ht => hprefix (List.isPrefixOf_iff_prefix.mp ht)
    simp [cut, hfalse, ih htail]

/-- The first occurrence is found where nothing before it completes the pattern. -/
theorem cut_append {pat l : List Char} (hne : pat ≠ []) (h : ¬ pat <:+: l ++ pat.dropLast)
    (r : List Char) : cut pat (l ++ (pat ++ r)) = some (l, r) := by
  induction l with
  | nil =>
    obtain ⟨c, p, rfl⟩ := List.exists_cons_of_ne_nil hne
    have hprefix : (c :: p).isPrefixOf (c :: (p ++ r)) = true :=
      List.isPrefixOf_iff_prefix.mpr (List.prefix_append _ r)
    simp only [List.nil_append, List.cons_append, cut, hprefix, if_true]
    simp
  | cons c l ih =>
    have htail : ¬ pat <:+: l ++ pat.dropLast := fun ht =>
      h (ht.trans (List.suffix_cons c _).isInfix)
    have hfalse : pat.isPrefixOf (c :: (l ++ (pat ++ r))) = false := by
      refine Bool.eq_false_iff.mpr fun ht => ?_
      have hp : pat <+: c :: (l ++ (pat ++ r)) := List.isPrefixOf_iff_prefix.mp ht
      have hlong : c :: (l ++ pat.dropLast) <+: c :: (l ++ (pat ++ r)) := by
        have : pat.dropLast <+: pat ++ r := (List.dropLast_prefix pat).trans (List.prefix_append _ r)
        exact (List.prefix_cons_inj c).mpr ((List.prefix_append_right_inj l).mpr this)
      have hlength : pat.length ≤ (c :: (l ++ pat.dropLast)).length := by
        simp only [List.length_cons, List.length_append, List.length_dropLast]
        omega
      exact h (List.prefix_of_prefix_length_le hp hlong hlength).isInfix
    simp only [List.cons_append, cut, hfalse, Bool.false_eq_true, if_false, ih htail,
      Option.map_some]

/-- An occurrence inside `a` is the end of the search, whatever follows `a`. -/
theorem cut_of_infix {pat a : List Char} (hne : pat ≠ []) (h : pat <:+: a) (b : List Char) :
    ∃ l t, a = l ++ (pat ++ t) ∧ cut pat (a ++ b) = some (l, t ++ b) := by
  induction a with
  | nil => exact absurd (List.infix_nil.mp h) hne
  | cons c a ih =>
    by_cases hp : pat <+: c :: a
    · obtain ⟨t, ht⟩ := hp
      have hstart : pat.isPrefixOf (c :: (a ++ b)) = true :=
        List.isPrefixOf_iff_prefix.mpr ⟨t ++ b, by rw [← List.append_assoc, ht, List.cons_append]⟩
      refine ⟨[], t, ht.symm, ?_⟩
      rw [List.cons_append, cut, if_pos hstart, ← List.cons_append, ← ht, List.append_assoc,
        List.drop_left]
    · have htail : pat <:+: a := (List.infix_cons_iff.mp h).resolve_left hp
      have hstart : ¬ pat.isPrefixOf (c :: (a ++ b)) = true := fun hstart =>
        hp (List.prefix_of_prefix_length_le (List.isPrefixOf_iff_prefix.mp hstart)
          ((List.prefix_cons_inj c).mpr (List.prefix_append a b)) h.length_le)
      obtain ⟨l, t, ha, hcut⟩ := ih htail
      refine ⟨c :: l, t, by rw [ha, List.cons_append], ?_⟩
      rw [List.cons_append, cut, if_neg hstart, hcut, Option.map_some]

theorem mem_of_cut {pat s l r : List Char} (h : cut pat s = some (l, r)) : l ⊆ s ∧ r ⊆ s := by
  induction s generalizing l with
  | nil =>
    unfold cut at h
    split at h
    · cases h
      exact ⟨List.nil_subset _, List.nil_subset _⟩
    · cases h
  | cons c s ih =>
    unfold cut at h
    split at h
    · cases h
      exact ⟨List.nil_subset _, List.drop_subset _ _⟩
    · obtain ⟨⟨l', r'⟩, hcut, hp⟩ := Option.map_eq_some_iff.mp h
      cases hp
      obtain ⟨hl, hr⟩ := ih hcut
      exact ⟨List.cons_subset_cons c hl, fun d hd => List.mem_cons_of_mem c (hr hd)⟩

theorem trimEnd_subset (p : Char → Bool) (s : List Char) : trimEnd p s ⊆ s :=
  (List.rdropWhile_prefix p s).subset

theorem trim_subset (s : List Char) : trim s ⊆ s :=
  fun _ hc => (List.dropWhile_suffix isWhite).subset (trimEnd_subset _ _ hc)

/-- A trimmed text begins with a character that is not white space. -/
theorem head?_trim (s : List Char) : ∀ c ∈ (trim s).head?, isWhite c = false := by
  intro c hc
  have hprefix : trim s <+: s.dropWhile isWhite := List.rdropWhile_prefix _ _
  obtain ⟨rest, hrest⟩ := hprefix
  obtain ⟨t, ht⟩ := List.head?_eq_some_iff.mp (Option.mem_def.mp hc)
  have hhead := List.head?_dropWhile_not isWhite s
  rw [← hrest, ht] at hhead
  simpa using hhead

/-! ### Gaps and words -/

/-- White space between words. -/
def Gap (gap : List Char) : Prop := ∀ c ∈ gap, isWhite c = true

/-- A word: something, without white space. -/
structure Solid (w : List Char) : Prop where
  ne_nil : w ≠ []
  dark : ∀ c ∈ w, isWhite c = false

/-- No word runs on into `s` from the left. -/
def Detached (s : List Char) : Prop := ∀ c ∈ s.head?, isWhite c = true

/-- No word runs on out of `s` to the right. -/
def Released (s : List Char) : Prop := ∀ c ∈ s.getLast?, isWhite c = true

/-- The words that stand in a text, in order. -/
inductive Spells : List (List Char) → List Char → Prop
  | blank {gap} : Gap gap → Spells [] gap
  | word {gap w ws rest} : Gap gap → Solid w → Detached rest → Spells ws rest →
      Spells (w :: ws) (gap ++ (w ++ rest))

theorem Gap.nil : Gap [] := fun _ hc => by cases hc

theorem Detached.nil : Detached [] := fun _ hc => by cases hc

theorem Spells.nil : Spells [] [] := .blank .nil

/-- A text that begins with its first word. -/
theorem Spells.first {w rest : List Char} {ws : List (List Char)} (hw : Solid w)
    (hrest : Detached rest) (h : Spells ws rest) : Spells (w :: ws) (w ++ rest) := by
  simpa using Spells.word Gap.nil hw hrest h

theorem Gap.append {a b : List Char} (ha : Gap a) (hb : Gap b) : Gap (a ++ b) := by
  intro c hc
  rcases List.mem_append.mp hc with h | h
  · exact ha c h
  · exact hb c h

theorem Gap.released {gap : List Char} (h : Gap gap) : Released gap := by
  intro c hc
  exact h c (List.mem_of_getLast? hc)

theorem Solid.not_released {w : List Char} (h : Solid w) (l : List Char) : ¬ Released (l ++ w) := by
  intro hr
  have hlast : (l ++ w).getLast? = some (w.getLast h.ne_nil) := by
    rw [List.getLast?_append_of_ne_nil _ h.ne_nil, List.getLast?_eq_some_getLast h.ne_nil]
  have hwhite := hr _ (Option.mem_def.mpr hlast)
  rw [h.dark _ (List.getLast_mem h.ne_nil)] at hwhite
  cases hwhite

theorem Solid.not_detached {w : List Char} (h : Solid w) (r : List Char) : ¬ Detached (w ++ r) := by
  intro hd
  obtain ⟨c, w, rfl⟩ := List.exists_cons_of_ne_nil h.ne_nil
  have hwhite := hd c (by simp)
  rw [h.dark c (by simp)] at hwhite
  cases hwhite

namespace Spells

theorem solid {ws : List (List Char)} {s : List Char} (h : Spells ws s) :
    ∀ w ∈ ws, Solid w := by
  induction h with
  | blank _ => intro w hw; cases hw
  | word _ hsolid _ _ ih =>
    intro w hw
    rcases List.mem_cons.mp hw with rfl | hw
    · exact hsolid
    · exact ih w hw

theorem gap_append {ws : List (List Char)} {gap s : List Char} (hgap : Gap gap)
    (h : Spells ws s) : Spells ws (gap ++ s) := by
  cases h with
  | blank hs => exact .blank (hgap.append hs)
  | word hg hsolid hrest htail =>
    rw [← List.append_assoc]
    exact .word (hgap.append hg) hsolid hrest htail

/-- A text falls apart at each of its words. -/
theorem split_at {xs ys : List (List Char)} {w s : List Char} (h : Spells (xs ++ w :: ys) s) :
    ∃ l r, s = l ++ (w ++ r) ∧ Spells xs l ∧ Released l ∧ Spells ys r ∧ Detached r := by
  induction xs generalizing s with
  | nil =>
    cases h with
    | word hgap hsolid hrest htail =>
      exact ⟨_, _, rfl, .blank hgap, hgap.released, htail, hrest⟩
  | cons x xs ih =>
    cases h with
    | @word gap _ _ rest hgap hsolid hrest htail =>
      obtain ⟨l, r, rfl, hl, hreleased, hr, hdetached⟩ := ih htail
      have hw : Solid w := htail.solid w (by simp)
      cases l with
      | nil => exact absurd hrest (hw.not_detached r)
      | cons c l =>
        refine ⟨gap ++ (x ++ (c :: l)), r, by simp, ?_, ?_, hr, hdetached⟩
        · exact .word hgap hsolid (fun d hd => hrest d (by simpa using hd)) hl
        · intro d hd
          refine hreleased d ?_
          rwa [← List.append_assoc, List.getLast?_append_of_ne_nil _ (by simp)] at hd

/-- A text falls apart between any two of its words. -/
theorem append_split {xs ys : List (List Char)} {s : List Char} (h : Spells (xs ++ ys) s) :
    ∃ a b, s = a ++ b ∧ Spells xs a ∧ Spells ys b := by
  cases ys with
  | nil =>
    rw [List.append_nil] at h
    exact ⟨s, [], (List.append_nil s).symm, h, .nil⟩
  | cons y ys =>
    obtain ⟨l, r, rfl, hl, -, hr, hdetached⟩ := h.split_at
    exact ⟨l, y ++ r, rfl, hl, .first (h.solid y (by simp)) hdetached hr⟩

/-- Texts are put together around a word. -/
theorem join {xs ys : List (List Char)} {l w r : List Char} (hl : Spells xs l)
    (hreleased : Released l) (hw : Solid w) (hr : Spells ys r) (hdetached : Detached r) :
    Spells (xs ++ w :: ys) (l ++ (w ++ r)) := by
  induction hl with
  | blank hgap => exact .word hgap hw hdetached hr
  | @word gap x xs rest hgap hsolid hrest htail ih =>
    have hne : rest ≠ [] := by
      rintro rfl
      rw [List.append_nil] at hreleased
      exact hsolid.not_released gap hreleased
    have hrel : Released rest := by
      intro d hd
      refine hreleased d ?_
      rwa [← List.append_assoc, List.getLast?_append_of_ne_nil _ hne]
    have hjoin := ih hrel
    have hdet : Detached (rest ++ (w ++ r)) := by
      intro d hd
      refine hrest d ?_
      rwa [List.head?_append_of_ne_nil _ hne] at hd
    have hword := Spells.word hgap hsolid hdet hjoin
    simpa using hword

/-! ### Reading the words back -/

theorem splitFrom_gap {gap : List Char} (h : Gap gap) (s : List Char) :
    splitFrom [] (gap ++ s) = splitFrom [] s := by
  induction gap with
  | nil => rfl
  | cons c gap ih =>
    have hc : isWhite c = true := h c (by simp)
    rw [List.cons_append, splitFrom, if_pos hc, if_pos rfl]
    exact ih fun d hd => h d (by simp [hd])

theorem splitFrom_word {w : List Char} (h : ∀ c ∈ w, isWhite c = false) (word s : List Char) :
    splitFrom word (w ++ s) = splitFrom (word ++ w) s := by
  induction w generalizing word with
  | nil => simp
  | cons c w ih =>
    have hc : isWhite c = false := h c (by simp)
    rw [List.cons_append, splitFrom, hc, if_neg (by simp), ih fun d hd => h d (by simp [hd])]
    simp

theorem splitFrom_detached {word s : List Char} (hne : word ≠ []) (h : Detached s) :
    splitFrom word s = word :: splitFrom [] s := by
  cases s with
  | nil => simp [splitFrom, hne]
  | cons c s =>
    have hc : isWhite c = true := h c (by simp)
    rw [splitFrom, if_pos hc, if_neg hne, splitFrom, if_pos hc, if_pos rfl]

theorem splitWhitespace_eq {ws : List (List Char)} {s : List Char} (h : Spells ws s) :
    splitWhitespace s = ws := by
  unfold splitWhitespace
  induction h with
  | blank hgap =>
    have hskip := splitFrom_gap hgap []
    simpa [splitFrom] using hskip
  | word hgap hsolid hrest _ ih =>
    rw [splitFrom_gap hgap, splitFrom_word hsolid.dark, List.nil_append,
      splitFrom_detached hsolid.ne_nil hrest, ih]

theorem of_splitFrom (word s : List Char) (hword : ∀ c ∈ word, isWhite c = false) :
    Spells (splitFrom word s) (word ++ s) := by
  induction s generalizing word with
  | nil =>
    by_cases hne : word = []
    · subst hne
      exact .blank fun c hc => by cases hc
    · have hsingle := Spells.first ⟨hne, hword⟩ .nil .nil
      simpa [splitFrom, hne] using hsingle
  | cons c s ih =>
    by_cases hc : isWhite c = true
    · have htail : Spells (splitFrom [] s) (c :: s) := by
        have hgap : Gap [c] := by
          intro d hd
          rw [List.mem_singleton.mp hd]
          exact hc
        exact gap_append hgap (ih [] fun d hd => by cases hd)
      rw [splitFrom, if_pos hc]
      by_cases hne : word = []
      · rw [if_pos hne, hne]
        exact htail
      · rw [if_neg hne]
        exact .first ⟨hne, hword⟩ (fun d hd => by simp at hd; rwa [← hd]) htail
    · have hdark : isWhite c = false := by simpa using hc
      have hstep := ih (word ++ [c]) (by
        intro d hd
        rcases List.mem_append.mp hd with hd | hd
        · exact hword d hd
        · rw [List.mem_singleton.mp hd]
          exact hdark)
      rw [splitFrom, hdark]
      simpa using hstep

/-- A text spells its own words, and no others. -/
theorem iff_splitWhitespace {ws : List (List Char)} {s : List Char} :
    Spells ws s ↔ splitWhitespace s = ws := by
  constructor
  · exact splitWhitespace_eq
  · rintro rfl
    exact of_splitFrom [] s fun c hc => by cases hc

instance (ws : List (List Char)) (s : List Char) : Decidable (Spells ws s) :=
  decidable_of_iff _ iff_splitWhitespace.symm

/-! ### What occurs in a text, occurs in a word -/

theorem infix_append_detached {p a b : List Char} (hp : ∀ c ∈ p, isWhite c = false)
    (hb : Detached b) (h : p <:+: a ++ b) : p <:+: a ∨ p <:+: b := by
  rcases List.infix_append_iff_ne_nil.mp h with h | h | ⟨l, r, _, hr, rfl, _, hprefix⟩
  · exact Or.inl h
  · exact Or.inr h
  · obtain ⟨c, r, rfl⟩ := List.exists_cons_of_ne_nil hr
    obtain ⟨t, rfl⟩ := hprefix
    have hwhite := hb c (by simp)
    rw [hp c (by simp)] at hwhite
    cases hwhite

theorem infix_released_append {p a b : List Char} (hp : ∀ c ∈ p, isWhite c = false)
    (ha : Released a) (h : p <:+: a ++ b) : p <:+: a ∨ p <:+: b := by
  rcases List.infix_append_iff_ne_nil.mp h with h | h | ⟨l, r, hl, _, rfl, ⟨t, rfl⟩, _⟩
  · exact Or.inl h
  · exact Or.inr h
  · have hlast : (t ++ l).getLast? = some (l.getLast hl) := by
      rw [List.getLast?_append_of_ne_nil _ hl, List.getLast?_eq_some_getLast hl]
    have hwhite := ha _ (Option.mem_def.mpr hlast)
    rw [hp _ (by simp)] at hwhite
    cases hwhite

theorem not_infix_gap {p gap : List Char} (hp : Solid p) (h : Gap gap) : ¬ p <:+: gap := by
  intro hi
  have hmem := List.head_mem hp.ne_nil
  have hwhite := h _ (hi.subset hmem)
  rw [hp.dark _ hmem] at hwhite
  cases hwhite

theorem infix_iff {p s : List Char} {ws : List (List Char)} (hp : Solid p) (h : Spells ws s) :
    p <:+: s ↔ ∃ w ∈ ws, p <:+: w := by
  induction h with
  | blank hgap => simp [not_infix_gap hp hgap]
  | @word gap w ws rest hgap hsolid hrest htail ih =>
    constructor
    · intro hi
      rcases infix_released_append hp.dark hgap.released hi with hi | hi
      · exact absurd hi (not_infix_gap hp hgap)
      rcases infix_append_detached hp.dark hrest hi with hi | hi
      · exact ⟨w, by simp, hi⟩
      · obtain ⟨v, hv, hi⟩ := ih.mp hi
        exact ⟨v, by simp [hv], hi⟩
    · rintro ⟨v, hv, hi⟩
      rcases List.mem_cons.mp hv with rfl | hv
      · exact hi.trans (List.infix_append' gap v rest)
      · have hrestInfix := ih.mpr ⟨v, hv, hi⟩
        rw [← List.append_assoc]
        exact List.infix_append_of_infix_right hrestInfix

theorem mem_iff {c : Char} {s : List Char} {ws : List (List Char)} (hc : isWhite c = false)
    (h : Spells ws s) : c ∈ s ↔ ∃ w ∈ ws, c ∈ w := by
  have hsolid : Solid [c] := ⟨by simp, by simpa using hc⟩
  simpa only [List.singleton_infix_iff] using infix_iff hsolid h

/-- A search ends at the first word in which the pattern occurs. -/
theorem cut_word {p w u v s : List Char} {xs ys : List (List Char)} (hp : Solid p)
    (h : Spells (xs ++ w :: ys) s) (hw : w = u ++ (p ++ v)) (hxs : ∀ x ∈ xs, ¬ p <:+: x)
    (hu : ¬ p <:+: u ++ p.dropLast) :
    ∃ l r, cut p s = some (l ++ u, v ++ r) ∧ s = l ++ (w ++ r) ∧ Spells xs l ∧ Released l ∧
      Spells ys r ∧ Detached r := by
  obtain ⟨l, r, rfl, hl, hreleased, hr, hdetached⟩ := h.split_at
  refine ⟨l, r, ?_, rfl, hl, hreleased, hr, hdetached⟩
  have hfirst : ¬ p <:+: (l ++ u) ++ p.dropLast := by
    intro hi
    rw [List.append_assoc] at hi
    rcases infix_released_append hp.dark hreleased hi with hi | hi
    · obtain ⟨x, hx, hi⟩ := (infix_iff hp hl).mp hi
      exact hxs x hx hi
    · exact hu hi
  have hcut := cut_append hp.ne_nil hfirst (v ++ r)
  rw [hw]
  simpa using hcut

/-! ### Trimming -/

theorem trimEnd_append {p : Char → Bool} {l t : List Char} (hl : ∀ c ∈ l.getLast?, p c = false)
    (ht : ∀ c ∈ t, p c = true) : trimEnd p (l ++ t) = l := by
  unfold trimEnd
  induction t using List.reverseRecOn with
  | nil =>
    rw [List.append_nil]
    refine List.rdropWhile_eq_self_iff.mpr fun hne => ?_
    have hlast := hl _ (Option.mem_def.mpr (List.getLast?_eq_some_getLast hne))
    simp [hlast]
  | append_singleton t c ih =>
    rw [← List.append_assoc, List.rdropWhile_concat_pos _ _ _ (ht c (by simp))]
    exact ih fun d hd => ht d (by simp [hd])

theorem dropWhile_gap {gap : List Char} (h : Gap gap) (s : List Char) :
    (gap ++ s).dropWhile isWhite = s.dropWhile isWhite := by
  induction gap with
  | nil => rfl
  | cons c gap ih =>
    have hc : isWhite c = true := h c (by simp)
    rw [List.cons_append, List.dropWhile_cons_of_pos hc]
    exact ih fun d hd => h d (by simp [hd])

theorem trim_gap {gap : List Char} (h : Gap gap) : trim gap = [] := by
  have hdrop : gap.dropWhile isWhite = [] := by
    have hgap := dropWhile_gap h []
    simpa using hgap
  rw [trim, hdrop]
  rfl

theorem dropWhile_word {gap w rest : List Char} (hgap : Gap gap) (hw : Solid w) :
    (gap ++ (w ++ rest)).dropWhile isWhite = w ++ rest := by
  obtain ⟨c, v, rfl⟩ := List.exists_cons_of_ne_nil hw.ne_nil
  have hc : ¬ isWhite c = true := by simp [hw.dark c (by simp)]
  rw [dropWhile_gap hgap, List.cons_append, List.dropWhile_cons_of_neg hc]

/-- A text of a single word. -/
theorem single {l w : List Char} {xs : List (List Char)} (hl : Spells xs l) (hr : Released l)
    (hw : Solid w) : Spells (xs ++ [w]) (l ++ w) := by
  have hjoin := join hl hr hw .nil .nil
  simpa using hjoin

theorem trimEnd_concat {x s : List Char} {xs : List (List Char)} (h : Spells (xs ++ [x]) s) :
    ∃ l, trimEnd isWhite s = l ++ x ∧ Spells xs l ∧ Released l ∧ l ++ x <+: s := by
  obtain ⟨l, r, rfl, hl, hreleased, hr, _⟩ := h.split_at
  have hx : Solid x := h.solid x (by simp)
  have hgap : Gap r := by
    cases hr with
    | blank hgap => exact hgap
  have hlast : ∀ c ∈ (l ++ x).getLast?, isWhite c = false := by
    intro c hc
    rw [List.getLast?_append_of_ne_nil _ hx.ne_nil] at hc
    exact hx.dark c (List.mem_of_getLast? hc)
  rw [← List.append_assoc]
  exact ⟨l, trimEnd_append hlast hgap, hl, hreleased, List.prefix_append _ r⟩

/-- A trimmed text ends with its last word. -/
theorem trim_concat {x s : List Char} {xs : List (List Char)} (h : Spells (xs ++ [x]) s) :
    ∃ l, trim s = l ++ x ∧ Spells xs l ∧ Released l := by
  have hdrop : Spells (xs ++ [x]) (s.dropWhile isWhite) := by
    generalize xs ++ [x] = ws at h
    cases h with
    | @blank gap hgap =>
      have hnil := dropWhile_gap hgap []
      rw [List.append_nil] at hnil
      rw [hnil]
      exact .nil
    | word hgap hsolid hrest htail =>
      rw [dropWhile_word hgap hsolid]
      exact .first hsolid hrest htail
  obtain ⟨l, htrim, hl, hreleased, _⟩ := hdrop.trimEnd_concat
  exact ⟨l, htrim, hl, hreleased⟩

theorem trim {s : List Char} {ws : List (List Char)} (h : Spells ws s) :
    Spells ws (trim s) := by
  rcases List.eq_nil_or_concat ws with rfl | ⟨xs, x, rfl⟩
  · cases h with
    | blank hgap =>
      rw [trim_gap hgap]
      exact .nil
  · rw [List.concat_eq_append] at h ⊢
    obtain ⟨l, htrim, hl, hreleased⟩ := h.trim_concat
    rw [htrim]
    exact single hl hreleased (h.solid x (by simp))

/-- A trimmed text begins with its first word. -/
theorem trim_cons {w s : List Char} {ws : List (List Char)} (h : Spells (w :: ws) s) :
    w <+: Words.trim s := by
  have htrim := h.trim
  have hw : Solid w := h.solid w (by simp)
  have hinside : w <:+: Words.trim s := (infix_iff hw htrim).mpr ⟨w, by simp, List.infix_refl w⟩
  cases h with
  | @word gap _ _ rest hgap hsolid hrest htail =>
    have hprefix : Words.trim (gap ++ (w ++ rest)) <+: w ++ rest := by
      rw [Words.trim, dropWhile_word hgap hsolid]
      exact List.rdropWhile_prefix _ _
    exact List.prefix_of_prefix_length_le (List.prefix_append w rest) hprefix hinside.length_le

theorem trim_single {w s : List Char} (h : Spells [w] s) : Words.trim s = w := by
  cases h with
  | word hgap hsolid _ htail =>
    cases htail with
    | blank hrest =>
      rw [Words.trim, dropWhile_word hgap hsolid]
      exact trimEnd_append (fun c hc => hsolid.dark c (List.mem_of_getLast? hc)) hrest

/-- The character that closes a line is taken off its last word. -/
theorem trimEnd_close {c : Char} {w s : List Char} {xs : List (List Char)}
    (h : Spells (xs ++ [w ++ [c]]) s) (hw : Solid w) (hc : c ∉ w) :
    Spells (xs ++ [w]) (trimEnd (· = c) (Words.trim s)) := by
  obtain ⟨l, htrim, hl, hreleased⟩ := h.trim_concat
  have hlast : ∀ d ∈ (l ++ w).getLast?, decide (d = c) = false := by
    intro d hd
    rw [List.getLast?_append_of_ne_nil _ hw.ne_nil] at hd
    refine decide_eq_false fun hdc => hc ?_
    rw [← hdc]
    exact List.mem_of_getLast? hd
  rw [htrim, ← List.append_assoc, trimEnd_append hlast (by simp)]
  exact single hl hreleased hw

/-- A word that is one character is where the text is split at the character. -/
theorem rsplitOnce_word {c : Char} {s : List Char} {xs ys : List (List Char)}
    (h : Spells (xs ++ [c] :: ys) s) (hys : ∀ y ∈ ys, c ∉ y) :
    ∃ l r, rsplitOnce c s = some (l, r) ∧ Spells xs l ∧ Spells ys r := by
  obtain ⟨l, r, rfl, hl, _, hr, _⟩ := h.split_at
  have hc : isWhite c = false := (h.solid [c] (by simp)).dark c (by simp)
  have hright : c ∉ r := by
    intro hmem
    obtain ⟨y, hy, hcy⟩ := (mem_iff hc hr).mp hmem
    exact hys y hy hcy
  exact ⟨l, r, rsplitOnce_append hright l, hl, hr⟩

end Spells

theorem Solid.trim_eq {w : List Char} (h : Solid w) : trim w = w := by
  have hfirst := Spells.first h .nil .nil
  rw [List.append_nil] at hfirst
  exact hfirst.trim_single

end MatterRsServer.Lib.Words
