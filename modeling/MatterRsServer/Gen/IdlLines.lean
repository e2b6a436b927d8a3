import MatterRsServer.Gen.Idl

/-!
# The lines of the IDL

What the reader makes of each line of the grammar: which words it looks for, where it cuts the
line, and what is left to read a declaration from.
-/
namespace MatterRsServer.Gen.Idl

open Lib Lib.Text Lib.Words Build

/-! ### Characters -/

theorem toNat_of_bounds {c l u : Char} (hl : l.val ≤ c.val) (hu : c.val ≤ u.val) :
    l.toNat ≤ c.toNat ∧ c.toNat ≤ u.toNat :=
  ⟨UInt32.le_iff_toNat_le.mp hl, UInt32.le_iff_toNat_le.mp hu⟩

theorem toNat_of_isIdentChar {c : Char} (h : isIdentChar c = true) :
    (48 ≤ c.toNat ∧ c.toNat ≤ 57) ∨ (65 ≤ c.toNat ∧ c.toNat ≤ 90) ∨
      (97 ≤ c.toNat ∧ c.toNat ≤ 122) ∨ c.toNat = 95 := by
  rcases Bool.or_eq_true_iff.mp h with halnum | hunderscore
  · rcases Bool.or_eq_true_iff.mp halnum with halpha | hdigit
    · rcases Bool.or_eq_true_iff.mp halpha with hupper | hlower
      · obtain ⟨hl, hu⟩ : 'A'.val ≤ c.val ∧ c.val ≤ 'Z'.val := of_decide_eq_true hupper
        exact Or.inr (Or.inl (toNat_of_bounds hl hu))
      · obtain ⟨hl, hu⟩ := Bool.and_eq_true_iff.mp hlower
        exact Or.inr (Or.inr (Or.inl (toNat_of_bounds (of_decide_eq_true hl) (of_decide_eq_true hu))))
    · obtain ⟨hl, hu⟩ := Bool.and_eq_true_iff.mp hdigit
      exact Or.inl (toNat_of_bounds (of_decide_eq_true hl) (of_decide_eq_true hu))
  · rw [of_decide_eq_true hunderscore]
    exact Or.inr (Or.inr (Or.inr rfl))

theorem isWhite_of_isIdentChar {c : Char} (h : isIdentChar c = true) : isWhite c = false := by
  have hrange := toNat_of_isIdentChar h
  simp only [isWhite, Bool.or_eq_false_iff, Bool.and_eq_false_iff, decide_eq_false_iff_not,
    List.contains_eq_mem, List.mem_cons, List.not_mem_nil, or_false, not_or]
  omega

theorem isIdentChar_of_isDigit {c : Char} (h : c.isDigit = true) : isIdentChar c = true := by
  simp [isIdentChar, Char.isAlphanum, h]

namespace Ident

theorem solid (i : Ident) : Solid i.text :=
  ⟨i.ne_nil, fun c hc => isWhite_of_isIdentChar (i.plain c hc)⟩

theorem not_mem (i : Ident) {c : Char} (h : isIdentChar c = false) : c ∉ i.text := by
  intro hc
  rw [i.plain c hc] at h
  cases h

end Ident

namespace Numeral

theorem not_mem (n : Numeral) {c : Char} (h : isIdentChar c = false) : c ∉ n.digits := by
  intro hc
  rw [isIdentChar_of_isDigit (n.plain c hc)] at h
  cases h

theorem solid (n : Numeral) : Solid n.digits :=
  ⟨n.ne_nil, fun c hc => isWhite_of_isIdentChar (isIdentChar_of_isDigit (n.plain c hc))⟩

/-- A code is read if it fits. -/
theorem parseU64_digits (n : Numeral) :
    parseU64 n.digits = if n.value < 2 ^ 64 then some n.value else none := by
  have hplus : dropPlus n.digits = n.digits := by
    unfold dropPlus
    split
    · next rest heq =>
      have hmem : '+' ∈ n.digits := by simp [heq]
      exact absurd hmem (n.not_mem (by decide))
    · rfl
  have hall : n.digits.all Char.isDigit = true := List.all_eq_true.mpr n.plain
  rw [parseU64, parseUnsigned, hplus, if_pos ⟨n.ne_nil, hall⟩]
  rfl

end Numeral

/-- Keywords are names. -/
theorem keyword_plain {k : Str} (h : k ∈ keywords) : k ≠ [] ∧ ∀ c ∈ k, isIdentChar c = true := by
  have hall : keywords.all (fun k => !k.isEmpty && k.all isIdentChar) = true := by decide
  have hk := List.all_eq_true.mp hall k h
  simp only [Bool.and_eq_true, Bool.not_eq_true', List.isEmpty_eq_false_iff] at hk
  exact ⟨hk.1, List.all_eq_true.mp hk.2⟩

theorem keyword_solid {k : Str} (h : k ∈ keywords) : Solid k :=
  ⟨(keyword_plain h).1, fun c hc => isWhite_of_isIdentChar ((keyword_plain h).2 c hc)⟩

theorem keyword_not_mem {k : Str} (h : k ∈ keywords) {c : Char} (hc : isIdentChar c = false) :
    c ∉ k := by
  intro hmem
  rw [(keyword_plain h).2 c hmem] at hc
  cases hc

/-- A pattern without the character `c` occurs on one side of a `c`. -/
theorem infix_append_cons {p a b : Str} {c : Char} (hp : p ≠ []) (hc : c ∉ p)
    (h : p <:+: a ++ c :: b) : p <:+: a ∨ p <:+: b := by
  rcases List.infix_append_iff_ne_nil.mp h with h | h | ⟨l, r, _, hr, rfl, _, hprefix⟩
  · exact Or.inl h
  · rcases List.infix_cons_iff.mp h with hprefix | hinside
    · obtain ⟨d, p, rfl⟩ := List.exists_cons_of_ne_nil hp
      obtain ⟨rfl, -⟩ := List.cons_prefix_cons.mp hprefix
      simp at hc
    · exact Or.inr hinside
  · obtain ⟨d, r, rfl⟩ := List.exists_cons_of_ne_nil hr
    obtain ⟨rfl, -⟩ := List.cons_prefix_cons.mp hprefix
    simp at hc

/-- Words in which no keyword occurs. -/
def Inert (ws : List Str) : Prop := ∀ w ∈ ws, ∀ k ∈ keywords, ¬ k <:+: w

namespace Inert

theorem not_mem {ws : List Str} (h : Inert ws) {k : Str} (hk : k ∈ keywords) : k ∉ ws :=
  fun hmem => h k hmem k hk (List.infix_refl k)

theorem append {xs ys : List Str} (hx : Inert xs) (hy : Inert ys) : Inert (xs ++ ys) := by
  intro w hw
  rcases List.mem_append.mp hw with hw | hw
  · exact hx w hw
  · exact hy w hw

theorem qualifierWords (qs : List Qualifier) : Inert (Idl.qualifierWords qs) := by
  intro w hw
  obtain ⟨q, -, rfl⟩ := List.mem_map.mp hw
  exact q.noKeyword

/-- A word closed by a character that no keyword has. -/
theorem concat {w : Str} {c : Char} (hw : ∀ k ∈ keywords, ¬ k <:+: w)
    (hc : isIdentChar c = false) : ∀ k ∈ keywords, ¬ k <:+: w ++ [c] := by
  intro k hk h
  rcases infix_append_cons (keyword_plain hk).1 (keyword_not_mem hk hc) h with h | h
  · exact hw k hk h
  · exact (keyword_plain hk).1 (List.infix_nil.mp h)

theorem accessWords (access : Option Access) : Inert (Idl.accessWords access) := by
  cases access with
  | none => exact fun w hw => by cases hw
  | some a =>
    intro w hw
    simp only [Idl.accessWords, Access.words, Access.innerWords, List.mem_cons, List.mem_append,
      List.mem_flatMap, List.not_mem_nil, or_false] at hw
    rcases hw with rfl | ⟨p, -, rfl | rfl⟩ | rfl
    · intro k hk h
      have hname : ∀ k ∈ keywords, ¬ k <:+: "access".toList := by decide
      have hopen : "access(".toList ++ (a.kind.text ++ [':']) =
          "access".toList ++ '(' :: (a.kind.text ++ [':']) := rfl
      rw [hopen] at h
      rcases infix_append_cons (keyword_plain hk).1 (keyword_not_mem hk (by decide)) h with h | h
      · exact hname k hk h
      · exact concat a.kind.noKeyword (by decide) k hk h
    · exact concat p.1.noKeyword (by decide)
    · exact concat p.2.noKeyword (by decide)
    · exact concat a.last.noKeyword (by decide)

end Inert

/-! ### Comments -/

theorem afterKeyword_subset (keyword line : Str) : afterKeyword keyword line ⊆ line := by
  unfold afterKeyword
  split
  · exact List.nil_subset _
  · next _ rest hcut =>
    have hrest : rest ⊆ line := fun c hc => (mem_of_cut hcut).2 hc
    split
    · exact hrest
    · next _ _ hcut' => exact fun c hc => hrest ((mem_of_cut hcut').1 hc)

theorem stripAccess_subset (s : Str) : stripAccess s ⊆ s := by
  unfold stripAccess
  split
  · exact fun c hc => hc
  · next before rest hcut =>
    split
    · exact fun c hc => hc
    · next _ after hsplit =>
      intro c hc
      rcases List.mem_append.mp hc with hc | hc
      · exact (mem_of_cut hcut).1 hc
      · exact (mem_of_cut hcut).2 (mem_of_splitOnce hsplit hc)

theorem parseField_eq_none {line : Str} (h : '=' ∉ line) : parseField line = none := by
  have hnone : rsplitOnce '=' (trimEnd (· = ';') (trim line)) = none :=
    rsplitOnce_eq_none fun hc => h (trim_subset _ (trimEnd_subset _ _ hc))
  rw [parseField, hnone]

theorem parseCommand_eq_none {line : Str} (timed : Bool) (h : '=' ∉ line) :
    parseCommand timed line = none := by
  have hnone : rsplitOnce '=' (trimEnd (· = ';') (trim line)) = none :=
    rsplitOnce_eq_none fun hc => h (trim_subset _ (trimEnd_subset _ _ hc))
  rw [parseCommand, hnone]

theorem opens_eq_false {line : Str} (h : '{' ∉ line) : opens line = false :=
  decide_eq_false fun hlast => h (List.mem_of_getLast? hlast)

theorem header_closed {words : List Str} {line : Str} (h : opens line = false) :
    header words line = none := by
  unfold header
  split
  · rfl
  · rw [if_neg]
    simp [h]

theorem readBlock_noBrace {st : State} {kind : Block} {fields : List Build.Field} {line : Str}
    (hopen : '{' ∉ line) (hclose : '\x7d' ∉ line) :
    readBlock st kind fields line =
      if kind = .skip then st
      else { st with block := some (kind, fields ++ (parseField line).toList) } := by
  simp only [readBlock, hopen, hclose, if_false, false_and]

/-- What a line of a cluster adds when no block begins on it. -/
theorem readMember_closed {st : State} {c : Build.Cluster} {words : List Str} {line : Str}
    (hline : line ≠ "\x7d".toList) (hopens : opens line = false) :
    readMember st c words line =
      if ∃ w ∈ blockWords, w ∈ words then st
      else if "attribute".toList ∈ words then
        let attr := parseField (stripAccess (afterKeyword "attribute".toList line))
        { st with cur := some { c with attrs := c.attrs ++ attr.toList } }
      else match words.idxOf? "command".toList with
      | some pos =>
        let timed := (words.take pos).contains "timed".toList
        let cmd := parseCommand timed (stripAccess (afterKeyword "command".toList line))
        { st with cur := some { c with cmds := c.cmds ++ cmd.toList } }
      | none => st := by
  rw [readMember, if_neg hline, hopens]
  by_cases henum : "enum".toList ∈ words ∨ "bitmap".toList ∈ words
  · have hblock : ∃ w ∈ blockWords, w ∈ words := by
      rcases henum with h | h
      · exact ⟨_, List.mem_cons_self, h⟩
      · exact ⟨_, List.mem_cons_of_mem _ List.mem_cons_self, h⟩
    rw [if_pos henum, if_pos hblock, if_neg Bool.false_ne_true]
  · rw [if_neg henum]
    cases hstruct : words.idxOf? "struct".toList with
    | some pos =>
      have hmem : "struct".toList ∈ words := by
        refine Decidable.byContradiction fun hmem => ?_
        rw [List.idxOf?_eq_none_iff.mpr hmem] at hstruct
        cases hstruct
      have hblock : ∃ w ∈ blockWords, w ∈ words :=
        ⟨_, List.mem_cons_of_mem _ (List.mem_cons_of_mem _ List.mem_cons_self), hmem⟩
      rw [if_pos hblock]
      rfl
    | none =>
      have hmem : "struct".toList ∉ words := List.idxOf?_eq_none_iff.mp hstruct
      dsimp only
      by_cases hevent : "event".toList ∈ words
      · have hblock : ∃ w ∈ blockWords, w ∈ words :=
          ⟨_, List.mem_cons_of_mem _ (List.mem_cons_of_mem _ (List.mem_cons_of_mem _
            List.mem_cons_self)), hevent⟩
        rw [if_pos hevent, if_pos hblock]
        rfl
      · have hblock : ¬ ∃ w ∈ blockWords, w ∈ words := by
          rintro ⟨w, hw, hmemw⟩
          simp only [blockWords, List.mem_cons, List.not_mem_nil, or_false] at hw
          rcases hw with rfl | rfl | rfl | rfl
          · exact henum (Or.inl hmemw)
          · exact henum (Or.inr hmemw)
          · exact hmem hmemw
          · exact hevent hmemw
        refine (if_neg hevent).trans ?_
        exact (if_neg hblock).symm

theorem readMember_quiet {st : State} {c : Build.Cluster} {words : List Str} {line : Str}
    (hcur : st.cur = some c) (hopen : '{' ∉ line) (hclose : '\x7d' ∉ line) (hequals : '=' ∉ line) :
    readMember st c words line = st := by
  have hline : line ≠ "\x7d".toList := by
    rintro rfl
    exact hclose (by decide)
  have hattr : parseField (stripAccess (afterKeyword "attribute".toList line)) = none :=
    parseField_eq_none fun hc => hequals (afterKeyword_subset _ _ (stripAccess_subset _ hc))
  have hcmd : ∀ timed,
      parseCommand timed (stripAccess (afterKeyword "command".toList line)) = none := fun timed =>
    parseCommand_eq_none timed fun hc =>
      hequals (afterKeyword_subset _ _ (stripAccess_subset _ hc))
  have hsame : { st with cur := some c } = st := by rw [← hcur]
  rw [readMember_closed hline (opens_eq_false hopen)]
  dsimp only
  rw [hattr, Option.toList_none, List.append_nil, hsame]
  cases words.idxOf? "command".toList with
  | some pos =>
    dsimp only
    rw [hcmd, Option.toList_none, List.append_nil, hsame, ite_self, ite_self]
  | none => rw [ite_self, ite_self]

/-- A comment changes nothing, wherever it stands. -/
theorem readLine_comment {raw : Str} (h : IsComment raw) (st : State) : readLine st raw = st := by
  by_cases hskip : "//".toList.isPrefixOf (trim raw) ∨ "/*".toList.isPrefixOf (trim raw) ∨
      trim raw = []
  · rw [readLine, if_pos hskip]
  · rcases h with h | h | ⟨hopen, hclose, hequals⟩
    · exact absurd (Or.inl (List.isPrefixOf_iff_prefix.mpr h)) hskip
    · exact absurd (Or.inr (Or.inl (List.isPrefixOf_iff_prefix.mpr h))) hskip
    · have hopen' : '{' ∉ trim raw := fun hc => hopen (trim_subset _ hc)
      have hclose' : '\x7d' ∉ trim raw := fun hc => hclose (trim_subset _ hc)
      have hequals' : '=' ∉ trim raw := fun hc => hequals (trim_subset _ hc)
      rw [readLine, if_neg hskip]
      cases hblock : st.block with
      | some b =>
        obtain ⟨kind, fields⟩ := b
        simp only [readBlock_noBrace hopen' hclose', parseField_eq_none hequals',
          Option.toList_none, List.append_nil, ← hblock, ite_self]
      | none =>
        simp only [header_closed (opens_eq_false hopen')]
        cases hcur : st.cur with
        | none => rfl
        | some c => exact readMember_quiet hcur hopen' hclose' hequals'

/-! ### Lines of words -/

/-- Words of which the first one does not begin a comment. -/
def Plain (ws : List Str) : Prop := ∃ w rest, ws = w :: rest ∧ '/' ∉ w

theorem Plain.append {xs ys : List Str} {k : Str} (hxs : ∀ w ∈ xs, '/' ∉ w) (hk : '/' ∉ k) :
    Plain (xs ++ k :: ys) := by
  cases xs with
  | nil => exact ⟨k, ys, rfl, hk⟩
  | cons x xs => exact ⟨x, xs ++ k :: ys, rfl, hxs x List.mem_cons_self⟩

theorem Plain.not_skipped {ws : List Str} {raw : Str} (hplain : Plain ws) (h : Spells ws raw) :
    ¬ ("//".toList.isPrefixOf (trim raw) ∨ "/*".toList.isPrefixOf (trim raw) ∨ trim raw = []) := by
  obtain ⟨w, rest, rfl, hw⟩ := hplain
  have hsolid : Solid w := h.solid w List.mem_cons_self
  have hprefix : w <+: trim raw := h.trim_cons
  obtain ⟨c, v, rfl⟩ := List.exists_cons_of_ne_nil hsolid.ne_nil
  obtain ⟨t, ht⟩ := hprefix
  have hc : '/' ≠ c := by
    rintro rfl
    exact hw List.mem_cons_self
  rintro (hp | hp | hp)
  · rw [← ht] at hp
    exact hc (List.cons_prefix_cons.mp (List.isPrefixOf_iff_prefix.mp hp)).1
  · rw [← ht] at hp
    exact hc (List.cons_prefix_cons.mp (List.isPrefixOf_iff_prefix.mp hp)).1
  · rw [← ht] at hp
    cases hp

theorem readLine_block {st : State} {kind : Block} {fields : List Build.Field} {ws : List Str} {raw : Str}
    (hblock : st.block = some (kind, fields)) (hplain : Plain ws) (h : Spells ws raw) :
    readLine st raw = readBlock st kind fields (trim raw) := by
  rw [readLine, if_neg (hplain.not_skipped h), hblock]

theorem readLine_header {st : State} {c : Build.Cluster} {ws : List Str} {raw : Str}
    (hblock : st.block = none) (hplain : Plain ws) (h : Spells ws raw)
    (hheader : header ws (trim raw) = some c) :
    readLine st raw = { st with clusters := st.clusters ++ st.cur.toList, cur := some c } := by
  rw [readLine, if_neg (hplain.not_skipped h), hblock, Spells.splitWhitespace_eq h.trim, hheader]

theorem readLine_member {st : State} {c : Build.Cluster} {ws : List Str} {raw : Str}
    (hblock : st.block = none) (hcur : st.cur = some c) (hplain : Plain ws) (h : Spells ws raw)
    (hheader : header ws (trim raw) = none) :
    readLine st raw = readMember st c ws (trim raw) := by
  rw [readLine, if_neg (hplain.not_skipped h), hblock, Spells.splitWhitespace_eq h.trim, hheader,
    hcur]

/-- The last word decides whether a block begins. -/
theorem opens_trim {xs : List Str} {x raw : Str} (h : Spells (xs ++ [x]) raw) :
    opens (trim raw) = decide (x.getLast? = some '{') := by
  obtain ⟨l, htrim, -, -⟩ := h.trim_concat
  have hx : x ≠ [] := (h.solid x (by simp)).ne_nil
  rw [htrim, opens, List.getLast?_append_of_ne_nil _ hx]

theorem not_mem_trim {c : Char} {ws : List Str} {raw : Str} (hc : isWhite c = false)
    (h : Spells ws raw) (hws : ∀ w ∈ ws, c ∉ w) : c ∉ trim raw := by
  intro hmem
  obtain ⟨w, hw, hcw⟩ := (Spells.mem_iff hc h.trim).mp hmem
  exact hws w hw hcw

/-! ### Headers -/

theorem idxOf?_append_cons {xs : List Str} (ys : List Str) {k : Str} (h : k ∉ xs) :
    (xs ++ k :: ys).idxOf? k = some xs.length := by
  refine List.idxOf?_eq_some_iff.mpr ⟨by simp, by simp, fun j hj => ?_⟩
  rw [List.getElem_append_left hj]
  intro heq
  exact h (heq ▸ List.getElem_mem hj)

/-- A word that occurs once has one place. -/
theorem index_unique {xs ys : List Str} {k : Str} {i : Nat} (hxs : k ∉ xs) (hys : k ∉ ys)
    (h : (xs ++ k :: ys)[i]? = some k) : i = xs.length := by
  rcases Nat.lt_trichotomy i xs.length with hlt | heq | hgt
  · rw [List.getElem?_append_left hlt] at h
    exact absurd (List.mem_of_getElem? h) hxs
  · exact heq
  · obtain ⟨j, rfl⟩ : ∃ j, i = xs.length + (j + 1) := ⟨i - xs.length - 1, by omega⟩
    rw [List.getElem?_append_right (by omega), Nat.add_sub_cancel_left,
      List.getElem?_cons_succ] at h
    exact absurd (List.mem_of_getElem? h) hys

/-- A header has its `=` two words after `cluster`. -/
theorem header_eq_none {xs zs : List Str} {y line : Str} (hxs : "cluster".toList ∉ xs)
    (hx : equals ∉ xs) (hy : equals ≠ y) (hz : equals ∉ zs) :
    header (xs ++ y :: equals :: zs) line = none := by
  have hsplit : xs ++ y :: equals :: zs = (xs ++ [y]) ++ equals :: zs := by simp
  have hbefore : equals ∉ xs ++ [y] := by simp [hx, hy]
  unfold header
  cases hpos : (xs ++ y :: equals :: zs).idxOf? "cluster".toList with
  | none => rfl
  | some pos =>
    obtain ⟨hlength, hcluster, -⟩ := List.idxOf?_eq_some_iff.mp hpos
    dsimp only
    rw [if_neg]
    rintro ⟨hequals, -⟩
    rw [hsplit] at hequals
    have hplace : pos + 2 = (xs ++ [y]).length := index_unique hbefore hz hequals
    have hlt : pos < xs.length := by
      rw [List.length_append, List.length_singleton] at hplace
      omega
    rw [List.getElem_append_left hlt] at hcluster
    exact hxs (hcluster ▸ List.getElem_mem hlt)

theorem header_noEquals {words : List Str} {line : Str} (h : equals ∉ words) :
    header words line = none := by
  unfold header
  cases words.idxOf? "cluster".toList with
  | none => rfl
  | some pos =>
    dsimp only
    rw [if_neg]
    rintro ⟨hequals, -⟩
    exact h (List.mem_of_getElem? hequals)

theorem header_cluster {xs : List Str} {name digits line : Str} (hxs : "cluster".toList ∉ xs)
    (hopens : opens line = true) :
    header (xs ++ ["cluster".toList, name, equals, digits, opening]) line =
      some
        { name
          code := (parseU64 (trimEnd (fun c => c = '{' ∨ c = ' ') digits)).getD u64Max } := by
  have hpos := idxOf?_append_cons [name, equals, digits, opening] hxs
  have hat : ∀ i, (xs ++ ["cluster".toList, name, equals, digits, opening])[xs.length + i]? =
      ["cluster".toList, name, equals, digits, opening][i]? := fun i => by
    rw [List.getElem?_append_right (by omega), Nat.add_sub_cancel_left]
  rw [header, hpos]
  dsimp only
  rw [if_pos ⟨hat 2, hopens⟩, hat 1, hat 3]
  rfl

/-! ### Fields -/

instance (f : FieldDecl) : Decidable f.Kept := inferInstanceAs (Decidable (_ ∧ ¬ (_ ∧ _)))

theorem qualifierWords_not_mem (qs : List Qualifier) {c : Char} (hc : isIdentChar c = false) :
    ∀ w ∈ qualifierWords qs, c ∉ w := by
  intro w hw
  obtain ⟨q, -, rfl⟩ := List.mem_map.mp hw
  exact q.not_mem hc

namespace FieldDecl

theorem tyWord_not_mem (f : FieldDecl) {c : Char} (hc : isIdentChar c = false)
    (hbracket : c ∉ "<>[]".toList) : c ∉ f.tyWord := by
  intro hmem
  unfold tyWord at hmem
  rcases List.mem_append.mp hmem with hmem | hmem
  · exact f.ty.not_mem hc hmem
  · cases hlen : f.len with
    | none =>
      rw [hlen] at hmem
      cases hmem
    | some n =>
      rw [hlen] at hmem
      rcases List.mem_cons.mp hmem with rfl | hmem
      · exact hbracket (by decide)
      · rcases List.mem_append.mp hmem with hmem | hmem
        · exact n.not_mem hc hmem
        · rw [List.mem_singleton.mp hmem] at hbracket
          exact hbracket (by decide)

theorem nameWord_not_mem (f : FieldDecl) {c : Char} (hc : isIdentChar c = false)
    (hbracket : c ∉ "<>[]".toList) : c ∉ f.nameWord := by
  intro hmem
  unfold nameWord at hmem
  rcases List.mem_append.mp hmem with hmem | hmem
  · exact f.name.not_mem hc hmem
  · cases hlist : f.isList with
    | false =>
      rw [hlist] at hmem
      cases hmem
    | true =>
      rw [hlist] at hmem
      simp only [if_true, List.mem_cons, List.not_mem_nil, or_false] at hmem
      rcases hmem with rfl | rfl
      · exact hbracket (by decide)
      · exact hbracket (by decide)

theorem words_not_mem (f : FieldDecl) {c : Char} (hc : isIdentChar c = false)
    (hother : c ∉ "<>[]=;".toList) : ∀ w ∈ f.words, c ∉ w := by
  have hbracket : c ∉ "<>[]".toList := fun hmem => hother (List.mem_append_left ['=', ';'] hmem)
  intro w hw
  rcases List.mem_append.mp hw with hw | hw
  · exact qualifierWords_not_mem _ hc w hw
  · simp only [List.mem_cons, List.not_mem_nil, or_false] at hw
    rcases hw with rfl | rfl | rfl | rfl
    · exact f.tyWord_not_mem hc hbracket
    · exact f.nameWord_not_mem hc hbracket
    · intro hmem
      rw [List.mem_singleton.mp hmem] at hother
      exact hother (by decide)
    · intro hmem
      rcases List.mem_append.mp hmem with hmem | hmem
      · exact f.code.not_mem hc hmem
      · rw [List.mem_singleton.mp hmem] at hother
        exact hother (by decide)

theorem takeWhile_tyWord (f : FieldDecl) : f.tyWord.takeWhile (· ≠ '<') = f.ty.text := by
  have hty : ∀ c ∈ f.ty.text, decide (c ≠ '<') = true := fun c hc => by
    refine decide_eq_true ?_
    rintro rfl
    exact f.ty.not_mem (by decide) hc
  unfold tyWord
  rw [List.takeWhile_append_of_pos hty]
  cases f.len with
  | none => simp
  | some n => simp

theorem dropBrackets_reverse (i : Ident) : dropBrackets i.text.reverse = i.text.reverse := by
  cases hcons : i.text.reverse with
  | nil => rfl
  | cons c s =>
    have hc : c ≠ ']' := by
      rintro rfl
      have hmem : ']' ∈ i.text := List.mem_reverse.mp (hcons ▸ List.mem_cons_self)
      exact i.not_mem (by decide) hmem
    unfold dropBrackets
    split
    · next heq =>
      cases heq
      exact absurd rfl hc
    · rfl

theorem trimBrackets_nameWord (f : FieldDecl) : trimBrackets f.nameWord = f.name.text := by
  have hplain : (dropBrackets f.name.text.reverse).reverse = f.name.text := by
    rw [dropBrackets_reverse, List.reverse_reverse]
  unfold trimBrackets nameWord
  cases f.isList with
  | false => simpa using hplain
  | true => simpa [dropBrackets] using hplain

theorem isSuffixOf_nameWord (f : FieldDecl) : "[]".toList.isSuffixOf f.nameWord = f.isList := by
  unfold nameWord
  cases f.isList with
  | false =>
    refine Bool.eq_false_iff.mpr fun h => ?_
    have hsuffix := List.isSuffixOf_iff_suffix.mp h
    have hmem : ']' ∈ f.name.text := by simpa using hsuffix.subset (a := ']') (by decide)
    exact f.name.not_mem (by decide) hmem
  | true => exact List.isSuffixOf_iff_suffix.mpr (List.suffix_append _ _)

theorem fieldOf_append (f : FieldDecl) (code : Nat) (ws : List Str) :
    fieldOf code (ws ++ [f.tyWord, f.nameWord]) = some ⟨code, f.name.text, f.ty.text, f.isList⟩ := by
  simp only [fieldOf, List.reverse_append, List.reverse_cons, List.reverse_nil, List.nil_append,
    List.cons_append, trimBrackets_nameWord, takeWhile_tyWord, isSuffixOf_nameWord]

/-- The words left when the qualifiers are gone. -/
theorem fieldOf_dropWhile (f : FieldDecl) (code : Nat) :
    fieldOf code ((qualifierWords f.qualifiers ++ [f.tyWord, f.nameWord]).dropWhile
        (· ∈ fieldQualifiers)) =
      if f.tyWord ∈ fieldQualifiers ∧ ∀ w ∈ qualifierWords f.qualifiers, w ∈ fieldQualifiers then none
      else some ⟨code, f.name.text, f.ty.text, f.isList⟩ := by
  rw [List.dropWhile_append]
  by_cases hall : ∀ w ∈ qualifierWords f.qualifiers, w ∈ fieldQualifiers
  · have hdrop : (qualifierWords f.qualifiers).dropWhile (· ∈ fieldQualifiers) = [] :=
      List.dropWhile_eq_nil_iff.mpr fun w hw => decide_eq_true (hall w hw)
    rw [hdrop, List.isEmpty_nil, if_pos rfl]
    by_cases hty : f.tyWord ∈ fieldQualifiers
    · rw [if_pos ⟨hty, hall⟩, List.dropWhile_cons_of_pos (by simpa using hty)]
      by_cases hname : f.nameWord ∈ fieldQualifiers
      · rw [List.dropWhile_cons_of_pos (by simpa using hname)]
        rfl
      · rw [List.dropWhile_cons_of_neg (by simpa using hname)]
        rfl
    · rw [if_neg fun h => hty h.1, List.dropWhile_cons_of_neg (by simpa using hty)]
      exact f.fieldOf_append code []
  · have hdrop : (qualifierWords f.qualifiers).dropWhile (· ∈ fieldQualifiers) ≠ [] := fun h =>
      hall fun w hw => of_decide_eq_true (List.dropWhile_eq_nil_iff.mp h w hw)
    rw [if_neg (fun h => hdrop (List.isEmpty_iff.mp h)), if_neg fun h => hall h.2]
    exact f.fieldOf_append code _

/-- The words before the `=` and the code after it. -/
theorem parseField_spells {n : Numeral} {ws : List Str} {s : Str}
    (h : Spells (ws ++ [equals, n.digits ++ [';']]) s) :
    parseField s =
      if n.value < 2 ^ 64 then fieldOf n.value (ws.dropWhile (· ∈ fieldQualifiers)) else none := by
  have hwords : ws ++ [equals, n.digits ++ [';']] = (ws ++ [equals]) ++ [n.digits ++ [';']] := by simp
  rw [hwords] at h
  have hclose := h.trimEnd_close n.solid (n.not_mem (by decide))
  have hequals : (ws ++ [equals]) ++ [n.digits] = ws ++ ['='] :: [n.digits] := by simp [equals]
  rw [hequals] at hclose
  obtain ⟨decl, code, hsplit, hdecl, hcode⟩ :=
    hclose.rsplitOnce_word (by simpa using n.not_mem (by decide))
  rw [parseField, hsplit]
  dsimp only
  rw [hcode.trim_single, n.parseU64_digits, hdecl.splitWhitespace_eq]
  by_cases hfits : n.value < 2 ^ 64
  · rw [if_pos hfits, if_pos hfits]
  · rw [if_neg hfits, if_neg hfits]

/-- A field is read as it is declared, or not at all. -/
theorem parseField_words {f : FieldDecl} {s : Str} (h : Spells f.words s) :
    parseField s = if f.Kept then some f.declared else none := by
  have hwords : f.words = (qualifierWords f.qualifiers ++ [f.tyWord, f.nameWord]) ++
      [equals, f.code.digits ++ [';']] := by simp [words]
  rw [hwords] at h
  rw [parseField_spells h, f.fieldOf_dropWhile]
  by_cases hfits : f.code.value < 2 ^ 64
  · rw [if_pos hfits]
    by_cases hstrip : f.tyWord ∈ fieldQualifiers ∧
        ∀ w ∈ qualifierWords f.qualifiers, w ∈ fieldQualifiers
    · have hkept : ¬ f.Kept := fun hkept => hkept.2 hstrip
      rw [if_pos hstrip, if_neg hkept]
    · have hkept : f.Kept := ⟨hfits, hstrip⟩
      rw [if_neg hstrip, if_pos hkept]
      rfl
  · have hkept : ¬ f.Kept := fun hkept => hfits hkept.1
    rw [if_neg hfits, if_neg hkept]

end FieldDecl

/-! ### Keywords and clauses -/

theorem not_infix_dropLast {p : Str} (h : p ≠ []) : ¬ p <:+: [] ++ p.dropLast := by
  intro hinside
  have hlength := hinside.length_le
  have hpos : 0 < p.length := List.length_pos_iff.mpr h
  rw [List.nil_append, List.length_dropLast] at hlength
  omega

/-- A keyword that occurs once is followed by the rest of the line. -/
theorem afterKeyword_once {k s : Str} {xs ys : List Str} (hk : k ∈ keywords)
    (h : Spells (xs ++ k :: ys) s) (hxs : ∀ x ∈ xs, ¬ k <:+: x) (hys : ∀ y ∈ ys, ¬ k <:+: y) :
    Spells ys (afterKeyword k s) := by
  have hsolid := keyword_solid hk
  obtain ⟨l, r, hcut, -, -, -, hr, -⟩ :=
    h.cut_word (u := []) (v := []) hsolid (by simp) hxs (not_infix_dropLast hsolid.ne_nil)
  have hrest : ¬ k <:+: r := fun hinside => by
    obtain ⟨y, hy, hinside⟩ := (Spells.infix_iff hsolid hr).mp hinside
    exact hys y hy hinside
  rw [List.nil_append] at hcut
  rw [afterKeyword, hcut]
  dsimp only
  rw [cut_eq_none hrest]
  exact hr

/-- Where the keyword occurs twice before the `=`, what is read ends there. -/
theorem afterKeyword_twice {k s : Str} {xs ys zs : List Str} (hk : k ∈ keywords)
    (h : Spells (xs ++ (ys ++ zs)) s) (hx : ∃ x ∈ xs, k <:+: x) (hy : ∃ y ∈ ys, k <:+: y)
    (hequals : ∀ w ∈ xs ++ ys, '=' ∉ w) : '=' ∉ afterKeyword k s := by
  have hsolid := keyword_solid hk
  obtain ⟨a, s, rfl, ha, hs⟩ := h.append_split
  obtain ⟨b, rest, rfl, hb, -⟩ := hs.append_split
  have hfirst : k <:+: a := (Spells.infix_iff hsolid ha).mpr hx
  have hlast : k <:+: b := (Spells.infix_iff hsolid hb).mpr hy
  obtain ⟨l, t, rfl, hcut⟩ := cut_of_infix hsolid.ne_nil hfirst (b ++ rest)
  have hsecond : k <:+: t ++ b := List.infix_append_of_infix_right hlast
  obtain ⟨piece, after, hpiece, hcut'⟩ := cut_of_infix hsolid.ne_nil hsecond rest
  rw [List.append_assoc] at hcut'
  rw [afterKeyword, hcut]
  dsimp only
  rw [hcut']
  intro hmem
  have hplace : '=' ∈ t ++ b := hpiece ▸ List.mem_append_left _ hmem
  rcases List.mem_append.mp hplace with hmem | hmem
  · obtain ⟨w, hw, hmem⟩ := (Spells.mem_iff (by decide) ha).mp
      (List.mem_append_right _ (List.mem_append_right _ hmem))
    exact hequals w (List.mem_append_left _ hw) hmem
  · obtain ⟨w, hw, hmem⟩ := (Spells.mem_iff (by decide) hb).mp hmem
    exact hequals w (List.mem_append_right _ hw) hmem

def accessOpen : Str := "access(".toList

theorem accessOpen_eq : accessOpen = "access".toList ++ ['('] := by decide

theorem accessOpen_solid : Solid accessOpen :=
  ⟨by decide, fun c hc => by
    have hall : accessOpen.all (fun c => !isWhite c) = true := by decide
    simpa using List.all_eq_true.mp hall c hc⟩

theorem stripAccess_noClause {s : Str} (h : ¬ accessOpen <:+: s) : stripAccess s = s := by
  have hcut : cut "access(".toList s = none := cut_eq_none h
  rw [stripAccess, hcut]

/-- An access clause is taken out whole. -/
theorem stripAccess_clause {a : Access} {ws : List Str} {s : Str} (h : Spells (a.words ++ ws) s) :
    Spells ws (stripAccess s) := by
  have hwords : a.words ++ ws = [] ++ (accessOpen ++ (a.kind.text ++ [':'])) ::
      (a.innerWords ++ (a.last.text ++ [')']) :: ws) := by
    rw [Access.words, List.cons_append, List.append_assoc]
    rfl
  rw [hwords] at h
  obtain ⟨l, r, hcut, -, hl, -, hr, -⟩ :=
    h.cut_word (u := []) accessOpen_solid (List.nil_append _).symm (by simp)
      (not_infix_dropLast accessOpen_solid.ne_nil)
  obtain ⟨l', r', rfl, hl', -, hr', -⟩ := hr.split_at
  have hinner : ')' ∉ l' := by
    intro hmem
    obtain ⟨w, hw, hmem⟩ := (Spells.mem_iff (by decide) hl').mp hmem
    obtain ⟨p, -, hp⟩ := List.mem_flatMap.mp hw
    simp only [List.mem_cons, List.not_mem_nil, or_false] at hp
    rcases hp with rfl | rfl
    · simp only [List.mem_append, List.mem_singleton] at hmem
      exact p.1.not_mem (by decide) (hmem.resolve_right (by decide))
    · simp only [List.mem_append, List.mem_singleton] at hmem
      exact p.2.not_mem (by decide) (hmem.resolve_right (by decide))
  have hbefore : ')' ∉ a.kind.text ++ [':'] ++ l' ++ a.last.text := by
    simp only [List.mem_append, List.mem_singleton, not_or]
    exact ⟨⟨⟨a.kind.not_mem (by decide), by decide⟩, hinner⟩, a.last.not_mem (by decide)⟩
  have hsplit := splitOnce_append hbefore r'
  have hrest : a.kind.text ++ [':'] ++ (l' ++ (a.last.text ++ [')'] ++ r')) =
      a.kind.text ++ [':'] ++ l' ++ a.last.text ++ ')' :: r' := by simp
  have hcut' : cut "access(".toList s = some (l ++ [], _) := hcut
  rw [stripAccess, hcut']
  dsimp only
  rw [hrest, hsplit]
  cases hl with
  | blank hgap =>
    rw [List.append_nil]
    exact hr'.gap_append hgap

/-- What a line says after its keyword and its access clause. -/
theorem stripAccess_accessWords {access : Option Access} {ws : List Str} {s : Str}
    (h : Spells (accessWords access ++ ws) s) (hws : access = none → ∀ w ∈ ws, ¬ accessOpen <:+: w) :
    Spells ws (stripAccess s) := by
  cases access with
  | none =>
    have hclause : ¬ accessOpen <:+: s := fun hinside => by
      obtain ⟨w, hw, hinside⟩ := (Spells.infix_iff accessOpen_solid h).mp hinside
      exact hws rfl w hw hinside
    rw [stripAccess_noClause hclause]
    exact h
  | some a => exact stripAccess_clause h

/-- A word with a character that no name has is not a keyword. -/
theorem ne_keyword {k w : Str} {c : Char} (hk : k ∈ keywords) (hc : isIdentChar c = false)
    (hmem : c ∈ w) : k ≠ w := by
  rintro rfl
  exact keyword_not_mem hk hc hmem

/-! ### Commands -/

namespace CommandDecl

theorem inputText_not_mem (c : CommandDecl) {d : Char} (hd : isIdentChar d = false) :
    d ∉ c.inputText := by
  unfold inputText
  cases c.input with
  | none => exact List.not_mem_nil
  | some i => exact i.not_mem hd

theorem trim_inputText (c : CommandDecl) : trim c.inputText = c.inputText := by
  unfold inputText
  cases c.input with
  | none => rfl
  | some i => exact i.solid.trim_eq

theorem inputText_eq (c : CommandDecl) :
    (if c.inputText = [] then none else some c.inputText) = c.input.map fun i => i.text := by
  unfold inputText
  cases c.input with
  | none => rfl
  | some i => exact if_neg i.ne_nil

theorem parseCall_callText (c : CommandDecl) :
    parseCall c.callText = some (c.name.text, c.inputText) := by
  have hname : '(' ∉ c.name.text := c.name.not_mem (by decide)
  have hinput : rsplitOnce ')' (c.inputText ++ [')']) = some (c.inputText, []) :=
    rsplitOnce_append List.not_mem_nil _
  rw [parseCall, callText, splitOnce_append hname]
  dsimp only
  rw [hinput, Option.map_some, c.name.solid.trim_eq, c.trim_inputText]

/-- What is left of the line is read as it is declared. -/
theorem parseCommand_words {c : CommandDecl} {s : Str} {timed : Bool}
    (htimed : timed = (qualifierWords c.before).contains "timed".toList)
    (h : Spells [c.callText ++ [':'], c.output.text, equals, c.code.digits ++ [';']] s) :
    parseCommand timed s = if c.code.value < 2 ^ 64 then some c.declared else none := by
  have hwords : Spells ([c.callText ++ [':'], c.output.text, equals] ++ [c.code.digits ++ [';']]) s := by
    simpa using h
  have hclose := hwords.trimEnd_close c.code.solid (c.code.not_mem (by decide))
  have hequals : [c.callText ++ [':'], c.output.text, equals] ++ [c.code.digits] =
      [c.callText ++ [':'], c.output.text] ++ ['='] :: [c.code.digits] := by simp [equals]
  rw [hequals] at hclose
  obtain ⟨sig, code, hsplit, hsig, hcode⟩ :=
    hclose.rsplitOnce_word (by simpa using c.code.not_mem (by decide))
  obtain ⟨l, r, rfl, hl, -, hr, -⟩ := @Spells.split_at [] _ _ _ hsig
  have hcolon : ':' ∉ r := fun hmem => by
    obtain ⟨w, hw, hmem⟩ := (Spells.mem_iff (by decide) hr).mp hmem
    rw [List.mem_singleton.mp hw] at hmem
    exact c.output.not_mem (by decide) hmem
  have hcall : rsplitOnce ':' (l ++ (c.callText ++ [':'] ++ r)) = some (l ++ c.callText, r) := by
    have happ := rsplitOnce_append hcolon (l ++ c.callText)
    simpa using happ
  have hsolid : Solid c.callText :=
    ⟨by simp [callText], fun d hd =>
      (hsig.solid _ List.mem_cons_self).dark d (List.mem_append_left _ hd)⟩
  have htrim : trim (l ++ c.callText) = c.callText := by
    cases hl with
    | blank hgap =>
      have hfirst := Spells.first hsolid .nil .nil
      rw [List.append_nil] at hfirst
      exact (hfirst.gap_append hgap).trim_single
  rw [parseCommand, hsplit]
  dsimp only
  rw [hcode.trim_single, c.code.parseU64_digits]
  by_cases hfits : c.code.value < 2 ^ 64
  · rw [if_pos hfits, if_pos hfits]
    dsimp only
    rw [hcall]
    dsimp only
    rw [htrim, c.parseCall_callText, Option.map_some, hr.trim_single]
    dsimp only
    rw [c.inputText_eq, htimed]
    rfl
  · rw [if_neg hfits, if_neg hfits]

theorem parseCommand_noCall {s : Str} (timed : Bool) (h : '(' ∉ s) : parseCommand timed s = none := by
  unfold parseCommand
  cases hequals : rsplitOnce '=' (trimEnd (· = ';') (trim s)) with
  | none => rfl
  | some p =>
    obtain ⟨sig, code⟩ := p
    dsimp only
    cases parseU64 (trim code) with
    | none => rfl
    | some n =>
      dsimp only
      cases hcolon : rsplitOnce ':' sig with
      | none => rfl
      | some q =>
        obtain ⟨call, output⟩ := q
        have hcall : '(' ∉ trim call := fun hmem =>
          h (trim_subset _ (trimEnd_subset _ _
            (mem_of_rsplitOnce hequals (mem_of_rsplitOnce hcolon (trim_subset _ hmem)))))
        dsimp only
        rw [parseCall, splitOnce_eq_none hcall]
        rfl

/-- A name that ends in `access` is taken for an access clause, with the parentheses of the call
as its own. -/
theorem parseCommand_access {c : CommandDecl} {s : Str} (timed : Bool)
    (hname : "access".toList <:+ c.name.text)
    (h : Spells [c.callText ++ [':'], c.output.text, equals, c.code.digits ++ [';']] s) :
    parseCommand timed (stripAccess s) = none := by
  obtain ⟨u, hu⟩ := hname
  have hopen : '(' ∉ u ++ "access".toList := hu ▸ c.name.not_mem (by decide)
  have hword : c.callText ++ [':'] = u ++ (accessOpen ++ (c.inputText ++ [')', ':'])) := by
    rw [callText, ← hu, accessOpen_eq]
    simp only [List.append_assoc, List.cons_append, List.nil_append]
  have hfirst : ¬ accessOpen <:+: u ++ accessOpen.dropLast := fun hinside =>
    hopen (hinside.subset (by decide))
  obtain ⟨l, r, hcut, -, hl, -, hr, -⟩ :=
    @Spells.cut_word _ _ _ _ _ [] _ accessOpen_solid h hword (by simp) hfirst
  have hcut' : cut "access(".toList s = some (l ++ u, c.inputText ++ [')', ':'] ++ r) := hcut
  have hsplit := splitOnce_append (c.inputText_not_mem (d := ')') (by decide)) (':' :: r)
  have hrest : c.inputText ++ [')', ':'] ++ r = c.inputText ++ ')' :: ':' :: r := by simp
  rw [stripAccess, hcut']
  dsimp only
  rw [hrest, hsplit]
  refine parseCommand_noCall timed fun hmem => ?_
  rcases List.mem_append.mp hmem with hmem | hmem
  · rcases List.mem_append.mp hmem with hmem | hmem
    · obtain ⟨w, hw, -⟩ := (Spells.mem_iff (by decide) hl).mp hmem
      cases hw
    · exact hopen (List.mem_append_left _ hmem)
  · obtain ⟨w, hw, hmem⟩ := (Spells.mem_iff (by decide) hr).mp
      ((List.mem_cons.mp hmem).resolve_left (by decide))
    simp only [List.mem_cons, List.not_mem_nil, or_false] at hw
    rcases hw with rfl | rfl | rfl
    · exact c.output.not_mem (by decide) hmem
    · exact absurd hmem (by decide)
    · simp only [List.mem_append, List.mem_singleton] at hmem
      exact c.code.not_mem (by decide) (hmem.resolve_right (by decide))

end CommandDecl

end MatterRsServer.Gen.Idl
