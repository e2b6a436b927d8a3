import MatterRsServer.Gen.Members

/-!
# Blocks of a cluster

The first lines of structs, events, enums and clusters, the lines inside of a block, and the
brace that closes one.
-/
namespace MatterRsServer.Gen.Idl

open Lib Lib.Text Lib.Words Build

/-! ### Inside of a block -/

/-- What the reader makes of a field's line. -/
def FieldDecl.read (f : FieldDecl) : Option Build.Field := if f.Kept then some f.declared else none

theorem plain_fieldWords (f : FieldDecl) : Plain f.words :=
  Plain.append (qualifierWords_not_mem _ (by decide)) (f.tyWord_not_mem (by decide) (by decide))

theorem readLine_field {st : State} {kind : Block} {fields : List Build.Field} {f : FieldDecl}
    {raw : Str} (hblock : st.block = some (kind, fields)) (h : Spells f.words raw) :
    readLine st raw =
      if kind = .skip then st else { st with block := some (kind, fields ++ f.read.toList) } := by
  have hopen := not_mem_trim (c := '{') (by decide) h (f.words_not_mem (by decide) (by decide))
  have hclose := not_mem_trim (c := '\x7d') (by decide) h (f.words_not_mem (by decide) (by decide))
  rw [readLine_block hblock (plain_fieldWords f) h, readBlock_noBrace hopen hclose,
    FieldDecl.parseField_words h.trim]
  rfl

theorem readLine_enumerator {st : State} {e : Enumerator} {raw : Str}
    (hblock : st.block = some (.skip, [])) (h : Spells e.words raw) : readLine st raw = st := by
  have hopen := not_mem_trim (c := '{') (by decide) h fun w hw => (e.noBrace w hw).1
  have hclose := not_mem_trim (c := '\x7d') (by decide) h fun w hw => (e.noBrace w hw).2
  unfold readLine
  dsimp only
  split
  · rfl
  · simp only [hblock]
    rw [readBlock_noBrace hopen hclose, if_pos rfl]

theorem plain_closing : Plain [closing] := ⟨closing, [], rfl, by decide⟩

theorem trim_closing {raw : Str} (h : Spells [closing] raw) : trim raw = closing := h.trim_single

theorem readLine_closeBlock {st : State} {kind : Block} {fields : List Build.Field} {raw : Str}
    (hblock : st.block = some (kind, fields)) (hdepth : st.depth = 1) (h : Spells [closing] raw) :
    readLine st raw = { st with cur := st.cur.map (·.close fields kind), block := none, depth := 0 } := by
  rw [readLine_block hblock plain_closing h, trim_closing h, readBlock, hdepth]
  rfl

/-! ### The brace that closes a cluster -/

theorem header_closing (line : Str) : header [closing] line = none := header_noEquals (by decide)

theorem readLine_closeCluster {st : State} {c : Build.Cluster} {raw : Str} (hblock : st.block = none)
    (hcur : st.cur = some c) (h : Spells [closing] raw) :
    readLine st raw = { st with clusters := st.clusters ++ [c], cur := none } := by
  rw [readLine_member hblock hcur plain_closing h (header_closing _), trim_closing h]
  exact if_pos rfl

/-! ### First lines -/

/-- A line that ends in an opening brace. -/
theorem readLine_opening {st : State} {c : Build.Cluster} {xs : List Str} {raw : Str}
    (hblock : st.block = none) (hcur : st.cur = some c) (hplain : Plain (xs ++ [opening]))
    (h : Spells (xs ++ [opening]) raw) (hheader : header (xs ++ [opening]) (trim raw) = none) :
    readLine st raw = readMember st c (xs ++ [opening]) (trim raw) ∧
      trim raw ≠ "\x7d".toList ∧ opens (trim raw) = true := by
  have hopens : opens (trim raw) = true := by
    rw [opens_trim h]
    decide
  refine ⟨readLine_member hblock hcur hplain h hheader, ?_, hopens⟩
  intro heq
  rw [heq] at hopens
  exact absurd hopens (by decide)

theorem trimEnd_of_not_mem {p : Char → Bool} {s : Str} (h : ∀ c ∈ s, p c = false) :
    trimEnd p s = s := by
  have htrim : trimEnd p (s ++ []) = s :=
    Spells.trimEnd_append (fun c hc => h c (List.mem_of_getLast? hc)) fun c hc => by cases hc
  rwa [List.append_nil] at htrim

namespace EnumDecl

theorem keyword_mem (e : EnumDecl) : e.keyword = "enum".toList ∨ e.keyword = "bitmap".toList := by
  unfold keyword
  cases e.isBitmap with
  | false => exact Or.inl rfl
  | true => exact Or.inr rfl

theorem keyword_mem_keywords (e : EnumDecl) : e.keyword ∈ keywords := by
  rcases e.keyword_mem with h | h <;> rw [h] <;> decide

theorem plain_head (e : EnumDecl) : Plain e.head :=
  Plain.append (qualifierWords_not_mem _ (by decide))
    (keyword_not_mem e.keyword_mem_keywords (by decide))

theorem equals_not_mem (e : EnumDecl) : equals ∉ e.head := by
  intro hmem
  have hident : ∀ i : Ident, equals ≠ i.text := fun i heq =>
    i.not_mem (c := '=') (by decide) (heq ▸ List.mem_cons_self)
  simp only [head, List.mem_append, List.mem_cons, List.not_mem_nil, or_false] at hmem
  rcases hmem with hmem | hmem | hmem | hmem | hmem | hmem
  · exact qualifierWords_not_mem _ (c := '=') (by decide) _ hmem List.mem_cons_self
  · exact keyword_not_mem e.keyword_mem_keywords (c := '=') (by decide)
      (hmem ▸ List.mem_cons_self)
  · exact hident _ hmem
  · exact absurd hmem (by decide)
  · exact hident _ hmem
  · exact absurd hmem (by decide)

theorem readLine_head {e : EnumDecl} {st : State} {c : Build.Cluster} {raw : Str}
    (hblock : st.block = none) (hcur : st.cur = some c) (h : Spells e.head raw) :
    readLine st raw = st.enter .skip := by
  have hsplit : e.head = (qualifierWords e.before ++ [e.keyword, e.name.text, [':'], e.base.text]) ++
      [opening] := by simp [head]
  obtain ⟨hline, hne, hopens⟩ := readLine_opening hblock hcur (hsplit ▸ e.plain_head) (hsplit ▸ h)
    (hsplit ▸ header_noEquals e.equals_not_mem)
  rw [← hsplit] at hline
  have hmem : "enum".toList ∈ e.head ∨ "bitmap".toList ∈ e.head := by
    rcases e.keyword_mem with hk | hk
    · exact Or.inl (by simp [head, hk])
    · exact Or.inr (by simp [head, hk])
  rw [hline, readMember, if_neg hne, if_pos hmem, if_pos hopens]

end EnumDecl

namespace StructDecl

theorem head_eq (s : StructDecl) :
    s.head = keywordLine s.before "struct".toList none (s.name.text :: (s.codeWords ++ [opening])) :=
  rfl

theorem plain_head (s : StructDecl) : Plain s.head := by
  rw [head_eq]
  exact plain_keywordLine (by decide)

/-- Only the name can be a keyword. -/
theorem mem_rest {w : Str} (hw : w ∈ keywords) (s : StructDecl) :
    w ∈ s.name.text :: (s.codeWords ++ [opening]) ↔ s.name.text = w := by
  have hopening : w ≠ opening := ne_keyword (c := '{') hw (by decide) (by decide)
  have hequals : w ≠ equals := ne_keyword (c := '=') hw (by decide) (by decide)
  have hcode : w ∉ s.codeWords := by
    unfold codeWords
    cases s.code with
    | none => exact List.not_mem_nil
    | some n =>
      intro hmem
      simp only [List.mem_cons, hequals, List.not_mem_nil, or_false, false_or] at hmem
      exact not_infix_digits hw n (hmem ▸ List.infix_refl w)
  simp only [List.mem_cons, List.mem_append, hcode, hopening, List.not_mem_nil, or_false]
  exact eq_comm

theorem header_head (s : StructDecl) (line : Str) : header s.head line = none := by
  have hbefore : equals ∉ qualifierWords s.before := fun hmem =>
    qualifierWords_not_mem _ (c := '=') (by decide) _ hmem List.mem_cons_self
  have hname : equals ≠ s.name.text := fun heq =>
    s.name.not_mem (c := '=') (by decide) (heq ▸ List.mem_cons_self)
  have hcluster : "cluster".toList ∉ qualifierWords s.before ++ ["struct".toList] := by
    have hinert := (Inert.qualifierWords s.before).not_mem (k := "cluster".toList) (by decide)
    simp only [List.mem_append, hinert, List.mem_singleton, false_or]
    decide
  have hstruct : equals ∉ qualifierWords s.before ++ ["struct".toList] := by
    simp only [List.mem_append, hbefore, List.mem_singleton, false_or]
    decide
  cases hcode : s.code with
  | none =>
    have hwords : s.head = (qualifierWords s.before ++ ["struct".toList]) ++ [s.name.text, opening] := by
      simp [head, codeWords, hcode]
    rw [hwords]
    refine header_noEquals fun hmem => ?_
    simp only [List.mem_append, List.mem_cons, List.not_mem_nil, or_false] at hmem hstruct
    rcases hmem with hmem | hmem | hmem
    · exact hstruct hmem
    · exact hname hmem
    · exact absurd hmem (by decide)
  | some n =>
    have hwords : s.head = (qualifierWords s.before ++ ["struct".toList]) ++
        s.name.text :: equals :: [n.digits, opening] := by
      simp [head, codeWords, hcode]
    rw [hwords]
    refine header_eq_none hcluster hstruct hname fun hmem => ?_
    simp only [List.mem_cons, List.not_mem_nil, or_false] at hmem
    rcases hmem with hmem | hmem
    · exact n.not_mem (c := '=') (by decide) (hmem ▸ List.mem_cons_self)
    · exact absurd hmem (by decide)

instance (s : StructDecl) : Decidable s.Named := inferInstanceAs (Decidable (_ ∧ _))

theorem readLine_head {s : StructDecl} {st : State} {c : Build.Cluster} {raw : Str}
    (hblock : st.block = none) (hcur : st.cur = some c) (h : Spells s.head raw) :
    readLine st raw = st.enter (if s.Named then .struct s.name.text else .skip) := by
  have hsplit : s.head = (qualifierWords s.before ++ "struct".toList :: s.name.text :: s.codeWords) ++
      [opening] := by simp [head]
  obtain ⟨hline, hne, hopens⟩ := readLine_opening hblock hcur (hsplit ▸ s.plain_head) (hsplit ▸ h)
    (hsplit ▸ s.header_head _)
  rw [← hsplit] at hline
  have hskip : ("enum".toList ∈ s.head ∨ "bitmap".toList ∈ s.head) ↔ ¬ s.Named := by
    rw [head_eq, mem_keywordLine (by decide), mem_keywordLine (by decide), s.mem_rest (by decide),
      s.mem_rest (by decide), Named, not_and_or, not_not, not_not]
    exact or_congr (or_iff_right (by decide)) (or_iff_right (by decide))
  rw [hline, readMember, if_neg hne, hopens]
  by_cases hnamed : s.Named
  · have hpos : s.head.idxOf? "struct".toList = some (qualifierWords s.before).length :=
      idxOf?_append_cons _ ((Inert.qualifierWords _).not_mem (by decide))
    have hnext : s.head[(qualifierWords s.before).length + 1]? = some s.name.text := by
      rw [head, List.getElem?_append_right (by omega), Nat.add_sub_cancel_left]
      rfl
    have hname : trimEnd (· = '{') s.name.text = s.name.text :=
      trimEnd_of_not_mem fun d hd => decide_eq_false fun heq =>
        s.name.not_mem (c := '{') (by decide) (heq ▸ hd)
    rw [if_neg (mt hskip.mp (not_not.mpr hnamed)), if_pos hnamed, hpos]
    dsimp only
    rw [hnext, Option.getD_some, hname]
    rfl
  · rw [if_pos (hskip.mpr hnamed), if_neg hnamed]
    rfl

end StructDecl

namespace EventDecl

/-- What follows the access clause. -/
def rest (e : EventDecl) : List Str := [e.name.text, equals, e.code.digits, opening]

theorem head_eq (e : EventDecl) : e.head = keywordLine e.before "event".toList e.access e.rest := rfl

theorem plain_head (e : EventDecl) : Plain e.head := by
  rw [head_eq]
  exact plain_keywordLine (by decide)

/-- Only the name can be a keyword. -/
theorem mem_rest {w : Str} (hw : w ∈ keywords) (e : EventDecl) : w ∈ e.rest ↔ e.name.text = w := by
  have hopening : w ≠ opening := ne_keyword (c := '{') hw (by decide) (by decide)
  have hequals : w ≠ equals := ne_keyword (c := '=') hw (by decide) (by decide)
  have hcode : w ≠ e.code.digits := fun heq =>
    not_infix_digits hw e.code (heq ▸ List.infix_refl w)
  simp only [rest, List.mem_cons, hequals, hcode, hopening, List.not_mem_nil, or_false]
  exact eq_comm

theorem mem_head {w : Str} (hw : w ∈ keywords) (hne : w ≠ "event".toList) (e : EventDecl) :
    w ∈ e.head ↔ e.name.text = w := by
  rw [head_eq, mem_keywordLine hw, e.mem_rest hw]
  exact or_iff_right hne

theorem header_head (e : EventDecl) (line : Str) : header e.head line = none := by
  have hwords : e.head = (qualifierWords e.before ++ "event".toList :: accessWords e.access) ++
      e.name.text :: equals :: [e.code.digits, opening] := by simp [head]
  have hcluster : "cluster".toList ∉ qualifierWords e.before ++ "event".toList ::
      accessWords e.access := by
    have hbefore := (Inert.qualifierWords e.before).not_mem (k := "cluster".toList) (by decide)
    have haccess := (Inert.accessWords e.access).not_mem (k := "cluster".toList) (by decide)
    simp only [List.mem_append, hbefore, List.mem_cons, haccess, or_false, false_or]
    decide
  have hequals : equals ∉ qualifierWords e.before ++ "event".toList :: accessWords e.access := by
    intro hmem
    simp only [List.mem_append, List.mem_cons] at hmem
    rcases hmem with hmem | hmem | hmem
    · exact qualifierWords_not_mem _ (c := '=') (by decide) _ hmem List.mem_cons_self
    · exact absurd hmem (by decide)
    · exact accessWords_not_mem _ (c := '=') (by decide) (by decide) _ hmem List.mem_cons_self
  rw [hwords]
  refine header_eq_none hcluster hequals
    (fun heq => e.name.not_mem (c := '=') (by decide) (heq ▸ List.mem_cons_self)) fun hmem => ?_
  simp only [List.mem_cons, List.not_mem_nil, or_false] at hmem
  rcases hmem with hmem | hmem
  · exact e.code.not_mem (c := '=') (by decide) (hmem ▸ List.mem_cons_self)
  · exact absurd hmem (by decide)

/-- The words of a head without its brace. -/
theorem eventHead_rest {e : EventDecl} {s : Str} (h : Spells e.rest s) :
    ∃ l r, rsplitOnce '=' (trim (trimEnd (· = '{') (trim s))) = some (l, r) ∧
      Spells [e.name.text] l ∧ Spells [e.code.digits] r := by
  have hwords : e.rest = [e.name.text, equals, e.code.digits] ++ [opening] := rfl
  rw [hwords] at h
  obtain ⟨l, htrim, hl, -⟩ := h.trim_concat
  have hbrace : '{' ∉ l := by
    intro hmem
    obtain ⟨w, hw, hmem⟩ := (Spells.mem_iff (by decide) hl).mp hmem
    simp only [List.mem_cons, List.not_mem_nil, or_false] at hw
    rcases hw with rfl | rfl | rfl
    · exact e.name.not_mem (by decide) hmem
    · exact absurd hmem (by decide)
    · exact e.code.not_mem (by decide) hmem
  have hopen : trimEnd (· = '{') (l ++ opening) = l :=
    Spells.trimEnd_append (fun c hc => decide_eq_false fun heq =>
      hbrace (heq ▸ List.mem_of_getLast? hc)) fun c hc => decide_eq_true (List.mem_singleton.mp hc)
  rw [htrim, hopen]
  have hsplit : [e.name.text, equals, e.code.digits] = [e.name.text] ++ ['='] :: [e.code.digits] := rfl
  rw [hsplit] at hl
  exact hl.trim.rsplitOnce_word (by simpa using e.code.not_mem (by decide))

theorem eventHead_head {e : EventDecl} {s : Str} (h : Spells e.head s) : eventHead s =
    if ¬ "event".toList <:+: e.name.text ∧ e.code.value < 2 ^ 64 then
      some (e.code.value, e.name.text)
    else none := by
  have hk : "event".toList ∈ keywords := by decide
  rw [head_eq] at h
  unfold eventHead
  dsimp only
  by_cases hagain : "event".toList <:+: e.name.text
  · have hsplit : e.rest = [e.name.text] ++ [equals, e.code.digits, opening] := rfl
    rw [hsplit] at h
    have hequals := afterKeyword_again hk h ⟨_, List.mem_cons_self, hagain⟩ fun y hy => by
      rw [List.mem_singleton.mp hy]
      exact e.name.not_mem (by decide)
    have hnone : ∀ p : Char → Bool, rsplitOnce '=' (trim (trimEnd p
        (trim (stripAccess (afterKeyword "event".toList s))))) = none := fun p =>
      rsplitOnce_eq_none fun hmem => hequals (stripAccess_subset _
        (trim_subset _ (trimEnd_subset _ _ (trim_subset _ hmem))))
    rw [hnone, if_neg fun h => h.1 hagain]
  · have hline := afterKeyword_line hk h fun w hw => by
      simp only [rest, List.mem_cons, List.not_mem_nil, or_false] at hw
      rcases hw with rfl | rfl | rfl | rfl
      · exact hagain
      · exact not_infix_equals hk
      · exact not_infix_digits hk e.code
      · decide
    have hrest := stripAccess_accessWords hline fun _ w hw hinside => by
      have hopen : '(' ∈ w := hinside.subset (by decide)
      simp only [rest, List.mem_cons, List.not_mem_nil, or_false] at hw
      rcases hw with rfl | rfl | rfl | rfl
      · exact e.name.not_mem (by decide) hopen
      · exact absurd hopen (by decide)
      · exact e.code.not_mem (by decide) hopen
      · exact absurd hopen (by decide)
    obtain ⟨l, r, hsplit, hl, hr⟩ := eventHead_rest hrest
    rw [hsplit]
    dsimp only
    rw [hl.trim_single, hr.trim_single, e.code.parseU64_digits]
    by_cases hfits : e.code.value < 2 ^ 64
    · rw [if_pos hfits, if_pos ⟨hagain, hfits⟩]
      rfl
    · rw [if_neg hfits, if_neg fun h => hfits h.2]
      rfl

/-- The block that a first line begins, if it begins one. -/
def kind (e : EventDecl) : Option Block :=
  if e.name.text = "enum".toList ∨ e.name.text = "bitmap".toList then some .skip
  else if e.name.text = "struct".toList then some (.struct equals)
  else if ¬ "event".toList <:+: e.name.text ∧ e.code.value < 2 ^ 64 then
    some (.event e.code.value e.name.text)
  else none

theorem readLine_head {e : EventDecl} {st : State} {c : Build.Cluster} {raw : Str}
    (hblock : st.block = none) (hcur : st.cur = some c) (h : Spells e.head raw) :
    readLine st raw = match e.kind with
      | some kind => st.enter kind
      | none => st := by
  have hsplit : e.head = (qualifierWords e.before ++ "event".toList ::
      (accessWords e.access ++ [e.name.text, equals, e.code.digits])) ++ [opening] := by
    simp [head]
  obtain ⟨hline, hne, hopens⟩ := readLine_opening hblock hcur (hsplit ▸ e.plain_head) (hsplit ▸ h)
    (hsplit ▸ e.header_head _)
  rw [← hsplit] at hline
  have hskip : ("enum".toList ∈ e.head ∨ "bitmap".toList ∈ e.head) ↔
      e.name.text = "enum".toList ∨ e.name.text = "bitmap".toList := by
    rw [e.mem_head (by decide) (by decide), e.mem_head (by decide) (by decide)]
  have hstruct : "struct".toList ∈ e.head ↔ e.name.text = "struct".toList :=
    e.mem_head (by decide) (by decide)
  rw [hline, readMember, if_neg hne, hopens, kind]
  by_cases hs : e.name.text = "enum".toList ∨ e.name.text = "bitmap".toList
  · rw [if_pos (hskip.mpr hs), if_pos hs]
    rfl
  rw [if_neg (mt hskip.mp hs), if_neg hs]
  by_cases hn : e.name.text = "struct".toList
  · have hbefore : "struct".toList ∉ qualifierWords e.before ++ "event".toList ::
        accessWords e.access := by
      have hquals := (Inert.qualifierWords e.before).not_mem (k := "struct".toList) (by decide)
      have haccess := (Inert.accessWords e.access).not_mem (k := "struct".toList) (by decide)
      simp only [List.mem_append, hquals, List.mem_cons, haccess, or_false, false_or]
      decide
    have hwords : e.head = (qualifierWords e.before ++ "event".toList :: accessWords e.access) ++
        "struct".toList :: [equals, e.code.digits, opening] := by
      rw [← hn]
      simp [head]
    have hpos := idxOf?_append_cons [equals, e.code.digits, opening] hbefore
    rw [← hwords] at hpos
    have hnext : e.head[(qualifierWords e.before ++ "event".toList ::
        accessWords e.access).length + 1]? = some equals := by
      rw [hwords, List.getElem?_append_right (by omega), Nat.add_sub_cancel_left]
      rfl
    rw [if_pos hn, hpos]
    dsimp only
    rw [hnext]
    rfl
  · have hnone : e.head.idxOf? "struct".toList = none :=
      List.idxOf?_eq_none_iff.mpr (mt hstruct.mp hn)
    have hmem : "event".toList ∈ e.head := (mem_keywordLine (by decide)).mpr (Or.inl rfl)
    rw [if_neg hn, hnone]
    dsimp only
    rw [if_pos hmem, if_pos rfl, eventHead_head h.trim]
    by_cases hheaded : ¬ "event".toList <:+: e.name.text ∧ e.code.value < 2 ^ 64
    · rw [if_pos hheaded, if_pos hheaded]
    · rw [if_neg hheaded, if_neg hheaded]

end EventDecl

/-! ### Clusters -/

namespace ClusterDecl

/-- The table as it begins: a code that does not fit is the marker. -/
def begun (b : ClusterDecl) : Build.Cluster where
  name := b.name.text
  code := if b.code.value < 2 ^ 64 then b.code.value else u64Max

theorem plain_head (b : ClusterDecl) : Plain b.head :=
  Plain.append (qualifierWords_not_mem _ (by decide)) (by decide)

theorem readLine_head {b : ClusterDecl} {st : State} {raw : Str} (hblock : st.block = none)
    (h : Spells b.head raw) :
    readLine st raw = { st with clusters := st.clusters ++ st.cur.toList, cur := some b.begun } := by
  have hcluster : "cluster".toList ∉ qualifierWords b.before :=
    (Inert.qualifierWords _).not_mem (by decide)
  have hopens : opens (trim raw) = true := by
    have hsplit : b.head = (qualifierWords b.before ++
        ["cluster".toList, b.name.text, equals, b.code.digits]) ++ [opening] := by simp [head]
    rw [opens_trim (hsplit ▸ h)]
    decide
  have hdigits : trimEnd (fun c => c = '{' ∨ c = ' ') b.code.digits = b.code.digits :=
    trimEnd_of_not_mem fun d hd => decide_eq_false fun hor => by
      rcases hor with rfl | rfl
      · exact b.code.not_mem (by decide) hd
      · exact b.code.not_mem (by decide) hd
  refine readLine_header hblock b.plain_head h ?_
  rw [head, header_cluster hcluster hopens, hdigits, b.code.parseU64_digits, begun]
  by_cases hfits : b.code.value < 2 ^ 64
  · rw [if_pos hfits, if_pos hfits]
    rfl
  · rw [if_neg hfits, if_neg hfits]
    rfl

end ClusterDecl

end MatterRsServer.Gen.Idl
