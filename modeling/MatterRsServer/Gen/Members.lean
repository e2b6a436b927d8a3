import MatterRsServer.Gen.IdlLines

/-!
# Members of a cluster

What the lines of one item do to the cluster that is being read: an attribute or a command is
added or passed over, a block is entered, filled and closed, and an event whose first line is
not understood leaves its closing brace to the cluster.
-/
namespace MatterRsServer.Gen.Idl

open Lib Lib.Text Lib.Words Build

/-! ### Words of a keyword line -/

/-- A line with qualifiers, a keyword, an access clause and more. -/
def keywordLine (before : List Qualifier) (k : Str) (access : Option Access) (rest : List Str) :
    List Str :=
  qualifierWords before ++ k :: (accessWords access ++ rest)

theorem mem_keywordLine {before : List Qualifier} {k : Str} {access : Option Access}
    {rest : List Str} {w : Str} (hw : w ∈ keywords) :
    w ∈ keywordLine before k access rest ↔ w = k ∨ w ∈ rest := by
  have hbefore := (Inert.qualifierWords before).not_mem hw
  have haccess := (Inert.accessWords access).not_mem hw
  simp only [keywordLine, List.mem_append, List.mem_cons, hbefore, haccess, false_or]

theorem blockWords_subset : blockWords ⊆ keywords := by
  have hkeywords : keywords = "cluster".toList :: (blockWords ++
      ["attribute".toList, "command".toList]) := rfl
  rw [hkeywords]
  exact fun w hw => List.mem_cons_of_mem _ (List.mem_append_left _ hw)

theorem exists_blockWord {before : List Qualifier} {k : Str} {access : Option Access}
    {rest : List Str} (hk : k ∉ blockWords) :
    (∃ w ∈ blockWords, w ∈ keywordLine before k access rest) ↔ ∃ w ∈ blockWords, w ∈ rest := by
  constructor
  · rintro ⟨w, hw, hmem⟩
    rcases (mem_keywordLine (blockWords_subset hw)).mp hmem with rfl | hmem
    · exact absurd hw hk
    · exact ⟨w, hw, hmem⟩
  · rintro ⟨w, hw, hmem⟩
    exact ⟨w, hw, (mem_keywordLine (blockWords_subset hw)).mpr (Or.inr hmem)⟩

theorem accessWords_not_mem (access : Option Access) {c : Char} (hc : isIdentChar c = false)
    (hother : c ∉ "(:,)".toList) : ∀ w ∈ accessWords access, c ∉ w := by
  have hclause : ∀ (i : Ident) (d : Char), d ∈ "(:,)".toList → c ∉ i.text ++ [d] := by
    intro i d hd hmem
    rcases List.mem_append.mp hmem with hmem | hmem
    · exact i.not_mem hc hmem
    · exact hother (List.mem_singleton.mp hmem ▸ hd)
  cases access with
  | none => exact fun w hw => by cases hw
  | some a =>
    intro w hw
    simp only [accessWords, Access.words, Access.innerWords, List.mem_cons, List.mem_append,
      List.mem_flatMap, List.not_mem_nil, or_false] at hw
    rcases hw with rfl | ⟨p, -, rfl | rfl⟩ | rfl
    · intro hmem
      rcases List.mem_append.mp hmem with hmem | hmem
      · have hword : "access".toList.all isIdentChar = true := by decide
        rcases List.mem_append.mp (show c ∈ "access".toList ++ ['('] from hmem) with hmem | hmem
        · rw [List.all_eq_true.mp hword c hmem] at hc
          cases hc
        · exact hother (List.mem_singleton.mp hmem ▸ by decide)
      · exact hclause a.kind.toIdent ':' (by decide) hmem
    · exact hclause p.1.toIdent ',' (by decide)
    · exact hclause p.2.toIdent ':' (by decide)
    · exact hclause a.last.toIdent ')' (by decide)

theorem keywordLine_not_mem {before : List Qualifier} {k : Str} {access : Option Access}
    {rest : List Str} {c : Char} (hk : k ∈ keywords) (hc : isIdentChar c = false)
    (hother : c ∉ "(:,)".toList) (hrest : ∀ w ∈ rest, c ∉ w) :
    ∀ w ∈ keywordLine before k access rest, c ∉ w := by
  intro w hw
  simp only [keywordLine, List.mem_append, List.mem_cons] at hw
  rcases hw with hw | rfl | hw | hw
  · exact qualifierWords_not_mem before hc w hw
  · exact keyword_not_mem hk hc
  · exact accessWords_not_mem access hc hother w hw
  · exact hrest w hw

theorem plain_keywordLine {before : List Qualifier} {k : Str} {access : Option Access}
    {rest : List Str} (hk : k ∈ keywords) : Plain (keywordLine before k access rest) :=
  Plain.append (qualifierWords_not_mem before (by decide)) (keyword_not_mem hk (by decide))

/-- The rest of a line after its only keyword and its access clause. -/
theorem afterKeyword_line {before : List Qualifier} {k s : Str} {access : Option Access}
    {rest : List Str} (hk : k ∈ keywords) (h : Spells (keywordLine before k access rest) s)
    (hrest : ∀ w ∈ rest, ¬ k <:+: w) : Spells (accessWords access ++ rest) (afterKeyword k s) := by
  refine afterKeyword_once hk h (fun w hw => Inert.qualifierWords before w hw k hk) fun w hw => ?_
  rcases List.mem_append.mp hw with hw | hw
  · exact Inert.accessWords access w hw k hk
  · exact hrest w hw

/-- Where the keyword comes again, what is read has no `=`. -/
theorem afterKeyword_again {before : List Qualifier} {k s : Str} {access : Option Access}
    {ys zs : List Str} (hk : k ∈ keywords)
    (h : Spells (keywordLine before k access (ys ++ zs)) s) (hy : ∃ y ∈ ys, k <:+: y)
    (hequals : ∀ y ∈ ys, '=' ∉ y) : '=' ∉ afterKeyword k s := by
  have hwords : keywordLine before k access (ys ++ zs) =
      (qualifierWords before ++ [k]) ++ ((accessWords access ++ ys) ++ zs) := by
    simp [keywordLine]
  rw [hwords] at h
  obtain ⟨y, hmem, hy⟩ := hy
  refine afterKeyword_twice hk h ⟨k, by simp, List.infix_refl k⟩
    ⟨y, List.mem_append_right _ hmem, hy⟩ fun w hw => ?_
  simp only [List.mem_append, List.mem_singleton] at hw
  rcases hw with (hw | rfl) | hw | hw
  · exact qualifierWords_not_mem before (by decide) w hw
  · exact keyword_not_mem hk (by decide)
  · exact accessWords_not_mem access (by decide) (by decide) w hw
  · exact hequals w hw

/-! ### Attributes -/

theorem opens_statement {xs : List Str} {n : Numeral} {raw : Str}
    (h : Spells (xs ++ [n.digits ++ [';']]) raw) : opens (trim raw) = false := by
  rw [opens_trim h, List.getLast?_concat]
  decide

/-- A line that ends with a code neither opens nor closes a block. -/
theorem readLine_statement {st : State} {c : Build.Cluster} {xs : List Str} {n : Numeral} {raw : Str}
    (hblock : st.block = none) (hcur : st.cur = some c) (hplain : Plain (xs ++ [n.digits ++ [';']]))
    (h : Spells (xs ++ [n.digits ++ [';']]) raw) (hclose : ∀ w ∈ xs, '\x7d' ∉ w) :
    readLine st raw = readMember st c (xs ++ [n.digits ++ [';']]) (trim raw) ∧
      trim raw ≠ "\x7d".toList ∧ opens (trim raw) = false := by
  have hopens := opens_statement h
  have hbrace : '\x7d' ∉ trim raw := by
    refine not_mem_trim (by decide) h fun w hw => ?_
    rcases List.mem_append.mp hw with hw | hw
    · exact hclose w hw
    · rw [List.mem_singleton.mp hw]
      intro hmem
      rcases List.mem_append.mp hmem with hmem | hmem
      · exact n.not_mem (by decide) hmem
      · exact absurd (List.mem_singleton.mp hmem) (by decide)
  refine ⟨readLine_member hblock hcur hplain h (header_closed hopens), ?_, hopens⟩
  intro heq
  rw [heq] at hbrace
  exact hbrace (by decide)

/-- No keyword is made of digits. -/
theorem not_infix_digits {k : Str} (hk : k ∈ keywords) (n : Numeral) : ¬ k <:+: n.digits := by
  intro h
  have hall : keywords.all (fun k => !k.all Char.isDigit) = true := by decide
  have hdigit := List.all_eq_true.mp hall k hk
  rw [List.all_eq_true.mpr fun c hc => n.plain c (h.subset hc)] at hdigit
  cases hdigit

theorem not_infix_code {k : Str} (hk : k ∈ keywords) (n : Numeral) {c : Char}
    (hc : isIdentChar c = false) : ¬ k <:+: n.digits ++ [c] := by
  intro h
  rcases infix_append_cons (keyword_plain hk).1 (keyword_not_mem hk hc) h with h | h
  · exact not_infix_digits hk n h
  · exact (keyword_plain hk).1 (List.infix_nil.mp h)

theorem not_infix_equals {k : Str} (hk : k ∈ keywords) : ¬ k <:+: equals := by
  intro h
  have hmem := List.head_mem (keyword_plain hk).1
  have hchar := (keyword_plain hk).2 _ hmem
  rw [List.mem_singleton.mp (h.subset hmem)] at hchar
  exact absurd hchar (by decide)

namespace FieldDecl

theorem infix_tyWord {k : Str} (hk : k ∈ keywords) (f : FieldDecl) :
    k <:+: f.tyWord ↔ k <:+: f.ty.text := by
  refine ⟨fun h => ?_, fun h => List.infix_append_of_infix_left h⟩
  unfold tyWord at h
  cases hlen : f.len with
  | none =>
    rw [hlen] at h
    simpa using h
  | some n =>
    rw [hlen] at h
    rcases infix_append_cons (keyword_plain hk).1 (keyword_not_mem hk (by decide)) h with h | h
    · exact h
    · exact absurd h (not_infix_code hk n (by decide))

theorem infix_nameWord {k : Str} (hk : k ∈ keywords) (f : FieldDecl) :
    k <:+: f.nameWord ↔ k <:+: f.name.text := by
  refine ⟨fun h => ?_, fun h => List.infix_append_of_infix_left h⟩
  unfold nameWord at h
  cases hlist : f.isList with
  | false =>
    rw [hlist] at h
    simpa using h
  | true =>
    rw [hlist] at h
    rcases infix_append_cons (keyword_plain hk).1 (keyword_not_mem hk (by decide)) h with h | h
    · exact h
    · have hmem := List.head_mem (keyword_plain hk).1
      have hbracket := h.subset hmem
      rw [List.mem_singleton] at hbracket
      exact absurd (hbracket ▸ hmem) (keyword_not_mem hk (by decide))

/-- A keyword that is no qualifier occurs in the type, in the name or not at all. -/
theorem not_infix_words {k : Str} (hk : k ∈ keywords) {f : FieldDecl}
    (hty : ¬ k <:+: f.ty.text) (hname : ¬ k <:+: f.name.text) : ∀ w ∈ f.words, ¬ k <:+: w := by
  intro w hw
  rcases List.mem_append.mp hw with hw | hw
  · exact Inert.qualifierWords _ w hw k hk
  · simp only [List.mem_cons, List.not_mem_nil, or_false] at hw
    rcases hw with rfl | rfl | rfl | rfl
    · exact mt (f.infix_tyWord hk).mp hty
    · exact mt (f.infix_nameWord hk).mp hname
    · exact not_infix_equals hk
    · exact not_infix_code hk f.code (by decide)

theorem exists_blockWord_words (f : FieldDecl) : (∃ w ∈ blockWords, w ∈ f.words) ↔
    f.tyWord ∈ blockWords ∨ f.nameWord ∈ blockWords := by
  constructor
  · rintro ⟨w, hw, hmem⟩
    have hkeyword := blockWords_subset hw
    rcases List.mem_append.mp hmem with hmem | hmem
    · exact absurd hmem ((Inert.qualifierWords _).not_mem hkeyword)
    · simp only [List.mem_cons, List.not_mem_nil, or_false] at hmem
      rcases hmem with rfl | rfl | rfl | rfl
      · exact Or.inl hw
      · exact Or.inr hw
      · exact absurd (List.infix_refl _) (not_infix_equals hkeyword)
      · exact absurd (List.infix_refl _) (not_infix_code hkeyword f.code (by decide))
  · rintro (h | h)
    · exact ⟨_, h, by simp [words]⟩
    · exact ⟨_, h, by simp [words]⟩

end FieldDecl

namespace AttributeDecl

instance (a : AttributeDecl) : Decidable a.Kept :=
  inferInstanceAs (Decidable (_ ∧ _ ∧ _ ∧ _ ∧ _))

/-- What the reader makes of the line. -/
def read (a : AttributeDecl) : Option Build.Field := if a.Kept then some a.field.declared else none

theorem words_eq (a : AttributeDecl) :
    a.words = keywordLine a.before "attribute".toList a.access a.field.words := rfl

/-- What is left after the keyword and the clause, when no block seems to begin. -/
theorem parseField_line {a : AttributeDecl} {s : Str} (h : Spells a.words s)
    (hty : a.field.tyWord ∉ blockWords) (hname : a.field.nameWord ∉ blockWords) :
    parseField (stripAccess (afterKeyword "attribute".toList s)) = a.read := by
  have hk : "attribute".toList ∈ keywords := by decide
  by_cases hagain : "attribute".toList <:+: a.field.ty.text ∨ "attribute".toList <:+: a.field.name.text
  · have hread : a.read = none := if_neg fun hkept =>
      hagain.elim hkept.2.2.1 hkept.2.2.2.1
    have hsplit : a.field.words = (qualifierWords a.field.qualifiers ++
        [a.field.tyWord, a.field.nameWord]) ++ [equals, a.field.code.digits ++ [';']] := by
      simp [FieldDecl.words]
    rw [words_eq, hsplit] at h
    have hequals := afterKeyword_again hk h
      (by
        rcases hagain with hagain | hagain
        · exact ⟨a.field.tyWord, by simp, (a.field.infix_tyWord hk).mpr hagain⟩
        · exact ⟨a.field.nameWord, by simp, (a.field.infix_nameWord hk).mpr hagain⟩)
      fun y hy => by
        simp only [List.mem_append, List.mem_cons, List.not_mem_nil, or_false] at hy
        rcases hy with hy | rfl | rfl
        · exact qualifierWords_not_mem _ (by decide) y hy
        · exact a.field.tyWord_not_mem (by decide) (by decide)
        · exact a.field.nameWord_not_mem (by decide) (by decide)
    rw [hread]
    exact parseField_eq_none fun hmem => hequals (stripAccess_subset _ hmem)
  · obtain ⟨hty', hname'⟩ := not_or.mp hagain
    have hrest := afterKeyword_line hk h (FieldDecl.not_infix_words hk hty' hname')
    have hfield := stripAccess_accessWords hrest fun _ w hw hinside =>
      a.field.words_not_mem (c := '(') (by decide) (by decide) w hw (hinside.subset (by decide))
    rw [FieldDecl.parseField_words hfield, read]
    by_cases hkept : a.field.Kept
    · rw [if_pos hkept, if_pos ⟨hty, hname, hty', hname', hkept⟩]
    · rw [if_neg hkept, if_neg fun h => hkept h.2.2.2.2]

theorem readLine_words {a : AttributeDecl} {st : State} {c : Build.Cluster} {raw : Str}
    (hblock : st.block = none) (hcur : st.cur = some c) (h : Spells a.words raw) :
    readLine st raw = { st with cur := some { c with attrs := c.attrs ++ a.read.toList } } := by
  have hk : "attribute".toList ∈ keywords := by decide
  have hsplit : a.words = (qualifierWords a.before ++ "attribute".toList ::
      (accessWords a.access ++ (qualifierWords a.field.qualifiers ++
        [a.field.tyWord, a.field.nameWord, equals]))) ++ [a.field.code.digits ++ [';']] := by
    simp [words, FieldDecl.words]
  have hbrace : ∀ w ∈ a.words, '\x7d' ∉ w := keywordLine_not_mem hk (by decide) (by decide)
    (a.field.words_not_mem (by decide) (by decide))
  obtain ⟨hline, hne, hopens⟩ := readLine_statement hblock hcur
    (hsplit ▸ plain_keywordLine hk) (hsplit ▸ h) fun w hw => hbrace w (by
      rw [hsplit]
      exact List.mem_append_left _ hw)
  rw [← hsplit] at hline
  rw [hline, readMember_closed hne hopens]
  have hblocks : (∃ w ∈ blockWords, w ∈ a.words) ↔
      a.field.tyWord ∈ blockWords ∨ a.field.nameWord ∈ blockWords := by
    rw [words_eq, exists_blockWord (by decide), a.field.exists_blockWord_words]
  by_cases hhead : a.field.tyWord ∈ blockWords ∨ a.field.nameWord ∈ blockWords
  · have hread : a.read = none := if_neg fun hkept => hhead.elim hkept.1 hkept.2.1
    rw [if_pos (hblocks.mpr hhead), hread, Option.toList_none, List.append_nil, ← hcur]
  · have hmem : "attribute".toList ∈ a.words := (mem_keywordLine hk).mpr (Or.inl rfl)
    obtain ⟨hty, hname⟩ := not_or.mp hhead
    rw [if_neg (mt hblocks.mp hhead), if_pos hmem, parseField_line h.trim hty hname]

end AttributeDecl

/-! ### Commands -/

namespace CommandDecl

instance (c : CommandDecl) : Decidable c.Kept :=
  inferInstanceAs (Decidable (_ ∧ _ ∧ _ ∧ _ ∧ _ ∧ _ ∧ _))

/-- What the reader makes of the line. -/
def read (c : CommandDecl) : Option Build.Command := if c.Kept then some c.declared else none

/-- What follows the access clause. -/
def rest (c : CommandDecl) : List Str :=
  [c.callText ++ [':'], c.output.text, equals, c.code.digits ++ [';']]

theorem words_eq (c : CommandDecl) : c.words = keywordLine c.before "command".toList c.access c.rest :=
  rfl

theorem callWord_eq (c : CommandDecl) :
    c.callText ++ [':'] = c.name.text ++ '(' :: (c.inputText ++ [')', ':']) := by
  simp [callText]

theorem callWord_not_mem (c : CommandDecl) {d : Char} (hd : isIdentChar d = false)
    (hother : d ∉ "():".toList) : d ∉ c.callText ++ [':'] := by
  intro hmem
  rw [callWord_eq] at hmem
  rcases List.mem_append.mp hmem with hmem | hmem
  · exact c.name.not_mem hd hmem
  · rcases List.mem_cons.mp hmem with rfl | hmem
    · exact hother (by decide)
    · rcases List.mem_append.mp hmem with hmem | hmem
      · exact c.inputText_not_mem hd hmem
      · exact hother (List.mem_cons_of_mem _ hmem)

theorem rest_not_mem (c : CommandDecl) {d : Char} (hd : isIdentChar d = false)
    (hother : d ∉ "():=;".toList) : ∀ w ∈ c.rest, d ∉ w := by
  intro w hw
  simp only [rest, List.mem_cons, List.not_mem_nil, or_false] at hw
  rcases hw with rfl | rfl | rfl | rfl
  · exact c.callWord_not_mem hd fun hmem => hother (List.mem_append_left ['=', ';'] hmem)
  · exact c.output.not_mem hd
  · intro hmem
    exact hother (List.mem_singleton.mp hmem ▸ by decide)
  · intro hmem
    rcases List.mem_append.mp hmem with hmem | hmem
    · exact c.code.not_mem hd hmem
    · exact hother (List.mem_singleton.mp hmem ▸ by decide)

theorem infix_callWord {k : Str} (hk : k ∈ keywords) (c : CommandDecl) :
    k <:+: c.callText ++ [':'] ↔ k <:+: c.name.text ∨ k <:+: c.inputText := by
  have hsplit : ∀ {a b : Str} {d : Char}, isIdentChar d = false → k <:+: a ++ d :: b →
      k <:+: a ∨ k <:+: b := fun hd h =>
    infix_append_cons (keyword_plain hk).1 (keyword_not_mem hk hd) h
  rw [callWord_eq]
  constructor
  · intro h
    rcases hsplit (by decide) h with h | h
    · exact Or.inl h
    · rcases hsplit (by decide) h with h | h
      · exact Or.inr h
      · rcases hsplit (a := []) (by decide) h with h | h
        · exact absurd (List.infix_nil.mp h) (keyword_plain hk).1
        · exact absurd (List.infix_nil.mp h) (keyword_plain hk).1
  · rintro (h | h)
    · exact List.infix_append_of_infix_left h
    · exact List.infix_append_of_infix_right (List.infix_cons (List.infix_append_of_infix_left h))

/-- Only the output can be a keyword. -/
theorem mem_rest {w : Str} (hw : w ∈ keywords) (c : CommandDecl) :
    w ∈ c.rest ↔ c.output.text = w := by
  have hcall : w ≠ c.callText ++ [':'] := ne_keyword (c := ':') hw (by decide) (by simp)
  have hequals : w ≠ equals := ne_keyword (c := '=') hw (by decide) (by decide)
  have hcode : w ≠ c.code.digits ++ [';'] := ne_keyword (c := ';') hw (by decide) (by simp)
  simp only [rest, List.mem_cons, List.not_mem_nil, hcall, hequals, hcode, or_false, false_or]
  exact eq_comm

theorem exists_blockWord_rest (c : CommandDecl) :
    (∃ w ∈ blockWords, w ∈ c.rest) ↔ c.output.text ∈ blockWords := by
  constructor
  · rintro ⟨w, hw, hmem⟩
    rw [(c.mem_rest (blockWords_subset hw)).mp hmem]
    exact hw
  · intro h
    exact ⟨_, h, (c.mem_rest (blockWords_subset h)).mpr rfl⟩

/-- A field without a type is none. -/
theorem parseField_noType {n : Numeral} {s : Str} (h : Spells [equals, n.digits ++ [';']] s) :
    parseField (stripAccess s) = none := by
  have hopen : ∀ w ∈ [equals, n.digits ++ [';']], '(' ∉ w := by
    intro w hw
    simp only [List.mem_cons, List.not_mem_nil, or_false] at hw
    rcases hw with rfl | rfl
    · decide
    · simp [n.not_mem (c := '(') (by decide)]
  have hclause : ¬ accessOpen <:+: s := fun hinside => by
    obtain ⟨w, hw, hmem⟩ := (Spells.mem_iff (by decide) h).mp
      (hinside.subset (show '(' ∈ accessOpen by decide))
    exact hopen w hw hmem
  have hfield : Spells ([] ++ [equals, n.digits ++ [';']]) s := h
  rw [stripAccess_noClause hclause, FieldDecl.parseField_spells hfield]
  exact ite_self none

/-- The words of a command before the one that is called. -/
theorem not_infix_beforeCall (c : CommandDecl) {k : Str} (hk : k ∈ keywords)
    (hcommand : ¬ k <:+: "command".toList) :
    ∀ w ∈ qualifierWords c.before ++ "command".toList :: accessWords c.access, ¬ k <:+: w := by
  intro w hw
  simp only [List.mem_append, List.mem_cons] at hw
  rcases hw with hw | rfl | hw
  · exact Inert.qualifierWords _ w hw k hk
  · exact hcommand
  · exact Inert.accessWords _ w hw k hk

/-- An output of that name makes the line an attribute's, without a type. -/
theorem parseField_output {c : CommandDecl} {s : Str} (h : Spells c.words s)
    (hout : c.output.text = "attribute".toList) :
    parseField (stripAccess (afterKeyword "attribute".toList s)) = none := by
  have hk : "attribute".toList ∈ keywords := by decide
  have hwords : c.words = ((qualifierWords c.before ++ "command".toList :: accessWords c.access) ++
      [c.callText ++ [':']]) ++ "attribute".toList :: [equals, c.code.digits ++ [';']] := by
    simp [words, hout]
  rw [hwords] at h
  by_cases hcall : "attribute".toList <:+: c.callText ++ [':']
  · -- the name or the input has the keyword too
    have htwice : ((qualifierWords c.before ++ "command".toList :: accessWords c.access) ++
        [c.callText ++ [':']]) ++ "attribute".toList :: [equals, c.code.digits ++ [';']] =
          ((qualifierWords c.before ++ "command".toList :: accessWords c.access) ++
            [c.callText ++ [':']]) ++ (["attribute".toList] ++ [equals, c.code.digits ++ [';']]) := rfl
    rw [htwice] at h
    have hequals : '=' ∉ afterKeyword "attribute".toList s := by
      refine afterKeyword_twice hk h ⟨_, by simp, hcall⟩
        ⟨"attribute".toList, by simp, List.infix_refl _⟩ fun w hw => ?_
      simp only [List.mem_append, List.mem_cons, List.not_mem_nil, or_false] at hw
      rcases hw with ((hw | rfl | hw) | rfl) | rfl
      · exact qualifierWords_not_mem _ (by decide) w hw
      · decide
      · exact accessWords_not_mem _ (by decide) (by decide) w hw
      · exact c.callWord_not_mem (by decide) (by decide)
      · decide
    exact parseField_eq_none fun hmem => hequals (stripAccess_subset _ hmem)
  · refine parseField_noType (afterKeyword_once hk h (fun w hw => ?_) fun w hw => ?_)
    · rcases List.mem_append.mp hw with hw | hw
      · exact c.not_infix_beforeCall hk (by decide) w hw
      · rwa [List.mem_singleton.mp hw]
    · simp only [List.mem_cons, List.not_mem_nil, or_false] at hw
      rcases hw with rfl | rfl
      · exact not_infix_equals hk
      · exact not_infix_code hk c.code (by decide)

/-- A character that occurs once has one place. -/
theorem append_cons_unique {d : Char} {a b x y : Str} (ha : d ∉ a) (hx : d ∉ x)
    (h : a ++ d :: x = b ++ d :: y) : a = b := by
  have hcount := congrArg (List.count d) h
  simp only [List.count_append, List.count_cons_self, List.count_eq_zero.mpr ha,
    List.count_eq_zero.mpr hx] at hcount
  have hb : List.count d b = 0 := by omega
  exact (append_cons_inj ha (List.count_eq_zero.mp hb) h).1

/-- A word with `access(` in it is a call of a name that ends so. -/
theorem name_of_accessOpen {c : CommandDecl} (h : ∃ w ∈ c.rest, accessOpen <:+: w) :
    "access".toList <:+ c.name.text := by
  obtain ⟨w, hw, hinside⟩ := h
  have hopen : '(' ∈ w := hinside.subset (by decide)
  simp only [rest, List.mem_cons, List.not_mem_nil, or_false] at hw
  rcases hw with rfl | rfl | rfl | rfl
  · obtain ⟨l, r, heq⟩ := hinside
    have hsplit : c.name.text ++ '(' :: (c.inputText ++ [')', ':']) =
        (l ++ "access".toList) ++ '(' :: r := by
      rw [← c.callWord_eq, ← heq, accessOpen_eq]
      simp only [List.append_assoc, List.cons_append, List.nil_append]
    have hinput : '(' ∉ c.inputText ++ [')', ':'] := by
      simp [c.inputText_not_mem (d := '(') (by decide)]
    exact ⟨l, (append_cons_unique (c.name.not_mem (by decide)) hinput hsplit).symm⟩
  · exact absurd hopen (c.output.not_mem (by decide))
  · exact absurd hopen (by decide)
  · rcases List.mem_append.mp hopen with hopen | hopen
    · exact absurd hopen (c.code.not_mem (by decide))
    · exact absurd (List.mem_singleton.mp hopen) (by decide)

/-- What is left after the keyword and the clause, when no block or attribute seems to begin. -/
theorem parseCommand_line {c : CommandDecl} {s : Str} {timed : Bool} (h : Spells c.words s)
    (htimed : timed = (qualifierWords c.before).contains "timed".toList)
    (hblock : c.output.text ∉ blockWords) (hattr : c.output.text ≠ "attribute".toList) :
    parseCommand timed (stripAccess (afterKeyword "command".toList s)) = c.read := by
  have hk : "command".toList ∈ keywords := by decide
  by_cases hagain : "command".toList <:+: c.callText ++ [':'] ∨ "command".toList <:+: c.output.text
  · have hread : c.read = none := if_neg fun hkept => by
      rcases hagain with hagain | hagain
      · rcases (c.infix_callWord hk).mp hagain with hname | hinput
        · exact hkept.2.2.1 hname
        · exact hkept.2.2.2.1 hinput
      · exact hkept.2.2.2.2.1 hagain
    have hsplit : c.rest = [c.callText ++ [':'], c.output.text] ++
        [equals, c.code.digits ++ [';']] := rfl
    rw [words_eq, hsplit] at h
    have hequals := afterKeyword_again hk h
      (by
        rcases hagain with hagain | hagain
        · exact ⟨_, List.mem_cons_self, hagain⟩
        · exact ⟨c.output.text, by simp, hagain⟩)
      fun y hy => by
        simp only [List.mem_cons, List.not_mem_nil, or_false] at hy
        rcases hy with rfl | rfl
        · exact c.callWord_not_mem (by decide) (by decide)
        · exact c.output.not_mem (by decide)
    rw [hread]
    exact parseCommand_eq_none timed fun hmem => hequals (stripAccess_subset _ hmem)
  · obtain ⟨hcall, hout⟩ := not_or.mp hagain
    obtain ⟨hname, hinput⟩ := not_or.mp (mt (c.infix_callWord hk).mpr hcall)
    have hline := afterKeyword_line hk h fun w hw => by
      simp only [List.mem_cons, List.not_mem_nil, or_false] at hw
      rcases hw with rfl | rfl | rfl | rfl
      · exact hcall
      · exact hout
      · exact not_infix_equals hk
      · exact not_infix_code hk c.code (by decide)
    by_cases hclause : c.access = none ∧ "access".toList <:+ c.name.text
    · have hread : c.read = none := if_neg fun hkept => hkept.2.2.2.2.2.1 hclause
      rw [hclause.1] at hline
      rw [hread]
      exact parseCommand_access timed hclause.2 hline
    · have hcmd := stripAccess_accessWords hline fun hnone w hw hinside =>
        hclause ⟨hnone, name_of_accessOpen ⟨w, hw, hinside⟩⟩
      rw [parseCommand_words htimed hcmd, read]
      by_cases hfits : c.code.value < 2 ^ 64
      · rw [if_pos hfits, if_pos ⟨hblock, hattr, hname, hinput, hout, hclause, hfits⟩]
      · rw [if_neg hfits, if_neg fun hkept => hfits hkept.2.2.2.2.2.2]

theorem readLine_words {d : CommandDecl} {st : State} {c : Build.Cluster} {raw : Str}
    (hblock : st.block = none) (hcur : st.cur = some c) (h : Spells d.words raw) :
    readLine st raw = { st with cur := some { c with cmds := c.cmds ++ d.read.toList } } := by
  have hk : "command".toList ∈ keywords := by decide
  have hsplit : d.words = (qualifierWords d.before ++ "command".toList ::
      (accessWords d.access ++ [d.callText ++ [':'], d.output.text, equals])) ++
        [d.code.digits ++ [';']] := by
    simp [words]
  have hbrace : ∀ w ∈ d.words, '\x7d' ∉ w := keywordLine_not_mem hk (by decide) (by decide)
    (d.rest_not_mem (by decide) (by decide))
  obtain ⟨hline, hne, hopens⟩ := readLine_statement hblock hcur
    (hsplit ▸ plain_keywordLine hk) (hsplit ▸ h) fun w hw => hbrace w (by
      rw [hsplit]
      exact List.mem_append_left _ hw)
  have hsame : { st with cur := some c } = st := by rw [← hcur]
  rw [← hsplit] at hline
  rw [hline, readMember_closed hne hopens]
  have hblocks : (∃ w ∈ blockWords, w ∈ d.words) ↔ d.output.text ∈ blockWords := by
    rw [words_eq, exists_blockWord (by decide), d.exists_blockWord_rest]
  by_cases hhead : d.output.text ∈ blockWords
  · have hread : d.read = none := if_neg fun hkept => hkept.1 hhead
    rw [if_pos (hblocks.mpr hhead), hread, Option.toList_none, List.append_nil, hsame]
  rw [if_neg (mt hblocks.mp hhead)]
  have hattribute : "attribute".toList ∈ d.words ↔ d.output.text = "attribute".toList := by
    rw [words_eq, mem_keywordLine (by decide), d.mem_rest (by decide)]
    exact or_iff_right (by decide)
  by_cases hattr : d.output.text = "attribute".toList
  · have hread : d.read = none := if_neg fun hkept => hkept.2.1 hattr
    rw [if_pos (hattribute.mpr hattr), parseField_output h.trim hattr, hread]
    simp only [Option.toList_none, List.append_nil]
  · have hbefore : "command".toList ∉ qualifierWords d.before :=
      (Inert.qualifierWords _).not_mem hk
    have hpos : d.words.idxOf? "command".toList = some (qualifierWords d.before).length :=
      idxOf?_append_cons _ hbefore
    have htimed : (d.words.take (qualifierWords d.before).length).contains "timed".toList =
        (qualifierWords d.before).contains "timed".toList := by
      rw [words, List.take_left]
    rw [if_neg (mt hattribute.mp hattr), hpos]
    dsimp only
    rw [parseCommand_line h.trim htimed hhead hattr]

end CommandDecl

end MatterRsServer.Gen.Idl
