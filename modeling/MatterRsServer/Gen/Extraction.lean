import MatterRsServer.Gen.Blocks

/-!
# Everything that is understood is kept

A document is read entry by entry. Each item of a cluster adds to its table what is understood
of it; an event that begins no block ends the cluster instead.
-/
namespace MatterRsServer.Gen.Idl

open Lib Lib.Text Lib.Words Build

/-! ### Reading the lines of a part -/

theorem Written.nil_comments {raws : List Str} (h : Written [] raws) : ∀ raw ∈ raws, IsComment raw := by
  generalize hwss : ([] : List (List Str)) = wss at h
  induction h with
  | nil => exact fun raw hraw => by cases hraw
  | line => cases hwss
  | comment hcomment _ ih => exact List.forall_mem_cons.mpr ⟨hcomment, ih hwss⟩

/-- The text of two parts is the text of the one and then of the other. -/
theorem Written.append_split {xs ys : List (List Str)} {raws : List Str}
    (h : Written (xs ++ ys) raws) : ∃ a b, raws = a ++ b ∧ Written xs a ∧ Written ys b := by
  generalize hwss : xs ++ ys = wss at h
  induction h generalizing xs with
  | nil =>
    obtain ⟨rfl, rfl⟩ := List.append_eq_nil_iff.mp hwss
    exact ⟨[], [], rfl, .nil, .nil⟩
  | @line ws wss raw raws hspells hwritten ih =>
    cases xs with
    | nil =>
      rw [List.nil_append] at hwss
      exact ⟨[], raw :: raws, rfl, .nil, hwss ▸ .line hspells hwritten⟩
    | cons x xs =>
      obtain ⟨rfl, hrest⟩ := List.cons.inj hwss
      obtain ⟨a, b, rfl, ha, hb⟩ := ih hrest
      exact ⟨raw :: a, b, rfl, .line hspells ha, hb⟩
  | @comment wss raw raws hcomment hwritten ih =>
    obtain ⟨a, b, rfl, ha, hb⟩ := ih hwss
    exact ⟨raw :: a, b, rfl, .comment hcomment ha, hb⟩

/-- From a state with `P`, the text of these lines leads to one with `Q`. -/
def Reads (P : State → Prop) (wss : List (List Str)) (Q : State → Prop) : Prop :=
  ∀ st raws, P st → Written wss raws → Q (raws.foldl readLine st)

namespace Reads
variable {P Q R : State → Prop} {xs ys : List (List Str)} {ws : List Str}

theorem foldl_comments {raws : List Str} (h : ∀ raw ∈ raws, IsComment raw) (st : State) :
    raws.foldl readLine st = st := by
  induction raws with
  | nil => rfl
  | cons raw raws ih =>
    obtain ⟨hraw, hrest⟩ := List.forall_mem_cons.mp h
    rw [List.foldl_cons, readLine_comment hraw, ih hrest]

theorem nil : Reads P [] P := by
  intro st raws hP hwritten
  rwa [foldl_comments hwritten.nil_comments]

theorem append (hx : Reads P xs R) (hy : Reads R ys Q) : Reads P (xs ++ ys) Q := by
  intro st raws hP hwritten
  obtain ⟨a, b, rfl, ha, hb⟩ := hwritten.append_split
  rw [List.foldl_append]
  exact hy _ b (hx st a hP ha) hb

theorem line (h : ∀ st raw, P st → Spells ws raw → Q (readLine st raw)) : Reads P [ws] Q := by
  intro st raws hP hwritten
  generalize hwss : [ws] = wss at hwritten
  induction hwritten with
  | nil => cases hwss
  | @line ws' wss raw raws hspells hrest ih =>
    obtain ⟨rfl, rfl⟩ := List.cons.inj hwss
    rw [List.foldl_cons, foldl_comments hrest.nil_comments]
    exact h st raw hP hspells
  | comment hcomment _ ih =>
    rw [List.foldl_cons, readLine_comment hcomment]
    exact ih hwss

theorem cons (h : ∀ st raw, P st → Spells ws raw → R (readLine st raw)) (hrest : Reads R xs Q) :
    Reads P (ws :: xs) Q :=
  append (line h) hrest

theorem mono (h : Reads P xs R) (hQ : ∀ st, R st → Q st) : Reads P xs Q :=
  fun st raws hP hwritten => hQ _ (h st raws hP hwritten)

/-- Lines that each keep the state keep it together. -/
theorem still {st : State} (h : ∀ ws ∈ xs, ∀ raw, Spells ws raw → readLine st raw = st) :
    Reads (· = st) xs (· = st) := by
  induction xs with
  | nil => exact nil
  | cons ws xs ih =>
    obtain ⟨hws, hrest⟩ := List.forall_mem_cons.mp h
    refine cons (fun s raw hs hspells => ?_) (ih hrest)
    rw [hs]
    exact hws raw hspells

end Reads

/-! ### Blocks -/

/-- In the cluster `c`, after the clusters `cs`. -/
def inCluster (cs : List Build.Cluster) (c : Build.Cluster) : State := ⟨cs, some c, none, 0⟩

def between (cs : List Build.Cluster) : State := ⟨cs, none, none, 0⟩

def inBlock (cs : List Build.Cluster) (c : Build.Cluster) (kind : Block) (fields : List Build.Field) :
    State :=
  ⟨cs, some c, some (kind, fields), 1⟩

section
variable {cs : List Build.Cluster} {c : Build.Cluster}

theorem closing_block (kind : Block) (fields : List Build.Field) :
    Reads (· = inBlock cs c kind fields) [[closing]] (· = inCluster cs (c.close fields kind)) := by
  refine Reads.line fun st raw hst hspells => ?_
  subst hst
  exact readLine_closeBlock rfl rfl hspells

theorem fields_block {kind : Block} (hkind : kind ≠ .skip) (fs : List FieldDecl)
    (acc : List Build.Field) : Reads (· = inBlock cs c kind acc) (fs.map FieldDecl.words)
      (· = inBlock cs c kind (acc ++ fs.filterMap FieldDecl.read)) := by
  induction fs generalizing acc with
  | nil =>
    rw [List.filterMap_nil, List.append_nil]
    exact Reads.nil
  | cons f fs ih =>
    have hcollect : acc ++ (f :: fs).filterMap FieldDecl.read =
        (acc ++ f.read.toList) ++ fs.filterMap FieldDecl.read := by
      rw [List.append_assoc]
      cases hread : f.read with
      | none => rw [List.filterMap_cons_none hread]; rfl
      | some v => rw [List.filterMap_cons_some hread]; rfl
    rw [hcollect]
    refine Reads.cons (fun st raw hst hspells => ?_) (ih (acc ++ f.read.toList))
    subst hst
    rw [readLine_field rfl hspells, if_neg hkind]
    rfl

/-- A block of fields closes into what is understood of it. -/
theorem body_block (kind : Block) (fs : List FieldDecl) :
    Reads (· = inBlock cs c kind []) (fs.map FieldDecl.words ++ [[closing]])
      (· = inCluster cs (c.close (fs.filterMap FieldDecl.read) kind)) := by
  by_cases hkind : kind = .skip
  · subst hkind
    refine Reads.append (Reads.still fun ws hws raw hspells => ?_) (closing_block .skip [])
    obtain ⟨f, -, rfl⟩ := List.mem_map.mp hws
    have hblock : (inBlock cs c .skip []).block = some (.skip, []) := rfl
    rw [readLine_field hblock hspells, if_pos rfl]
  · exact Reads.append (fields_block hkind fs []) (closing_block kind _)

theorem struct_block (s : StructDecl) : Reads (· = inCluster cs c) s.lines
    (· = inCluster cs (c.close (s.fields.filterMap FieldDecl.read)
      (if s.Named then .struct s.name.text else .skip))) := by
  refine Reads.cons (fun st raw hst hspells => ?_) (body_block _ s.fields)
  subst hst
  exact StructDecl.readLine_head rfl rfl hspells

theorem event_block {e : EventDecl} {kind : Block} (h : e.kind = some kind) :
    Reads (· = inCluster cs c) e.lines
      (· = inCluster cs (c.close (e.fields.filterMap FieldDecl.read) kind)) := by
  refine Reads.cons (fun st raw hst hspells => ?_) (body_block kind e.fields)
  subst hst
  rw [EventDecl.readLine_head rfl rfl hspells, h]
  rfl

theorem enum_block (e : EnumDecl) :
    Reads (· = inCluster cs c) e.lines (· = inCluster cs c) := by
  have hbody : Reads (· = inBlock cs c .skip []) (e.body.map Enumerator.words ++ [[closing]])
      (· = inCluster cs c) := by
    refine Reads.append (Reads.still fun ws hws raw hspells => ?_) (closing_block .skip [])
    obtain ⟨w, -, rfl⟩ := List.mem_map.mp hws
    exact readLine_enumerator rfl hspells
  refine Reads.cons (fun st raw hst hspells => ?_) hbody
  subst hst
  exact EnumDecl.readLine_head rfl rfl hspells

/-! ### Items -/

/-- What an item adds to its cluster, when the cluster goes on after it. -/
def Item.addTo (c : Build.Cluster) : Item → Build.Cluster
  | .attribute a => { c with attrs := c.attrs ++ a.read.toList }
  | .command d => { c with cmds := c.cmds ++ d.read.toList }
  | .struct s => c.close (s.fields.filterMap FieldDecl.read)
      (if s.Named then .struct s.name.text else .skip)
  | .event e => match e.kind with
    | some kind => c.close (e.fields.filterMap FieldDecl.read) kind
    | none => c
  | .enumeration _ => c

/-- An event that begins no block: its closing brace is taken for the cluster's. -/
def Item.Ends : Item → Prop
  | .event e => e.kind = none
  | _ => False

theorem item_stays {i : Item} (h : ¬ i.Ends) :
    Reads (· = inCluster cs c) i.lines (· = inCluster cs (i.addTo c)) := by
  match i with
  | .attribute a =>
    refine Reads.line fun st raw hst hspells => ?_
    subst hst
    exact AttributeDecl.readLine_words rfl rfl hspells
  | .command d =>
    refine Reads.line fun st raw hst hspells => ?_
    subst hst
    exact CommandDecl.readLine_words rfl rfl hspells
  | .struct s => exact struct_block s
  | .event e =>
    cases hkind : e.kind with
    | none => exact absurd hkind h
    | some kind =>
      have hadd : Item.addTo c (.event e) = c.close (e.fields.filterMap FieldDecl.read) kind := by
        rw [Item.addTo, hkind]
      rw [hadd]
      exact event_block hkind
  | .enumeration e => exact enum_block e

/-- How much a table says: an event weighs one more than a struct. -/
def weight (c : Build.Cluster) : Nat :=
  c.attrs.length + c.cmds.length + (c.structs.map fun s => 1 + s.fields.length).sum +
    (c.events.map fun e => 2 + e.fields.length).sum

/-- The same cluster, with no more than `n` entries more. -/
structure Grown (n : Nat) (c t : Build.Cluster) : Prop where
  code : t.code = c.code
  weight_le : weight t ≤ weight c + n

theorem length_toList_le {α : Type} (o : Option α) : o.toList.length ≤ 1 := by
  cases o with
  | none => exact Nat.zero_le 1
  | some a => exact Nat.le_refl 1

theorem grown_attribute (o : Option Build.Field) :
    Grown 1 c { c with attrs := c.attrs ++ o.toList } where
  code := rfl
  weight_le := by
    have hle := length_toList_le o
    simp only [weight, List.length_append]
    omega

theorem grown_command (o : Option Build.Command) :
    Grown 1 c { c with cmds := c.cmds ++ o.toList } where
  code := rfl
  weight_le := by
    have hle := length_toList_le o
    simp only [weight, List.length_append]
    omega

/-- A field that is read as a member of the cluster. -/
theorem readLine_stray {f : FieldDecl} {raw : Str} (h : Spells f.words raw) :
    ∃ t, Grown 1 c t ∧ readLine (inCluster cs c) raw = inCluster cs t := by
  have hsplit : f.words = (qualifierWords f.qualifiers ++ [f.tyWord, f.nameWord, equals]) ++
      [f.code.digits ++ [';']] := by simp [FieldDecl.words]
  have hclose := f.words_not_mem (c := '\x7d') (by decide) (by decide)
  have hcur : (inCluster cs c).cur = some c := rfl
  obtain ⟨hline, hne, hopens⟩ := readLine_statement rfl hcur (hsplit ▸ plain_fieldWords f)
    (hsplit ▸ h) fun w hw => hclose w (by
      rw [hsplit]
      exact List.mem_append_left _ hw)
  rw [hline, readMember_closed hne hopens]
  split
  · exact ⟨c, ⟨rfl, Nat.le_add_right _ _⟩, rfl⟩
  · split
    · exact ⟨_, grown_attribute (parseField (stripAccess (afterKeyword "attribute".toList
        (trim raw)))), rfl⟩
    · split
      next pos hpos => exact ⟨_, grown_command (parseCommand _ _), rfl⟩
      next => exact ⟨c, ⟨rfl, Nat.le_add_right _ _⟩, rfl⟩

theorem Grown.trans {m n : Nat} {d t : Build.Cluster} (h : Grown m c d) (h' : Grown n d t) :
    Grown (m + n) c t where
  code := h'.code.trans h.code
  weight_le := by
    have hm := h.weight_le
    have hn := h'.weight_le
    omega

theorem strays_read (fs : List FieldDecl) : Reads (· = inCluster cs c) (fs.map FieldDecl.words)
    (fun st => ∃ t, Grown fs.length c t ∧ st = inCluster cs t) := by
  induction fs generalizing c with
  | nil => exact Reads.nil.mono fun st hst => ⟨c, ⟨rfl, Nat.le_refl _⟩, hst⟩
  | cons f fs ih =>
    intro st raws hst hwritten
    subst hst
    have hparts : Written ([f.words] ++ fs.map FieldDecl.words) raws := hwritten
    obtain ⟨a, b, rfl, ha, hb⟩ := hparts.append_split
    have hfirst : Reads (· = inCluster cs c) [f.words]
        (fun st => ∃ t, Grown 1 c t ∧ st = inCluster cs t) :=
      Reads.line fun st raw hst hspells => hst ▸ readLine_stray hspells
    obtain ⟨d, hd, hstep⟩ := hfirst _ a rfl ha
    obtain ⟨t, ht, hrest⟩ := ih _ b hstep hb
    have hsum := hd.trans ht
    rw [Nat.add_comm] at hsum
    rw [List.foldl_append]
    exact ⟨t, hsum, hrest⟩

theorem closing_cluster : Reads (· = inCluster cs c) [[closing]] (· = between (cs ++ [c])) := by
  refine Reads.line fun st raw hst hspells => ?_
  subst hst
  exact readLine_closeCluster rfl rfl hspells

/-- An event that begins no block closes the cluster, with its fields as members at most. -/
theorem item_ends {i : Item} (h : i.Ends) : ∃ e, i = .event e ∧
    Reads (· = inCluster cs c) i.lines
      (fun st => ∃ t, Grown e.fields.length c t ∧ st = between (cs ++ [t])) := by
  match i, h with
  | .event e, hkind =>
    refine ⟨e, rfl, ?_⟩
    have hkind : e.kind = none := hkind
    have hclose : Reads (fun st => ∃ t, Grown e.fields.length c t ∧ st = inCluster cs t) [[closing]]
        (fun st => ∃ t, Grown e.fields.length c t ∧ st = between (cs ++ [t])) :=
      Reads.line fun st raw ⟨t, ht, hst⟩ hspells => ⟨t, ht, by
        subst hst
        exact readLine_closeCluster rfl rfl hspells⟩
    refine Reads.cons (fun st raw hst hspells => ?_) (Reads.append (strays_read e.fields) hclose)
    subst hst
    rw [EventDecl.readLine_head rfl rfl hspells, hkind]

/-! ### Lines outside of the clusters -/

theorem readLine_between {ws : List Str} {raw : Str} (h : Spells ws raw)
    (hheader : header ws (trim raw) = none) : readLine (between cs) raw = between cs := by
  unfold readLine
  dsimp only
  split
  · rfl
  · rw [Spells.splitWhitespace_eq h.trim]
    simp only [between, hheader]

theorem field_between {f : FieldDecl} {raw : Str} (h : Spells f.words raw) :
    readLine (between cs) raw = between cs := by
  have hsplit : f.words = (qualifierWords f.qualifiers ++ [f.tyWord, f.nameWord, equals]) ++
      [f.code.digits ++ [';']] := by simp [FieldDecl.words]
  exact readLine_between h (header_closed (opens_statement (hsplit ▸ h)))

theorem closing_between {raw : Str} (h : Spells [closing] raw) :
    readLine (between cs) raw = between cs := readLine_between h (header_closing _)

theorem struct_between (s : StructDecl) : ∀ ws ∈ s.lines, ∀ raw, Spells ws raw →
    readLine (between cs) raw = between cs := by
  intro ws hws raw h
  simp only [StructDecl.lines, blockLines, List.mem_cons, List.mem_append, List.mem_map,
    List.not_mem_nil, or_false] at hws
  rcases hws with rfl | ⟨f, -, rfl⟩ | rfl
  · exact readLine_between h (s.header_head _)
  · exact field_between h
  · exact closing_between h

theorem enum_between (e : EnumDecl) : ∀ ws ∈ e.lines, ∀ raw, Spells ws raw →
    readLine (between cs) raw = between cs := by
  intro ws hws raw h
  simp only [EnumDecl.lines, blockLines, List.mem_cons, List.mem_append, List.mem_map,
    List.not_mem_nil, or_false] at hws
  rcases hws with rfl | ⟨w, -, rfl⟩ | rfl
  · exact readLine_between h (header_noEquals e.equals_not_mem)
  · have hopen := not_mem_trim (c := '{') (by decide) h fun v hv => (w.noBrace v hv).1
    exact readLine_between h (header_closed (opens_eq_false hopen))
  · exact closing_between h

theorem item_between (i : Item) : ∀ ws ∈ i.lines, ∀ raw, Spells ws raw →
    readLine (between cs) raw = between cs := by
  intro ws hws raw h
  match i with
  | .attribute a =>
    obtain rfl := List.mem_singleton.mp hws
    have hsplit : a.words = (qualifierWords a.before ++ "attribute".toList ::
        (accessWords a.access ++ (qualifierWords a.field.qualifiers ++
          [a.field.tyWord, a.field.nameWord, equals]))) ++ [a.field.code.digits ++ [';']] := by
      simp [AttributeDecl.words, FieldDecl.words]
    exact readLine_between h (header_closed (opens_statement (hsplit ▸ h)))
  | .command d =>
    obtain rfl := List.mem_singleton.mp hws
    have hsplit : d.words = (qualifierWords d.before ++ "command".toList ::
        (accessWords d.access ++ [d.callText ++ [':'], d.output.text, equals])) ++
          [d.code.digits ++ [';']] := by
      simp [CommandDecl.words]
    exact readLine_between h (header_closed (opens_statement (hsplit ▸ h)))
  | .struct s => exact struct_between s ws hws raw h
  | .event e =>
    simp only [Item.lines, EventDecl.lines, blockLines, List.mem_cons, List.mem_append,
      List.mem_map, List.not_mem_nil, or_false] at hws
    rcases hws with rfl | ⟨f, -, rfl⟩ | rfl
    · exact readLine_between h (e.header_head _)
    · exact field_between h
    · exact closing_between h
  | .enumeration e => exact enum_between e ws hws raw h

theorem items_between (items : List Item) :
    Reads (· = between cs) (items.flatMap Item.lines ++ [[closing]]) (· = between cs) := by
  refine Reads.still fun ws hws raw h => ?_
  rcases List.mem_append.mp hws with hws | hws
  · obtain ⟨i, -, hi⟩ := List.mem_flatMap.mp hws
    exact item_between i ws hi raw h
  · obtain rfl := List.mem_singleton.mp hws
    exact closing_between h

/-! ### A cluster -/

/-- The table that a cluster comes to: every item adds to it, up to one that ends it. -/
inductive ComesTo : Build.Cluster → List Item → Build.Cluster → Prop
  | done {c : Build.Cluster} : ComesTo c [] c
  | stays {c t : Build.Cluster} {i : Item} {items : List Item} : ¬ i.Ends →
      ComesTo (i.addTo c) items t → ComesTo c (i :: items) t
  | ends {c t : Build.Cluster} {e : EventDecl} {items : List Item} : e.kind = none →
      Grown e.fields.length c t → ComesTo c (.event e :: items) t

theorem items_read (items : List Item) :
    Reads (· = inCluster cs c) (items.flatMap Item.lines ++ [[closing]])
      (fun st => ∃ t, ComesTo c items t ∧ st = between (cs ++ [t])) := by
  induction items generalizing c with
  | nil => exact closing_cluster.mono fun st hst => ⟨c, .done, hst⟩
  | cons i items ih =>
    rw [List.flatMap_cons, List.append_assoc]
    by_cases hends : i.Ends
    · obtain ⟨e, rfl, hread⟩ := @item_ends cs c _ hends
      intro st raws hst hwritten
      obtain ⟨a, b, rfl, ha, hb⟩ := hwritten.append_split
      obtain ⟨t, ht, hmid⟩ := hread st a hst ha
      rw [List.foldl_append]
      exact ⟨t, .ends hends ht, items_between items _ b hmid hb⟩
    · exact Reads.append (item_stays hends)
        (ih.mono fun st ⟨t, ht, hst⟩ => ⟨t, .stays hends ht, hst⟩)

end

end MatterRsServer.Gen.Idl
