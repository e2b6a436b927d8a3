import MatterRsServer.Gen.Extraction

/-!
# What the tables lack

The reader adds to a cluster no more than its block declares, so a table that weighs as much as
the block has all of it. The first block with a code is the one that the tables keep.
-/
namespace MatterRsServer.Gen.Idl

open Lib Lib.Words Build

/-! ### What is declared -/

theorem FieldDecl.isSome_read (f : FieldDecl) : f.read.isSome = true ↔ f.Kept := by
  unfold FieldDecl.read
  by_cases hkept : f.Kept
  · simp [hkept]
  · simp [hkept]

theorem length_read_le (fs : List FieldDecl) : (fs.filterMap FieldDecl.read).length ≤ fs.length :=
  List.length_filterMap_le _ _

/-- No field is missing only if each of them is kept. -/
theorem length_read_eq (fs : List FieldDecl) :
    (fs.filterMap FieldDecl.read).length = fs.length ↔ ∀ f ∈ fs, f.Kept := by
  rw [List.filterMap_length_eq_length]
  exact forall₂_congr fun f _ => f.isSome_read

theorem read_of_kept {fs : List FieldDecl} (h : ∀ f ∈ fs, f.Kept) :
    fs.filterMap FieldDecl.read = fs.map FieldDecl.declared := by
  rw [← List.filterMap_eq_map]
  exact List.filterMap_congr fun f hf => if_pos (h f hf)

namespace Item

/-- What an item declares, in its cluster. -/
def declareIn (c : Build.Cluster) : Item → Build.Cluster
  | .attribute a => { c with attrs := c.attrs ++ [a.field.declared] }
  | .command d => { c with cmds := c.cmds ++ [d.declared] }
  | .struct s => { c with structs := c.structs ++ [s.declared] }
  | .event e => { c with events := c.events ++ [e.declared] }
  | .enumeration _ => c

/-- How much an item can add to the weight of a table. -/
def load : Item → Nat
  | .attribute _ => 1
  | .command _ => 1
  | .struct s => 1 + s.fields.length
  | .event e => 2 + e.fields.length
  | .enumeration _ => 0

end Item

theorem foldl_declareIn (c : Build.Cluster) (items : List Item) :
    items.foldl Item.declareIn c =
      { c with
        attrs := c.attrs ++ (attributesOf items).map fun a => a.field.declared
        cmds := c.cmds ++ (commandsOf items).map CommandDecl.declared
        structs := c.structs ++ (structsOf items).map StructDecl.declared
        events := c.events ++ (eventsOf items).map EventDecl.declared } := by
  induction items generalizing c with
  | nil => simp [attributesOf, commandsOf, structsOf, eventsOf]
  | cons i items ih =>
    rw [List.foldl_cons, ih]
    match i with
    | .attribute a => simp [Item.declareIn, attributesOf, commandsOf, structsOf, eventsOf]
    | .command d => simp [Item.declareIn, attributesOf, commandsOf, structsOf, eventsOf]
    | .struct s => simp [Item.declareIn, attributesOf, commandsOf, structsOf, eventsOf]
    | .event e => simp [Item.declareIn, attributesOf, commandsOf, structsOf, eventsOf]
    | .enumeration e => simp [Item.declareIn, attributesOf, commandsOf, structsOf, eventsOf]

/-- The table of a block, item by item. -/
theorem ClusterDecl.declared_eq {b : ClusterDecl} (h : b.code.value < 2 ^ 64) :
    b.declared = b.items.foldl Item.declareIn b.begun := by
  rw [foldl_declareIn, begun, if_pos h]
  rfl

/-! ### What is added -/

/-- What a block that closes adds to the weight of a table. -/
def blockLoad (n : Nat) : Block → Nat
  | .skip => 0
  | .struct _ => 1 + n
  | .event _ _ => 2 + n

theorem weight_close (c : Build.Cluster) (fields : List Build.Field) (kind : Block) :
    weight (c.close fields kind) = weight c + blockLoad fields.length kind := by
  match kind with
  | .skip => rfl
  | .struct name =>
    simp only [weight, Build.Cluster.close, List.map_append, List.sum_append, List.map_cons, List.map_nil,
      List.sum_cons, List.sum_nil, blockLoad]
    omega
  | .event code name =>
    simp only [weight, Build.Cluster.close, List.map_append, List.sum_append, List.map_cons, List.map_nil,
      List.sum_cons, List.sum_nil, blockLoad]
    omega

theorem weight_declareIn (c : Build.Cluster) (i : Item) :
    weight (i.declareIn c) = weight c + i.load := by
  match i with
  | .attribute a =>
    simp only [weight, Item.declareIn, Item.load, List.length_append, List.length_singleton]
    omega
  | .command d =>
    simp only [weight, Item.declareIn, Item.load, List.length_append, List.length_singleton]
    omega
  | .struct s =>
    have hclose := weight_close c (s.fields.map FieldDecl.declared) (.struct s.name.text)
    rwa [List.length_map] at hclose
  | .event e =>
    have hclose := weight_close c (e.fields.map FieldDecl.declared)
      (.event e.code.value e.name.text)
    rwa [List.length_map] at hclose
  | .enumeration e => rfl

theorem weight_foldl (c : Build.Cluster) (items : List Item) :
    weight (items.foldl Item.declareIn c) = weight c + (items.map Item.load).sum := by
  induction items generalizing c with
  | nil => rfl
  | cons i items ih =>
    rw [List.foldl_cons, ih, weight_declareIn, List.map_cons, List.sum_cons]
    omega

/-- The block of an event is its own, or one that weighs less. -/
theorem EventDecl.kind_cases {e : EventDecl} {kind : Block} (h : e.kind = some kind) :
    (e.Headed ∧ kind = .event e.code.value e.name.text) ∨ (¬ e.Headed ∧ ∀ n, blockLoad n kind ≤ 1 + n) := by
  unfold EventDecl.kind at h
  split at h
  · next hskip =>
    cases h
    exact Or.inr ⟨fun hheaded => hskip.elim hheaded.1 hheaded.2.1, fun n => Nat.zero_le _⟩
  · next hskip =>
    split at h
    · next hstruct =>
      cases h
      exact Or.inr ⟨fun hheaded => hheaded.2.2.1 hstruct, fun n => Nat.le_refl _⟩
    · next hstruct =>
      split at h
      · next hrest =>
        cases h
        exact Or.inl ⟨⟨fun he => hskip (Or.inl he), fun he => hskip (Or.inr he), hstruct, hrest⟩, rfl⟩
      · cases h

theorem EventDecl.kind_of_headed {e : EventDecl} (h : e.Headed) :
    e.kind = some (.event e.code.value e.name.text) := by
  obtain ⟨henum, hbitmap, hstruct, hrest⟩ := h
  rw [EventDecl.kind, if_neg (not_or.mpr ⟨henum, hbitmap⟩), if_neg hstruct, if_pos hrest]

namespace Item
variable {c : Build.Cluster} {i : Item}

theorem Kept.not_ends (h : i.Kept) : ¬ i.Ends := by
  match i with
  | .attribute a => exact id
  | .command d => exact id
  | .struct s => exact id
  | .event e =>
    intro hends
    have hnone : e.kind = none := hends
    rw [EventDecl.kind_of_headed h.1] at hnone
    cases hnone
  | .enumeration e => exact id

/-- An item that is kept adds what it declares. -/
theorem Kept.addTo_eq (h : i.Kept) : i.addTo c = i.declareIn c := by
  match i with
  | .attribute a =>
    have hread : a.read = some a.field.declared := if_pos h
    rw [addTo, hread]
    rfl
  | .command d =>
    have hread : d.read = some d.declared := if_pos h
    rw [addTo, hread]
    rfl
  | .struct s =>
    have hkept : s.Kept := h
    rw [addTo, if_pos hkept.1, read_of_kept hkept.2]
    rfl
  | .event e =>
    have hkept : e.Kept := h
    rw [addTo, EventDecl.kind_of_headed hkept.1]
    dsimp only
    rw [read_of_kept hkept.2]
    rfl
  | .enumeration e => rfl

/-- An item that is not kept adds less than it declares. -/
theorem weight_addTo_lt (hends : ¬ i.Ends) (h : ¬ i.Kept) : weight (i.addTo c) < weight c + i.load := by
  match i with
  | .attribute a =>
    have hread : a.read = none := if_neg h
    rw [addTo, hread]
    exact Nat.lt_succ_of_le (by simp [weight])
  | .command d =>
    have hread : d.read = none := if_neg h
    rw [addTo, hread]
    exact Nat.lt_succ_of_le (by simp [weight])
  | .struct s =>
    have hle := length_read_le s.fields
    rw [addTo, weight_close]
    by_cases hnamed : s.Named
    · have hfields : (s.fields.filterMap FieldDecl.read).length ≠ s.fields.length := fun heq =>
        h ⟨hnamed, (length_read_eq s.fields).mp heq⟩
      rw [if_pos hnamed]
      simp only [blockLoad, load]
      omega
    · rw [if_neg hnamed]
      simp only [blockLoad, load]
      omega
  | .event e =>
    have hle := length_read_le e.fields
    cases hkind : e.kind with
    | none => exact absurd hkind hends
    | some kind =>
      have hadd : addTo c (.event e) = c.close (e.fields.filterMap FieldDecl.read) kind := by
        rw [addTo, hkind]
      rw [hadd, weight_close]
      rcases EventDecl.kind_cases hkind with ⟨hheaded, rfl⟩ | ⟨-, hload⟩
      · have hfields : (e.fields.filterMap FieldDecl.read).length ≠ e.fields.length := fun heq =>
          h ⟨hheaded, (length_read_eq e.fields).mp heq⟩
        simp only [blockLoad, load]
        omega
      · have hlt := hload (e.fields.filterMap FieldDecl.read).length
        simp only [load]
        omega
  | .enumeration e => exact absurd trivial h

theorem addTo_code (hends : ¬ i.Ends) : (i.addTo c).code = c.code := by
  have hclose : ∀ (fields : List Build.Field) (kind : Block), (c.close fields kind).code = c.code := by
    intro fields kind
    cases kind with
    | skip => rfl
    | struct name => rfl
    | event code name => rfl
  match i with
  | .attribute a => rfl
  | .command d => rfl
  | .struct s => exact hclose _ _
  | .event e =>
    cases hkind : e.kind with
    | none => exact absurd hkind hends
    | some kind =>
      have hadd : addTo c (.event e) = c.close (e.fields.filterMap FieldDecl.read) kind := by
        rw [addTo, hkind]
      rw [hadd]
      exact hclose _ kind
  | .enumeration e => rfl

theorem weight_addTo_le (hends : ¬ i.Ends) : weight (i.addTo c) ≤ weight c + i.load := by
  by_cases hkept : i.Kept
  · rw [hkept.addTo_eq, weight_declareIn]
  · exact Nat.le_of_lt (weight_addTo_lt hends hkept)

end Item

/-! ### A cluster -/

namespace ComesTo
variable {c t : Build.Cluster} {items : List Item}

theorem code_eq (h : ComesTo c items t) : t.code = c.code := by
  induction h with
  | done => rfl
  | @stays c t i items hends _ ih => exact ih.trans (i.addTo_code hends)
  | ends _ hgrown => exact hgrown.code

/-- A table weighs at most what the items declare, and as much only if all of them are kept. -/
theorem weight_le (h : ComesTo c items t) : weight t ≤ weight c + (items.map Item.load).sum ∧
    (weight t = weight c + (items.map Item.load).sum → ∀ i ∈ items, i.Kept) := by
  induction h with
  | done => exact ⟨Nat.le_refl _, fun _ i hi => by cases hi⟩
  | @stays c t i items hends _ ih =>
    obtain ⟨hle, heq⟩ := ih
    have hadd := i.weight_addTo_le (c := c) hends
    rw [List.map_cons, List.sum_cons]
    refine ⟨by omega, fun hsum => List.forall_mem_cons.mpr ⟨?_, heq (by omega)⟩⟩
    by_contra hkept
    have hlt := Item.weight_addTo_lt (c := c) hends hkept
    omega
  | @ends c t e items _ hgrown =>
    have hle := hgrown.weight_le
    have hload : Item.load (.event e) = 2 + e.fields.length := rfl
    rw [List.map_cons, List.sum_cons, hload]
    exact ⟨by omega, fun hsum => by omega⟩

theorem eq_of_kept (h : ComesTo c items t) (hkept : ∀ i ∈ items, i.Kept) :
    t = items.foldl Item.declareIn c := by
  induction h with
  | done => rfl
  | @stays c t i items hends _ ih =>
    obtain ⟨hi, hitems⟩ := List.forall_mem_cons.mp hkept
    rw [ih hitems, hi.addTo_eq, List.foldl_cons]
  | @ends c t e items hends _ =>
    have he : Item.Kept (.event e) := hkept _ List.mem_cons_self
    exact absurd hends he.not_ends

/-- All that is declared is in the table just if every item is kept. -/
theorem eq_iff (h : ComesTo c items t) :
    t = items.foldl Item.declareIn c ↔ ∀ i ∈ items, i.Kept := by
  constructor
  · intro heq
    have hweight := weight_foldl c items
    rw [← heq] at hweight
    exact h.weight_le.2 hweight
  · exact h.eq_of_kept

end ComesTo

/-- What the reader makes of a cluster block. -/
structure Yields (b : ClusterDecl) (t : Build.Cluster) : Prop where
  code : t.code = b.begun.code
  complete : b.code.value < 2 ^ 64 → (t = b.declared ↔ ∀ i ∈ b.items, i.Kept)

theorem ComesTo.yields {b : ClusterDecl} {t : Build.Cluster} (h : ComesTo b.begun b.items t) :
    Yields b t where
  code := h.code_eq
  complete hfits := by
    rw [b.declared_eq hfits]
    exact h.eq_iff

/-! ### A document -/

section
variable {cs : List Build.Cluster}

theorem cluster_read (b : ClusterDecl) : Reads (· = between cs) b.lines
    (fun st => ∃ t, Yields b t ∧ st = between (cs ++ [t])) := by
  have hitems : Reads (· = inCluster cs b.begun) (b.items.flatMap Item.lines ++ [[closing]])
      (fun st => ∃ t, Yields b t ∧ st = between (cs ++ [t])) :=
    (items_read b.items).mono fun st ⟨t, ht, hst⟩ => ⟨t, ht.yields, hst⟩
  refine Reads.cons (fun st raw hst hspells => ?_) hitems
  subst hst
  rw [b.readLine_head rfl hspells]
  exact congrArg (fun l => State.mk l (some b.begun) none 0) (List.append_nil cs)

/-- The clusters of a document, one for each block. -/
theorem document_read (doc : List Entry) : Reads (· = between cs) (doc.flatMap Entry.lines)
    (fun st => ∃ ts, List.Forall₂ Yields (clustersOf doc) ts ∧ st = between (cs ++ ts)) := by
  induction doc generalizing cs with
  | nil => exact Reads.nil.mono fun st hst => ⟨[], .nil, by rw [hst, List.append_nil]⟩
  | cons entry doc ih =>
    rw [List.flatMap_cons]
    match entry with
    | .cluster b =>
      intro st raws hst hwritten
      obtain ⟨first, rest, rfl, hfirst, hrest⟩ := hwritten.append_split
      obtain ⟨t, ht, hmid⟩ := cluster_read b st first hst hfirst
      obtain ⟨ts, hts, hlast⟩ := ih _ rest hmid hrest
      rw [List.foldl_append]
      exact ⟨t :: ts, .cons ht hts, by rw [hlast, List.append_assoc, List.singleton_append]⟩
    | .struct s => exact Reads.append (Reads.still (struct_between s)) ih
    | .enumeration e => exact Reads.append (Reads.still (enum_between e)) ih

end

/-! ### The tables -/

theorem Forall₂.find? {α β : Type} {R : α → β → Prop} {p : α → Bool} {q : β → Bool} {xs : List α}
    {ys : List β} (h : List.Forall₂ R xs ys) (hpq : ∀ x y, R x y → p x = q y) :
    Option.Rel R (xs.find? p) (ys.find? q) := by
  induction h with
  | nil => exact .none
  | @cons x y xs ys hxy _ ih =>
    cases hp : p x with
    | true =>
      rw [List.find?_cons_of_pos hp, List.find?_cons_of_pos (hpq x y hxy ▸ hp)]
      exact .some hxy
    | false =>
      rw [List.find?_cons_of_neg (by simp [hp]), List.find?_cons_of_neg (by simp [← hpq x y hxy, hp])]
      exact ih

/-- Of the clusters with a code, the tables keep the first. -/
theorem filter_finish (ts : List Build.Cluster) {v : Nat} (hv : v ≠ u64Max) :
    (finish (between ts)).filter (fun c => c.code = v) = (ts.find? fun c => c.code = v).toList := by
  have hall : (between ts).clusters ++ (between ts).cur.toList = ts := List.append_nil ts
  rw [finish, hall, ByKey.filter_dedupByKey_sortByKey, List.find?_filter]
  have hcode : (fun c : Build.Cluster => decide (decide (c.code ≠ u64Max) = true ∧ decide (c.code = v) = true)) =
      fun c => decide (c.code = v) := by
    funext c
    by_cases hc : c.code = v
    · simp [hc, hv]
    · simp [hc]
  rw [hcode]

theorem mem_finish {ts : List Build.Cluster} {c : Build.Cluster} (h : c ∈ finish (between ts)) :
    c ∈ ts ∧ c.code ≠ u64Max := by
  have hfilter : c ∈ (finish (between ts)).filter fun t => t.code = c.code :=
    List.mem_filter.mpr ⟨h, by simp⟩
  have hall : (between ts).clusters ++ (between ts).cur.toList = ts := List.append_nil ts
  rw [finish, hall, ByKey.filter_dedupByKey_sortByKey] at hfilter
  obtain ⟨hmem, hcode⟩ := List.mem_filter.mp (List.mem_of_find?_eq_some (Option.mem_toList.mp hfilter))
  exact ⟨hmem, of_decide_eq_true hcode⟩

theorem Yields.code_eq_iff {b : ClusterDecl} {t : Build.Cluster} (h : Yields b t) {v : Nat}
    (hv : v < u64Max) : t.code = v ↔ b.code.value = v := by
  rw [h.code, ClusterDecl.begun]
  dsimp only
  have hmax : u64Max = 2 ^ 64 - 1 := rfl
  split
  · exact Iff.rfl
  · omega

theorem Yields.code_le {b : ClusterDecl} {t : Build.Cluster} (h : Yields b t) : t.code ≤ u64Max := by
  rw [h.code, ClusterDecl.begun]
  dsimp only
  have hmax : u64Max = 2 ^ 64 - 1 := rfl
  split
  · omega
  · exact Nat.le_refl _

theorem code_le_of_yields {bs : List ClusterDecl} {ts : List Build.Cluster}
    (h : List.Forall₂ Yields bs ts) : ∀ t ∈ ts, t.code ≤ u64Max := by
  induction h with
  | nil => exact fun t ht => by cases ht
  | cons hyields _ ih => exact List.forall_mem_cons.mpr ⟨hyields.code_le, ih⟩

section
variable {doc : List Entry} {src : Str}

theorem parse_eq (h : WrittenAs doc src) :
    ∃ ts, List.Forall₂ Yields (clustersOf doc) ts ∧ parse src = finish (between ts) := by
  obtain ⟨ts, hts, hst⟩ := @document_read [] doc {} _ rfl h
  rw [List.nil_append] at hst
  exact ⟨ts, hts, congrArg finish hst⟩

/-- The table with a code comes from the first block with it. -/
theorem filter_parse (h : WrittenAs doc src) {v : Nat} (hv : v < u64Max) :
    ∃ o, Option.Rel Yields (firstWith doc v) o ∧
      (parse src).filter (fun c => c.code = v) = o.toList := by
  obtain ⟨ts, hts, hparse⟩ := parse_eq h
  rw [hparse, filter_finish ts hv.ne]
  exact ⟨_, Forall₂.find? hts fun b t hbt => decide_eq_decide.mpr (hbt.code_eq_iff hv).symm, rfl⟩

theorem filter_parse_first (h : WrittenAs doc src) {v : Nat} (hv : v < u64Max) {b : ClusterDecl}
    (hb : firstWith doc v = some b) :
    ∃ t, Yields b t ∧ (parse src).filter (fun c => c.code = v) = [t] := by
  obtain ⟨o, ho, hfilter⟩ := filter_parse h hv
  rw [hb] at ho
  cases ho with
  | some hyields => exact ⟨_, hyields, hfilter⟩

theorem code_lt_of_mem_parse (h : WrittenAs doc src) {c : Build.Cluster} (hc : c ∈ parse src) :
    c.code < u64Max := by
  obtain ⟨ts, hts, hparse⟩ := parse_eq h
  rw [hparse] at hc
  obtain ⟨hmem, hne⟩ := mem_finish hc
  exact lt_of_le_of_ne (code_le_of_yields hts c hmem) hne

theorem of_firstWith {v : Nat} {b : ClusterDecl} (h : firstWith doc v = some b) :
    b ∈ clustersOf doc ∧ b.code.value = v := by
  unfold firstWith at h
  exact ⟨List.mem_of_find?_eq_some h, by simpa using List.find?_some h⟩

theorem exists_firstWith {b : ClusterDecl} (hb : b ∈ clustersOf doc) :
    ∃ first, firstWith doc b.code.value = some first :=
  Option.isSome_iff_exists.mp (List.find?_isSome.mpr ⟨b, hb, decide_eq_true rfl⟩)

theorem fits {v : Nat} (hv : v < u64Max) : v < 2 ^ 64 := lt_of_lt_of_le hv (Nat.sub_le _ _)

theorem keeps_of_understood (h : WrittenAs doc src) (hdoc : Understood doc) : KeepsEverything doc src := by
  intro b hb
  obtain ⟨hv, first, hfirst, hkept, hsame⟩ := hdoc b hb
  obtain ⟨t, hyields, hfilter⟩ := filter_parse_first h hv hfirst
  have hcode := (of_firstWith hfirst).2
  have ht : t = first.declared := (hyields.complete (hcode ▸ fits hv)).mpr hkept
  rw [hfilter, ht, hsame]

theorem understood_of_keeps (h : WrittenAs doc src) (hdoc : KeepsEverything doc src) : Understood doc := by
  intro b hb
  have htable : b.declared ∈ (parse src).filter fun c => c.code = b.code.value := by
    rw [hdoc b hb]
    exact List.mem_singleton_self _
  have hv : b.code.value < u64Max := code_lt_of_mem_parse h (List.mem_filter.mp htable).1
  obtain ⟨first, hfirst⟩ := exists_firstWith hb
  obtain ⟨hmem, hcode⟩ := of_firstWith hfirst
  obtain ⟨t, hyields, hfilter⟩ := filter_parse_first h hv hfirst
  -- the one table with the code is what either block declares
  have hself : [t] = [first.declared] := by
    rw [← hfilter, ← hcode]
    exact hdoc first hmem
  have hother : [t] = [b.declared] := by
    rw [← hfilter]
    exact hdoc b hb
  have ht : t = first.declared := List.singleton_inj.mp hself
  refine ⟨hv, first, hfirst, (hyields.complete (hcode ▸ fits hv)).mp ht, ?_⟩
  rw [← ht]
  exact List.singleton_inj.mp hother

end

/-! ### A cluster of the vendored IDL -/

def Ident.ofText (text : Str) (h : (!text.isEmpty && text.all isIdentChar) = true) : Ident where
  text
  ne_nil := List.isEmpty_eq_false_iff.mp (by simpa using (Bool.and_eq_true_iff.mp h).1)
  plain := List.all_eq_true.mp (Bool.and_eq_true_iff.mp h).2

def Numeral.ofText (digits : Str) (h : (!digits.isEmpty && digits.all Char.isDigit) = true) :
    Numeral where
  digits
  ne_nil := List.isEmpty_eq_false_iff.mp (by simpa using (Bool.and_eq_true_iff.mp h).1)
  plain := List.all_eq_true.mp (Bool.and_eq_true_iff.mp h).2

def Qualifier.ofIdent (i : Ident) (h : (keywords.all fun k => !decide (k <:+: i.text)) = true) :
    Qualifier where
  toIdent := i
  noKeyword k hk := of_decide_eq_false ((Bool.not_eq_true' _).mp (List.all_eq_true.mp h k hk))

def readonly : Qualifier := .ofIdent (.ofText "readonly".toList (by decide)) (by decide +kernel)

/-- `readonly attribute boolean onOff = 0;` -/
def onOffState : AttributeDecl where
  before := [readonly]
  access := none
  field :=
    { qualifiers := []
      ty := .ofText "boolean".toList (by decide)
      len := none
      name := .ofText "onOff".toList (by decide)
      isList := false
      code := .ofText "0".toList (by decide) }

/-- `readonly attribute attrib_id attributeList[] = 65531;`, in every cluster of the IDL. -/
def attributeList : AttributeDecl where
  before := [readonly]
  access := none
  field :=
    { qualifiers := []
      ty := .ofText "attrib_id".toList (by decide)
      len := none
      name := .ofText "attributeList".toList (by decide)
      isList := true
      code := .ofText "65531".toList (by decide) }

def onOffCluster (items : List Item) : ClusterDecl where
  before := []
  name := .ofText "OnOff".toList (by decide)
  code := .ofText "6".toList (by decide)
  items

theorem written_onOff {items : List Item} {raws : List Str}
    (h : Written (items.flatMap Item.lines ++ [[closing]]) raws) :
    Written ([Entry.cluster (onOffCluster items)].flatMap Entry.lines)
      ("cluster OnOff = 6 \x7b".toList :: "  revision 6;".toList :: raws) := by
  have hhead : Spells (onOffCluster []).head "cluster OnOff = 6 \x7b".toList := by decide +kernel
  rw [List.flatMap_singleton]
  exact .line hhead (.comment (Or.inr (Or.inr (by decide))) h)

theorem understood_onOff {items : List Item} :
    Understood [.cluster (onOffCluster items)] ↔ ∀ i ∈ items, i.Kept := by
  constructor
  · intro h
    obtain ⟨-, first, hfirst, hkept, -⟩ := h _ (List.mem_singleton_self _)
    have hself : firstWith [.cluster (onOffCluster items)] 6 = some (onOffCluster items) := rfl
    obtain rfl := Option.some.inj (hself.symm.trans hfirst)
    exact hkept
  · intro h b hb
    obtain rfl := List.mem_singleton.mp hb
    have hcode : (onOffCluster []).code.value < u64Max := by decide
    exact ⟨hcode, _, rfl, h, rfl⟩

def onOffSrc : Str :=
  "cluster OnOff = 6 \x7b\n  revision 6;\n  readonly attribute boolean onOff = 0;\n\x7d\n".toList

theorem onOff_written : WrittenAs [.cluster (onOffCluster [.attribute onOffState])] onOffSrc := by
  have hlines : Words.lines onOffSrc = ["cluster OnOff = 6 \x7b".toList, "  revision 6;".toList,
      "  readonly attribute boolean onOff = 0;".toList, "\x7d".toList] := by decide
  rw [WrittenAs, hlines]
  exact written_onOff (.line (by decide +kernel) (.line (by decide) .nil))

/-- The tables hold everything that a text declares just if every block is understood. -/
theorem keepsEverything_iff {doc : List Entry} {src : Str} (h : WrittenAs doc src) :
    KeepsEverything doc src ↔ Understood doc :=
  ⟨understood_of_keeps h, keeps_of_understood h⟩

theorem keepsEverything_onOff :
    KeepsEverything [.cluster (onOffCluster [.attribute onOffState])] onOffSrc := by
  refine (keepsEverything_iff onOff_written).mpr (understood_onOff.mpr fun i hi => ?_)
  obtain rfl := List.mem_singleton.mp hi
  exact (by decide +kernel : onOffState.Kept)

def attributeListSrc : Str :=
  "cluster OnOff = 6 \x7b\n  revision 6;\n  readonly attribute attrib_id attributeList[] = 65531;\n\x7d\n".toList

/-- The name of the attribute begins with the keyword, and what is read of its line ends there. -/
theorem attributeList_dropped :
    WrittenAs [.cluster (onOffCluster [.attribute attributeList])] attributeListSrc ∧
      ¬ KeepsEverything [.cluster (onOffCluster [.attribute attributeList])] attributeListSrc := by
  have hlines : Words.lines attributeListSrc = ["cluster OnOff = 6 \x7b".toList,
      "  revision 6;".toList, "  readonly attribute attrib_id attributeList[] = 65531;".toList,
      "\x7d".toList] := by decide
  have hwritten : WrittenAs [.cluster (onOffCluster [.attribute attributeList])] attributeListSrc := by
    rw [WrittenAs, hlines]
    exact written_onOff (.line (by decide +kernel) (.line (by decide) .nil))
  refine ⟨hwritten, fun hkeeps => ?_⟩
  have hkept : attributeList.Kept :=
    understood_onOff.mp (understood_of_keeps hwritten hkeeps) _ (List.mem_singleton_self _)
  exact absurd hkept.2.2.2.1 (by decide +kernel)

end MatterRsServer.Gen.Idl
