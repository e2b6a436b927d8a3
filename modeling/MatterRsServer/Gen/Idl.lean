import MatterRsServer.Gen.Build

/-!
# The grammar of the cluster IDL

The declarations of `controller-clusters-V1.6.0.0.matter`, the lines that they are written as,
and what a cluster block declares. A name is any identifier, so it may be a keyword or contain
one; qualifiers contain none.
-/
namespace MatterRsServer.Gen.Idl

open Lib Lib.Words Build

def isIdentChar (c : Char) : Bool := c.isAlphanum || c = '_'

structure Ident where
  text : Str
  ne_nil : text ≠ []
  plain : ∀ c ∈ text, isIdentChar c = true

structure Numeral where
  digits : Str
  ne_nil : digits ≠ []
  plain : ∀ c ∈ digits, c.isDigit = true

def Numeral.value (n : Numeral) : Nat := Nat.ofDigitChars 10 n.digits 0

def keywords : List Str :=
  ["cluster".toList, "enum".toList, "bitmap".toList, "struct".toList, "event".toList,
    "attribute".toList, "command".toList]

/-- A qualifier, or a word of an access clause. -/
structure Qualifier extends Ident where
  noKeyword : ∀ k ∈ keywords, ¬ k <:+: text

def qualifierWords (qualifiers : List Qualifier) : List Str := qualifiers.map fun q => q.text

/-- `access(kind: role, …, kind: role)`. -/
structure Access where
  kind : Qualifier
  inner : List (Qualifier × Qualifier)
  last : Qualifier

/-- The words of a clause after the first, but for the last one. -/
def Access.innerWords (a : Access) : List Str :=
  a.inner.flatMap fun p => [p.1.text ++ [','], p.2.text ++ [':']]

def Access.words (a : Access) : List Str :=
  ("access(".toList ++ (a.kind.text ++ [':'])) :: (a.innerWords ++ [a.last.text ++ [')']])

def accessWords : Option Access → List Str
  | none => []
  | some a => a.words

/-- `optional nullable char_string<32> name[] = 0;`. -/
structure FieldDecl where
  qualifiers : List Qualifier
  ty : Ident
  len : Option Numeral
  name : Ident
  isList : Bool
  code : Numeral

structure AttributeDecl where
  before : List Qualifier
  access : Option Access
  field : FieldDecl

structure CommandDecl where
  before : List Qualifier
  access : Option Access
  name : Ident
  input : Option Ident
  output : Ident
  code : Numeral

structure StructDecl where
  before : List Qualifier
  name : Ident
  code : Option Numeral
  fields : List FieldDecl

structure EventDecl where
  before : List Qualifier
  access : Option Access
  name : Ident
  code : Numeral
  fields : List FieldDecl

/-- A line of an enum or a bitmap. -/
structure Enumerator where
  words : List Str
  noBrace : ∀ w ∈ words, '{' ∉ w ∧ '}' ∉ w

structure EnumDecl where
  before : List Qualifier
  isBitmap : Bool
  name : Ident
  base : Ident
  body : List Enumerator

inductive Item where
  | attribute (a : AttributeDecl)
  | command (c : CommandDecl)
  | struct (s : StructDecl)
  | event (e : EventDecl)
  | enumeration (e : EnumDecl)

structure ClusterDecl where
  before : List Qualifier
  name : Ident
  code : Numeral
  items : List Item

/-- A cluster block, or a block outside of the clusters. -/
inductive Entry where
  | cluster (c : ClusterDecl)
  | struct (s : StructDecl)
  | enumeration (e : EnumDecl)

/-! ### How it is written -/

def equals : Str := ['=']

def opening : Str := ['{']

def closing : Str := ['\x7d']

namespace FieldDecl

def tyWord (f : FieldDecl) : Str :=
  f.ty.text ++
    match f.len with
    | none => []
    | some n => '<' :: (n.digits ++ ['>'])

def nameWord (f : FieldDecl) : Str := f.name.text ++ if f.isList then ['[', ']'] else []

def words (f : FieldDecl) : List Str :=
  qualifierWords f.qualifiers ++ [f.tyWord, f.nameWord, equals, f.code.digits ++ [';']]

end FieldDecl

def AttributeDecl.words (a : AttributeDecl) : List Str :=
  qualifierWords a.before ++ "attribute".toList :: (accessWords a.access ++ a.field.words)

namespace CommandDecl

def inputText (c : CommandDecl) : Str :=
  match c.input with
  | none => []
  | some i => i.text

def callText (c : CommandDecl) : Str := c.name.text ++ '(' :: (c.inputText ++ [')'])

def words (c : CommandDecl) : List Str :=
  qualifierWords c.before ++ "command".toList :: (accessWords c.access ++
    [c.callText ++ [':'], c.output.text, equals, c.code.digits ++ [';']])

end CommandDecl

/-- A block: its first line, what is in it, and the brace that closes it. -/
def blockLines (head : List Str) (body : List (List Str)) : List (List Str) :=
  head :: (body ++ [[closing]])

namespace StructDecl

def codeWords (s : StructDecl) : List Str :=
  match s.code with
  | none => []
  | some n => [equals, n.digits]

def head (s : StructDecl) : List Str :=
  qualifierWords s.before ++ "struct".toList :: s.name.text :: (s.codeWords ++ [opening])

def lines (s : StructDecl) : List (List Str) := blockLines s.head (s.fields.map FieldDecl.words)

end StructDecl

namespace EventDecl

def head (e : EventDecl) : List Str :=
  qualifierWords e.before ++ "event".toList ::
    (accessWords e.access ++ [e.name.text, equals, e.code.digits, opening])

def lines (e : EventDecl) : List (List Str) := blockLines e.head (e.fields.map FieldDecl.words)

end EventDecl

namespace EnumDecl

def keyword (e : EnumDecl) : Str := if e.isBitmap then "bitmap".toList else "enum".toList

def head (e : EnumDecl) : List Str :=
  qualifierWords e.before ++ [e.keyword, e.name.text, [':'], e.base.text, opening]

def lines (e : EnumDecl) : List (List Str) := blockLines e.head (e.body.map Enumerator.words)

end EnumDecl

def Item.lines : Item → List (List Str)
  | .attribute a => [a.words]
  | .command c => [c.words]
  | .struct s => s.lines
  | .event e => e.lines
  | .enumeration e => e.lines

namespace ClusterDecl

def head (c : ClusterDecl) : List Str :=
  qualifierWords c.before ++
    ["cluster".toList, c.name.text, equals, c.code.digits, opening]

def lines (c : ClusterDecl) : List (List Str) := blockLines c.head (c.items.flatMap Item.lines)

end ClusterDecl

def Entry.lines : Entry → List (List Str)
  | .cluster c => c.lines
  | .struct s => s.lines
  | .enumeration e => e.lines

/-- A line that begins a comment, or one in which nothing is declared: the rest of a comment, a
blank line, a revision. -/
def IsComment (raw : Str) : Prop :=
  "//".toList <+: trim raw ∨ "/*".toList <+: trim raw ∨ ('{' ∉ raw ∧ '\x7d' ∉ raw ∧ '=' ∉ raw)

/-- The lines of a text, in any white space, with comments anywhere between them. -/
inductive Written : List (List Str) → List Str → Prop
  | nil : Written [] []
  | line {ws wss raw raws} : Spells ws raw → Written wss raws → Written (ws :: wss) (raw :: raws)
  | comment {wss raw raws} : IsComment raw → Written wss raws → Written wss (raw :: raws)

/-- The text of a document. -/
def WrittenAs (doc : List Entry) (src : Str) : Prop :=
  Written (doc.flatMap Entry.lines) (Words.lines src)

/-! ### What it declares -/

def FieldDecl.declared (f : FieldDecl) : Build.Field := ⟨f.code.value, f.name.text, f.ty.text, f.isList⟩

def CommandDecl.declared (c : CommandDecl) : Build.Command where
  code := c.code.value
  name := c.name.text
  input := c.input.map fun i => i.text
  output := if c.output.text = "DefaultSuccess".toList then none else some c.output.text
  timed := (qualifierWords c.before).contains "timed".toList

def StructDecl.declared (s : StructDecl) : Build.Struct := ⟨s.name.text, s.fields.map FieldDecl.declared⟩

def EventDecl.declared (e : EventDecl) : Build.Event :=
  ⟨e.code.value, e.name.text, e.fields.map FieldDecl.declared⟩

def attributesOf (items : List Item) : List AttributeDecl :=
  items.filterMap fun i => match i with
    | .attribute a => some a
    | _ => none

def commandsOf (items : List Item) : List CommandDecl :=
  items.filterMap fun i => match i with
    | .command c => some c
    | _ => none

def structsOf (items : List Item) : List StructDecl :=
  items.filterMap fun i => match i with
    | .struct s => some s
    | _ => none

def eventsOf (items : List Item) : List EventDecl :=
  items.filterMap fun i => match i with
    | .event e => some e
    | _ => none

/-- The table of a cluster block: all that it declares, in order. -/
def ClusterDecl.declared (c : ClusterDecl) : Build.Cluster where
  name := c.name.text
  code := c.code.value
  attrs := (attributesOf c.items).map fun a => a.field.declared
  cmds := (commandsOf c.items).map CommandDecl.declared
  structs := (structsOf c.items).map StructDecl.declared
  events := (eventsOf c.items).map EventDecl.declared

def clustersOf (doc : List Entry) : List ClusterDecl :=
  doc.filterMap fun e => match e with
    | .cluster c => some c
    | _ => none

/-- For the code of every cluster block the tables have one cluster: what the block declares. -/
def KeepsEverything (doc : List Entry) (src : Str) : Prop :=
  ∀ b ∈ clustersOf doc, (parse src).filter (fun c => c.code = b.code.value) = [b.declared]

/-! ### What the reader understands -/

/-- The code fits, and some word before the name is not a qualifier to be stripped. -/
def FieldDecl.Kept (f : FieldDecl) : Prop :=
  f.code.value < 2 ^ 64 ∧
    ¬ (f.tyWord ∈ fieldQualifiers ∧ ∀ w ∈ qualifierWords f.qualifiers, w ∈ fieldQualifiers)

/-- Words that make a line the head of a block. -/
def blockWords : List Str :=
  ["enum".toList, "bitmap".toList, "struct".toList, "event".toList]

def AttributeDecl.Kept (a : AttributeDecl) : Prop :=
  a.field.tyWord ∉ blockWords ∧ a.field.nameWord ∉ blockWords ∧
    ¬ "attribute".toList <:+: a.field.ty.text ∧ ¬ "attribute".toList <:+: a.field.name.text ∧
    a.field.Kept

def CommandDecl.Kept (c : CommandDecl) : Prop :=
  c.output.text ∉ blockWords ∧ c.output.text ≠ "attribute".toList ∧
    ¬ "command".toList <:+: c.name.text ∧ ¬ "command".toList <:+: c.inputText ∧
    ¬ "command".toList <:+: c.output.text ∧
    ¬ (c.access = none ∧ "access".toList <:+ c.name.text) ∧ c.code.value < 2 ^ 64

def StructDecl.Named (s : StructDecl) : Prop :=
  s.name.text ≠ "enum".toList ∧ s.name.text ≠ "bitmap".toList

def StructDecl.Kept (s : StructDecl) : Prop := s.Named ∧ ∀ f ∈ s.fields, f.Kept

/-- The first line of an event is read as one. -/
def EventDecl.Headed (e : EventDecl) : Prop :=
  e.name.text ≠ "enum".toList ∧ e.name.text ≠ "bitmap".toList ∧ e.name.text ≠ "struct".toList ∧
    ¬ "event".toList <:+: e.name.text ∧ e.code.value < 2 ^ 64

def EventDecl.Kept (e : EventDecl) : Prop := e.Headed ∧ ∀ f ∈ e.fields, f.Kept

def Item.Kept : Item → Prop
  | .attribute a => a.Kept
  | .command c => c.Kept
  | .struct s => s.Kept
  | .event e => e.Kept
  | .enumeration _ => True

/-- The first block with a code is the one whose table stays. -/
def firstWith (doc : List Entry) (code : Nat) : Option ClusterDecl :=
  (clustersOf doc).find? fun b => b.code.value = code

/-- Every code is below the marker for an unreadable one, the first block with it is understood
item by item, and no later block with the code declares anything else. -/
def Understood (doc : List Entry) : Prop :=
  ∀ b ∈ clustersOf doc, b.code.value < u64Max ∧
    ∃ first, firstWith doc b.code.value = some first ∧ (∀ i ∈ first.items, i.Kept) ∧
      first.declared = b.declared

end MatterRsServer.Gen.Idl
