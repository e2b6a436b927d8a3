import MatterRsServer.Lib.ByKey
import MatterRsServer.Lib.Words

/-!
# IDL extraction

`crates/gen/build.rs`: the line-by-line reader that turns the cluster IDL into the tables.
A `String` of the program is the list of its characters.
-/
namespace MatterRsServer.Gen.Build

open Lib Lib.Text Lib.Words

abbrev Str := List Char

/-- A field or an attribute. -/
structure Field where
  code : Nat
  name : Str
  ty : Str
  isList : Bool
deriving DecidableEq

structure Command where
  code : Nat
  name : Str
  input : Option Str
  output : Option Str
  timed : Bool
deriving DecidableEq

structure Struct where
  name : Str
  fields : List Field
deriving DecidableEq

structure Event where
  code : Nat
  name : Str
  fields : List Field
deriving DecidableEq

structure Cluster where
  name : Str
  code : Nat
  attrs : List Field := []
  cmds : List Command := []
  structs : List Struct := []
  events : List Event := []
deriving DecidableEq

def u64Max : Nat := 2 ^ 64 - 1

/-- `parse::<u64>()`. -/
def parseU64 (s : Str) : Option Nat := parseUnsigned (2 ^ 64) s

/-- The qualifiers that `parse_field` strips from the front. -/
def fieldQualifiers : List Str :=
  ["optional".toList, "nullable".toList, "readonly".toList, "fabric_sensitive".toList]

/-- Drop the brackets at the head of a reversed name. -/
def dropBrackets : Str → Str
  | ']' :: '[' :: s => dropBrackets s
  | s => s

/-- `trim_end_matches("[]")`. -/
def trimBrackets (s : Str) : Str := (dropBrackets s.reverse).reverse

/-- The last two of the words left, as the name and the type of a field. -/
def fieldOf (code : Nat) (toks : List Str) : Option Field :=
  match toks.reverse with
  | nameTok :: tyTok :: _ =>
    some
      { code
        name := trimBrackets nameTok
        ty := tyTok.takeWhile (· ≠ '<')
        isList := "[]".toList.isSuffixOf nameTok }
  | _ => none

def parseField (line : Str) : Option Field :=
  match rsplitOnce '=' (trimEnd (· = ';') (trim line)) with
  | none => none
  | some (decl, code) =>
    match parseU64 (trim code) with
    | none => none
    | some code => fieldOf code ((splitWhitespace decl).dropWhile (· ∈ fieldQualifiers))

/-- Remove an `access(...)` group. The search for `)` starts at `access(`, which has none. -/
def stripAccess (s : Str) : Str :=
  match cut "access(".toList s with
  | none => s
  | some (before, rest) =>
    match splitOnce ')' rest with
    | none => s
    | some (_, after) => before ++ after

/-- The name and the text in the parentheses of a call. A `)` that only stands before the `(`
makes the slice panic; no line of the IDL has one. -/
def parseCall (call : Str) : Option (Str × Str) :=
  match splitOnce '(' call with
  | none => none
  | some (name, rest) => (rsplitOnce ')' rest).map fun p => (trim name, trim p.1)

def parseCommand (timed : Bool) (s : Str) : Option Command :=
  match rsplitOnce '=' (trimEnd (· = ';') (trim s)) with
  | none => none
  | some (sig, code) =>
    match parseU64 (trim code) with
    | none => none
    | some code =>
      match rsplitOnce ':' sig with
      | none => none
      | some (call, output) =>
        (parseCall (trim call)).map fun p =>
          { code
            name := p.1
            input := if p.2 = [] then none else some p.2
            output := if trim output = "DefaultSuccess".toList then none else some (trim output)
            timed }

/-- What follows the keyword, up to its next occurrence: `line.split(keyword).nth(1)`. -/
def afterKeyword (keyword line : Str) : Str :=
  match cut keyword line with
  | none => []
  | some (_, rest) =>
    match cut keyword rest with
    | none => rest
    | some (piece, _) => piece

/-- The struct or event block being collected. -/
inductive Block where
  | skip
  | struct (name : Str)
  | event (code : Nat) (name : Str)
deriving DecidableEq

structure State where
  clusters : List Cluster := []
  cur : Option Cluster := none
  block : Option (Block × List Field) := none
  depth : Int := 0

namespace Cluster

/-- A block that closes becomes an entry of its cluster. -/
def close (c : Cluster) (fields : List Field) : Block → Cluster
  | .skip => c
  | .struct name => { c with structs := c.structs ++ [⟨name, fields⟩] }
  | .event code name => { c with events := c.events ++ [⟨code, name, fields⟩] }

end Cluster

namespace State

/-- Start to collect a block. -/
def enter (st : State) (kind : Block) : State := { st with block := some (kind, []), depth := 1 }

end State

/-- `line.ends_with('{')`. -/
def opens (line : Str) : Bool := line.getLast? = some '{'

/-- A line inside a block. -/
def readBlock (st : State) (kind : Block) (fields : List Field) (line : Str) : State :=
  let depth := if '{' ∈ line then st.depth + 1 else st.depth
  let depth := if '}' ∈ line then depth - 1 else depth
  if '}' ∈ line ∧ depth ≤ 0 then
    { st with cur := st.cur.map (·.close fields kind), block := none, depth }
  else if kind = .skip then { st with depth }
  else { st with block := some (kind, fields ++ (parseField line).toList), depth }

/-- `[provisional|internal|deprecated]* cluster Name = N {`. -/
def header (words : List Str) (line : Str) : Option Cluster :=
  match words.idxOf? "cluster".toList with
  | none => none
  | some pos =>
    if words[pos + 2]? = some "=".toList ∧ opens line then
      let code := trimEnd (fun c => c = '{' ∨ c = ' ') (words[pos + 3]?.getD [])
      some { name := words[pos + 1]?.getD [], code := (parseU64 code).getD u64Max }
    else none

/-- The code and the name in the first line of an event. -/
def eventHead (line : Str) : Option (Nat × Str) :=
  let rest := trim (stripAccess (afterKeyword "event".toList line))
  match rsplitOnce '=' (trim (trimEnd (· = '{') rest)) with
  | none => none
  | some (name, code) => (parseU64 (trim code)).map fun code => (code, trim name)

/-- A line of the cluster `c` outside its blocks. -/
def readMember (st : State) (c : Cluster) (words : List Str) (line : Str) : State :=
  if line = "\x7d".toList then { st with clusters := st.clusters ++ [c], cur := none }
  else if "enum".toList ∈ words ∨ "bitmap".toList ∈ words then
    if opens line then st.enter .skip else st
  else match words.idxOf? "struct".toList with
  | some pos =>
    let name := trimEnd (· = '{') (words[pos + 1]?.getD [])
    if opens line then st.enter (.struct name) else st
  | none =>
    if "event".toList ∈ words then
      match (if opens line then eventHead line else none) with
      | some (code, name) => st.enter (.event code name)
      | none => st
    else if "attribute".toList ∈ words then
      let attr := parseField (stripAccess (afterKeyword "attribute".toList line))
      { st with cur := some { c with attrs := c.attrs ++ attr.toList } }
    else match words.idxOf? "command".toList with
    | some pos =>
      let timed := (words.take pos).contains "timed".toList
      let cmd := parseCommand timed (stripAccess (afterKeyword "command".toList line))
      { st with cur := some { c with cmds := c.cmds ++ cmd.toList } }
    | none => st

def readLine (st : State) (raw : Str) : State :=
  let line := trim raw
  if "//".toList.isPrefixOf line ∨ "/*".toList.isPrefixOf line ∨ line = [] then st
  else match st.block with
  | some (kind, fields) => readBlock st kind fields line
  | none =>
    match header (splitWhitespace line) line with
    | some c => { st with clusters := st.clusters ++ st.cur.toList, cur := some c }
    | none =>
      match st.cur with
      | none => st
      | some c => readMember st c (splitWhitespace line) line

/-- One table for each code, in the order of the codes. -/
def finish (st : State) : List Cluster :=
  ByKey.dedupByKey Cluster.code (ByKey.sortByKey Cluster.code
    ((st.clusters ++ st.cur.toList).filter fun c => c.code ≠ u64Max))

def parse (src : Str) : List Cluster := finish ((lines src).foldl readLine {})

end MatterRsServer.Gen.Build
