import MatterRsServer.Lib.OrdMap
import Mathlib.Data.String.Basic
import Mathlib.Algebra.Group.Int.Defs
import Mathlib.Algebra.GroupWithZero.Nat

/-!
# `serde_json` values

The JSON values every layer passes around. Objects are key-sorted entry lists
(`serde_json::Map` without `preserve_order`), so every object the code builds goes through
`Entries.insert`; `Json.WellFormed` states it of a whole value. Integers keep
the two ranges of `serde_json::Number`; a float is its bit pattern.
-/
namespace MatterRsServer.Wire
open Lib

/-- `serde_json::Number`: `PosInt(u64)`, `NegInt(i64)` (always negative) or `Float(f64)`. -/
inductive Num where
  | posInt (n : Nat) (lt : n < 2 ^ 64)
  | negInt (m : Nat) (pos : 0 < m) (le : m ≤ 2 ^ 63)
  | float (bits : UInt64)
deriving DecidableEq

/-- `serde_json::Value`. `negInt m` is the number `-m`. -/
inductive Json where
  | null
  | bool (b : Bool)
  | num (n : Num)
  | str (s : String)
  | arr (xs : List Json)
  | obj (kvs : List (String × Json))

namespace Json

instance : Inhabited Json := ⟨.null⟩

def ofU64 (n : UInt64) : Json := .num (.posInt n.toNat n.toNat_lt)

def isNull : Json → Bool
  | .null => true
  | _ => false

def asU64 : Json → Option Nat
  | .num (.posInt n _) => some n
  | _ => none

def asI64 : Json → Option Int
  | .num (.posInt n _) => if n < 2 ^ 63 then some n else none
  | .num (.negInt m _ _) => some (-m)
  | _ => none

def asStr : Json → Option String
  | .str s => some s
  | _ => none

def asBool : Json → Option Bool
  | .bool b => some b
  | _ => none

def asArray : Json → Option (List Json)
  | .arr xs => some xs
  | _ => none

/-- `Value::get` with a string index. -/
def get (key : String) : Json → Option Json
  | .obj kvs => Entries.get? key kvs
  | _ => none

/-- An object from its members; later members win, keys end up sorted. -/
def ofMembers (members : List (String × Json)) : Json := .obj (Entries.insertAll members [])

/-- A map as a JSON object. -/
def ofMap (m : OrdMap String Json) : Json := .obj m.entries

mutual
/-- Every object in the value has strictly ascending keys. -/
def WellFormed : Json → Prop
  | .arr xs => AllWellFormed xs
  | .obj kvs => Entries.Sorted kvs ∧ MembersWellFormed kvs
  | _ => True

def AllWellFormed : List Json → Prop
  | [] => True
  | x :: xs => x.WellFormed ∧ AllWellFormed xs

def MembersWellFormed : List (String × Json) → Prop
  | [] => True
  | (_, v) :: kvs => v.WellFormed ∧ MembersWellFormed kvs
end

mutual
/-- Levels of values below the value. -/
def height : Json → Nat
  | .arr xs => heightList xs
  | .obj kvs => heightMembers kvs
  | _ => 0

def heightList : List Json → Nat
  | [] => 0
  | x :: xs => max (x.height + 1) (heightList xs)

def heightMembers : List (String × Json) → Nat
  | [] => 0
  | (_, v) :: kvs => max (v.height + 1) (heightMembers kvs)
end

mutual
/-- Every number in the value is an integer. -/
def NoFloats : Json → Prop
  | .num (.float _) => False
  | .arr xs => NoFloatsList xs
  | .obj kvs => NoFloatsMembers kvs
  | _ => True

def NoFloatsList : List Json → Prop
  | [] => True
  | x :: xs => x.NoFloats ∧ NoFloatsList xs

def NoFloatsMembers : List (String × Json) → Prop
  | [] => True
  | (_, v) :: kvs => v.NoFloats ∧ NoFloatsMembers kvs
end

/-- Induction over a value, with the hypothesis for every item and every member's value. -/
theorem nestedInduction {motive : Json → Prop} (null : motive .null)
    (bool : ∀ b, motive (.bool b)) (num : ∀ n, motive (.num n)) (str : ∀ s, motive (.str s))
    (arr : ∀ xs, (∀ x ∈ xs, motive x) → motive (.arr xs))
    (obj : ∀ kvs, (∀ e ∈ kvs, motive e.2) → motive (.obj kvs)) : ∀ v, motive v
  | .null => null
  | .bool b => bool b
  | .num n => num n
  | .str s => str s
  | .arr xs => arr xs fun x _ => nestedInduction null bool num str arr obj x
  | .obj kvs => obj kvs fun e _ => nestedInduction null bool num str arr obj e.2
termination_by v => sizeOf v
decreasing_by
  · have hlt := List.sizeOf_lt_of_mem ‹x ∈ xs›
    simp only [Json.arr.sizeOf_spec]
    omega
  · have hlt := List.sizeOf_lt_of_mem ‹e ∈ kvs›
    have hpair : sizeOf e.2 < sizeOf e := by
      obtain ⟨k, v⟩ := e
      simp only [Prod.mk.sizeOf_spec]
      omega
    simp only [Json.obj.sizeOf_spec]
    omega

theorem noFloatsList_iff {xs : List Json} : NoFloatsList xs ↔ ∀ x ∈ xs, x.NoFloats := by
  induction xs with
  | nil => simp [NoFloatsList]
  | cons x xs ih => simp [NoFloatsList, ih]

theorem noFloatsMembers_iff {kvs : List (String × Json)} :
    NoFloatsMembers kvs ↔ ∀ e ∈ kvs, e.2.NoFloats := by
  induction kvs with
  | nil => simp [NoFloatsMembers]
  | cons e kvs ih => obtain ⟨k, v⟩ := e; simp [NoFloatsMembers, ih]

theorem height_lt_heightList {xs : List Json} {x : Json} (h : x ∈ xs) :
    x.height + 1 ≤ heightList xs := by
  induction xs with
  | nil => cases h
  | cons y ys ih =>
    rw [heightList]
    rcases List.mem_cons.mp h with rfl | h
    · exact Nat.le_max_left _ _
    · exact (ih h).trans (Nat.le_max_right _ _)

theorem height_lt_heightMembers {kvs : List (String × Json)} {e : String × Json} (h : e ∈ kvs) :
    e.2.height + 1 ≤ heightMembers kvs := by
  induction kvs with
  | nil => cases h
  | cons d rest ih =>
    obtain ⟨k, v⟩ := d
    rw [heightMembers]
    rcases List.mem_cons.mp h with rfl | h
    · exact Nat.le_max_left _ _
    · exact (ih h).trans (Nat.le_max_right _ _)

end Json

end MatterRsServer.Wire
