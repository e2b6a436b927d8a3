import Mathlib.Data.List.Basic

/-!
# Cluster tables

`crates/gen/src/lib.rs`: the records that the build generates from the IDL, and the lookups
in them. The table itself is a parameter; it is strictly ascending by code.
-/
namespace MatterRsServer.Gen

structure Field where
  code : UInt32
  name : String
  ty : String
  isList : Bool
deriving DecidableEq

structure Struct where
  name : String
  fields : List Field
deriving DecidableEq

structure Attr where
  code : UInt32
  ty : String
  isList : Bool
deriving DecidableEq

structure Cluster where
  code : UInt32
  attributes : List Attr
  structs : List Struct
deriving DecidableEq

namespace Cluster

def findStruct (c : Cluster) (name : String) : Option Struct :=
  c.structs.find? fun s => s.name = name

def attr (c : Cluster) (code : UInt32) : Option Attr := c.attributes.find? fun a => a.code = code

end Cluster

/-- `CLUSTERS`. -/
structure Tables where
  clusters : List Cluster
  ascending : clusters.Pairwise fun a b => a.code.toNat < b.code.toNat

/-- `cluster`: with ascending codes the binary search finds what any search finds. -/
def Tables.cluster (t : Tables) (code : UInt32) : Option Cluster :=
  t.clusters.find? fun c => c.code = code

/-- Every cluster of the table is found by its code. -/
theorem Tables.cluster_code {t : Tables} {c : Cluster} (h : c ∈ t.clusters) :
    t.cluster c.code = some c := by
  obtain ⟨clusters, ascending⟩ := t
  unfold cluster
  dsimp only at h ⊢
  induction clusters with
  | nil => cases h
  | cons d ds ih =>
    obtain ⟨hd, hds⟩ := List.pairwise_cons.mp ascending
    rcases List.mem_cons.mp h with rfl | h
    · simp
    · have hlt := hd c h
      have hne : d.code ≠ c.code := fun heq => absurd hlt (by rw [heq]; omega)
      rw [List.find?_cons_of_neg (by simpa using hne)]
      exact ih hds h

end MatterRsServer.Gen
