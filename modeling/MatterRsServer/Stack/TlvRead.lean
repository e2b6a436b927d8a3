import MatterRsServer.Lib.Result
import MatterRsServer.Stack.TlvJson

/-!
# What the reader accepts

`tlv_to_json_at` fails in two cases only: a part that it reads does not parse, or lies too
deep. Otherwise its result does not depend on the depth. The epoch shift never returns an
unsigned number as it was.
-/
namespace MatterRsServer.Stack
open Lib Wire Gen

namespace Tlv

mutual
/-- Every part that the reader looks at parses; struct members that it skips do not count. -/
def wellFormed : Tlv → Bool
  | .struct members => membersWellFormed members
  | .array items => itemsWellFormed items
  | .list items => itemsWellFormed items
  | .malformed => false
  | _ => true

def membersWellFormed : List (Tag × Tlv) → Bool
  | [] => true
  | (.context _, child) :: rest => child.wellFormed && membersWellFormed rest
  | (.other, _) :: rest => membersWellFormed rest
  | (.malformed, _) :: _ => false

def itemsWellFormed : List Tlv → Bool
  | [] => true
  | child :: rest => child.wellFormed && itemsWellFormed rest
end

mutual
/-- Levels of elements below the element, of those that the reader looks at. -/
def height : Tlv → Nat
  | .struct members => membersHeight members
  | .array items => itemsHeight items
  | .list items => itemsHeight items
  | _ => 0

def membersHeight : List (Tag × Tlv) → Nat
  | [] => 0
  | (.context _, child) :: rest => max (child.height + 1) (membersHeight rest)
  | (.other, _) :: rest => membersHeight rest
  | (.malformed, _) :: rest => membersHeight rest

def itemsHeight : List Tlv → Nat
  | [] => 0
  | child :: rest => max (child.height + 1) (itemsHeight rest)
end

mutual
/-- The JSON value of an element that the reader accepts. -/
def json : Tlv → Json
  | .utf8 bytes => .str (Text.fromUtf8Lossy bytes)
  | .sint i => jsonOfI64 i
  | .uint n => .ofU64 n
  | .bool b => .bool b
  | .f32 bits => jsonOfF64 (Float32.ofBits bits).toFloat
  | .f64 bits => jsonOfF64 (Float.ofBits bits)
  | .octets bytes => .str (base64Encode bytes)
  | .null => .null
  | .struct members => .ofMembers (membersJson members)
  | .array items => .arr (itemsJson items)
  | .list items => .arr (itemsJson items)
  | .malformed => .null

def membersJson : List (Tag × Tlv) → List (String × Json)
  | [] => []
  | (.context n, child) :: rest => (n.toNat.repr, child.json) :: membersJson rest
  | (.other, _) :: rest => membersJson rest
  | (.malformed, _) :: rest => membersJson rest

def itemsJson : List Tlv → List Json
  | [] => []
  | child :: rest => child.json :: itemsJson rest
end

end Tlv

/-- A leaf is read at every depth that is not too deep. -/
theorem ite_leaf (d : Nat) (v : Json) : (if d > maxDepth then none else some v) =
    if true = true ∧ d + 0 ≤ maxDepth then some v else none := by
  by_cases h : d > maxDepth
  · rw [if_pos h, if_neg (by omega)]
  · rw [if_neg h, if_pos ⟨rfl, by omega⟩]

/-- A container is read when its own depth and its members are. -/
theorem ite_container {α : Type} {d h : Nat} {ok : Bool} {read : Option α} {v : α} (f : α → Json)
    (hread : d + 1 ≤ maxDepth + 1 →
      read = if ok = true ∧ d + 1 + h ≤ maxDepth + 1 then some v else none) :
    (if d > maxDepth then none else read.map f) =
      if ok = true ∧ d + h ≤ maxDepth then some (f v) else none := by
  by_cases hd : d > maxDepth
  · rw [if_pos hd, if_neg (by omega)]
  · rw [if_neg hd, hread (by omega)]
    by_cases hok : ok = true ∧ d + h ≤ maxDepth
    · rw [if_pos hok, if_pos ⟨hok.1, by omega⟩]
      rfl
    · rw [if_neg hok, if_neg (fun hc => hok ⟨hc.1, by omega⟩)]
      rfl

mutual
/-- An element is read at depth `d` exactly when it parses and nothing in it lies too deep. -/
theorem tlvToJsonAt_eq (e : Tlv) (d : Nat) : tlvToJsonAt e d =
    if e.wellFormed = true ∧ d + e.height ≤ maxDepth then some e.json else none := by
  unfold tlvToJsonAt
  match e with
  | .struct members => exact ite_container _ (membersToJson_eq members (d + 1))
  | .array items => exact ite_container _ (itemsToJson_eq items (d + 1))
  | .list items => exact ite_container _ (itemsToJson_eq items (d + 1))
  | .malformed => simp [Tlv.wellFormed]
  | .uint _ | .sint _ | .bool _ | .f32 _ | .f64 _ | .utf8 _ | .octets _ | .null =>
    exact ite_leaf d _

theorem membersToJson_eq (members : List (Tag × Tlv)) (d : Nat) (hd : d ≤ maxDepth + 1) :
    membersToJson members d =
      if Tlv.membersWellFormed members = true ∧ d + Tlv.membersHeight members ≤ maxDepth + 1
      then some (Tlv.membersJson members) else none := by
  match members with
  | [] => simp [membersToJson, Tlv.membersWellFormed, Tlv.membersHeight, Tlv.membersJson, hd]
  | (.context n, child) :: rest =>
    rw [membersToJson, tlvToJsonAt_eq child d, membersToJson_eq rest d hd]
    simp only [Tlv.membersWellFormed, Tlv.membersHeight, Tlv.membersJson, Bool.and_eq_true]
    by_cases hc : child.wellFormed = true ∧ d + child.height ≤ maxDepth
    · by_cases hr : Tlv.membersWellFormed rest = true ∧ d + Tlv.membersHeight rest ≤ maxDepth + 1
      · rw [if_pos hc, if_pos hr, if_pos ⟨⟨hc.1, hr.1⟩, by omega⟩]
      · rw [if_pos hc, if_neg hr, if_neg (fun h => hr ⟨h.1.2, by omega⟩)]
    · rw [if_neg hc]
      exact (if_neg fun h => hc ⟨h.1.1, by omega⟩).symm
  | (.other, _) :: rest =>
    rw [membersToJson, membersToJson_eq rest d hd, Tlv.membersWellFormed, Tlv.membersHeight,
      Tlv.membersJson]
  | (.malformed, _) :: _ => simp [membersToJson, Tlv.membersWellFormed]

theorem itemsToJson_eq (items : List Tlv) (d : Nat) (hd : d ≤ maxDepth + 1) :
    itemsToJson items d =
      if Tlv.itemsWellFormed items = true ∧ d + Tlv.itemsHeight items ≤ maxDepth + 1
      then some (Tlv.itemsJson items) else none := by
  match items with
  | [] => simp [itemsToJson, Tlv.itemsWellFormed, Tlv.itemsHeight, Tlv.itemsJson, hd]
  | child :: rest =>
    rw [itemsToJson, tlvToJsonAt_eq child d, itemsToJson_eq rest d hd]
    simp only [Tlv.itemsWellFormed, Tlv.itemsHeight, Tlv.itemsJson, Bool.and_eq_true]
    by_cases hc : child.wellFormed = true ∧ d + child.height ≤ maxDepth
    · by_cases hr : Tlv.itemsWellFormed rest = true ∧ d + Tlv.itemsHeight rest ≤ maxDepth + 1
      · rw [if_pos hc, if_pos hr, if_pos ⟨⟨hc.1, hr.1⟩, by omega⟩]
      · rw [if_pos hc, if_neg hr, if_neg (fun h => hr ⟨h.1.2, by omega⟩)]
    · rw [if_neg hc]
      exact (if_neg fun h => hc ⟨h.1.1, by omega⟩).symm
end

/-- The type name that the reader looks up for an attribute. -/
def attrType (gen : Tables) (cluster attr : UInt32) : String :=
  (((gen.cluster cluster).bind fun c => c.attr attr).map Attr.ty).getD ""

theorem attrValueToJson_eq (gen : Tables) (cluster attr : UInt32) (e : Tlv) :
    attrValueToJson gen cluster attr e =
      (tlvToJsonAt e 0).bind (applyEpoch (attrType gen cluster attr)) := rfl

def IsEpoch (ty : String) : Prop := baseType ty = some .epochS ∨ baseType ty = some .epochUs

theorem checkedAdd_ne {v : Json} {m offset : Nat} (hm : v.asU64 = some m) (h : 0 < offset) :
    checkedAdd m offset ≠ some v := by
  intro heq
  unfold checkedAdd at heq
  split at heq
  · cases heq
    have hsame : m + offset = m := Option.some.inj hm
    omega
  · cases heq

/-- The shift leaves a value as it is exactly when it does not apply. -/
theorem applyEpoch_eq_self {ty : String} {v : Json} :
    applyEpoch ty v = some v ↔ (IsEpoch ty → v.asU64 = none) := by
  unfold applyEpoch IsEpoch
  cases hm : v.asU64 with
  | none =>
    split
    · simp
    · simp
    · simp
  | some m =>
    split
    next hs => simp [hs, checkedAdd_ne hm (show 0 < matterEpochOffsetS by decide)]
    next hus => simp [hus, checkedAdd_ne hm (show 0 < matterEpochOffsetUs by decide)]
    next hs hus => exact iff_of_true rfl fun h => (h.elim hs hus).elim

theorem applyEpoch_arr (ty : String) (vs : List Json) : applyEpoch ty (.arr vs) = some (.arr vs) :=
  applyEpoch_eq_self.mpr fun _ => rfl

theorem itemsToJson_eq_mapM (items : List Tlv) (d : Nat) :
    itemsToJson items d = items.mapM fun e => tlvToJsonAt e d := by
  induction items with
  | nil =>
    rw [itemsToJson]
    rfl
  | cons e rest ih =>
    rw [itemsToJson, ih, List.mapM_cons]
    cases tlvToJsonAt e d with
    | none => rfl
    | some v => cases rest.mapM fun e => tlvToJsonAt e d <;> rfl

end MatterRsServer.Stack
