import MatterRsServer.Lib.Words
import MatterRsServer.Stack.Identity

/-!
# Fabric labels

`normalize_fabric_label` of `crates/controller/src/storage.rs` limits a label to 32 characters,
`truncate_to_bytes` of `crates/stack/src/identity.rs` to 32 bytes. The second one looks for the
place of its cut backwards and cuts there, which panics where it is no boundary.
-/
namespace MatterRsServer.Stack
open Lib Lib.Utf8 Controller

namespace Slicing

/-- The loop of `truncate_to_bytes`: `end` as it is left. -/
def boundaryFrom (s : List Char) : Nat → Nat
  | 0 => 0
  | n + 1 => if isCharBoundary s (n + 1) then n + 1 else boundaryFrom s n

/-- `truncate_to_bytes` as it cuts; `none` is a panic. -/
def truncateToBytes (s : String) (maxBytes : Nat) : Option String :=
  if s.utf8ByteSize ≤ maxBytes then some s
  else (slice s.toList 0 (boundaryFrom s.toList maxBytes)).map String.ofList

end Slicing

def trimmedLabel (label : Option String) : List Char :=
  (label.map fun l => Words.trim l.toList).getD []

/-- The label as `normalize_fabric_label` takes it: trimmed, and the default for an empty one. -/
def effectiveLabel (label : Option String) : List Char :=
  if (trimmedLabel label).isEmpty then "HomeAssistant".toList else trimmedLabel label

def normalizeFabricLabel (label : Option String) : String :=
  .ofList ((effectiveLabel label).take 32)

/-- A label on its way from a client to a fabric. -/
def clampLabel (label : Option String) : Option String :=
  Slicing.truncateToBytes (normalizeFabricLabel label) fabricLabelMaxBytes

/-! ### The longest prefix of a size -/

theorem byteLen_takeBytes (n : Nat) (s : List Char) : byteLen (takeBytes n s) ≤ n :=
  takeBytes_fits n s

/-- Every beginning that fits is within the one that is taken. -/
theorem prefix_takeBytes {p s : List Char} {n : Nat} (hp : p <+: s) (hn : byteLen p ≤ n) :
    p <+: takeBytes n s := by
  induction s generalizing p n with
  | nil => exact hp
  | cons c s ih =>
    cases p with
    | nil => exact List.nil_prefix
    | cons d p =>
      obtain ⟨rfl, htail⟩ := List.cons_prefix_cons.mp hp
      rw [byteLen_cons] at hn
      rw [takeBytes, if_pos (by omega)]
      exact (List.prefix_cons_inj d).mpr (ih htail (by omega))

theorem takeBytes_of_fits {s : List Char} {n : Nat} (h : byteLen s ≤ n) : takeBytes n s = s :=
  (takeBytes_isPrefix n s).eq_of_length_le (prefix_takeBytes (List.prefix_refl s) h).length_le

/-- Of the characters of which at most `n` bytes are taken, at most `n` count. -/
theorem takeBytes_take (n : Nat) (s : List Char) : takeBytes n (s.take n) = takeBytes n s := by
  have hlength : (takeBytes n s).length ≤ n :=
    (length_le_byteLen _).trans (byteLen_takeBytes n s)
  have htaken : takeBytes n s <+: s.take n :=
    List.prefix_take_iff.mpr ⟨takeBytes_isPrefix n s, hlength⟩
  have hshort : takeBytes n (s.take n) <+: takeBytes n s :=
    prefix_takeBytes ((takeBytes_isPrefix n _).trans (List.take_prefix n s)) (byteLen_takeBytes n _)
  exact hshort.eq_of_length_le (prefix_takeBytes htaken (byteLen_takeBytes n s)).length_le

theorem takeBytes_ne_nil {s : List Char} {n : Nat} (hs : s ≠ []) (hn : 4 ≤ n) :
    takeBytes n s ≠ [] := by
  obtain ⟨c, s, rfl⟩ := List.exists_cons_of_ne_nil hs
  have hc := c.utf8Size_le_four
  rw [takeBytes, if_pos (by omega)]
  exact List.cons_ne_nil _ _

/-! ### The cut -/

namespace Slicing

/-- The loop ends where the longest beginning that fits ends. -/
theorem boundaryFrom_eq (s : List Char) (n : Nat) : boundaryFrom s n = byteLen (takeBytes n s) := by
  induction n with
  | zero => exact (Nat.le_zero.mp (byteLen_takeBytes 0 s)).symm
  | succ n ih =>
    have hfits := byteLen_takeBytes (n + 1) s
    by_cases hboundary : isCharBoundary s (n + 1) = true
    · obtain ⟨a, ha, hlen⟩ := isCharBoundary_iff.mp hboundary
      have hwithin := byteLen_mono (prefix_takeBytes ha hlen.le)
      rw [boundaryFrom, if_pos hboundary]
      omega
    · have hne : byteLen (takeBytes (n + 1) s) ≠ n + 1 := fun hlen =>
        hboundary (isCharBoundary_iff.mpr ⟨_, takeBytes_isPrefix (n + 1) s, hlen⟩)
      have hle := byteLen_mono (prefix_takeBytes (takeBytes_isPrefix (n + 1) s)
        (show byteLen (takeBytes (n + 1) s) ≤ n by omega))
      have hge := byteLen_mono (prefix_takeBytes (takeBytes_isPrefix n s)
        ((byteLen_takeBytes n s).trans (Nat.le_add_right n 1)))
      rw [boundaryFrom, if_neg hboundary, ih]
      omega

/-- The cut never panics: it is the longest beginning that fits. -/
theorem truncateToBytes_eq (s : String) (maxBytes : Nat) :
    truncateToBytes s maxBytes = some (Stack.truncateToBytes s maxBytes) := by
  unfold truncateToBytes Stack.truncateToBytes
  split
  next => rfl
  next =>
    obtain ⟨rest, hrest⟩ := takeBytes_isPrefix maxBytes s.toList
    have hsplit : splitAt s.toList (boundaryFrom s.toList maxBytes) =
        some (takeBytes maxBytes s.toList, rest) :=
      splitAt_eq_some.mpr ⟨hrest.symm, (boundaryFrom_eq s.toList maxBytes).symm⟩
    rw [slice_zero, hsplit]
    rfl

end Slicing

theorem truncateToBytes_toList (s : String) (maxBytes : Nat) :
    (truncateToBytes s maxBytes).toList = takeBytes maxBytes s.toList := by
  unfold truncateToBytes
  split
  next hfits =>
    rw [utf8ByteSize_eq_byteLen] at hfits
    exact (takeBytes_of_fits hfits).symm
  next => exact String.toList_ofList

/-- A label that was cut is not cut again. -/
theorem truncateToBytes_idem (s : String) (maxBytes : Nat) :
    truncateToBytes (truncateToBytes s maxBytes) maxBytes = truncateToBytes s maxBytes := by
  rw [truncateToBytes, if_pos (truncateToBytes_fits s maxBytes).1]

/-! ### Clamping -/

theorem clampLabel_eq (label : Option String) :
    clampLabel label = some (truncateToBytes (normalizeFabricLabel label) fabricLabelMaxBytes) :=
  Slicing.truncateToBytes_eq _ _

theorem clamped_toList (label : Option String) :
    (truncateToBytes (normalizeFabricLabel label) fabricLabelMaxBytes).toList =
      takeBytes 32 (effectiveLabel label) := by
  rw [truncateToBytes_toList, normalizeFabricLabel, String.toList_ofList]
  exact takeBytes_take 32 _

theorem effectiveLabel_of_ne {label : Option String} (h : trimmedLabel label ≠ []) :
    effectiveLabel label = trimmedLabel label :=
  if_neg fun hempty => h (List.isEmpty_iff.mp hempty)

/-- A label begins with a character that is not white space. -/
theorem effectiveLabel_starts (label : Option String) :
    ∃ c rest, effectiveLabel label = c :: rest ∧ Words.isWhite c = false := by
  by_cases hne : trimmedLabel label = []
  · have hdefault : effectiveLabel label = "HomeAssistant".toList := by
      rw [effectiveLabel, hne]
      rfl
    exact ⟨'H', "omeAssistant".toList, hdefault, by decide⟩
  · obtain ⟨c, rest, hcons⟩ := List.exists_cons_of_ne_nil hne
    refine ⟨c, rest, (effectiveLabel_of_ne hne).trans hcons, ?_⟩
    cases label with
    | none => exact absurd rfl hne
    | some l =>
      refine Words.head?_trim l.toList c ?_
      have htrim : Words.trim l.toList = c :: rest := hcons
      rw [htrim, List.head?_cons, Option.mem_def]

/-- A text that begins so loses the white space at its end only. -/
theorem effectiveLabel_of_starts {r : String} {c : Char} {rest : List Char}
    (hr : r.toList = c :: rest) (hc : Words.isWhite c = false) :
    effectiveLabel (some r) = Words.trimEnd Words.isWhite r.toList := by
  have htrim : trimmedLabel (some r) = Words.trimEnd Words.isWhite r.toList := by
    change Words.trim r.toList = _
    rw [Words.trim, hr, List.dropWhile_cons_of_neg (by simp [hc])]
  have hne : trimmedLabel (some r) ≠ [] := by
    intro hnil
    rw [htrim] at hnil
    have hall := List.rdropWhile_eq_nil_iff.mp hnil c (hr ▸ List.mem_cons_self)
    rw [hc] at hall
    cases hall
  rw [effectiveLabel_of_ne hne, htrim]

/-- What a label is clamped to: the longest beginning of it that both limits allow. Clamped once
more, it only loses white space at its end. And no text can make the cut panic. -/
theorem clampLabel_longest (label : Option String) :
    (∃ r, clampLabel label = some r ∧ r ≠ "" ∧ r.utf8ByteSize ≤ 32 ∧ r.length ≤ 32 ∧
      r.toList <+: effectiveLabel label ∧
      isCharBoundary (effectiveLabel label) r.utf8ByteSize = true ∧
      (∀ p, p <+: effectiveLabel label → byteLen p ≤ 32 → p.length ≤ 32 → p <+: r.toList) ∧
      clampLabel (some r) = some (.ofList (Words.trimEnd Words.isWhite r.toList))) ∧
    ∀ s maxBytes, ∃ t, Slicing.truncateToBytes s maxBytes = some t := by
  refine ⟨⟨_, clampLabel_eq label, ?_⟩, fun s n => ⟨_, Slicing.truncateToBytes_eq s n⟩⟩
  generalize hr : truncateToBytes (normalizeFabricLabel label) fabricLabelMaxBytes = r
  obtain ⟨c, rest, heffective, hc⟩ := effectiveLabel_starts label
  have hlist : r.toList = takeBytes 32 (effectiveLabel label) := by
    rw [← hr, clamped_toList]
  have hprefix : r.toList <+: effectiveLabel label := hlist ▸ takeBytes_isPrefix 32 _
  have hfits : byteLen r.toList ≤ 32 := hlist ▸ byteLen_takeBytes 32 _
  have hne : r.toList ≠ [] := by
    rw [hlist]
    exact takeBytes_ne_nil (heffective ▸ List.cons_ne_nil c rest) (by decide)
  have hstarts : ∃ tail, r.toList = c :: tail := by
    obtain ⟨d, tail, htail⟩ := List.exists_cons_of_ne_nil hne
    rw [htail, heffective] at hprefix
    exact ⟨tail, (List.cons_prefix_cons.mp hprefix).1 ▸ htail⟩
  obtain ⟨tail, htail⟩ := hstarts
  have hagain : byteLen (Words.trimEnd Words.isWhite r.toList) ≤ 32 :=
    (byteLen_mono (List.rdropWhile_prefix _ _)).trans hfits
  refine ⟨?_, ?_, ?_, hprefix, ?_, ?_, ?_⟩
  · rintro rfl
    exact hne rfl
  · rwa [utf8ByteSize_eq_byteLen]
  · exact (length_le_byteLen r.toList).trans hfits
  · exact isCharBoundary_iff.mpr ⟨r.toList, hprefix, (utf8ByteSize_eq_byteLen r).symm⟩
  · intro p hp hbytes _
    rw [hlist]
    exact prefix_takeBytes hp hbytes
  · rw [clampLabel_eq]
    refine congrArg some (String.toList_injective ?_)
    rw [clamped_toList, effectiveLabel_of_starts htail hc, String.toList_ofList]
    exact takeBytes_of_fits hagain

/-! ### The fabric and its nodes -/

section Update

variable {μ κ : Type}

/-- The label in the command of `push_fabric_label`. -/
def pushFabricLabel (label : String) : Option String :=
  Slicing.truncateToBytes label fabricLabelMaxBytes

/-- `update_fabric_label`: the fabric takes the label, then it is pushed to each node, whose
answer is only logged. -/
def updateFabricLabel (rs : RsMatter μ κ) (m : μ) (fabIdx : UInt8) (label : String)
    (nodes : List NodeId) : Option (Except String (List (NodeId × String)) × μ) := do
  let label ← Slicing.truncateToBytes label fabricLabelMaxBytes
  match rs.updateLabel m fabIdx label with
  | (.error e, m) => return (.error e, m)
  | (.ok _, m) =>
    let pushes ← nodes.mapM fun node => (pushFabricLabel label).map fun pushed => (node, pushed)
    return (.ok pushes, m)

/-- Every node is sent the label that the fabric took. -/
theorem updateFabricLabel_eq (rs : RsMatter μ κ) (m : μ) (fabIdx : UInt8) (label : String)
    (nodes : List NodeId) :
    updateFabricLabel rs m fabIdx label nodes =
      let cut := truncateToBytes label fabricLabelMaxBytes
      let updated := rs.updateLabel m fabIdx cut
      some (updated.1.map fun _ => nodes.map fun node => (node, cut), updated.2) := by
  have hpush : pushFabricLabel (truncateToBytes label fabricLabelMaxBytes) =
      some (truncateToBytes label fabricLabelMaxBytes) := by
    rw [pushFabricLabel, Slicing.truncateToBytes_eq, truncateToBytes_idem]
  have hpushes : (nodes.mapM fun node =>
      (pushFabricLabel (truncateToBytes label fabricLabelMaxBytes)).map fun pushed =>
        (node, pushed)) =
      some (nodes.map fun node => (node, truncateToBytes label fabricLabelMaxBytes)) := by
    rw [hpush]
    exact List.mapM_pure
  unfold updateFabricLabel
  rw [Slicing.truncateToBytes_eq, Option.bind_eq_bind, Option.bind_some]
  dsimp only
  rcases rs.updateLabel m fabIdx (truncateToBytes label fabricLabelMaxBytes) with ⟨_ | _, m⟩
  · rfl
  · dsimp only
    rw [hpushes]
    rfl

end Update

end MatterRsServer.Stack
