import MatterRsServer.Lib.Inet

/-!
# The texts of internet addresses

How addresses are printed, and which characters the texts are made of.
-/
namespace MatterRsServer.Lib.Inet

def decimalText (n : Nat) : List Char := n.repr.toList

/-- `{:x}`. -/
def hexText (n : Nat) : List Char := Nat.toDigits 16 n

def Ipv4Addr.text (ip : Ipv4Addr) : List Char :=
  decimalText ip.a.toNat ++ '.' :: decimalText ip.b.toNat ++ '.' :: decimalText ip.c.toNat ++
    '.' :: decimalText ip.d.toNat

structure Span where
  start : Nat
  len : Nat

/-- The loop that finds the longest run of zero groups, from group `i` on. -/
def longestZeros : Nat → Span → Span → List UInt16 → Span
  | _, longest, _, [] => longest
  | i, longest, current, g :: rest =>
    if g = 0 then
      let current : Span := ⟨if current.len = 0 then i else current.start, current.len + 1⟩
      longestZeros (i + 1) (if longest.len < current.len then current else longest) current rest
    else longestZeros (i + 1) longest ⟨0, 0⟩ rest

/-- `fmt_subslice`. -/
def groupsText : List UInt16 → List Char
  | [] => []
  | [g] => hexText g.toNat
  | g :: rest => hexText g.toNat ++ ':' :: groupsText rest

/-- `to_ipv4_mapped`. -/
def Ipv6Addr.toIpv4Mapped (ip : Ipv6Addr) : Option Ipv4Addr :=
  match ip.segments.drop 6 with
  | [g, h] =>
    if ip.segments.take 6 = [0, 0, 0, 0, 0, 0xffff] then
      some ⟨.ofNat (g.toNat / 256), .ofNat (g.toNat % 256), .ofNat (h.toNat / 256),
        .ofNat (h.toNat % 256)⟩
    else none
  | _ => none

def Ipv6Addr.text (ip : Ipv6Addr) : List Char :=
  match ip.toIpv4Mapped with
  | some v4 => "::ffff:".toList ++ v4.text
  | none =>
    let zeros := longestZeros 0 ⟨0, 0⟩ ⟨0, 0⟩ ip.segments
    if 1 < zeros.len then
      groupsText (ip.segments.take zeros.start) ++ ':' :: ':' ::
        groupsText (ip.segments.drop (zeros.start + zeros.len))
    else groupsText ip.segments

/-- The address of a socket address, with the scope id of an IPv6 one. -/
def SocketAddr.hostText : SocketAddr → List Char
  | .v4 ip _ => ip.text
  | .v6 ip _ _ scopeId =>
    if scopeId = 0 then ip.text else ip.text ++ '%' :: decimalText scopeId.toNat

def SocketAddr.port : SocketAddr → UInt16
  | .v4 _ port => port
  | .v6 _ port _ _ => port

/-- `Display for SocketAddr`. -/
def SocketAddr.text (addr : SocketAddr) : List Char :=
  match addr with
  | .v4 .. => addr.hostText ++ ':' :: decimalText addr.port.toNat
  | .v6 .. => '[' :: addr.hostText ++ ']' :: ':' :: decimalText addr.port.toNat

/-! ### Characters -/

theorem exists_of_mem_hexText {n : Nat} {c : Char} (h : c ∈ hexText n) :
    ∃ d < 16, c = Nat.digitChar d := by
  unfold hexText at h
  induction n using Nat.strongRecOn with
  | ind n ih =>
    rw [Nat.toDigits_eq_if (by decide)] at h
    split at h
    · next hlt => exact ⟨n, hlt, List.mem_singleton.mp h⟩
    · rcases List.mem_append.mp h with hfront | hlast
      · exact ih (n / 16) (by omega) hfront
      · exact ⟨n % 16, by omega, List.mem_singleton.mp hlast⟩

/-- The characters between the fields of an address. -/
def separators : List Char := [':', '.', '%', '[', ']']

theorem not_mem_hexText {c : Char} (h : c ∈ separators) (n : Nat) : c ∉ hexText n := by
  intro hc
  obtain ⟨d, hd, rfl⟩ := exists_of_mem_hexText hc
  have hdigits : ∀ d < 16, Nat.digitChar d ∉ separators := by decide
  exact hdigits d hd h

theorem not_mem_decimalText {c : Char} (h : c ∈ separators) (n : Nat) : c ∉ decimalText n := by
  intro hc
  rw [decimalText, Nat.toList_repr] at hc
  have hdigit := Nat.isDigit_of_mem_toDigits (by decide) (by decide) hc
  have hseparators : ∀ c ∈ separators, c.isDigit = false := by
    simp only [separators, List.forall_mem_cons]
    exact ⟨rfl, rfl, rfl, rfl, rfl, by simp⟩
  rw [hseparators c h] at hdigit
  cases hdigit

theorem Ipv4Addr.not_mem_text {c : Char} (h : c ∈ separators) (hdot : c ≠ '.') (ip : Ipv4Addr) :
    c ∉ ip.text := by
  simp [text, not_mem_decimalText h, hdot]

theorem count_groupsText (groups : List UInt16) :
    (groupsText groups).count ':' = groups.length - 1 := by
  have hgroup (g : UInt16) : (hexText g.toNat).count ':' = 0 :=
    List.count_eq_zero.mpr (not_mem_hexText (by decide) _)
  induction groups with
  | nil => rfl
  | cons g rest ih =>
    cases rest with
    | nil => exact hgroup g
    | cons g' rest =>
      simp only [groupsText, List.count_append, hgroup, List.count_cons_self, ih, List.length_cons]
      omega

theorem not_mem_groupsText {c : Char} (h : c ∈ separators) (hcolon : c ≠ ':')
    (groups : List UInt16) : c ∉ groupsText groups := by
  induction groups with
  | nil => exact List.not_mem_nil
  | cons g rest ih =>
    cases rest with
    | nil => exact not_mem_hexText h _
    | cons g' rest =>
      simp only [groupsText, List.mem_append, List.mem_cons, not_or]
      exact ⟨not_mem_hexText h _, hcolon, ih⟩

/-- However it is compressed, an IPv6 address has two colons. -/
theorem Ipv6Addr.two_le_count (ip : Ipv6Addr) : 2 ≤ ip.text.count ':' := by
  unfold text
  split
  · rw [List.count_append]
    have hmapped : "::ffff:".toList.count ':' = 3 := by decide
    omega
  · dsimp only
    split
    · simp only [List.count_append, List.count_cons_self]
      omega
    · rw [count_groupsText, ip.length_eq]
      decide

theorem Ipv6Addr.not_mem_text {c : Char} (h : c ∈ ['%', '[', ']']) (ip : Ipv6Addr) :
    c ∉ ip.text := by
  have hmem : c ∈ separators ∧ c ≠ ':' ∧ c ≠ '.' ∧ c ∉ "::ffff:".toList := by
    simp only [List.mem_cons, List.not_mem_nil, or_false] at h
    rcases h with rfl | rfl | rfl <;> decide
  obtain ⟨hsep, hcolon, hdot, hmapped⟩ := hmem
  unfold text
  split
  · exact List.mem_append.not.mpr (not_or.mpr ⟨hmapped, Ipv4Addr.not_mem_text hsep hdot _⟩)
  · dsimp only
    split
    · simp only [List.mem_append, List.mem_cons, not_or]
      exact ⟨not_mem_groupsText hsep hcolon _, hcolon, hcolon, not_mem_groupsText hsep hcolon _⟩
    · exact not_mem_groupsText hsep hcolon _

/-- The text of a host has no brackets. -/
theorem SocketAddr.bracket_not_mem {c : Char} (h : c ∈ ['[', ']']) (addr : SocketAddr) :
    c ∉ addr.hostText := by
  have hmem : c ∈ separators ∧ c ≠ '.' ∧ c ≠ '%' ∧ c ∈ ['%', '[', ']'] := by
    simp only [List.mem_cons, List.not_mem_nil, or_false] at h
    rcases h with rfl | rfl <;> decide
  obtain ⟨hsep, hdot, hpercent, hscoped⟩ := hmem
  cases addr with
  | v4 ip port => exact Ipv4Addr.not_mem_text hsep hdot ip
  | v6 ip port flowinfo scopeId =>
    rw [hostText]
    split
    · exact Ipv6Addr.not_mem_text hscoped ip
    · simp only [List.mem_append, List.mem_cons, not_or]
      exact ⟨Ipv6Addr.not_mem_text hscoped ip, hpercent, not_mem_decimalText hsep _⟩

end MatterRsServer.Lib.Inet
