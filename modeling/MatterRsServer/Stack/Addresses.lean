import MatterRsServer.Controller.Addr
import MatterRsServer.Lib.InetText
import Mathlib.Logic.Function.Iterate

/-!
# Addresses as texts

`addr_to_string` of `crates/stack/src/ops/mod.rs` is undone by `split_ip_port`.
-/
namespace MatterRsServer.Stack
open Lib.Inet Controller

/-- `Address`; what a BTP address holds is left open. -/
inductive Address (β : Type) where
  | udp (addr : SocketAddr)
  | tcp (addr : SocketAddr)
  | btp (addr : β)

variable {β : Type}

/-- `addr_to_string`; `display` prints a BTP address. -/
def addrToString (display : β → String) : Address β → String
  | .udp sa | .tcp sa => .ofList sa.text
  | .btp addr => display addr

/-- The address is this socket address, on either transport. -/
def Address.IsSocket (addr : Address β) (sa : SocketAddr) : Prop := addr = .udp sa ∨ addr = .tcp sa

theorem addrToString_of_isSocket {addr : Address β} {sa : SocketAddr} (h : addr.IsSocket sa)
    (display : β → String) : addrToString display addr = .ofList sa.text := by
  rcases h with rfl | rfl
  · rfl
  · rfl

/-- A host has no colon, or at least two. -/
theorem count_hostText (sa : SocketAddr) : sa.hostText.count ':' ≠ 1 := by
  cases sa with
  | v4 ip port =>
    have hcolon : ':' ∉ ip.text := Ipv4Addr.not_mem_text (by decide) (by decide) ip
    simp [SocketAddr.hostText, List.count_eq_zero.mpr hcolon]
  | v6 ip port flowinfo scopeId =>
    have hcount := ip.two_le_count
    rw [SocketAddr.hostText]
    split
    · omega
    · rw [List.count_append]
      omega

theorem ipOf_hostText (sa : SocketAddr) : ipOf (.ofList sa.hostText) = .ofList sa.hostText :=
  ipOf_of_count (SocketAddr.bracket_not_mem (by decide) sa) (count_hostText sa)

/-- Splitting undoes rendering, and the host is its own host from then on. -/
theorem splitIpPort_addrToString (display : β → String) {addr : Address β} {sa : SocketAddr}
    (h : addr.IsSocket sa) :
    splitIpPort (addrToString display addr) = (.ofList sa.hostText, some sa.port) ∧
    '[' ∉ (ipOf (addrToString display addr)).toList ∧
    ']' ∉ (ipOf (addrToString display addr)).toList ∧
    ∀ n, ipOf^[n] (ipOf (addrToString display addr)) = ipOf (addrToString display addr) := by
  have hsplit : splitIpPort (addrToString display addr) = (.ofList sa.hostText, some sa.port) := by
    rw [addrToString_of_isSocket h, splitIpPort_text]
  have hip : ipOf (addrToString display addr) = .ofList sa.hostText := congrArg Prod.fst hsplit
  rw [hip, String.toList_ofList]
  exact ⟨hsplit, SocketAddr.bracket_not_mem (by decide) sa,
    SocketAddr.bracket_not_mem (by decide) sa, Function.iterate_fixed (ipOf_hostText sa)⟩

/-- A link-local peer behind interface 2. -/
def scopedPeer : SocketAddr := .v6 ⟨[0xfe80, 0, 0, 0, 0, 0, 0, 1], rfl⟩ 5540 0 2

theorem splitIpPort_addrToString_scoped :
    addrToString Empty.elim (.udp scopedPeer) = "[fe80::1%2]:5540" ∧
    splitIpPort (addrToString Empty.elim (.udp scopedPeer)) = ("fe80::1%2", some 5540) :=
  ⟨by decide, (splitIpPort_addrToString Empty.elim (.inl rfl)).1.trans (by decide)⟩

end MatterRsServer.Stack
