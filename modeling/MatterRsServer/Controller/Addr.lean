import MatterRsServer.Lib.InetText
import MatterRsServer.Lib.Text

/-!
# `"ip:port"` splitting

`crates/controller/src/addr.rs`, on the characters of the address.
-/
namespace MatterRsServer.Controller

open Lib.Inet Lib.Text

/-- `str::parse::<u16>`: an optional `+`, then at least one digit, in range. -/
def parseU16 (l : List Char) : Option UInt16 :=
  let digits := match l with
    | '+' :: rest => rest
    | _ => l
  if digits ≠ [] ∧ digits.all Char.isDigit then
    let n := digits.foldl (fun acc d => 10 * acc + (d.toNat - '0'.toNat)) 0
    if n < 2 ^ 16 then some (UInt16.ofNat n) else none
  else none

/-- `split_ip_port`. -/
def splitIpPort (address : String) : String × Option UInt16 :=
  match address.toList with
  | '[' :: rest =>
    match splitOnce ']' rest with
    | some (host, ':' :: port) => (.ofList host, parseU16 port)
    | some (host, _) => (.ofList host, none)
    | none => (.ofList rest, none)
  | chars =>
    if chars.count ':' > 1 then (address, none)
    else
      match rsplitOnce ':' chars with
      | some (ip, port) => (.ofList ip, parseU16 port)
      | none => (address, none)

/-- `ip_of`. -/
def ipOf (address : String) : String := (splitIpPort address).1

theorem parseU16_repr (port : UInt16) : parseU16 port.toNat.repr.toList = some port := by
  have hdigits : ∀ c ∈ port.toNat.repr.toList, c.isDigit = true := fun _ hc =>
    isDigit_of_mem_repr hc
  have hne : port.toNat.repr.toList ≠ [] := by
    rw [Nat.toList_repr]
    exact Nat.toDigits_ne_nil
  have hvalue : port.toNat.repr.toList.foldl
      (fun acc d => 10 * acc + (d.toNat - '0'.toNat)) 0 = port.toNat := by
    rw [Nat.toList_repr]
    exact Nat.ofDigitChars_ten_toDigits
  unfold parseU16
  split
  · rename_i rest heq
    have hplus : Char.isDigit '+' = true := hdigits '+' (by rw [heq]; simp)
    exact absurd hplus (by decide)
  · rw [if_pos ⟨hne, List.all_eq_true.mpr hdigits⟩]
    simp only [hvalue, if_pos port.toNat_lt, UInt16.ofNat_toNat]

/-- A host in brackets is the host, whatever is in it. -/
theorem splitIpPort_brackets {host : List Char} (h : ']' ∉ host) (port : UInt16) :
    splitIpPort (.ofList ('[' :: host ++ ']' :: ':' :: port.toNat.repr.toList)) =
      (.ofList host, some port) := by
  have hsplit := splitOnce_append h (':' :: port.toNat.repr.toList)
  simp only [splitIpPort, String.toList_ofList, List.cons_append, hsplit, parseU16_repr]

/-- A host without a colon ends at the one of the port. -/
theorem splitIpPort_colon {host : List Char} (hcolon : ':' ∉ host) (hbracket : '[' ∉ host)
    (port : UInt16) :
    splitIpPort (.ofList (host ++ ':' :: port.toNat.repr.toList)) = (.ofList host, some port) := by
  have hport : ':' ∉ port.toNat.repr.toList := fun hc =>
    absurd (isDigit_of_mem_repr hc) (by decide)
  have hcount : (host ++ ':' :: port.toNat.repr.toList).count ':' = 1 := by
    rw [List.count_append, List.count_eq_zero.mpr hcolon, List.count_cons_self,
      List.count_eq_zero.mpr hport]
  have hsplit := rsplitOnce_append hport host
  unfold splitIpPort
  rw [String.toList_ofList]
  split
  · next rest heq =>
    have hmem : '[' ∈ host ++ ':' :: port.toNat.repr.toList := by rw [heq]; simp
    rcases List.mem_append.mp hmem with hhost | hrest
    · exact absurd hhost hbracket
    · rcases List.mem_cons.mp hrest with heq | hmem
      · exact absurd heq (by decide)
      · exact absurd (isDigit_of_mem_repr hmem) (by decide)
  · rw [if_neg (by omega), hsplit]
    simp only [parseU16_repr]

/-- A rendered socket address is split where it was put together. -/
theorem splitIpPort_text (sa : SocketAddr) :
    splitIpPort (.ofList sa.text) = (.ofList sa.hostText, some sa.port) := by
  cases sa with
  | v4 ip port =>
    exact splitIpPort_colon (Ipv4Addr.not_mem_text (by decide) (by decide) ip)
      (Ipv4Addr.not_mem_text (by decide) (by decide) ip) port
  | v6 ip port flowinfo scopeId =>
    exact splitIpPort_brackets (SocketAddr.bracket_not_mem (by decide) _) port

/-- A text that does not start with a bracket and has no colon, or more than one, is a host. -/
theorem ipOf_of_count {host : List Char} (hbracket : '[' ∉ host) (hcount : host.count ':' ≠ 1) :
    ipOf (.ofList host) = .ofList host := by
  unfold ipOf splitIpPort
  rw [String.toList_ofList]
  split
  · next rest => exact absurd (List.mem_cons_self) hbracket
  · split
    · rfl
    · next hle =>
      have hcolon : ':' ∉ host := List.count_eq_zero.mp (by omega)
      rw [rsplitOnce_eq_none hcolon]

end MatterRsServer.Controller
