import Mathlib.Algebra.GroupWithZero.Nat
import Mathlib.Control.Monad.Basic

/-!
# Internet addresses and their texts

IPv4, IPv6 and socket addresses as a standard library parses and prints them: no leading
zeros in a decimal group, `::` for the longest run of zero groups, brackets around an IPv6
address that carries a port.
-/
namespace MatterRsServer.Lib.Inet

structure Ipv4Addr where
  a : UInt8
  b : UInt8
  c : UInt8
  d : UInt8
deriving DecidableEq

structure Ipv6Addr where
  segments : List UInt16
  length_eq : segments.length = 8
deriving DecidableEq

inductive IpAddr where
  | v4 (ip : Ipv4Addr)
  | v6 (ip : Ipv6Addr)
deriving DecidableEq

inductive SocketAddr where
  | v4 (ip : Ipv4Addr) (port : UInt16)
  | v6 (ip : Ipv6Addr) (port : UInt16) (flowinfo scopeId : UInt32)
deriving DecidableEq

def Ipv4Addr.unspecified : Ipv4Addr := ⟨0, 0, 0, 0⟩

def Ipv6Addr.unspecified : Ipv6Addr := ⟨List.replicate 8 0, rfl⟩

/-- `SocketAddr::new`. -/
def SocketAddr.new : IpAddr → UInt16 → SocketAddr
  | .v4 ip, port => .v4 ip port
  | .v6 ip, port => .v6 ip port 0 0

/-! ### Parsing -/

/-- Read a value off the front of a text, or leave the text as it is. -/
abbrev Reader (α : Type) := StateT (List Char) Option α

/-- `char::to_digit`. -/
def toDigit (radix : Nat) (c : Char) : Option Nat :=
  let digit :=
    if '0' ≤ c ∧ c ≤ '9' then some (c.toNat - '0'.toNat)
    else if 'a' ≤ c ∧ c ≤ 'z' then some (c.toNat - 'a'.toNat + 10)
    else if 'A' ≤ c ∧ c ≤ 'Z' then some (c.toNat - 'A'.toNat + 10)
    else none
  digit.filter (· < radix)

/-- All digits in front of a text, and what follows them. -/
def splitDigits (radix : Nat) : List Char → List Nat × List Char
  | [] => ([], [])
  | c :: s =>
    match toDigit radix c with
    | some d => (d :: (splitDigits radix s).1, (splitDigits radix s).2)
    | none => ([], c :: s)

def ofDigits (radix : Nat) (digits : List Nat) : Nat := digits.foldl (fun n d => n * radix + d) 0

/-- The checks of `read_number`. Its arithmetic is checked digit by digit; the number of all
digits is out of range exactly when some prefix of them is. -/
def Readable (radix bound : Nat) (maxDigits : Option Nat) (allowZeroPrefix : Bool)
    (digits : List Nat) : Prop :=
  digits ≠ [] ∧ (∀ m ∈ maxDigits, digits.length ≤ m) ∧
  (digits.head? = some 0 → 1 < digits.length → allowZeroPrefix = true) ∧
  ofDigits radix digits < bound

instance (radix bound : Nat) (maxDigits : Option Nat) (allowZeroPrefix : Bool)
    (digits : List Nat) : Decidable (Readable radix bound maxDigits allowZeroPrefix digits) :=
  inferInstanceAs (Decidable (_ ∧ _ ∧ _ ∧ _))

def readNumber (radix bound : Nat) (maxDigits : Option Nat) (allowZeroPrefix : Bool) :
    Reader Nat := fun s =>
  if Readable radix bound maxDigits allowZeroPrefix (splitDigits radix s).1 then
    some (ofDigits radix (splitDigits radix s).1, (splitDigits radix s).2)
  else none

def readGivenChar (target : Char) : Reader Unit
  | [] => none
  | c :: s => if c = target then some ((), s) else none

/-- The separator comes before every element but the first. -/
def readSeparator {α : Type} (sep : Char) (first : Bool) (inner : Reader α) : Reader α := do
  if first then inner else
    readGivenChar sep
    inner

/-- One group of a dotted address. -/
def readOctet (first : Bool) : Reader UInt8 := do
  let n ← readSeparator '.' first (readNumber 10 (2 ^ 8) (some 3) false)
  return UInt8.ofNat n

def readIpv4Addr : Reader Ipv4Addr := do
  let a ← readOctet true
  let b ← readOctet false
  let c ← readOctet false
  let d ← readOctet false
  return ⟨a, b, c, d⟩

/-- `u16::from_be_bytes`. -/
def fromBeBytes (hi lo : UInt8) : UInt16 := UInt16.ofNat (hi.toNat * 256 + lo.toNat)

/-- `read_groups` into the last `n` slots: the groups, whether they end in a dotted address,
and what follows. -/
def readGroups (first : Bool) : Nat → List Char → (List UInt16 × Bool) × List Char
  | 0, s => (([], false), s)
  | n + 1, s =>
    match if 0 < n then (readSeparator ':' first readIpv4Addr).run s else none with
    | some (v4, rest) => (([fromBeBytes v4.a v4.b, fromBeBytes v4.c v4.d], true), rest)
    | none =>
      match (readSeparator ':' first (readNumber 16 (2 ^ 16) (some 4) true)).run s with
      | some (g, rest) =>
        let tail := readGroups false n rest
        ((UInt16.ofNat g :: tail.1.1, tail.1.2), tail.2)
      | none => (([], false), s)

theorem length_readGroups (first : Bool) (n : Nat) (s : List Char) :
    (readGroups first n s).1.1.length ≤ n := by
  induction n generalizing first s with
  | zero => simp [readGroups]
  | succ n ih =>
    unfold readGroups
    split
    · next h =>
      have hpos : 0 < n := by
        by_contra hn
        rw [if_neg hn] at h
        cases h
      simp only [List.length_cons, List.length_nil]
      omega
    · split
      · have htail := ih false
        simp only [List.length_cons]
        have := htail ‹_›
        omega
      · simp

/-- The groups on both sides of a `::`, with zeros in between. -/
def Ipv6Addr.expand (head tail : List UInt16) (h : head.length + tail.length ≤ 8) : Ipv6Addr where
  segments := head ++ List.replicate (8 - (head.length + tail.length)) 0 ++ tail
  length_eq := by
    simp only [List.length_append, List.length_replicate]
    omega

/-- The part of an IPv6 address from its `::` on. -/
def readTail (head : List UInt16) (h : head.length < 8) : Reader Ipv6Addr := do
  readGivenChar ':'
  readGivenChar ':'
  fun s =>
    some (.expand head (readGroups true (8 - (head.length + 1)) s).1.1
      (by have := length_readGroups true (8 - (head.length + 1)) s; omega),
      (readGroups true (8 - (head.length + 1)) s).2)

def readIpv6Addr : Reader Ipv6Addr := fun s =>
  if h : (readGroups true 8 s).1.1.length = 8 then
    some (⟨(readGroups true 8 s).1.1, h⟩, (readGroups true 8 s).2)
  else if (readGroups true 8 s).1.2 then none
  else (readTail (readGroups true 8 s).1.1
    (Nat.lt_of_le_of_ne (length_readGroups true 8 s) h)).run (readGroups true 8 s).2

def readIpAddr : Reader IpAddr :=
  (IpAddr.v4 <$> readIpv4Addr) <|> (IpAddr.v6 <$> readIpv6Addr)

def readPort : Reader UInt16 := do
  readGivenChar ':'
  let n ← readNumber 10 (2 ^ 16) none true
  return UInt16.ofNat n

def readScopeId : Reader UInt32 := do
  readGivenChar '%'
  let n ← readNumber 10 (2 ^ 32) none true
  return UInt32.ofNat n

def readSocketAddrV4 : Reader SocketAddr := do
  let ip ← readIpv4Addr
  let port ← readPort
  return .v4 ip port

def readSocketAddrV6 : Reader SocketAddr := do
  readGivenChar '['
  let ip ← readIpv6Addr
  let scopeId ← readScopeId <|> pure 0
  readGivenChar ']'
  let port ← readPort
  return .v6 ip port 0 scopeId

def readSocketAddr : Reader SocketAddr := readSocketAddrV4 <|> readSocketAddrV6

/-- `parse_with`: the reader has to take the whole text. -/
def parseWith {α : Type} (reader : Reader α) (text : String) : Option α :=
  match reader.run text.toList with
  | some (value, []) => some value
  | _ => none

def IpAddr.parse (text : String) : Option IpAddr := parseWith readIpAddr text

def SocketAddr.parse (text : String) : Option SocketAddr := parseWith readSocketAddr text

/-! ### What follows an address -/

/-- The reader stops in front of `t`: what it reads and where it fails is as if `t` were
not there. -/
def StopsAt {α : Type} (reader : Reader α) (t : List Char) : Prop :=
  ∀ s, reader.run (s ++ t) = (reader.run s).map fun r => (r.1, r.2 ++ t)

section
variable {α β : Type} {t : List Char}

theorem StopsAt.pure (a : α) : StopsAt (Pure.pure a : Reader α) t := fun _ => rfl

theorem StopsAt.bind {reader : Reader α} {f : α → Reader β} (h : StopsAt reader t)
    (hf : ∀ a, StopsAt (f a) t) : StopsAt (reader >>= f) t := by
  intro s
  simp only [StateT.run_bind, h s]
  cases reader.run s with
  | none => rfl
  | some r => exact hf r.1 r.2

theorem readGivenChar_stopsAt {c target : Char} (h : c ≠ target) (x : List Char) :
    StopsAt (readGivenChar target) (c :: x) := by
  intro s
  cases s with
  | nil => simp [readGivenChar, StateT.run, h]
  | cons d s =>
    by_cases hd : d = target
    · simp [readGivenChar, StateT.run, hd]
    · simp [readGivenChar, StateT.run, hd]

theorem splitDigits_append {radix : Nat} {c : Char} (h : toDigit radix c = none)
    (s x : List Char) :
    splitDigits radix (s ++ c :: x) =
      ((splitDigits radix s).1, (splitDigits radix s).2 ++ c :: x) := by
  induction s with
  | nil => simp [splitDigits, h]
  | cons d s ih =>
    rw [List.cons_append]
    unfold splitDigits
    cases toDigit radix d with
    | none => rfl
    | some digit => simp only [ih]

theorem readNumber_stopsAt {radix : Nat} {c : Char} (h : toDigit radix c = none) (bound : Nat)
    (maxDigits : Option Nat) (allowZeroPrefix : Bool) (x : List Char) :
    StopsAt (readNumber radix bound maxDigits allowZeroPrefix) (c :: x) := by
  intro s
  simp only [StateT.run, readNumber, splitDigits_append h]
  split
  · rfl
  · rfl

theorem readSeparator_stopsAt {sep c : Char} {x : List Char} {reader : Reader α} (first : Bool)
    (hsep : c ≠ sep) (h : StopsAt reader (c :: x)) :
    StopsAt (readSeparator sep first reader) (c :: x) := by
  cases first with
  | true => exact h
  | false => exact (readGivenChar_stopsAt hsep x).bind fun _ => h

theorem readOctet_stopsAt (first : Bool) (x : List Char) :
    StopsAt (readOctet first) (':' :: x) := by
  have hnumber : StopsAt (readNumber 10 (2 ^ 8) (some 3) false) (':' :: x) :=
    readNumber_stopsAt (by decide) _ _ _ x
  exact (readSeparator_stopsAt first (by decide) hnumber).bind fun _ => .pure _

/-- A dotted address ends in front of a colon. -/
theorem readIpv4Addr_stopsAt (x : List Char) : StopsAt readIpv4Addr (':' :: x) :=
  (readOctet_stopsAt true x).bind fun _ =>
  (readOctet_stopsAt false x).bind fun _ =>
  (readOctet_stopsAt false x).bind fun _ =>
  (readOctet_stopsAt false x).bind fun _ => .pure _

end

/-! ### An address with a port behind it -/

theorem parseWith_eq_some {α : Type} {reader : Reader α} {text : String} {value : α} :
    parseWith reader text = some value ↔ reader.run text.toList = some (value, []) := by
  unfold parseWith
  split
  · next heq =>
    rw [heq]
    simp
  · next hne =>
    constructor
    · intro h
      cases h
    · intro h
      exact absurd h (hne value)

theorem run_readIpAddr (s : List Char) : readIpAddr.run s =
    match readIpv4Addr.run s with
    | some r => some (.v4 r.1, r.2)
    | none => (readIpv6Addr.run s).map fun r => (.v6 r.1, r.2) := by
  show ((IpAddr.v4 <$> readIpv4Addr).run s <|> (IpAddr.v6 <$> readIpv6Addr).run s) = _
  rw [StateT.run_map, StateT.run_map]
  cases readIpv4Addr.run s with
  | some r => rfl
  | none =>
    cases readIpv6Addr.run s with
    | some r => rfl
    | none => rfl

/-- What a text is that parses as an IPv4 address. -/
theorem parse_eq_v4 {text : String} {ip : Ipv4Addr} :
    IpAddr.parse text = some (.v4 ip) ↔ readIpv4Addr.run text.toList = some (ip, []) := by
  rw [IpAddr.parse, parseWith_eq_some, run_readIpAddr]
  cases readIpv4Addr.run text.toList with
  | some r => simp [Prod.ext_iff]
  | none => simp

/-- What a text is that parses as an IPv6 address. -/
theorem parse_eq_v6 {text : String} {ip : Ipv6Addr} :
    IpAddr.parse text = some (.v6 ip) ↔
      readIpv4Addr.run text.toList = none ∧ readIpv6Addr.run text.toList = some (ip, []) := by
  rw [IpAddr.parse, parseWith_eq_some, run_readIpAddr]
  cases readIpv4Addr.run text.toList with
  | some r => simp
  | none => simp [Prod.ext_iff]

/-- A group starts with a digit. -/
theorem readNumber_eq_none {radix : Nat} {c : Char} (h : toDigit radix c = none) (bound : Nat)
    (maxDigits : Option Nat) (allowZeroPrefix : Bool) (s : List Char) :
    (readNumber radix bound maxDigits allowZeroPrefix).run (c :: s) = none := by
  have hdigits : (splitDigits radix (c :: s)).1 = [] := by simp [splitDigits, h]
  show (if _ then _ else none) = none
  exact if_neg fun hreadable => hreadable.1 hdigits

theorem readIpv4Addr_eq_none {c : Char} (h : toDigit 10 c = none) (s : List Char) :
    readIpv4Addr.run (c :: s) = none := by
  have hnumber := readNumber_eq_none h (2 ^ 8) (some 3) false s
  simp only [readIpv4Addr, readOctet, readSeparator, StateT.run_bind, hnumber, if_true, Option.bind_eq_bind,
    Option.bind_none]

theorem readGivenChar_eq_some {target : Char} {s : List Char} {r : Unit × List Char}
    (h : (readGivenChar target).run s = some r) : s = target :: r.2 := by
  cases s with
  | nil => cases h
  | cons c s =>
    change (if c = target then some ((), s) else none) = some r at h
    split at h
    next hc =>
      rw [hc, ← Option.some.inj h]
    · cases h

/-- An IPv6 address has eight groups, or its first groups end in front of a `::`. -/
theorem readIpv6Addr_eq_some {s : List Char} {r : Ipv6Addr × List Char}
    (h : readIpv6Addr.run s = some r) :
    (readGroups true 8 s).1.1.length = 8 ∨ ∃ rest, (readGroups true 8 s).2 = ':' :: rest := by
  simp only [StateT.run, readIpv6Addr] at h
  split at h
  · next hlength => exact .inl hlength
  · split at h
    · cases h
    · refine .inr ?_
      simp only [readTail, bind] at h
      obtain ⟨colon, hcolon, -⟩ := Option.bind_eq_some_iff.mp h
      exact ⟨colon.2, readGivenChar_eq_some hcolon⟩

/-- An IPv6 address starts with a digit or a colon. -/
theorem readIpv6Addr_eq_none {c : Char} (hdigit : toDigit 16 c = none)
    (hten : toDigit 10 c = none) (hcolon : c ≠ ':') (s : List Char) :
    readIpv6Addr.run (c :: s) = none := by
  have hgroups : readGroups true 8 (c :: s) = (([], false), c :: s) := by
    have hv4 := readIpv4Addr_eq_none hten s
    have hgroup := readNumber_eq_none hdigit (2 ^ 16) (some 4) true s
    have hv4' : (readSeparator ':' true readIpv4Addr).run (c :: s) = none := hv4
    have hgroup' : (readSeparator ':' true (readNumber 16 (2 ^ 16) (some 4) true)).run (c :: s) =
        none := hgroup
    rw [readGroups, if_pos (by decide), hv4', hgroup']
  by_contra hne
  obtain ⟨r, hr⟩ := Option.ne_none_iff_exists'.mp hne
  rcases readIpv6Addr_eq_some hr with hlength | ⟨rest, hrest⟩
  · simp [hgroups] at hlength
  · rw [hgroups] at hrest
    exact hcolon (List.cons.inj hrest).1

theorem run_readSocketAddr (s : List Char) : readSocketAddr.run s =
    (readSocketAddrV4.run s <|> readSocketAddrV6.run s) := rfl

theorem toDigit_of_isDigit {c : Char} (h : c.isDigit = true) :
    toDigit 10 c = some (c.toNat - '0'.toNat) := by
  have hrange : '0' ≤ c ∧ c ≤ '9' := by simpa [Char.isDigit, Char.le_def] using h
  have hlt : c.toNat - 48 < 10 := by
    have hle : c.toNat ≤ 57 := hrange.2
    omega
  simp [toDigit, hrange, hlt]

theorem splitDigits_of_isDigit {s : List Char} (h : ∀ c ∈ s, c.isDigit = true) :
    splitDigits 10 s = (s.map fun c => c.toNat - '0'.toNat, []) := by
  induction s with
  | nil => rfl
  | cons c s ih =>
    have hc := toDigit_of_isDigit (h c (by simp))
    have hs := ih fun d hd => h d (by simp [hd])
    simp [splitDigits, hc, hs]

theorem ofDigits_map (s : List Char) :
    ofDigits 10 (s.map fun c => c.toNat - '0'.toNat) = Nat.ofDigitChars 10 s 0 := by
  simp only [ofDigits, List.foldl_map, Nat.ofDigitChars]
  congr
  funext n c
  rw [Nat.mul_comm]

/-- A number without a sign is read from its own digits. -/
theorem readNumber_repr {bound n : Nat} (h : n < bound) :
    (readNumber 10 bound none true).run n.repr.toList = some (n, []) := by
  have hdigits : ∀ c ∈ n.repr.toList, c.isDigit = true := fun c hc => by
    rw [Nat.toList_repr] at hc
    exact Nat.isDigit_of_mem_toDigits (by decide) (by decide) hc
  have hvalue : ofDigits 10 (n.repr.toList.map fun c => c.toNat - '0'.toNat) = n := by
    rw [ofDigits_map, Nat.toList_repr, Nat.ofDigitChars_ten_toDigits]
  have hreadable : Readable 10 bound none true
      (n.repr.toList.map fun c => c.toNat - '0'.toNat) := by
    refine ⟨?_, by simp, fun _ _ => rfl, by rw [hvalue]; exact h⟩
    rw [Nat.toList_repr]
    simp [Nat.toDigits_ne_nil]
  simp only [StateT.run, readNumber, splitDigits_of_isDigit hdigits, if_pos hreadable, hvalue]

theorem readPort_repr (port : UInt16) :
    readPort.run (':' :: port.toNat.repr.toList) = some (port, []) := by
  have hcolon : (readGivenChar ':').run (':' :: port.toNat.repr.toList) =
      some ((), port.toNat.repr.toList) := rfl
  have hnumber := readNumber_repr port.toNat_lt
  simp only [readPort, StateT.run_bind, hcolon, Option.bind_eq_bind, Option.bind_some, hnumber]
  simp [StateT.run_pure]

/-- An IPv4 address and a port make a socket address. -/
theorem parse_v4_port {text : String} {ip : Ipv4Addr} (h : IpAddr.parse text = some (.v4 ip))
    (port : UInt16) : SocketAddr.parse (text ++ ":" ++ port.toNat.repr) = some (.v4 ip port) := by
  have hip := readIpv4Addr_stopsAt port.toNat.repr.toList text.toList
  rw [parse_eq_v4.mp h] at hip
  have htext : (text ++ ":" ++ port.toNat.repr).toList =
      text.toList ++ ':' :: port.toNat.repr.toList := by simp
  have hv4 : readSocketAddrV4.run (text.toList ++ ':' :: port.toNat.repr.toList) =
      some (.v4 ip port, []) := by
    simp only [readSocketAddrV4, StateT.run_bind, hip, Option.map_some, List.nil_append,
      Option.bind_eq_bind, Option.bind_some, readPort_repr]
    rfl
  rw [SocketAddr.parse, parseWith_eq_some, htext, run_readSocketAddr, hv4]
  rfl

/-- An IPv6 address without brackets and a port make no socket address. -/
theorem parse_v6_port {text : String} {ip : Ipv6Addr} (h : IpAddr.parse text = some (.v6 ip))
    (port : String) : SocketAddr.parse (text ++ ":" ++ port) = none := by
  obtain ⟨hv4, hv6⟩ := parse_eq_v6.mp h
  have htext : (text ++ ":" ++ port).toList = text.toList ++ ':' :: port.toList := by simp
  have hip := readIpv4Addr_stopsAt port.toList text.toList
  rw [hv4] at hip
  have hnot4 : readSocketAddrV4.run (text.toList ++ ':' :: port.toList) = none := by
    simp only [readSocketAddrV4, StateT.run_bind, hip, Option.map_none, Option.bind_eq_bind,
      Option.bind_none]
  -- A text that starts with a bracket is no IPv6 address.
  have hnot6 : readSocketAddrV6.run (text.toList ++ ':' :: port.toList) = none := by
    have hbracket : (readGivenChar '[').run (text.toList ++ ':' :: port.toList) = none := by
      cases hchars : text.toList with
      | nil => rfl
      | cons c s =>
        rw [List.cons_append]
        refine if_neg ?_
        rintro rfl
        rw [hchars, readIpv6Addr_eq_none (by decide) (by decide) (by decide)] at hv6
        cases hv6
    simp only [readSocketAddrV6, StateT.run_bind, hbracket, Option.bind_eq_bind,
      Option.bind_none]
  unfold SocketAddr.parse parseWith
  rw [htext, run_readSocketAddr, hnot4, hnot6]
  rfl

end MatterRsServer.Lib.Inet
