import MatterRsServer.Lib.Inet

/-!
# The interface for mDNS

`select_interface` of `crates/stack/src/mdns.rs`. An interface with several addresses is
several entries of the list, joined by their name.
-/
namespace MatterRsServer.Stack
open Lib.Inet

/-- `if_addrs::Interface`. -/
structure Interface where
  name : String
  addr : IpAddr
  index : Option UInt32

structure Iface where
  name : String
  ipv4 : Ipv4Addr
  ipv6 : Ipv6Addr
  index : UInt32

inductive ErrorCode where
  | stdIoError

def isUnicastLinkLocal (ip : Ipv6Addr) : Bool := ip.segments.headD 0 &&& 0xffc0 == 0xfe80

section
-- The addresses that the operating system interface calls loopback.
variable (isLoopback : IpAddr → Bool) (all : List Interface)

def findIpv6Candidate (ipv6Filter : Ipv6Addr → Bool) : Option Iface :=
  let candidates := (all.filter fun ia => !isLoopback ia.addr).filterMap fun ia =>
    match ia.addr with
    | .v6 ip => if ipv6Filter ip then some (ia.name, ip, ia.index.getD 0) else none
    | .v4 _ => none
  candidates.findSome? fun (iname, ipv6, index) =>
    (all.filter fun ia2 => ia2.name = iname).findSome? fun ia2 =>
      match ia2.addr with
      | .v4 ipv4 => some ⟨iname, ipv4, ipv6, index⟩
      | .v6 _ => none

/-- `ia.name.starts_with("eth") || ia.name.starts_with("eno")`. -/
def isEthernet (ia : Interface) : Bool :=
  "eth".toList.isPrefixOf ia.name.toList || "eno".toList.isPrefixOf ia.name.toList

def fallbackIface (ia : Interface) : Iface :=
  match ia.addr with
  | .v4 ip => ⟨ia.name, ip, .unspecified, ia.index.getD 0⟩
  | .v6 ip => ⟨ia.name, .unspecified, ip, ia.index.getD 0⟩

def findFallbackCandidate : Option Iface :=
  (((all.filter fun ia => !isLoopback ia.addr).filter isEthernet).map fallbackIface).head?

def selectForced (forced : String) : Except ErrorCode Iface :=
  let v4 := all.findSome? fun ia =>
    match ia.addr with
    | .v4 ip => if ia.name = forced then some (ip, ia.index.getD 0) else none
    | .v6 _ => none
  let v6 := all.findSome? fun ia =>
    match ia.addr with
    | .v6 ip => if ia.name = forced then some ip else none
    | .v4 _ => none
  match v4 with
  | some (ipv4, index) => .ok ⟨forced, ipv4, v6.getD .unspecified, index⟩
  | none => .error .stdIoError

def selectInterface : Option String → Except ErrorCode Iface
  | some forced => selectForced all forced
  | none =>
    match (findIpv6Candidate isLoopback all isUnicastLinkLocal).or
      ((findIpv6Candidate isLoopback all fun _ => true).or
        (findFallbackCandidate isLoopback all)) with
    | some iface => .ok iface
    | none => .error .stdIoError

end

/-! ### What is asked of the choice -/

/-- The entry is an IPv4 address of this interface. -/
def HasIpv4 (name : String) (ia : Interface) : Prop := ia.name = name ∧ ∃ ip, ia.addr = .v4 ip

section
variable (isLoopback : IpAddr → Bool) (all : List Interface)

/-- The entry is a non-loopback IPv6 address of this kind, of an interface with an IPv4
address. -/
def DualEntry (kind : Ipv6Addr → Bool) (ia : Interface) : Prop :=
  isLoopback ia.addr = false ∧ (∃ ip, ia.addr = .v6 ip ∧ kind ip = true) ∧
  ∃ v4 ∈ all, HasIpv4 ia.name v4

/-- The interface has both addresses. -/
def Dual (kind : Ipv6Addr → Bool) (name : String) : Prop :=
  ∃ ia ∈ all, ia.name = name ∧ DualEntry isLoopback all kind ia

structure Usable (forced : Option String) : Prop where
  listed : ∀ r, selectInterface isLoopback all forced = .ok r →
    ∃ ia ∈ all, ia.name = r.name ∧ ia.addr = .v4 r.ipv4
  forcedName : ∀ r name, forced = some name → selectInterface isLoopback all forced = .ok r →
    r.name = name
  forcedIpv4 : ∀ name, forced = some name → (∀ ia ∈ all, ¬ HasIpv4 name ia) →
    ∃ e, selectInterface isLoopback all forced = .error e
  notLoopback : ∀ r, forced = none → selectInterface isLoopback all forced = .ok r →
    isLoopback (.v4 r.ipv4) = false
  linkLocal : forced = none → (∃ name, Dual isLoopback all isUnicastLinkLocal name) →
    ∃ r, selectInterface isLoopback all forced = .ok r ∧
      Dual isLoopback all isUnicastLinkLocal r.name
  dualStack : forced = none → (¬ ∃ name, Dual isLoopback all isUnicastLinkLocal name) →
    (∃ name, Dual isLoopback all (fun _ => true) name) →
    ∃ r, selectInterface isLoopback all forced = .ok r ∧
      Dual isLoopback all (fun _ => true) r.name

end

/-- The first element of the list with this property. -/
def First {α : Type} (p : α → Prop) (l : List α) (a : α) : Prop :=
  ∃ before after, l = before ++ a :: after ∧ p a ∧ ∀ b ∈ before, ¬ p b

section
variable (isLoopback : IpAddr → Bool) (all : List Interface)

/-- The interface of the first dual-stack entry of this kind has no loopback address for its
first IPv4 address. -/
def FirstIpv4Usable (kind : Ipv6Addr → Bool) : Prop :=
  ∀ ia v4, First (DualEntry isLoopback all kind) all ia → First (HasIpv4 ia.name) all v4 →
    isLoopback v4.addr = false

/-- No choice of an interface goes wrong: neither among those with both addresses, nor among
the Ethernet ones if there are none. -/
structure ChoiceUsable : Prop where
  linkLocal : FirstIpv4Usable isLoopback all isUnicastLinkLocal
  dualStack : (¬ ∃ name, Dual isLoopback all isUnicastLinkLocal name) →
    FirstIpv4Usable isLoopback all fun _ => true
  fallback : (¬ ∃ name, Dual isLoopback all (fun _ => true) name) →
    ∀ ia, First (fun ia => isLoopback ia.addr = false ∧ isEthernet ia = true) all ia →
      ∃ ip, ia.addr = .v4 ip

end

/-! ### The searches -/

theorem First.mem {α : Type} {p : α → Prop} {l : List α} {a : α} (h : First p l a) : a ∈ l := by
  obtain ⟨before, after, rfl, -⟩ := h
  simp

theorem First.holds {α : Type} {p : α → Prop} {l : List α} {a : α} (h : First p l a) : p a := by
  obtain ⟨before, after, -, hp, -⟩ := h
  exact hp

/-- A search that answers on the elements with a property finds the first of them. -/
theorem findSome?_eq_some_first {α β : Type} {f : α → Option β} {p : α → Prop}
    (h : ∀ a, (f a).isSome ↔ p a) {l : List α} {b : β} :
    l.findSome? f = some b ↔ ∃ a, First p l a ∧ f a = some b := by
  rw [List.findSome?_eq_some_iff]
  constructor
  · rintro ⟨before, a, after, rfl, hb, hnone⟩
    refine ⟨a, ⟨before, after, rfl, ?_, ?_⟩, hb⟩
    · rw [← h a, hb]
      rfl
    · intro x hx
      rw [← h x, hnone x hx]
      nofun
  · rintro ⟨a, ⟨before, after, rfl, -, hnot⟩, hb⟩
    refine ⟨before, a, after, rfl, hb, ?_⟩
    intro x hx
    have hx := hnot x hx
    rw [← h x] at hx
    exact Option.not_isSome_iff_eq_none.mp hx

theorem find?_eq_some_first {α : Type} {f : α → Bool} {p : α → Prop} (h : ∀ a, f a = true ↔ p a)
    {l : List α} {a : α} : l.find? f = some a ↔ First p l a := by
  rw [List.find?_eq_some_iff_append]
  constructor
  · rintro ⟨ha, before, after, hl, hnot⟩
    refine ⟨before, after, hl, (h a).mp ha, ?_⟩
    intro b hb hp
    simpa [(h b).mpr hp] using hnot b hb
  · rintro ⟨before, after, hl, ha, hnot⟩
    refine ⟨(h a).mpr ha, before, after, hl, ?_⟩
    intro b hb
    have hb' := hnot b hb
    rw [← h b] at hb'
    simpa using hb'

theorem findSome?_isSome {α β : Type} {f : α → Option β} {p : α → Prop}
    (h : ∀ a, (f a).isSome ↔ p a) {l : List α} :
    (l.findSome? f).isSome ↔ ∃ a ∈ l, p a := by
  rw [List.findSome?_isSome_iff]
  simp only [h]

theorem findSome?_filterMap_filter {α β γ : Type} (p : α → Bool) (f : α → Option β)
    (g : β → Option γ) (l : List α) :
    ((l.filter p).filterMap f).findSome? g =
      l.findSome? fun a => if p a then (f a).bind g else none := by
  induction l with
  | nil => rfl
  | cons a l ih =>
    rw [List.filter_cons, List.findSome?_cons]
    cases hp : p a with
    | false => simpa using ih
    | true =>
      cases hf : f a with
      | none => simpa [List.filterMap_cons_none hf] using ih
      | some b => simp [List.filterMap_cons_some hf, List.findSome?_cons, ih]

section
variable {isLoopback : IpAddr → Bool} {all : List Interface} {kind : Ipv6Addr → Bool}

/-- The IPv4 address of an entry of this interface. -/
def ipv4Of (name : String) (ia : Interface) : Option Ipv4Addr :=
  if ia.name = name then
    match ia.addr with
    | .v4 ip => some ip
    | .v6 _ => none
  else none

theorem ipv4Of_eq_some {name : String} {ia : Interface} {ip : Ipv4Addr} :
    ipv4Of name ia = some ip ↔ ia.name = name ∧ ia.addr = .v4 ip := by
  unfold ipv4Of
  split
  · next hname =>
    cases ia.addr with
    | v4 ip' => simp [hname]
    | v6 ip' => simp
  · next hname => simp [hname]

theorem isSome_ipv4Of (name : String) (ia : Interface) :
    (ipv4Of name ia).isSome ↔ HasIpv4 name ia := by
  rw [Option.isSome_iff_exists]
  simp only [ipv4Of_eq_some, HasIpv4, exists_and_left]

/-- What the search makes of one entry. -/
def dualIface (isLoopback : IpAddr → Bool) (all : List Interface) (kind : Ipv6Addr → Bool)
    (ia : Interface) : Option Iface :=
  match ia.addr with
  | .v6 ip =>
    if isLoopback ia.addr = false ∧ kind ip = true then
      (all.findSome? (ipv4Of ia.name)).map fun ipv4 => ⟨ia.name, ipv4, ip, ia.index.getD 0⟩
    else none
  | .v4 _ => none

theorem findSome?_ipv4Of {β : Type} (g : Ipv4Addr → β) (name : String) :
    ((all.filter fun ia => ia.name = name).findSome? fun ia =>
      match ia.addr with
      | .v4 ipv4 => some (g ipv4)
      | .v6 _ => none) = (all.findSome? (ipv4Of name)).map g := by
  induction all with
  | nil => rfl
  | cons ia rest ih =>
    rw [List.filter_cons, List.findSome?_cons, ipv4Of]
    by_cases hname : ia.name = name
    · rw [if_pos hname, if_pos (by simpa using hname), List.findSome?_cons, ih]
      cases ia.addr with
      | v4 ip => rfl
      | v6 ip => rfl
    · rw [if_neg hname, if_neg (by simpa using hname), ih]

theorem findIpv6Candidate_eq (isLoopback : IpAddr → Bool) (all : List Interface)
    (kind : Ipv6Addr → Bool) : findIpv6Candidate isLoopback all kind =
      all.findSome? (dualIface isLoopback all kind) := by
  unfold findIpv6Candidate
  dsimp only
  rw [findSome?_filterMap_filter]
  congr 1
  funext ia
  unfold dualIface
  cases ia.addr with
  | v4 ip => simp
  | v6 ip =>
    by_cases hloopback : isLoopback (.v6 ip) = false
    · by_cases hkind : kind ip = true
      · simp only [hloopback, hkind, Bool.not_false, if_true, Option.bind_some, and_self,
          findSome?_ipv4Of]
      · simp [hkind]
    · simp [hloopback]

/-- An entry that is chosen, and the IPv4 address it comes with. -/
theorem dualIface_eq_some {ia : Interface} {r : Iface}
    (h : dualIface isLoopback all kind ia = some r) :
    r.name = ia.name ∧ ∃ v4, First (HasIpv4 ia.name) all v4 ∧ v4.addr = .v4 r.ipv4 := by
  unfold dualIface at h
  split at h
  · split at h
    · obtain ⟨ipv4, hipv4, rfl⟩ := Option.map_eq_some_iff.mp h
      obtain ⟨v4, hfirst, hv4⟩ := (findSome?_eq_some_first (isSome_ipv4Of _)).mp hipv4
      exact ⟨rfl, v4, hfirst, (ipv4Of_eq_some.mp hv4).2⟩
    · cases h
  · cases h

theorem isSome_dualIface (ia : Interface) :
    (dualIface isLoopback all kind ia).isSome ↔ DualEntry isLoopback all kind ia := by
  unfold dualIface DualEntry
  cases haddr : ia.addr with
  | v4 ip => simp
  | v6 ip =>
    by_cases hkind : isLoopback (.v6 ip) = false ∧ kind ip = true
    · simp [hkind, isSome_ipv4Of]
    · simp only [if_neg hkind]
      refine iff_of_false nofun ?_
      rintro ⟨hloopback, ⟨ip', hip, hkind'⟩, -⟩
      cases hip
      exact hkind ⟨hloopback, hkind'⟩

/-- A candidate belongs to the first entry of its kind. -/
theorem findIpv6Candidate_eq_some {r : Iface}
    (h : findIpv6Candidate isLoopback all kind = some r) :
    ∃ ia v4, First (DualEntry isLoopback all kind) all ia ∧ r.name = ia.name ∧
      First (HasIpv4 ia.name) all v4 ∧ v4.addr = .v4 r.ipv4 := by
  rw [findIpv6Candidate_eq, findSome?_eq_some_first isSome_dualIface] at h
  obtain ⟨ia, hfirst, hia⟩ := h
  obtain ⟨hname, v4, hv4, haddr⟩ := dualIface_eq_some hia
  exact ⟨ia, v4, hfirst, hname, hv4, haddr⟩

theorem isSome_findIpv6Candidate : (findIpv6Candidate isLoopback all kind).isSome ↔
    ∃ name, Dual isLoopback all kind name := by
  rw [findIpv6Candidate_eq, findSome?_isSome isSome_dualIface]
  constructor
  · rintro ⟨ia, hia, hdual⟩
    exact ⟨ia.name, ia, hia, rfl, hdual⟩
  · rintro ⟨name, ia, hia, -, hdual⟩
    exact ⟨ia, hia, hdual⟩

theorem not_dual_of_findIpv6Candidate_eq_none
    (h : findIpv6Candidate isLoopback all kind = none) :
    ¬ ∃ name, Dual isLoopback all kind name := by
  rw [← isSome_findIpv6Candidate, h]
  nofun

/-- The fallback is the first Ethernet entry, whatever address it has. -/
theorem findFallbackCandidate_eq_some {r : Iface} :
    findFallbackCandidate isLoopback all = some r ↔
    ∃ ia, First (fun ia => isLoopback ia.addr = false ∧ isEthernet ia = true) all ia ∧
      fallbackIface ia = r := by
  have hboth (ia : Interface) : (isEthernet ia && !isLoopback ia.addr) = true ↔
      isLoopback ia.addr = false ∧ isEthernet ia = true := by
    rw [Bool.and_eq_true, Bool.not_eq_true', and_comm]
  rw [findFallbackCandidate, List.filter_filter, List.head?_map, List.head?_filter,
    Option.map_eq_some_iff]
  simp only [find?_eq_some_first hboth]

/-! ### The choice -/

theorem selectInterface_of_candidate {r : Iface}
    (h : findIpv6Candidate isLoopback all isUnicastLinkLocal = some r) :
    selectInterface isLoopback all none = .ok r := by
  simp only [selectInterface, h, Option.some_or]

/-- Without a link-local candidate, the search goes on to any IPv6 address. -/
theorem selectInterface_of_none
    (h : findIpv6Candidate isLoopback all isUnicastLinkLocal = none) :
    selectInterface isLoopback all none =
      match (findIpv6Candidate isLoopback all fun _ => true).or
        (findFallbackCandidate isLoopback all) with
      | some iface => .ok iface
      | none => .error .stdIoError := by
  simp only [selectInterface, h, Option.none_or]

/-- How an unforced choice comes about. -/
theorem selectInterface_cases {r : Iface} (h : selectInterface isLoopback all none = .ok r) :
    findIpv6Candidate isLoopback all isUnicastLinkLocal = some r ∨
    (findIpv6Candidate isLoopback all isUnicastLinkLocal = none ∧
      findIpv6Candidate isLoopback all (fun _ => true) = some r) ∨
    (findIpv6Candidate isLoopback all (fun _ => true) = none ∧
      findFallbackCandidate isLoopback all = some r) := by
  cases hlocal : findIpv6Candidate isLoopback all isUnicastLinkLocal with
  | some r' =>
    rw [selectInterface_of_candidate hlocal] at h
    cases h
    exact .inl rfl
  | none =>
    rw [selectInterface_of_none hlocal] at h
    cases hany : findIpv6Candidate isLoopback all (fun _ => true) with
    | some r' =>
      rw [hany, Option.some_or] at h
      cases h
      exact .inr (.inl ⟨rfl, rfl⟩)
    | none =>
      rw [hany, Option.none_or] at h
      cases hfallback : findFallbackCandidate isLoopback all with
      | some r' =>
        rw [hfallback] at h
        cases h
        exact .inr (.inr ⟨rfl, rfl⟩)
      | none =>
        rw [hfallback] at h
        cases h

/-- A candidate has both addresses, and its IPv4 address is listed. -/
theorem dual_of_candidate {r : Iface} (h : findIpv6Candidate isLoopback all kind = some r) :
    Dual isLoopback all kind r.name ∧ ∃ ia ∈ all, ia.name = r.name ∧ ia.addr = .v4 r.ipv4 := by
  obtain ⟨ia, v4, hia, hname, hv4, haddr⟩ := findIpv6Candidate_eq_some h
  exact ⟨⟨ia, hia.mem, hname.symm, hia.holds⟩, v4, hv4.mem, hv4.holds.1.trans hname.symm, haddr⟩

theorem candidate_notLoopback {r : Iface}
    (h : findIpv6Candidate isLoopback all kind = some r)
    (husable : FirstIpv4Usable isLoopback all kind) : isLoopback (.v4 r.ipv4) = false := by
  obtain ⟨ia, v4, hia, -, hv4, haddr⟩ := findIpv6Candidate_eq_some h
  rw [← haddr]
  exact husable ia v4 hia hv4

/-- What the choice returns at the first dual-stack entry. -/
theorem candidate_of_first {ia v4 : Interface}
    (hia : First (DualEntry isLoopback all kind) all ia) (hv4 : First (HasIpv4 ia.name) all v4) :
    ∃ r, findIpv6Candidate isLoopback all kind = some r ∧ v4.addr = .v4 r.ipv4 := by
  obtain ⟨hloopback, ⟨ip6, haddr6, hkind⟩, -⟩ := hia.holds
  obtain ⟨hname, ip4, haddr4⟩ := hv4.holds
  have hip4 : all.findSome? (ipv4Of ia.name) = some ip4 :=
    (findSome?_eq_some_first (isSome_ipv4Of _)).mpr
      ⟨v4, hv4, ipv4Of_eq_some.mpr ⟨hname, haddr4⟩⟩
  have hdual : dualIface isLoopback all kind ia =
      some ⟨ia.name, ip4, ip6, ia.index.getD 0⟩ := by
    rw [haddr6] at hloopback
    simp only [dualIface, haddr6, hloopback, hkind, and_self, if_true, hip4, Option.map_some]
  refine ⟨⟨ia.name, ip4, ip6, ia.index.getD 0⟩, ?_, haddr4⟩
  rw [findIpv6Candidate_eq]
  exact (findSome?_eq_some_first isSome_dualIface).mpr ⟨ia, hia, hdual⟩

theorem selectForced_eq_ok {forced : String} {r : Iface} (h : selectForced all forced = .ok r) :
    r.name = forced ∧ ∃ ia ∈ all, ia.name = forced ∧ ia.addr = .v4 r.ipv4 := by
  unfold selectForced at h
  dsimp only at h
  split at h
  · next ipv4 index hv4 =>
    cases h
    obtain ⟨ia, hia, haddr⟩ := List.exists_of_findSome?_eq_some hv4
    split at haddr
    · next ip hip =>
      split at haddr
      · next hname =>
        cases haddr
        exact ⟨rfl, ia, hia, hname, hip⟩
      · cases haddr
    · cases haddr
  · cases h

theorem selectForced_eq_error {forced : String} (h : ∀ ia ∈ all, ¬ HasIpv4 forced ia) :
    selectForced all forced = .error .stdIoError := by
  unfold selectForced
  dsimp only
  split
  · next hv4 =>
    obtain ⟨ia, hia, haddr⟩ := List.exists_of_findSome?_eq_some hv4
    split at haddr
    · next ip hip =>
      split at haddr
      · next hname => exact absurd ⟨hname, ip, hip⟩ (h ia hia)
      · cases haddr
    · cases haddr
  · rfl

theorem Dual.of_kind {name : String} (h : Dual isLoopback all kind name) :
    Dual isLoopback all (fun _ => true) name := by
  obtain ⟨ia, hia, hname, hloopback, ⟨ip, haddr, -⟩, hv4⟩ := h
  exact ⟨ia, hia, hname, hloopback, ⟨ip, haddr, rfl⟩, hv4⟩

theorem findIpv6Candidate_eq_none (h : ¬ ∃ name, Dual isLoopback all kind name) :
    findIpv6Candidate isLoopback all kind = none := by
  rwa [← isSome_findIpv6Candidate, Option.not_isSome_iff_eq_none] at h

theorem name_fallbackIface (ia : Interface) : (fallbackIface ia).name = ia.name := by
  unfold fallbackIface
  split
  · rfl
  · rfl

/-- Where no interface has both addresses, an Ethernet entry has a listed IPv4 address only if
it is one itself. -/
theorem ipv4_of_listed {ia : Interface} (hia : ia ∈ all) (hloopback : isLoopback ia.addr = false)
    (hnone : ¬ ∃ name, Dual isLoopback all (fun _ => true) name)
    (hlisted : ∃ v4 ∈ all, v4.name = ia.name ∧ v4.addr = .v4 (fallbackIface ia).ipv4) :
    ∃ ip, ia.addr = .v4 ip := by
  cases haddr : ia.addr with
  | v4 ip => exact ⟨ip, rfl⟩
  | v6 ip =>
    obtain ⟨v4, hv4, hname, hip⟩ := hlisted
    exact absurd ⟨ia.name, ia, hia, rfl, hloopback, ⟨ip, haddr, rfl⟩, v4, hv4, hname, _, hip⟩ hnone

/-- The choice without a forced name. -/
theorem usable_of_choiceUsable (h : ChoiceUsable isLoopback all) :
    Usable isLoopback all none where
  listed := by
    intro r hr
    rcases selectInterface_cases hr with hr | ⟨-, hr⟩ | ⟨hnone, hr⟩
    · exact (dual_of_candidate hr).2
    · exact (dual_of_candidate hr).2
    · obtain ⟨ia, hia, rfl⟩ := findFallbackCandidate_eq_some.mp hr
      obtain ⟨ip, haddr⟩ := h.fallback (not_dual_of_findIpv6Candidate_eq_none hnone) ia hia
      refine ⟨ia, hia.mem, (name_fallbackIface ia).symm, ?_⟩
      simp only [fallbackIface, haddr]
  forcedName := nofun
  forcedIpv4 := nofun
  notLoopback := by
    intro r _ hr
    rcases selectInterface_cases hr with hr | ⟨hnone, hr⟩ | ⟨hnone, hr⟩
    · exact candidate_notLoopback hr h.linkLocal
    · exact candidate_notLoopback hr (h.dualStack (not_dual_of_findIpv6Candidate_eq_none hnone))
    · obtain ⟨ia, hia, rfl⟩ := findFallbackCandidate_eq_some.mp hr
      obtain ⟨ip, haddr⟩ := h.fallback (not_dual_of_findIpv6Candidate_eq_none hnone) ia hia
      have hloopback := hia.holds.1
      rw [haddr] at hloopback
      simpa only [fallbackIface, haddr] using hloopback
  linkLocal := by
    intro _ hdual
    obtain ⟨r, hr⟩ := Option.isSome_iff_exists.mp (isSome_findIpv6Candidate.mpr hdual)
    exact ⟨r, selectInterface_of_candidate hr, (dual_of_candidate hr).1⟩
  dualStack := by
    intro _ hnone hdual
    obtain ⟨r, hr⟩ := Option.isSome_iff_exists.mp (isSome_findIpv6Candidate.mpr hdual)
    refine ⟨r, ?_, (dual_of_candidate hr).1⟩
    rw [selectInterface_of_none (findIpv6Candidate_eq_none hnone), hr]
    rfl

theorem choiceUsable_of_usable (h : Usable isLoopback all none) :
    ChoiceUsable isLoopback all where
  linkLocal := by
    intro ia v4 hia hv4
    obtain ⟨r, hr, haddr⟩ := candidate_of_first hia hv4
    rw [haddr]
    exact h.notLoopback r rfl (selectInterface_of_candidate hr)
  dualStack := by
    intro hnone ia v4 hia hv4
    obtain ⟨r, hr, haddr⟩ := candidate_of_first hia hv4
    have hselect : selectInterface isLoopback all none = .ok r := by
      rw [selectInterface_of_none (findIpv6Candidate_eq_none hnone), hr]
      rfl
    rw [haddr]
    exact h.notLoopback r rfl hselect
  fallback := by
    intro hnone ia hia
    have hlocal : ¬ ∃ name, Dual isLoopback all isUnicastLinkLocal name :=
      fun ⟨name, hdual⟩ => hnone ⟨name, hdual.of_kind⟩
    have hfallback := findFallbackCandidate_eq_some.mpr ⟨ia, hia, rfl⟩
    have hselect : selectInterface isLoopback all none = .ok (fallbackIface ia) := by
      rw [selectInterface_of_none (findIpv6Candidate_eq_none hlocal),
        findIpv6Candidate_eq_none hnone, hfallback]
      rfl
    obtain ⟨v4, hv4, hname, haddr⟩ := h.listed _ hselect
    exact ipv4_of_listed hia.mem hia.holds.1 hnone
      ⟨v4, hv4, hname.trans (name_fallbackIface ia), haddr⟩

/-- A forced interface is always usable. -/
theorem usable_forced (isLoopback : IpAddr → Bool) (all : List Interface) (forced : String) :
    Usable isLoopback all (some forced) where
  listed := by
    intro r hr
    obtain ⟨hname, ia, hia, hia', haddr⟩ := selectForced_eq_ok hr
    exact ⟨ia, hia, hia'.trans hname.symm, haddr⟩
  forcedName := by
    intro r name hname hr
    cases hname
    exact (selectForced_eq_ok hr).1
  forcedIpv4 := by
    intro name hname hno
    cases hname
    exact ⟨_, selectForced_eq_error hno⟩
  notLoopback := nofun
  linkLocal := nofun
  dualStack := nofun

end

/-- The choice of an interface is usable exactly if, without a forced name, no search runs into
a loopback address or one that is not there. -/
theorem selectInterface_usable (isLoopback : IpAddr → Bool) (all : List Interface)
    (forced : Option String) :
    Usable isLoopback all forced ↔ (forced = none → ChoiceUsable isLoopback all) := by
  cases forced with
  | none =>
    constructor
    · intro h _
      exact choiceUsable_of_usable h
    · intro h
      exact usable_of_choiceUsable (h rfl)
  | some forced => exact iff_of_true (usable_forced isLoopback all forced) nofun

/-- The loopback addresses: `127.0.0.0/8` and `::1`. -/
def hostLoopback : IpAddr → Bool
  | .v4 ip => ip.a == 127
  | .v6 ip => ip.segments == [0, 0, 0, 0, 0, 0, 0, 1]

theorem length_linkLocal : ([0xfe80, 0, 0, 0, 0, 0, 0, 1] : List UInt16).length = 8 := rfl

/-- An IPv6-only `eth0` before an IPv4-only `eth1`. -/
def splitStack : List Interface := [
  ⟨"eth0", .v6 ⟨[0xfe80, 0, 0, 0, 0, 0, 0, 1], length_linkLocal⟩, some 2⟩,
  ⟨"eth1", .v4 ⟨192, 168, 1, 10⟩, some 3⟩]

/-- A second, routable IPv6 address on the loopback interface. -/
def anycastLoopback : List Interface := [
  ⟨"lo", .v4 ⟨127, 0, 0, 1⟩, some 1⟩,
  ⟨"lo", .v6 ⟨[0xfd00, 0, 0, 0, 0, 0, 0, 1], rfl⟩, some 1⟩,
  ⟨"eth0", .v4 ⟨192, 168, 1, 10⟩, some 2⟩]

/-- `eth0` is chosen with the address `0.0.0.0`, `lo` with `127.0.0.1`. -/
theorem splitStack_unusable :
    selectInterface hostLoopback splitStack none =
      .ok ⟨"eth0", .unspecified, ⟨[0xfe80, 0, 0, 0, 0, 0, 0, 1], rfl⟩, 2⟩ ∧
    ¬ Usable hostLoopback splitStack none ∧
    selectInterface hostLoopback anycastLoopback none =
      .ok ⟨"lo", ⟨127, 0, 0, 1⟩, ⟨[0xfd00, 0, 0, 0, 0, 0, 0, 1], rfl⟩, 1⟩ ∧
    ¬ Usable hostLoopback anycastLoopback none := by
  have hsplit : selectInterface hostLoopback splitStack none =
      .ok ⟨"eth0", .unspecified, ⟨[0xfe80, 0, 0, 0, 0, 0, 0, 1], rfl⟩, 2⟩ := rfl
  have hanycast : selectInterface hostLoopback anycastLoopback none =
      .ok ⟨"lo", ⟨127, 0, 0, 1⟩, ⟨[0xfd00, 0, 0, 0, 0, 0, 0, 1], rfl⟩, 1⟩ := rfl
  refine ⟨hsplit, ?_, hanycast, ?_⟩
  · intro h
    obtain ⟨ia, hia, hname, haddr⟩ := h.listed _ hsplit
    simp only [splitStack, List.mem_cons, List.not_mem_nil, or_false] at hia
    rcases hia with rfl | rfl
    · cases haddr
    · exact absurd hname (by decide)
  · intro h
    exact absurd (h.notLoopback _ rfl hanycast) (by decide)

end MatterRsServer.Stack
