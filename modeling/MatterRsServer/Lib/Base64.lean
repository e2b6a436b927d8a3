import Mathlib.Data.List.Basic
import Mathlib.Data.List.Nodup

/-!
# Base64, the standard alphabet with padding

Encoding of byte sequences, and the strict decoding that takes nothing but what the
encoding produces: padding is required, and the unused bits of the last digit are zero.
So the two are inverse to each other in both directions.
-/
namespace MatterRsServer.Lib.Base64

def alphabet : List Char :=
  "ABCDEFGHIJKLMNOPQRSTUVWXYZabcdefghijklmnopqrstuvwxyz0123456789+/".toList

def digit (n : Nat) : Char := alphabet.getD n '='

def value (c : Char) : Option Nat :=
  if c ∈ alphabet then some (alphabet.idxOf c) else none

theorem length_alphabet : alphabet.length = 64 := by decide

theorem value_digit {n : Nat} (h : n < 64) : value (digit n) = some n := by
  have hlt : n < alphabet.length := by rw [length_alphabet]; exact h
  have hnodup : alphabet.Nodup := by decide
  have hdigit : digit n = alphabet[n] := by simp [digit, hlt]
  unfold value
  rw [hdigit, if_pos (List.getElem_mem hlt), List.Nodup.idxOf_getElem hnodup]

theorem digit_of_value {c : Char} {n : Nat} (h : value c = some n) : n < 64 ∧ digit n = c := by
  unfold value at h
  split at h
  next hmem =>
    cases h
    have hlt : alphabet.idxOf c < alphabet.length := List.idxOf_lt_length_iff.mpr hmem
    refine ⟨by rw [← length_alphabet]; exact hlt, ?_⟩
    simp [digit, hlt]
  · cases h

theorem digit_ne_pad {n : Nat} (h : n < 64) : digit n ≠ '=' := by
  intro heq
  have hvalue := value_digit h
  rw [heq, show value '=' = none by decide] at hvalue
  cases hvalue

def encode : List UInt8 → List Char
  | [] => []
  | [a] => [digit (a.toNat / 4), digit (a.toNat % 4 * 16), '=', '=']
  | [a, b] =>
    [digit (a.toNat / 4), digit (a.toNat % 4 * 16 + b.toNat / 16), digit (b.toNat % 16 * 4), '=']
  | a :: b :: c :: rest =>
    digit (a.toNat / 4) :: digit (a.toNat % 4 * 16 + b.toNat / 16) ::
      digit (b.toNat % 16 * 4 + c.toNat / 64) :: digit (c.toNat % 64) :: encode rest

/-- The last group, with its padding. -/
def decodePadded (v w : Nat) (c d : Char) : Option (List UInt8) :=
  if d = '=' then
    if c = '=' then
      if w % 16 = 0 then some [UInt8.ofNat (v * 4 + w / 16)] else none
    else
      match value c with
      | some x =>
        if x % 4 = 0 then some [UInt8.ofNat (v * 4 + w / 16), UInt8.ofNat (w % 16 * 16 + x / 4)]
        else none
      | none => none
  else none

def decode : List Char → Option (List UInt8)
  | [] => some []
  | a :: b :: c :: d :: rest =>
    match value a, value b with
    | some v, some w =>
      match value c, value d with
      | some x, some y =>
        (decode rest).map fun bytes =>
          UInt8.ofNat (v * 4 + w / 16) :: UInt8.ofNat (w % 16 * 16 + x / 4) ::
            UInt8.ofNat (x % 4 * 64 + y) :: bytes
      | _, _ => if rest = [] then decodePadded v w c d else none
    | _, _ => none
  | _ => none

theorem ofNat_eq {n : Nat} {a : UInt8} (h : n = a.toNat) : UInt8.ofNat n = a := by
  rw [h, UInt8.ofNat_toNat]

@[simp] theorem value_pad : value '=' = none := by decide

theorem decode_encode (bytes : List UInt8) : decode (encode bytes) = some bytes := by
  induction bytes using encode.induct with
  | case1 => rfl
  | case2 a =>
    have ha := a.toNat_lt
    simp only [encode, decode, value_digit (show a.toNat / 4 < 64 by omega),
      value_digit (show a.toNat % 4 * 16 < 64 by omega), value_pad, decodePadded, if_true]
    rw [if_pos (by omega), ofNat_eq (show _ = a.toNat by omega)]
  | case3 a b =>
    have ha := a.toNat_lt
    have hb := b.toNat_lt
    have hw : a.toNat % 4 * 16 + b.toNat / 16 < 64 := by omega
    have hx : b.toNat % 16 * 4 < 64 := by omega
    simp only [encode, decode, value_digit (show a.toNat / 4 < 64 by omega), value_digit hw,
      value_digit hx, value_pad, decodePadded, if_true, if_neg (digit_ne_pad hx)]
    rw [if_pos (by omega), ofNat_eq (show _ = a.toNat by omega), ofNat_eq (show _ = b.toNat by omega)]
  | case4 a b c rest ih =>
    have ha := a.toNat_lt
    have hb := b.toNat_lt
    have hc := c.toNat_lt
    simp only [encode, decode, value_digit (show a.toNat / 4 < 64 by omega),
      value_digit (show a.toNat % 4 * 16 + b.toNat / 16 < 64 by omega),
      value_digit (show b.toNat % 16 * 4 + c.toNat / 64 < 64 by omega),
      value_digit (show c.toNat % 64 < 64 by omega), ih, Option.map_some]
    rw [ofNat_eq (show _ = a.toNat by omega), ofNat_eq (show _ = b.toNat by omega),
      ofNat_eq (show _ = c.toNat by omega)]

theorem toNat_ofNat {n : Nat} (h : n < 256) : (UInt8.ofNat n).toNat = n :=
  UInt8.toNat_ofNat_of_lt h

theorem encode_decodePadded {a b c d : Char} {v w : Nat} {bytes : List UInt8}
    (ha : value a = some v) (hb : value b = some w) (h : decodePadded v w c d = some bytes) :
    encode bytes = [a, b, c, d] := by
  obtain ⟨hv, rfl⟩ := digit_of_value ha
  obtain ⟨hw, rfl⟩ := digit_of_value hb
  unfold decodePadded at h
  split at h
  next hd =>
    subst hd
    split at h
    next hc =>
      subst hc
      split at h
      next hzero =>
        cases h
        have hn := toNat_ofNat (show v * 4 + w / 16 < 256 by omega)
        rw [encode, hn, show (v * 4 + w / 16) / 4 = v by omega,
          show (v * 4 + w / 16) % 4 * 16 = w by omega]
      · cases h
    · split at h
      next x hc =>
        obtain ⟨hx, rfl⟩ := digit_of_value hc
        split at h
        next hzero =>
          cases h
          have hn := toNat_ofNat (show v * 4 + w / 16 < 256 by omega)
          have hm := toNat_ofNat (show w % 16 * 16 + x / 4 < 256 by omega)
          rw [encode, hn, hm, show (v * 4 + w / 16) / 4 = v by omega,
            show (v * 4 + w / 16) % 4 * 16 + (w % 16 * 16 + x / 4) / 16 = w by omega,
            show (w % 16 * 16 + x / 4) % 16 * 4 = x by omega]
        · cases h
      · cases h
  · cases h

theorem encode_of_decode {chars : List Char} {bytes : List UInt8} (h : decode chars = some bytes) :
    encode bytes = chars := by
  match chars with
  | [] => cases h; rfl
  | [_] | [_, _] | [_, _, _] => cases h
  | a :: b :: c :: d :: rest =>
    unfold decode at h
    split at h
    next v w ha hb =>
      split at h
      next x y hc hd =>
        obtain ⟨tail, htail, rfl⟩ := Option.map_eq_some_iff.mp h
        obtain ⟨hv, rfl⟩ := digit_of_value ha
        obtain ⟨hw, rfl⟩ := digit_of_value hb
        obtain ⟨hx, rfl⟩ := digit_of_value hc
        obtain ⟨hy, rfl⟩ := digit_of_value hd
        have hn := toNat_ofNat (show v * 4 + w / 16 < 256 by omega)
        have hm := toNat_ofNat (show w % 16 * 16 + x / 4 < 256 by omega)
        have hk := toNat_ofNat (show x % 4 * 64 + y < 256 by omega)
        rw [encode, hn, hm, hk, encode_of_decode htail, show (v * 4 + w / 16) / 4 = v by omega,
          show (v * 4 + w / 16) % 4 * 16 + (w % 16 * 16 + x / 4) / 16 = w by omega,
          show (w % 16 * 16 + x / 4) % 16 * 4 + (x % 4 * 64 + y) / 64 = x by omega,
          show (x % 4 * 64 + y) % 64 = y by omega]
      · split at h
        next hrest =>
          subst hrest
          exact encode_decodePadded ha hb h
        · cases h
    · cases h

end MatterRsServer.Lib.Base64
