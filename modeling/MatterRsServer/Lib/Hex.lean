import MatterRsServer.Lib.Inet
import MatterRsServer.Lib.Text

/-!
# Hexadecimal text

Bytes that are read from two digits each, in either letter case, and numbers that are printed
with upper-case digits in a fixed width.
-/
namespace MatterRsServer.Lib.Hex

open Inet Text

/-- `u8::from_str_radix` with radix 16: an optional `+`, then at least one digit, in range. -/
def parseU8 (s : List Char) : Option UInt8 :=
  if (dropPlus s).isEmpty then none
  else ((dropPlus s).mapM (toDigit 16)).bind fun digits =>
    if ofDigits 16 digits < 256 then some (UInt8.ofNat (ofDigits 16 digits)) else none

/-- A text of two digits for each byte. -/
inductive Spells : List Char → List UInt8 → Prop
  | nil : Spells [] []
  | cons {high low : Char} {h l : Nat} {s : List Char} {bytes : List UInt8} :
      toDigit 16 high = some h → toDigit 16 low = some l → Spells s bytes →
      Spells (high :: low :: s) (UInt8.ofNat (16 * h + l) :: bytes)

theorem toDigit_lt {c : Char} {d : Nat} (h : toDigit 16 c = some d) : d < 16 :=
  of_decide_eq_true (Option.filter_eq_some_iff.mp h).2

/-- A digit is an ASCII character, so it takes one byte. -/
theorem utf8Size_of_toDigit {c : Char} {d : Nat} (h : toDigit 16 c = some d) : c.utf8Size = 1 := by
  refine Char.utf8Size_eq_one_iff.mpr ?_
  obtain ⟨hvalue, -⟩ := Option.filter_eq_some_iff.mp h
  split at hvalue
  next hc => exact UInt32.le_trans hc.2 (by decide)
  next =>
    split at hvalue
    next hc => exact UInt32.le_trans hc.2 (by decide)
    next =>
      split at hvalue
      next hc => exact UInt32.le_trans hc.2 (by decide)
      next => cases hvalue

theorem parseU8_pair {high low : Char} {h l : Nat} (hhigh : toDigit 16 high = some h)
    (hlow : toDigit 16 low = some l) : parseU8 [high, low] = some (UInt8.ofNat (16 * h + l)) := by
  have hplus : dropPlus [high, low] = [high, low] := by
    unfold dropPlus
    split
    next heq =>
      cases heq
      cases hhigh
    next => rfl
  have hh := toDigit_lt hhigh
  have hl := toDigit_lt hlow
  have hvalue : ofDigits 16 [h, l] = 16 * h + l := by
    simp only [ofDigits, List.foldl_cons, List.foldl_nil]
    omega
  have hdigits : [high, low].mapM (toDigit 16) = some [h, l] := by
    simp [hhigh, hlow]
  rw [parseU8, hplus, hdigits, if_neg (by simp), Option.bind_some, hvalue, if_pos (by omega)]

/-! ### Printing -/

def upperDigit (d : Nat) : Char := (Nat.digitChar d).toUpper

/-- `{:0wX}` of a number that has no more than `w` digits. -/
def upper : Nat → Nat → List Char
  | 0, _ => []
  | w + 1, n => upper w (n / 16) ++ [upperDigit (n % 16)]

theorem upperDigit_injective {a b : Nat} (ha : a < 16) (hb : b < 16)
    (h : upperDigit a = upperDigit b) : a = b := by
  have hall : ∀ a < 16, ∀ b < 16, upperDigit a = upperDigit b → a = b := by decide
  exact hall a ha b hb h

/-- Numbers that fit the width are told apart by their digits. -/
theorem upper_injective {w a b : Nat} (ha : a < 16 ^ w) (hb : b < 16 ^ w)
    (h : upper w a = upper w b) : a = b := by
  induction w generalizing a b with
  | zero =>
    rw [Nat.pow_zero] at ha hb
    omega
  | succ w ih =>
    obtain ⟨hinit, hlast⟩ := List.append_inj' h rfl
    have hdiv : a / 16 = b / 16 := by
      rw [Nat.pow_succ] at ha hb
      exact ih (Nat.div_lt_of_lt_mul (by omega)) (Nat.div_lt_of_lt_mul (by omega)) hinit
    have hmod : a % 16 = b % 16 :=
      upperDigit_injective (Nat.mod_lt a (by decide)) (Nat.mod_lt b (by decide))
        (List.cons.inj hlast).1
    omega

end MatterRsServer.Lib.Hex
