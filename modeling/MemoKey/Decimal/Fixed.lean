import MemoKey.Decimal.Binary
import MemoKey.Decimal.Digits

/-!
# Decimals with a fixed number of places

The exact value of a binary number is rounded once, to the nearest multiple of the last place; a
value half-way between two goes to the even one.

* `Magnitude.fixed` is the text of a magnitude with a given number of places.
-/

namespace MemoKey

/-- The natural number nearest to a quotient, the even one of two at the same distance. -/
def roundDivEven (num den : Nat) : Nat :=
  let quotient := num / den
  let remainder := num % den
  if 2 * remainder < den then quotient
  else if den < 2 * remainder then quotient + 1
  else quotient + quotient % 2

/-- A magnitude in decimal with a fixed number of places. -/
def Magnitude.fixed (x : Magnitude) (places : Nat) : String :=
  let num := x.significand * Nat.pow 2 x.exponent.toNat * Nat.pow 10 places
  let den := Nat.pow 2 (-x.exponent).toNat
  Decimal.pointed (roundDivEven num den) places

end MemoKey
