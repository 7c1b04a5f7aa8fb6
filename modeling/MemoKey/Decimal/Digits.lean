/-!
# Decimal numbers and how they are laid out

A decimal is `digits * 10 ^ exponent` with natural digits. It is laid out either positionally,
with as many zeros as that takes, or with an exponent after its leading digit.

* `Decimal.positional` and `Decimal.scientific` are the two layouts.
-/

namespace MemoKey

/-- The number `digits * 10 ^ exponent`. -/
structure Decimal where
  digits : Nat
  exponent : Int
  deriving DecidableEq, Inhabited

namespace Decimal

/-- A text filled up on the left with zeros to a given length. -/
def padZeros (length : Nat) (digits : String) : String :=
  String.ofList (List.replicate (length - digits.length) '0') ++ digits

/-- A number of `places`-th parts of one with its decimal point in place. -/
def pointed (digits places : Nat) : String :=
  let whole := toString (digits / Nat.pow 10 places)
  if places = 0 then whole
  else whole ++ "." ++ padZeros places (toString (digits % Nat.pow 10 places))

/-- The positional layout: zeros take the place of an exponent. -/
def positional (d : Decimal) : String :=
  if 0 ≤ d.exponent then toString (d.digits * Nat.pow 10 d.exponent.toNat)
  else pointed d.digits (-d.exponent).toNat

/-- The layout with an exponent: one digit, the others after a point, and the power of ten of the
first digit. -/
def scientific (d : Decimal) : String :=
  let digits := (toString d.digits).toList
  let power := d.exponent + (digits.length - 1 : Nat)
  let mantissa :=
    match digits with
    | [] => "0"
    | [first] => first.toString
    | first :: rest => first.toString ++ "." ++ String.ofList rest
  mantissa ++ "e" ++ toString power

end Decimal

end MemoKey
