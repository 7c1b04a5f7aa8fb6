/-!
# Binary floating-point numbers as exact values

A bit pattern stands for a NaN, an infinity or a signed value `m * 2 ^ q`. Nothing is rounded on
the way: the significand is a natural number and the exponent an integer.

* `BinaryFormat` is the split of a bit pattern into sign, exponent and fraction.
* `Magnitude` is the absolute value of a finite number, `BinaryFloat` what a pattern stands for.
-/

namespace MemoKey

/-- How many bits of a pattern are fraction and how many exponent. The sign is one bit more. -/
structure BinaryFormat where
  fractionBits : Nat
  exponentBits : Nat

namespace BinaryFormat

/-- The 32-bit format. -/
def single : BinaryFormat := ⟨23, 8⟩

/-- The 64-bit format. -/
def double : BinaryFormat := ⟨52, 11⟩

/-- The exponent field of the number one. -/
def bias (format : BinaryFormat) : Nat :=
  Nat.pow 2 (format.exponentBits - 1) - 1

/-- The fraction field of a pattern. -/
def fractionField (format : BinaryFormat) (bits : Nat) : Nat :=
  bits % Nat.pow 2 format.fractionBits

/-- The exponent field of a pattern. -/
def exponentField (format : BinaryFormat) (bits : Nat) : Nat :=
  bits / Nat.pow 2 format.fractionBits % Nat.pow 2 format.exponentBits

/-- The sign of a pattern: true for a negative number. -/
def isNegative (format : BinaryFormat) (bits : Nat) : Bool :=
  bits / Nat.pow 2 (format.fractionBits + format.exponentBits) % 2 == 1

end BinaryFormat

/-- The absolute value `significand * 2 ^ exponent` of a finite number. -/
structure Magnitude where
  significand : Nat
  exponent : Int
  /-- Whether the significand is the least of its exponent, so that the gap below the number
  counts as half the gap above it. -/
  narrowBelow : Bool

/-- What a bit pattern stands for. -/
inductive BinaryFloat where
  | nan
  | infinity (negative : Bool)
  | finite (negative : Bool) (magnitude : Magnitude)

/-- Reads a bit pattern. The highest exponent field means a NaN or an infinity; the lowest one a
number without the hidden bit. -/
def BinaryFormat.decode (format : BinaryFormat) (bits : Nat) : BinaryFloat :=
  let fraction := format.fractionField bits
  let field := format.exponentField bits
  let negative := format.isNegative bits
  let least : Int := 1 - (format.bias : Int) - format.fractionBits
  if field = Nat.pow 2 format.exponentBits - 1 then
    if fraction = 0 then .infinity negative else .nan
  else if field = 0 then
    .finite negative ⟨fraction, least, false⟩
  else
    .finite negative ⟨Nat.pow 2 format.fractionBits + fraction, least + (field - 1 : Nat), fraction = 0⟩

end MemoKey
