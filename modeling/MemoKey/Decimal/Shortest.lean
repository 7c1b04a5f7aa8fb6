import MemoKey.Decimal.Binary
import MemoKey.Decimal.Digits

/-!
# The shortest decimal that reads back

A finite binary number is the nearest one of its format to every real in an interval around it.
The numbers with few digits are the multiples of a high power of ten, so the shortest decimal that
reads back lies on the coarsest grid of powers of ten that meets the interval. Of a grid only the
two neighbours of the number matter: if any point of the grid lies in the interval, one of them
does.

Each test is made in natural numbers, with the interval measured in quarters of the gap above.

* `Magnitude.onGrid?` is the neighbour on one grid that lies in the interval, if any.
* `Magnitude.shortest` is the first hit, from coarse grids to fine ones.
-/

namespace MemoKey.Magnitude

variable (x : Magnitude)

/-- The nearest point to a number on the grid of multiples of `10 ^ power`, if it lies in the
interval of reals that round to the number. The ends belong to the interval if the significand is
even, and of two points at the same distance the upper one is taken. -/
def onGrid? (power : Int) : Option Decimal :=
  let quarterExponent := x.exponent - 2
  let scale := Nat.pow 2 quarterExponent.toNat * Nat.pow 10 (-power).toNat
  let unit := Nat.pow 2 (-quarterExponent).toNat * Nat.pow 10 power.toNat
  let value := 4 * x.significand * scale
  let low := (4 * x.significand - if x.narrowBelow then 1 else 2) * scale
  let high := (4 * x.significand + 2) * scale
  let inside (point : Nat) : Bool :=
    if x.significand % 2 = 0 then low ≤ point && point ≤ high else low < point && point < high
  let below := value / unit
  let pointBelow := below * unit
  let pointAbove := (below + 1) * unit
  match inside pointBelow, inside pointAbove with
  | true, true => some ⟨if value - pointBelow < pointAbove - value then below else below + 1, power⟩
  | true, false => some ⟨below, power⟩
  | false, true => some ⟨below + 1, power⟩
  | false, false => none

/-- A power of ten above the number: no coarser grid has a point in the interval. -/
def coarsestPower : Int :=
  let bits := x.exponent + (x.significand.log2 + 2 : Nat)
  if 0 ≤ bits then bits * 31 / 100 + 1 else 0

/-- A power of ten so low that its grid is finer than the gaps between the numbers. -/
def finestPower : Int :=
  min x.exponent 0

/-- The grids from the coarsest to the finest. -/
def powers : List Int :=
  (List.range ((x.coarsestPower - x.finestPower).toNat + 1)).map fun i : Nat =>
    x.coarsestPower - (i : Int)

/-- The shortest decimal that reads back as the number, and of those the nearest one. -/
def shortest : Decimal :=
  if x.significand = 0 then ⟨0, 0⟩
  else (x.powers.findSome? x.onGrid?).getD ⟨0, 0⟩

end MemoKey.Magnitude
