import MemoKey.Decimal.Shortest
import MemoKey.Primitive
import MemoKey.Text.Quoted

/-!
# Primitives as text

A primitive is shown so that its kind can be told: integers and floats carry a suffix, except the
32-bit integer, and characters stand between quotes. A float is shown by the fewest digits that
read back, positionally and never with an exponent.

* `BinaryFormat.positional` is the plain text of a float.
* `BinaryFormat.inspect` is its text in inspections: there an integral float keeps a digit after
  its point, and very large or small ones an exponent.
* `Primitive.render` shows a primitive, `Primitive.inspect` inspects it.
-/

namespace MemoKey

namespace BinaryFormat

variable (format : BinaryFormat)

/-- A float's text, given how magnitudes are written. NaN has no sign; negative zero keeps its
own. -/
def write (magnitude : Magnitude → String) (bits : Nat) : String :=
  let signed (negative : Bool) (text : String) := if negative then "-" ++ text else text
  match format.decode bits with
  | .nan => "NaN"
  | .infinity negative => signed negative "inf"
  | .finite negative x => signed negative (magnitude x)

/-- A float by its shortest digits, positionally. -/
def positional (bits : Nat) : String :=
  format.write (·.shortest.positional) bits

/-- Whether a decimal is inspected with an exponent: from `10 ^ 16` on, and below `10 ^ -4`. -/
def usesExponent (d : Decimal) : Bool :=
  let power := d.exponent + ((toString d.digits).length - 1 : Nat)
  d.digits != 0 && (16 ≤ power || power < -4)

/-- The text of a decimal in inspections. -/
def inspectDecimal (d : Decimal) : String :=
  if usesExponent d then d.scientific
  else if 0 ≤ d.exponent then d.positional ++ ".0"
  else d.positional

/-- A float by its shortest digits, with a point or an exponent. -/
def inspect (bits : Nat) : String :=
  format.write (inspectDecimal ·.shortest) bits

end BinaryFormat

namespace Primitive

/-- A primitive with the suffix of its kind. -/
def render : Primitive → String
  | int8 value => toString value ++ "i8"
  | int16 value => toString value ++ "i16"
  | int32 value => toString value
  | int64 value => toString value ++ "i64"
  | char value => Text.quoteChar value
  | float32 bits => BinaryFormat.single.positional bits.toNat ++ "f32"
  | float64 bits => BinaryFormat.double.positional bits.toNat ++ "f64"
  | bool value => toString value

/-- The name of a kind in inspections. -/
def Kind.inspect : Kind → String
  | int8 => "I8"
  | int16 => "I16"
  | int32 => "I32"
  | int64 => "I64"
  | char => "Char"
  | float32 => "F32"
  | float64 => "F64"
  | bool => "Bool"

/-- The value of a primitive in inspections, without its kind. -/
def inspectValue : Primitive → String
  | int8 value => toString value
  | int16 value => toString value
  | int32 value => toString value
  | int64 value => toString value
  | char value => Text.quoteChar value
  | float32 bits => BinaryFormat.single.inspect bits.toNat
  | float64 bits => BinaryFormat.double.inspect bits.toNat
  | bool value => toString value

/-- A primitive in inspections: its kind and, in parentheses, its value. -/
def inspect (p : Primitive) : String :=
  p.kind.inspect ++ "(" ++ p.inspectValue ++ ")"

end Primitive

end MemoKey
