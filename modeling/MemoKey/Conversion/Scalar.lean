import MemoKey.Primitive

/-!
# Scalar types and their primitives

Fourteen scalar types convert to primitives. Signed integers keep their width. Unsigned ones widen
to the next signed kind, and where there is none wider they keep their bit pattern. Integers of
pointer size count as 64-bit ones.

* `ScalarType` lists the types, `ScalarType.Carrier` says what their values are.
* `ScalarType.toPrimitive` converts.
* `ScalarType.ofInt` is the value that an integer stands for.
-/

namespace MemoKey

/-- A scalar type that converts to a primitive. -/
inductive ScalarType where
  | int8
  | int16
  | int32
  | int64
  | intSize
  | nat8
  | nat16
  | nat32
  | nat64
  | natSize
  | char
  | float32
  | float64
  | bool
  deriving DecidableEq, Inhabited

namespace ScalarType

/-- The values of a scalar type. Floats are given by their bit patterns. -/
abbrev Carrier : ScalarType → Type
  | int8 => Int8
  | int16 => Int16
  | int32 => Int32
  | int64 => Int64
  | intSize => Int64
  | nat8 => UInt8
  | nat16 => UInt16
  | nat32 => UInt32
  | nat64 => UInt64
  | natSize => UInt64
  | char => Char
  | float32 => UInt32
  | float64 => UInt64
  | bool => Bool

/-- The kind of primitives that a scalar type converts to. -/
def kind : ScalarType → Primitive.Kind
  | int8 => .int8
  | int16 => .int16
  | int32 => .int32
  | int64 => .int64
  | intSize => .int64
  | nat8 => .int16
  | nat16 => .int32
  | nat32 => .int64
  | nat64 => .int64
  | natSize => .int64
  | char => .char
  | float32 => .float32
  | float64 => .float64
  | bool => .bool

/-- Converts a scalar. -/
def toPrimitive : (s : ScalarType) → s.Carrier → Primitive
  | int8, x => .int8 x
  | int16, x => .int16 x
  | int32, x => .int32 x
  | int64, x => .int64 x
  | intSize, x => .int64 x
  | nat8, x => .int16 x.toUInt16.toInt16
  | nat16, x => .int32 x.toUInt32.toInt32
  | nat32, x => .int64 x.toUInt64.toInt64
  | nat64, x => .int64 x.toInt64
  | natSize, x => .int64 x.toInt64
  | char, x => .char x
  | float32, x => .float32 x
  | float64, x => .float64 x
  | bool, x => .bool x

/-- A scalar converts to a primitive of its type's kind. -/
@[simp] theorem kind_toPrimitive (s : ScalarType) (x : s.Carrier) :
    (s.toPrimitive x).kind = s.kind := by
  cases s <;> rfl

/-- The value that an integer stands for. Integers wrap to the width of the type, characters are
given by their code points and floats by their bit patterns, and all but zero is true. -/
def ofInt : (s : ScalarType) → Int → s.Carrier
  | int8, n => Int8.ofInt n
  | int16, n => Int16.ofInt n
  | int32, n => Int32.ofInt n
  | int64, n => Int64.ofInt n
  | intSize, n => Int64.ofInt n
  | nat8, n => UInt8.ofInt n
  | nat16, n => UInt16.ofInt n
  | nat32, n => UInt32.ofInt n
  | nat64, n => UInt64.ofInt n
  | natSize, n => UInt64.ofInt n
  | char, n => Char.ofNat n.toNat
  | float32, n => UInt32.ofInt n
  | float64, n => UInt64.ofInt n
  | bool, n => n != 0

/-- The order of the values of a scalar type: by number, by code point, false before true. Floats
have no order of their own and go by their bit patterns. -/
def order : (s : ScalarType) → s.Carrier → s.Carrier → Ordering
  | int8, x, y => compare x y
  | int16, x, y => compare x y
  | int32, x, y => compare x y
  | int64, x, y => compare x y
  | intSize, x, y => compare x y
  | nat8, x, y => compare x y
  | nat16, x, y => compare x y
  | nat32, x, y => compare x y
  | nat64, x, y => compare x y
  | natSize, x, y => compare x y
  | char, x, y => compare x y
  | float32, x, y => compare x y
  | float64, x, y => compare x y
  | bool, x, y => compare x y

end ScalarType

end MemoKey
