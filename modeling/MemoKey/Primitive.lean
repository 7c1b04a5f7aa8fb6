import MemoKey.Text.Units

/-!
# Primitive scalars

A primitive is a scalar of one of eight kinds together with its exact bit pattern. Floats are
held as bits, so equality tells `0.0` from `-0.0` and finds a NaN equal to itself.

* `Primitive.Kind` and `Primitive` are the kinds and the scalars.
* `ArrayKind` is what an array may hold: one kind of primitives, or any values.
* `Primitive.contribution` is what a scalar adds to a hash.
-/

namespace MemoKey

/-- The width and reading of a primitive scalar. -/
inductive Primitive.Kind where
  | int8
  | int16
  | int32
  | int64
  | char
  | float32
  | float64
  | bool
  deriving DecidableEq, Inhabited

namespace Primitive.Kind

/-- All kinds, in order of declaration. -/
def all : List Kind :=
  [int8, int16, int32, int64, char, float32, float64, bool]

/-- The name of a kind. -/
def name : Kind → String
  | int8 => "int8"
  | int16 => "int16"
  | int32 => "int32"
  | int64 => "int64"
  | char => "char"
  | float32 => "float32"
  | float64 => "float64"
  | bool => "bool"

/-- The kind of a given name. -/
def ofName? (name : String) : Option Kind :=
  all.find? (·.name == name)

/-- The position of a kind in the order of declaration. -/
def index (kind : Kind) : Nat :=
  all.idxOf kind

instance : Ord Kind where
  compare a b := compare a.index b.index

/-- The descriptor of an array of this kind. -/
def descriptor : Kind → String
  | int8 => "[B"
  | int16 => "[S"
  | int32 => "[I"
  | int64 => "[J"
  | char => "[C"
  | float32 => "[F"
  | float64 => "[D"
  | bool => "[Z"

/-- The word that goes into a hash ahead of an array of this kind. It is all that tells empty
arrays of two kinds apart. -/
def arrayTag (kind : Kind) : Hash :=
  Text.hash kind.descriptor

end Primitive.Kind

/-- What the elements of an array may be. -/
inductive ArrayKind where
  /-- Primitives of one kind. -/
  | primitive (kind : Primitive.Kind)
  /-- Any values. -/
  | reference
  deriving DecidableEq, Inhabited

namespace ArrayKind

/-- The name of an array kind: that of its elements, followed by brackets. -/
def name : ArrayKind → String
  | primitive kind => kind.name ++ "[]"
  | reference => "value[]"

/-- The array kind of a given name. -/
def ofName? (name : String) : Option ArrayKind :=
  (reference :: Primitive.Kind.all.map primitive).find? (·.name == name)

/-- The words that an array of this kind puts into its parent's hash ahead of its own. -/
def tags : ArrayKind → List Hash
  | primitive kind => [kind.arrayTag]
  | reference => []

end ArrayKind

/-- A primitive scalar. Floats are given by their bit patterns. -/
inductive Primitive where
  | int8 (value : Int8)
  | int16 (value : Int16)
  | int32 (value : Int32)
  | int64 (value : Int64)
  | char (value : Char)
  | float32 (bits : UInt32)
  | float64 (bits : UInt64)
  | bool (value : Bool)
  deriving DecidableEq, Inhabited

namespace Primitive

/-- The kind of a primitive. -/
def kind : Primitive → Kind
  | int8 _ => .int8
  | int16 _ => .int16
  | int32 _ => .int32
  | int64 _ => .int64
  | char _ => .char
  | float32 _ => .float32
  | float64 _ => .float64
  | bool _ => .bool

/-- The bit pattern of a primitive, sign-extended for integers. -/
def bits : Primitive → UInt64
  | int8 value => value.toInt64.toUInt64
  | int16 value => value.toInt64.toUInt64
  | int32 value => value.toInt64.toUInt64
  | int64 value => value.toUInt64
  | char value => value.val.toUInt64
  | float32 bits => bits.toUInt64
  | float64 bits => bits
  | bool value => value.toUInt64

/-- What a primitive adds to a hash. A float adds its bit pattern and never a rounded number,
so neighbouring floats stay apart. -/
def contribution : Primitive → Hash
  | int8 value => value.toInt64
  | int16 value => value.toInt64
  | int32 value => value.toInt64
  | int64 value => value
  | char value => value.val.toUInt64.toInt64
  | float32 bits => bits.toInt32.toInt64
  | float64 bits => bits.toInt64
  | bool value => Hash.ofBool value

end Primitive

end MemoKey
