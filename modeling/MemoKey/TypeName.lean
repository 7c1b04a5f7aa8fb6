import MemoKey.Text.Units

/-!
# Names of types and enum constants

Types and enum constants enter a key by name alone: ordinals, layouts and addresses take no part.

* `TypeName` is the name of a type, ordered by code point.
* `EnumConstant` is one declared member of an enum.
-/

namespace MemoKey

/-- The name of a type. -/
structure TypeName where
  /-- The name as it is written in full. -/
  text : String
  deriving DecidableEq, Inhabited

namespace TypeName

/-- A type name contributes the hash of its text. -/
def hash (name : TypeName) : Hash :=
  Text.hash name.text

instance : Ord TypeName where
  compare a b := compare a.text b.text

instance : ToString TypeName where
  toString name := name.text

end TypeName

/-- An enum constant, known by the name of its type and its own name. -/
structure EnumConstant where
  /-- The enum that declares the constant. -/
  type : TypeName
  /-- The name of the constant within its enum. -/
  member : String
  deriving DecidableEq, Inhabited

namespace EnumConstant

/-- Both names take part in the hash of a constant. -/
def hash (constant : EnumConstant) : Hash :=
  Hash.step constant.type.hash (Text.hash constant.member)

instance : ToString EnumConstant where
  toString constant := constant.type.text ++ "::" ++ constant.member

end EnumConstant

end MemoKey
