import MemoKey.Primitive
import MemoKey.TypeName

/-!
# Atoms

An atom is a part of an argument with no parts of its own and no identity: an absent value, a
primitive, a text, an enum constant or the name of a type. Atoms pass unchanged from arguments
into keys, so arguments, events and keys share this one type.
-/

namespace MemoKey

/-- A value without parts and without identity. -/
inductive Atom where
  /-- An absent value. -/
  | null
  /-- A primitive scalar. -/
  | primitive (value : Primitive)
  /-- A text. -/
  | text (value : String)
  /-- An enum constant. -/
  | constant (value : EnumConstant)
  /-- A type itself. -/
  | type (name : TypeName)
  deriving DecidableEq, Inhabited

namespace Atom

/-- What an atom adds to a hash. -/
def contribution : Atom → Hash
  | null => Hash.absent
  | primitive value => value.contribution
  | text value => Text.hash value
  | constant value => value.hash
  | type name => name.hash

end Atom

end MemoKey
