import MemoKey.Derive.Attribute
import MemoKey.Derive.FieldType

/-!
# Items to derive for

An item is the declaration of a type as a deriving rule sees it: a name, whether it has generic
parameters, and the fields or variants with the attributes that were put on them.

* `Item` is the declaration.
* `hasParameters` looks for generic parameters after a name.
* `Rejection` is a reason not to derive, `Rejection.message` its text.
-/

namespace MemoKey.Derive

/-- A field of a struct. -/
structure Field where
  /-- The name. A field of a tuple has none. -/
  name? : Option String
  /-- The type. -/
  type : FieldType
  /-- The attributes, in order. -/
  attributes : List Attribute
  deriving DecidableEq, Inhabited

/-- A variant of an enum. -/
structure Variant where
  /-- The name. -/
  name : String
  /-- Whether it is declared with data, be it an empty list of fields. -/
  carriesData : Bool
  deriving DecidableEq, Inhabited

/-- What an item declares. -/
inductive Body where
  | struct (fields : List Field)
  | enum (variants : List Variant)
  | union
  deriving DecidableEq, Inhabited

/-- A declaration. -/
structure Item where
  /-- The name, as it is written. -/
  name : String
  /-- Whether it has generic parameters. -/
  isGeneric : Bool
  /-- What is declared. -/
  body : Body
  deriving DecidableEq, Inhabited

/-- Whether the types of all fields can be read. -/
def Item.isReadable (item : Item) : Bool :=
  match item.body with
  | .struct fields => fields.all (·.type.isReadable)
  | _ => true

/-- Whether the text after a type's name declares generic parameters: it does if it starts with
angle brackets and something stands in them. A clause of bounds that follows declares none. -/
def hasParameters (text : String) : Bool :=
  match Lexeme.scan text.toList with
  | .token (.sign '<' _) :: .token (.sign '>' _) :: _ => false
  | .token (.sign '<' _) :: _ => true
  | _ => false

/-- A reason not to derive. -/
inductive Rejection where
  /-- Fields can be derived for types without parameters only. -/
  | genericStruct
  /-- Fields can be derived for structs only. -/
  | notStruct
  /-- The attribute cannot be read. -/
  | malformedAttribute (fault : AttributeFault)
  /-- The attribute is not a list. -/
  | attributeForm
  /-- An option is neither of the two bare words. -/
  | unknownOption
  /-- A field carries both options. -/
  | skippedParent
  /-- A second field is marked as the parent. -/
  | secondParent
  /-- Members can be derived for types without parameters only. -/
  | genericEnum
  /-- Members can be derived for enums only. -/
  | notEnum
  /-- A variant has data. -/
  | variantData
  deriving DecidableEq, Inhabited

/-- The text of a rejection. -/
def Rejection.message : Rejection → String
  | genericStruct => "Reflect cannot be derived for generic types"
  | notStruct => "Reflect can only be derived for structs"
  | malformedAttribute fault => fault.message
  | attributeForm => "expected #[reflect(skip)] or #[reflect(parent)]"
  | unknownOption => "unknown reflect option, expected \x60skip\x60 or \x60parent\x60"
  | skippedParent => "a field cannot be both \x60skip\x60 and \x60parent\x60"
  | secondParent => "only one field can be marked #[reflect(parent)]"
  | genericEnum => "KeyEnum cannot be derived for generic types"
  | notEnum => "KeyEnum can only be derived for enums"
  | variantData => "KeyEnum variants cannot carry data"

/-- Why there is no expansion. -/
inductive Failure where
  /-- The item was rejected. -/
  | rejected (cause : Rejection)
  /-- The expansion would have to name something that cannot be named. -/
  | unnameable
  /-- The item holds a literal that has no place in the grammar. -/
  | unreadable
  deriving DecidableEq, Inhabited

/-- The failure that a rejection is. -/
def Rejection.failure : Rejection → Failure
  | malformedAttribute .unknownLiteral => .unreadable
  | cause => .rejected cause

end MemoKey.Derive
