import MemoKey.Derive.Item
import MemoKey.TypeName

/-!
# Deriving the members of an enum

An enum whose variants carry no data converts to constants: each variant to the constant of its
own name. The checks are made in order, and the first that fails decides: generic parameters, the
kind of item, then the variants.

* `EnumExpansion` is what deriving yields, `EnumExpansion.ofItem` derives.
* `EnumExpansion.constant?` is the constant of a variant.
-/

namespace MemoKey.Derive

/-- What deriving yields for an enum. -/
structure EnumExpansion where
  /-- The name of the enum. -/
  typeName : String
  /-- The names of the variants, in order of declaration. -/
  variants : List String
  deriving DecidableEq, Inhabited

namespace EnumExpansion

/-- The name of a variant, if it carries no data. -/
def plainName (variant : Variant) : Except Rejection String :=
  if variant.carriesData then .error .variantData else .ok variant.name

/-- The expansion for an item. -/
def ofItem (item : Item) : Except Rejection EnumExpansion := do
  if item.isGeneric then throw .genericEnum
  match item.body with
  | .enum variants => return ⟨item.name, ← variants.mapM plainName⟩
  | _ => throw .notEnum

/-- Each variant with its full path, next to the name of its constant. -/
def members (e : EnumExpansion) : List (String × String) :=
  e.variants.map fun variant => (e.typeName ++ "::" ++ variant, variant)

/-- The constant of a variant of an enum that is declared in a module. -/
def constant? (e : EnumExpansion) (module variant : String) : Option EnumConstant :=
  if e.variants.contains variant then some ⟨⟨module ++ "::" ++ e.typeName⟩, variant⟩ else none

end EnumExpansion

end MemoKey.Derive
