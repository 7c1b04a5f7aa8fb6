import MemoKey.TypeName

/-!
# Descriptions of object types

An object type is described by its declaration: a name, its own fields, and the description of the
type it extends. Types are distinct by declaration and never by name, so each declaration carries
a serial number.

A field is known by its name together with the type that declares it. The layout of a type lists
the fields that take part in keys: its own ones first, then those of each ancestor in turn. Fields
that hold derived state or markers are synthetic and take no part.

* `TypeInfo` is the description of a type, `Slot` a field of one.
* `TypeInfo.layout` is the layout.
-/

namespace MemoKey

/-- A declared field. -/
structure FieldInfo where
  /-- The name; a field of a tuple has its index for a name. -/
  name : String
  /-- Whether the field is left out of keys. -/
  synthetic : Bool := false
  deriving DecidableEq, Inhabited

/-- What a type declares itself. -/
structure TypeDecl where
  /-- The number that sets this declaration apart from all others. -/
  serial : Nat
  /-- The name of the type. Different types may share it. -/
  name : TypeName
  /-- The fields that the type declares, in order. -/
  fields : List FieldInfo
  deriving DecidableEq, Inhabited

/-- The description of a type: its declaration and, if it extends one, that of its parent. -/
inductive TypeInfo where
  | root (decl : TypeDecl)
  | extending (decl : TypeDecl) (parent : TypeInfo)
  deriving DecidableEq, Inhabited

/-- A field within a hierarchy of types. -/
structure Slot where
  /-- The type that declares the field. -/
  owner : TypeInfo
  /-- The name of the field. -/
  name : String
  deriving DecidableEq, Inhabited

namespace TypeInfo

/-- A declaration with the parent that it names, if any. -/
def declare (decl : TypeDecl) : Option TypeInfo → TypeInfo
  | none => root decl
  | some parent => extending decl parent

/-- The declaration of a type. -/
def decl : TypeInfo → TypeDecl
  | root decl => decl
  | extending decl _ => decl

/-- The type that a type extends. -/
def parent? : TypeInfo → Option TypeInfo
  | root _ => none
  | extending _ parent => some parent

/-- The name of a type. -/
def name (info : TypeInfo) : TypeName :=
  info.decl.name

/-- The fields that a type declares itself. -/
def fields (info : TypeInfo) : List FieldInfo :=
  info.decl.fields

/-- A type and all its ancestors, nearest first. -/
def ancestry : TypeInfo → List TypeInfo
  | root decl => [root decl]
  | extending decl parent => extending decl parent :: parent.ancestry

/-- The slots of the fields that a type declares itself and that are not synthetic. -/
def ownSlots (info : TypeInfo) : List Slot :=
  (info.fields.filter (!·.synthetic)).map fun field => ⟨info, field.name⟩

/-- The slots that make up an object of a type: its own ones, then those of each ancestor. -/
def layout (info : TypeInfo) : List Slot :=
  info.ancestry.flatMap ownSlots

@[simp] theorem layout_root (decl : TypeDecl) : (root decl).layout = (root decl).ownSlots := by
  simp [layout, ancestry]

@[simp] theorem layout_extending (decl : TypeDecl) (parent : TypeInfo) :
    (extending decl parent).layout = (extending decl parent).ownSlots ++ parent.layout := by
  simp [layout, ancestry]

end TypeInfo

namespace Slot

/-- Whether a type declares the field of a slot. -/
def isOwnedBy (slot : Slot) (info : TypeInfo) : Bool :=
  slot.owner == info

/-- A slot in writing: the name of its owner and its own. -/
def path (slot : Slot) : String :=
  slot.owner.name.text ++ "." ++ slot.name

end Slot

end MemoKey
