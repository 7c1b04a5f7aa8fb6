import MemoKey.Derive.Struct
import MemoKey.Reflect.Object
import MemoKey.Store.Draft

/-!
# Values of derived structs

A value of a derived struct holds a content for each of its fields and, if one is the parent, a
value of the parent struct. It reads a slot from the level whose type owns it: among the fields of
that level that can be read, by name. Fields of the same name on different levels do not hide each
other.

* `Level` is the part of a value that one struct declares, `Instance` the whole value.
* `Instance.read` reads a slot.
* `Instance.object` is the value as an object, `Instance.toDraft` the value converted at once.
* `Instance.place` puts the contents of a value into a store, `Instance.share` also the value
  itself.
-/

namespace MemoKey.Derive

/-- The part of a value that one struct declares. -/
structure Level (α : Type) where
  /-- The number that sets the struct apart from all others. -/
  serial : Nat
  /-- The full name of the struct. -/
  name : TypeName
  /-- The fields of the struct with their contents. -/
  contents : List (Member × α)
  deriving Inhabited

namespace Level

variable {α : Type}

/-- The fields without their contents. -/
def members (level : Level α) : List Member :=
  level.contents.map (·.1)

/-- The declaration of the struct: every field but the parent. -/
def decl (level : Level α) : TypeDecl where
  serial := level.serial
  name := level.name
  fields := (listed level.members).map fun m => ⟨m.label, m.role == .synthetic⟩

/-- The content of the field of a given name, if it can be read. -/
def read (level : Level α) (name : String) : Option α :=
  (level.contents.find? fun c => c.1.role == .plain && c.1.label == name).map (·.2)

/-- Puts the contents of a level into a store, in order. -/
def place {ω : Type} (store : Store ω) (level : Level (Draft ω)) : Level (Value ω) × Store ω :=
  let (values, store) := Draft.placeItems store (level.contents.map (·.2))
  (⟨level.serial, level.name, level.members.zip values⟩, store)

end Level

/-- The level of a struct that was declared in a module, given the contents of its fields. -/
def StructExpansion.level {α : Type} (e : StructExpansion) (serial : Nat) (module : String)
    (content : Member → α) : Level α :=
  ⟨serial, ⟨module ++ "::" ++ e.typeName⟩, e.members.map fun m => (m, content m)⟩

/-- A value of a derived struct. -/
inductive Instance (α : Type) where
  /-- A value of a struct without a parent. -/
  | root (level : Level α)
  /-- A value of a struct with a parent, and the parent's value. -/
  | extending (level : Level α) (parent : Instance α)
  deriving Inhabited

namespace Instance

variable {α : Type}

/-- The type of a value. -/
def info : Instance α → TypeInfo
  | root level => .root level.decl
  | extending level parent => .extending level.decl parent.info

/-- Reads a slot: the field itself if the struct declares it, and otherwise through the parent. -/
def read (slot : Slot) : Instance α → Option α
  | root level => if slot.isOwnedBy (.root level.decl) then level.read slot.name else none
  | extending level parent =>
    if slot.isOwnedBy (.extending level.decl parent.info) then level.read slot.name
    else parent.read slot

variable {ω : Type}

/-- A value as an object. -/
def object (x : Instance (Value ω)) : Object ω where
  type := x.info
  read := fun slot => x.read slot

/-- A value converted with all its fields. It reads as the value does. -/
def toDraft (x : Instance (Draft ω)) : Draft ω :=
  .object x.info (x.info.layout.filterMap fun slot => (x.read slot).map fun draft => (slot, draft))

/-- Puts the contents of a value into a store, those of the parent last. -/
def place (store : Store ω) : Instance (Draft ω) → Instance (Value ω) × Store ω
  | root level =>
    let (level, store) := level.place store
    (root level, store)
  | extending level parent =>
    let (level, store) := level.place store
    let (parent, store) := place store parent
    (extending level parent, store)

/-- Puts a value into a store as an object of its own. -/
def share (store : Store ω) (x : Instance (Draft ω)) : Value ω × Store ω :=
  let (x, store) := x.place store
  store.place (.object x.object)

end Instance

end MemoKey.Derive
