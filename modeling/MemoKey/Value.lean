import MemoKey.Event
import MemoKey.Reflect.TypeInfo

/-!
# Arguments

An argument is an atom, an opaque value, or a reference to a composite. Composites live in a store
and are reached through their identities, so a composite may be shared and may contain itself.

A reference says what it takes a composite for. Lists and sets are held alike, and one collection
may be referred to as a list here and as a set there: it has one identity, and what is appended to
it shows through both. The kind of an array is fixed when the array is made, so it is held with the
slots.

* `Shape` is what a reference takes a composite for.
* `Value` is an argument, or a part of one.
* `Object` is a value with fields that can be read one by one.
* `Content` is what a store holds for an identity.
* `Cell` is a composite as a reference shows it. `Content.as?` is what a reference of a shape makes
  of a content, and `Content.as?_eq_some_iff` says that the cell determines both.
-/

namespace MemoKey

/-- What a reference takes a composite for. -/
inductive Shape where
  | array
  | list
  | set
  | map
  | object
  deriving DecidableEq, Inhabited

/-- An argument, or a part of one. -/
inductive Value (ω : Type) where
  /-- A value without parts. -/
  | atom (value : Atom)
  /-- An opaque value. -/
  | whole (value : ω)
  /-- A composite, by its identity, and what it is taken for. -/
  | ref (shape : Shape) (id : Identity)
  deriving DecidableEq, Inhabited

namespace Value

variable {ω : Type}

/-- The absent value. -/
abbrev null : Value ω :=
  .atom .null

/-- The identity of a composite. Other values have none. -/
def identity? : Value ω → Option Identity
  | ref _ id => some id
  | _ => none

/-- Whether a value is the absent one. -/
def isNull : Value ω → Bool
  | atom .null => true
  | _ => false

end Value

/-- A value with fields. A field that cannot be read has no value. -/
structure Object (ω : Type) where
  /-- The type of the object. -/
  type : TypeInfo
  /-- The value of a field. -/
  read : Slot → Option (Value ω)

/-- What a store holds for an identity. -/
inductive Content (ω : Type) where
  /-- An array of a kind with its slots. -/
  | array (kind : ArrayKind) (slots : List (Value ω))
  /-- A collection, which may be taken for a list or for a set. -/
  | items (items : List (Value ω))
  /-- The entries of a map. -/
  | entries (entries : List (Value ω × Value ω))
  /-- An object. -/
  | object (object : Object ω)

/-- A composite as a reference shows it. -/
inductive Cell (ω : Type) where
  /-- A sequence with its items. -/
  | seq (sequence : Sequence) (items : List (Value ω))
  /-- A map with its entries, in the order in which it lists them. -/
  | map (entries : List (Value ω × Value ω))
  /-- An object. -/
  | object (object : Object ω)

variable {ω : Type}

/-- What a reference of a shape shows of a content: nothing, unless the content has that shape. -/
def Content.as? : Shape → Content ω → Option (Cell ω)
  | .array, array kind slots => some (.seq (.array kind) slots)
  | .list, items xs => some (.seq .list xs)
  | .set, items xs => some (.seq .set xs)
  | .map, entries es => some (.map es)
  | .object, object o => some (.object o)
  | _, _ => none

namespace Cell

/-- Whether a cell shows an object. -/
def isObject : Cell ω → Bool
  | object _ => true
  | _ => false

/-- The shape of the references that show a cell. -/
def shape : Cell ω → Shape
  | seq (.array _) _ => .array
  | seq .list _ => .list
  | seq .set _ => .set
  | map _ => .map
  | object _ => .object

/-- The content that a cell is shown of. -/
def content : Cell ω → Content ω
  | seq (.array kind) xs => .array kind xs
  | seq .list xs => .items xs
  | seq .set xs => .items xs
  | map es => .entries es
  | object o => .object o

end Cell

/-- A cell is what the references of its own shape show of its own content, and of no other. -/
theorem Content.as?_eq_some_iff {content : Content ω} {shape : Shape} {cell : Cell ω} :
    content.as? shape = some cell ↔ shape = cell.shape ∧ content = cell.content := by
  constructor
  · intro h
    cases shape <;> cases content <;> cases h <;> exact ⟨rfl, rfl⟩
  · rintro ⟨rfl, rfl⟩
    match cell with
    | .seq (.array _) _ | .seq .list _ | .seq .set _ | .map _ | .object _ => rfl

end MemoKey
