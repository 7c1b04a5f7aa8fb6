import MemoKey.Fault
import MemoKey.Store.Basic

/-!
# Arrays, lists, sets and maps in a store

An array keeps its length and its kind: a slot takes only what the kind admits. Lists and sets
grow and shrink at their end, and maps take entries at theirs.

* `Cell.blankArray`, `Cell.valueArray` and `Cell.primitiveArray?` make arrays.
* `Store.setSlot` is the store with another value in one slot of an array, or why there is none.
* `Store.assign` replaces the slot step by step, on the store that a program has.
  `Store.run_assign` says that it leaves the store as it is wherever `Store.setSlot` has none.
* `Store.push`, `Store.pop` and `Store.pushEntry` change the other collections. `Store.deref?_push`
  says that what is appended shows through all references.
* `Value.sameCollection?` tells references to one collection from references to two.
-/

namespace MemoKey

variable {ω : Type}

/-! ## Arrays -/

/-- Whether an array of this kind may hold a value. -/
def ArrayKind.admits : ArrayKind → Value ω → Bool
  | primitive kind, .atom (.primitive p) => p.kind == kind
  | primitive _, _ => false
  | reference, _ => true

namespace Cell

/-- An array of absent values that takes any value. -/
def blankArray (length : Nat) : Cell ω :=
  .seq (.array .reference) (List.replicate length .null)

/-- An array of the given values that takes any value. -/
def valueArray (items : List (Value ω)) : Cell ω :=
  .seq (.array .reference) items

/-- An array of primitives of one kind. The first primitive of another kind is a fault. -/
def primitiveArray? (kind : Primitive.Kind) (items : List Primitive) : Except Fault (Cell ω) :=
  match items.find? (·.kind != kind) with
  | some p => .error (.elementKind (ArrayKind.primitive kind).name p.kind.name)
  | none => .ok (.seq (.array (.primitive kind)) (items.map fun p => .atom (.primitive p)))

end Cell

namespace Store

/-- What a cell is called in messages. -/
def describeCell : Cell ω → String
  | .seq sequence _ => sequence.name
  | .map _ => "map"
  | .object object => object.type.name.text

/-- What a value is called in messages: its kind, or the name of its type. -/
def describe (store : Store ω) : Value ω → String
  | .atom .null => "null"
  | .atom (.primitive p) => p.kind.name
  | .atom (.text _) => "text"
  | .atom (.constant c) => c.type.text
  | .atom (.type _) => "type literal"
  | .whole _ => "opaque value"
  | .ref shape id => ((store.deref? (.ref shape id)).map describeCell).getD "null"

/-- The kind and the slots of an array. An identity of anything else counts as an array without
slots. -/
def array (store : Store ω) (id : Identity) : ArrayKind × List (Value ω) :=
  match store.get? id with
  | some (.array kind slots) => (kind, slots)
  | _ => (.reference, [])

/-- The value in a slot of an array. -/
def slot? (store : Store ω) (id : Identity) (index : Nat) : Option (Value ω) :=
  (store.array id).2[index]?

/-- Puts a value into a slot of an array. The kind of the value is looked at first, then the
index. -/
def setSlot (store : Store ω) (id : Identity) (index : Nat) (value : Value ω) :
    Except Fault (Store ω) :=
  let (kind, items) := store.array id
  if !kind.admits value then .error (.elementKind kind.name (store.describe value))
  else if index < items.length then
    .ok (store.set id (.array kind (items.set index value)))
  else .error (.indexOutOfBounds index items.length)

/-- Replaces the value in a slot of an array. Whatever is written before a fault stays written. -/
def assign (id : Identity) (index : Nat) (value : Value ω) :
    ExceptT Fault (StateM (Store ω)) Unit := do
  let (kind, _) := (← get).array id
  unless kind.admits value do
    throw (.elementKind kind.name ((← get).describe value))
  let (_, items) := (← get).array id
  unless index < items.length do
    throw (.indexOutOfBounds index items.length)
  modify fun store => store.set id (.array kind (items.set index value))

/-- Nothing is written before a fault. -/
theorem run_assign (store : Store ω) (id : Identity) (index : Nat) (value : Value ω) :
    (assign id index value).run.run store =
      match store.setSlot id index value with
      | .ok changed => (.ok (), changed)
      | .error fault => (.error fault, store) := by
  have hget (f : Store ω → ExceptT Fault (StateM (Store ω)) Unit) :
      (get >>= f).run.run store = (f store).run.run store := rfl
  unfold assign setSlot
  rw [hget]
  cases hadmits : (store.array id).1.admits value with
  | false =>
    simp only [hadmits]
    rfl
  | true =>
    simp only [hadmits, if_true, hget]
    split
    · rfl
    · rfl

/-! ## Lists, sets and maps -/

/-- Appends a value to a list or a set. The result is its new length. -/
def push (store : Store ω) (id : Identity) (value : Value ω) : Nat × Store ω :=
  match store.get? id with
  | some (.items items) => (items.length + 1, store.set id (.items (items ++ [value])))
  | some (.array _ slots) => (slots.length, store)
  | _ => (0, store)

/-- Takes the last value off a list or a set. -/
def pop (store : Store ω) (id : Identity) : Option (Value ω) × Store ω :=
  match store.get? id with
  | some (.items items) => (items.getLast?, store.set id (.items items.dropLast))
  | _ => (none, store)

/-- Appends an entry to a map. The result is its new length. -/
def pushEntry (store : Store ω) (id : Identity) (key value : Value ω) : Nat × Store ω :=
  match store.get? id with
  | some (.entries entries) =>
    (entries.length + 1, store.set id (.entries (entries ++ [(key, value)])))
  | _ => (0, store)

/-- What is appended to a collection shows through all references to it, as lists and as sets, and
through no others. -/
theorem deref?_push {store : Store ω} {id : Identity} {items : List (Value ω)}
    (h : store.get? id = some (.items items)) (value : Value ω) (shape : Shape)
    (other : Identity) :
    (store.push id value).2.deref? (.ref shape other) =
      if other = id then (Content.items (items ++ [value])).as? shape
      else store.deref? (.ref shape other) := by
  simp only [push, h, deref?_set, Option.bind_some]

end Store

/-- Whether a reference of a shape takes a composite for a list or a set. -/
def Shape.isCollection : Shape → Bool
  | list | set => true
  | array | map | object => false

/-- Whether two values are the same collection, or the same map, whatever they contain. A list and
a set are the same collection if they have the same identity. Other values are not compared in this
way. -/
def Value.sameCollection? : Value ω → Value ω → Option Bool
  | ref .map id, ref .map other => some (id == other)
  | ref shape id, ref shape' other =>
    if shape.isCollection && shape'.isCollection then some (id == other) else none
  | _, _ => none

end MemoKey
