import MemoKey.Conversion.ArgType
import MemoKey.Store.Collections

/-!
# Programs over arrays

A program makes arrays, clones handles of them and sets their slots. A handle is no more than the
identity of an array: a clone is another handle of the same array, and what is set through one shows
through all of them. An array may be set into a slot of any array that takes it, itself included.

Handles are known by their numbers: the first one that a program gets is number zero.

* `Holdings` is what a program has at a time.
* `Holdings.view` is what a handle shows, `Holdings.get` one slot of it.
* `Action` is one thing that a program may do, `Holdings.apply` does it, and `Holdings.run` does
  several.
* `Action.makes?` is the array that an action asks for.
-/

namespace MemoKey

variable {ω : Type}

/-- One thing that a program may do with arrays. -/
inductive Action (ω : Type) where
  /-- An array of absent values is made. -/
  | blank (length : Nat)
  /-- An array is made of values. -/
  | ofValues (items : List (Value ω))
  /-- An array of one kind is made of primitives. -/
  | ofPrimitives (kind : Primitive.Kind) (items : List Primitive)
  /-- A value of a type is converted, with all the arrays inside. -/
  | convert (type : ArgType) (x : type.Carrier ω)
  /-- A value is looked at. If it is an array, the program gets a handle of it. -/
  | take (value : Value ω)
  /-- A handle is cloned. -/
  | clone (handle : Nat)
  /-- A slot is set through a handle. -/
  | set (handle index : Nat) (value : Value ω)

/-- The kind and the length of the array that a value of a type converts to, if it is an array. -/
def ArgType.array? : (type : ArgType) → type.Carrier ω → Option (ArrayKind × Nat)
  | .slice item, xs => some (item.elementKind, List.length xs)
  | .vector length item, _ => some (item.elementKind, length)
  | .pointer target, x => target.array? x
  | .option content, x => Option.bind x content.array?
  | _, _ => none

/-- The kind and the length of the array that an action asks for. -/
def Action.makes? : Action ω → Option (ArrayKind × Nat)
  | blank length => some (.reference, length)
  | ofValues items => some (.reference, items.length)
  | ofPrimitives kind items => some (.primitive kind, items.length)
  | convert type x => type.array? x
  | _ => none

/-- What a program has: a store, and handles of arrays in it. -/
structure Holdings (ω : Type) where
  store : Store ω := default
  /-- The handles by number. -/
  handles : List Identity := []

namespace Holdings

instance : Inhabited (Holdings ω) := ⟨{}⟩

/-- What a handle shows: the kind of its array and what is in the slots. -/
def view (h : Holdings ω) (handle : Nat) : Option (ArrayKind × List (Value ω)) :=
  h.handles[handle]?.map h.store.array

/-- The value in a slot of the array of a handle. -/
def get (h : Holdings ω) (handle index : Nat) : Option (Value ω) :=
  h.handles[handle]?.bind fun id => h.store.slot? id index

/-- One more handle, if the value is an array. -/
def take (h : Holdings ω) (value : Value ω) : Holdings ω :=
  match value, h.store.deref? value with
  | .ref _ id, some (.seq (.array _) _) => { h with handles := h.handles ++ [id] }
  | _, _ => h

/-- One more handle of the same array. -/
def clone (h : Holdings ω) (handle : Nat) : Holdings ω :=
  { h with handles := h.handles ++ h.handles[handle]?.toList }

/-- Takes over what has been placed. -/
def add (h : Holdings ω) (placed : Value ω × Store ω) : Holdings ω :=
  { h with store := placed.2 }.take placed.1

/-- Sets a slot through a handle. -/
def set (h : Holdings ω) (handle index : Nat) (value : Value ω) :
    Except Fault Unit × Holdings ω :=
  match h.handles[handle]? with
  | some id =>
    let (result, store) := (Store.assign id index value).run.run h.store
    (result, { h with store })
  | none => (.ok (), h)

/-- Does one thing. A fault is an answer like any other, and the program goes on. -/
def apply (h : Holdings ω) : Action ω → Except Fault Unit × Holdings ω
  | .blank length => (.ok (), h.add (h.store.place (.blankArray length)))
  | .ofValues items => (.ok (), h.add (h.store.place (.valueArray items)))
  | .ofPrimitives kind items =>
    match Cell.primitiveArray? kind items with
    | .ok cell => (.ok (), h.add (h.store.place cell))
    | .error fault => (.error fault, h)
  | .convert type x => (.ok (), h.add ((type.toDraft x).place h.store))
  | .take value => (.ok (), h.take value)
  | .clone handle => (.ok (), h.clone handle)
  | .set handle index value => h.set handle index value

/-- Does one thing after the other. -/
def run (h : Holdings ω) (actions : List (Action ω)) : Holdings ω :=
  actions.foldl (fun h action => (h.apply action).2) h

end Holdings

end MemoKey
