import MemoKey.Fault
import MemoKey.Reflect.Session
import MemoKey.Value

/-!
# Reading objects

An object is taken apart by reading every slot of its type's layout in order. The first slot that
cannot be read is a fault. A snapshot is an object that holds the values another one had when it
was taken; it reads like its source wherever a layout looks.

* `Object.readAll` reads the slots of a layout.
* `Session.extract` takes an object apart with the layout from the cache.
* `Object.snapshot` and `Object.ofLevels` make objects, `Object.setField` changes one.
-/

namespace MemoKey

namespace Object

variable {ω : Type}

/-- The value in a slot, or the fault that the slot cannot be read. -/
def readOrFault (object : Object ω) (slot : Slot) : Except Fault (Value ω) :=
  match object.read slot with
  | some value => .ok value
  | none => .error (.fieldAccess slot.owner.name.text slot.name)

/-- The values in a list of slots, in order, or the fault of the first that cannot be read. -/
def readAll (object : Object ω) (slots : List Slot) : Except Fault (List (Value ω)) :=
  slots.mapM object.readOrFault

/-- An object with the type of another one and the values that its layout shows now. Slots outside
of the layout cannot be read, and gaps stay gaps. -/
def snapshot (object : Object ω) : Object ω :=
  let slots := object.type.layout
  let captured := slots.map fun slot => (slot, object.read slot)
  { type := object.type
    read := fun slot => (captured.lookup slot).join }

/-- An object given by one table for each type of its ancestry. A slot is looked up by name in the
table of its owner. -/
def ofLevels (type : TypeInfo) (levels : List (List (String × Value ω))) : Object ω :=
  { type
    read := fun slot => do (← (type.ancestry.zip levels).lookup slot.owner).lookup slot.name }

/-- An object with another value in one slot, or with none. All other slots read as before. -/
def setField (object : Object ω) (slot : Slot) (value : Option (Value ω)) : Object ω :=
  { object with read := fun other => if other = slot then value else object.read other }

@[simp] theorem read_setField (object : Object ω) (slot other : Slot) (value : Option (Value ω)) :
    (object.setField slot value).read other = if other = slot then value else object.read other :=
  rfl

end Object

/-- The values of an object and the slots they stand in. -/
structure Extract (ω : Type) where
  /-- The name of the object's type. -/
  type : TypeName
  /-- The layout of the type. -/
  slots : List Slot
  /-- One value for each slot. -/
  values : List (Value ω)

namespace Extract

variable {ω : Type}

/-- The names of the fields, in order. -/
def names (e : Extract ω) : List String :=
  e.slots.map (·.name)

/-- The fields with their names. -/
def pairs (e : Extract ω) : List (String × Value ω) :=
  e.names.zip e.values

end Extract

/-- Takes an object apart. The layout is asked for, and counted, before anything is read. -/
def Session.extract {ω : Type} (s : Session) (object : Object ω) :
    Except Fault (Extract ω) × Session :=
  let (slots, s) := s.layout object.type
  ((object.readAll slots).map fun values => ⟨object.type.name, slots, values⟩, s)

end MemoKey
