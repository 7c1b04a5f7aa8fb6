import MemoKey.Key.Combiner
import MemoKey.Key.Structural

/-!
# Building structural keys from events

The assembly of a structural key keeps a frame for every composite that is open. A node goes into
the innermost frame; closing a frame turns it into a node, which goes into the frame around it.

Any list of events has a meaning, also one that no walk reports. Closing at the top level does
nothing, frames that are never closed have no part in the key, and an entry is completed with
absent values. Only entries belong into a map, and only there: other nodes are left out of a map,
and entries are left out of everything else.

* `Frame` is an open composite, `Assembly` the state.
* `Assembly.feed` takes one event, `Assembly.ofEvents` a list of them.
* `StructuralKey.ofEvents` is the key of a list of events.
-/

namespace MemoKey

/-- A composite that is still open, with the parts it has so far. -/
inductive Frame (ω : Type) where
  | seq (sequence : Sequence) (items : Array (Node ω))
  | map (entries : Array (Node ω × Node ω))
  | entry (parts : Array (Node ω))
  | object (type : TypeName) (fieldNames : List String) (values : Array (Node ω))
  deriving Inhabited

namespace Frame

variable {ω : Type}

/-- The frame of a composite that has just been opened. -/
def opened : Composite → Frame ω
  | .seq sequence => seq sequence #[]
  | .map => map #[]
  | .entry => entry #[]
  | .object type fieldNames => object type fieldNames #[]

/-- Puts a node into a frame. A map takes entries only. -/
def add (node : Node ω) : Frame ω → Frame ω
  | seq sequence items => seq sequence (items.push node)
  | map entries => map entries
  | entry parts => entry (parts.push node)
  | object type fieldNames values => object type fieldNames (values.push node)

/-- Puts an entry into a frame. Only a map takes it. -/
def addEntry (key value : Node ω) : Frame ω → Frame ω
  | map entries => map (entries.push (key, value))
  | frame => frame

/-- The key and the value of an entry: its last two parts, with absent values for missing ones. -/
def entryOf (parts : Array (Node ω)) : Node ω × Node ω :=
  let absent : Node ω := .atom .null
  (parts.pop.back?.getD absent, parts.back?.getD absent)

end Frame

/-- A structural key in the making. -/
structure Assembly (ω : Type) where
  /-- The nodes at the top level. -/
  root : Array (Node ω)
  /-- The open composites, innermost first. -/
  frames : List (Frame ω)
  deriving Inhabited

namespace Assembly

variable {ω : Type}

/-- No event yet. -/
def start : Assembly ω :=
  ⟨#[], []⟩

/-- The number of open composites. -/
def depth (a : Assembly ω) : Nat :=
  a.frames.length

/-- Puts a node into the innermost open composite, or at the top level. -/
def add (a : Assembly ω) (node : Node ω) : Assembly ω :=
  match a.frames with
  | [] => { a with root := a.root.push node }
  | frame :: rest => { a with frames := frame.add node :: rest }

/-- Puts an entry into the innermost open composite. -/
def addEntry (a : Assembly ω) (key value : Node ω) : Assembly ω :=
  match a.frames with
  | [] => a
  | frame :: rest => { a with frames := frame.addEntry key value :: rest }

/-- Opens a composite. -/
def enter (a : Assembly ω) (composite : Composite) : Assembly ω :=
  { a with frames := Frame.opened composite :: a.frames }

/-- Closes the innermost composite. At the top level there is nothing to close. The values of an
object are paired with its field names in order. -/
def leave (a : Assembly ω) : Assembly ω :=
  match a.frames with
  | [] => a
  | frame :: rest =>
    let outer : Assembly ω := { a with frames := rest }
    match frame with
    | .seq sequence items => outer.add (.seq sequence items.toList)
    | .map entries => outer.add (.map entries.toList)
    | .entry parts =>
      let (key, value) := Frame.entryOf parts
      outer.addEntry key value
    | .object type fieldNames values => outer.add (.object type (fieldNames.zip values.toList))

/-- Takes one event. -/
def feed (a : Assembly ω) : Event ω → Assembly ω
  | .atom value => a.add (.atom value)
  | .whole value => a.add (.whole value)
  | .cycle => a.add .cycle
  | .opens composite => a.enter composite
  | .closes => a.leave

/-- The state after a list of events. -/
def ofEvents (events : List (Event ω)) : Assembly ω :=
  events.foldl feed start

/-- The key of what stands at the top level. -/
def finish (a : Assembly ω) : StructuralKey ω :=
  ⟨a.root.toList⟩

end Assembly

/-- The structural key of a list of events. -/
def StructuralKey.ofEvents {ω : Type} (events : List (Event ω)) : StructuralKey ω :=
  (Assembly.ofEvents events).finish

/-- The hash key of a list of events. -/
def Hash.ofEvents {ω : Type} [OpaqueValue ω] (events : List (Event ω)) : Hash :=
  (Combiner.ofEvents events).finish

end MemoKey
