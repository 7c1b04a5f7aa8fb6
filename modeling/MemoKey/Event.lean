import MemoKey.Atom
import MemoKey.Identity
import MemoKey.Opaque.Basic

/-!
# Events

A walk over arguments reports what it meets as a list of events. A composite is announced, its
parts follow, and it is closed; everything else is one event. Whatever makes a key is a fold over
these events.

* `Sequence` and `Composite` are the kinds of composites.
* `Whole` is a value that is kept as it is.
* `Event` is one report.
-/

namespace MemoKey

/-- The composites whose parts are a plain list of items. -/
inductive Sequence where
  /-- An array of fixed length. -/
  | array (kind : ArrayKind)
  /-- An ordered collection. -/
  | list
  /-- A set, in the order in which it lists its members. -/
  | set
  deriving DecidableEq, Inhabited

/-- The name of a sequence. An array is named for its kind. -/
def Sequence.name : Sequence → String
  | array kind => kind.name
  | list => "list"
  | set => "set"

/-- The sequence of a given name. -/
def Sequence.ofName? : String → Option Sequence
  | "list" => some list
  | "set" => some set
  | name => (ArrayKind.ofName? name).map array

@[simp] theorem Sequence.ofName?_name (s : Sequence) : ofName? s.name = some s := by
  match s with
  | array .reference => rfl
  | array (.primitive kind) => cases kind <;> rfl
  | list => rfl
  | set => rfl

/-- The words that a sequence puts into its parent's hash ahead of its own: the tag of a primitive
array. -/
def Sequence.tags : Sequence → List Hash
  | array kind => kind.tags
  | list => []
  | set => []

/-- A composite as it is announced. -/
inductive Composite where
  /-- A sequence of items. -/
  | seq (sequence : Sequence)
  /-- A map; its parts are entries. -/
  | map
  /-- One entry of a map; its parts are a key and a value. -/
  | entry
  /-- An object whose fields follow in the order of the names. -/
  | object (type : TypeName) (fieldNames : List String)
  deriving DecidableEq, Inhabited

namespace Composite

/-- The words that a composite puts into its parent's hash ahead of its own. -/
def tags : Composite → List Hash
  | seq sequence => sequence.tags
  | _ => []

/-- The words that a composite starts its own hash with: the name of an object's type. -/
def heading : Composite → List Hash
  | object type _ => [type.hash]
  | _ => []

end Composite

/-- A value that a key keeps as it is. -/
inductive Whole (ω : Type) where
  /-- An opaque value, compared by its own equality. -/
  | value (value : ω)
  /-- An object whose fields are not looked at, compared by identity. -/
  | object (id : Identity)
  deriving Inhabited

namespace Whole

variable {ω : Type} [OpaqueValue ω]

/-- What a whole value adds to a hash. -/
def contribution : Whole ω → Hash
  | value v => OpaqueValue.hash v
  | object id => id.hash

/-- Equality of whole values. An opaque value and an object are never equal. -/
def same : Whole ω → Whole ω → Bool
  | value v, value w => OpaqueValue.same v w
  | object id, object other => id == other
  | _, _ => false

instance : BEq (Whole ω) := ⟨same⟩

/-- Whether a whole value is an object. The hash of an object is an address, and means nothing
outside of the run that it was made in. -/
def isObject : Whole ω → Bool
  | value _ => false
  | object _ => true

end Whole

/-- What a walk reports. -/
inductive Event (ω : Type) where
  /-- A value without parts. -/
  | atom (value : Atom)
  /-- A value that is kept as it is. -/
  | whole (value : Whole ω)
  /-- A value that was cut because it contains itself. -/
  | cycle
  /-- A composite is opened; its parts follow. -/
  | opens (composite : Composite)
  /-- The innermost open composite is closed. -/
  | closes
  deriving Inhabited

/-- Whether an event reports an object that is kept whole. -/
def Event.keepsObject {ω : Type} : Event ω → Bool
  | whole value => value.isObject
  | _ => false

end MemoKey
