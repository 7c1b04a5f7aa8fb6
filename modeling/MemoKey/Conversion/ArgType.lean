import MemoKey.Conversion.Scalar
import MemoKey.Store.Draft

/-!
# Types of arguments and how their values convert

The types of arguments are built from scalars, texts and ready-made values by pointers, options,
arrays and collections. A conversion follows the type: arrays of any make become arrays, ordered
collections lists, sets sets and maps maps. Pointers do not show.

An array of scalars is a primitive array, also if the scalars stand behind pointers; every other
array takes any value. The kind hangs on the type alone, so an empty array has it too.

* `ArgType` and `ArgType.Carrier` are the types and their values.
* `ArgType.elementKind` is the kind of an array of a type.
* `ArgType.toDraft` converts a value.
-/

namespace MemoKey

/-- A type whose values convert to arguments. -/
inductive ArgType where
  /-- A scalar. -/
  | scalar (s : ScalarType)
  /-- A text. -/
  | text
  /-- The name of a type. -/
  | typeName
  /-- An enum constant. -/
  | constant
  /-- A primitive of a kind that is not known from the type. -/
  | primitive
  /-- A value that is an argument already. -/
  | value
  /-- An array that exists already. -/
  | array
  /-- An object that exists already. It keeps its identity. -/
  | object
  /-- A value behind a pointer. -/
  | pointer (target : ArgType)
  /-- A value that may be missing. -/
  | option (content : ArgType)
  /-- An array of any length. -/
  | slice (item : ArgType)
  /-- An array of a fixed length. -/
  | vector (length : Nat) (item : ArgType)
  /-- A growing sequence. -/
  | list (item : ArgType)
  /-- A sequence that grows at both ends. -/
  | deque (item : ArgType)
  /-- A set, as the list of its members in the order in which they are visited. -/
  | set (member : ArgType)
  /-- A map, as the list of its entries in the order in which they are visited. -/
  | map (key content : ArgType)
  deriving DecidableEq, Inhabited

namespace ArgType

/-- The values of a type. -/
def Carrier (ω : Type) : ArgType → Type
  | scalar s => s.Carrier
  | text => String
  | typeName => TypeName
  | constant => EnumConstant
  | primitive => Primitive
  | value => Value ω
  | array => Identity
  | object => Identity
  | pointer target => target.Carrier ω
  | option content => Option (content.Carrier ω)
  | slice item => List (item.Carrier ω)
  | vector length item => Vector (item.Carrier ω) length
  | list item => List (item.Carrier ω)
  | deque item => List (item.Carrier ω)
  | set member => List (member.Carrier ω)
  | map key content => List (key.Carrier ω × content.Carrier ω)

/-- The kind of an array whose items have this type. -/
def elementKind : ArgType → ArrayKind
  | scalar s => .primitive s.kind
  | pointer target => target.elementKind
  | _ => .reference

variable {ω : Type}

/-- Converts a value. -/
def toDraft : (t : ArgType) → t.Carrier ω → Draft ω
  | .scalar s, x => .stored (.atom (.primitive (s.toPrimitive x)))
  | .text, x => .stored (.atom (.text x))
  | .typeName, x => .stored (.atom (.type x))
  | .constant, x => .stored (.atom (.constant x))
  | .primitive, x => .stored (.atom (.primitive x))
  | .value, x => .stored x
  | .array, id => .stored (.ref .array id)
  | .object, id => .stored (.ref .object id)
  | .pointer target, x => target.toDraft x
  | .option content, x => (Option.map content.toDraft x).getD .null
  | .slice item, xs => .seq (.array item.elementKind) (List.map item.toDraft xs)
  | .vector _ item, xs => .seq (.array item.elementKind) (List.map item.toDraft (Vector.toList xs))
  | .list item, xs => .seq .list (List.map item.toDraft xs)
  | .deque item, xs => .seq .list (List.map item.toDraft xs)
  | .set member, xs => .seq .set (List.map member.toDraft xs)
  | .map key content, xs => .map (List.map (Prod.map key.toDraft content.toDraft) xs)

/-- The members of a sorted set: in ascending order, without repetitions. -/
def sortedMembers {α : Type} (order : α → α → Ordering) (members : List α) : List α :=
  (members.mergeSort fun x y => order x y != .gt).eraseRepsBy fun x y => order x y == .eq

/-- The order of the values of a type that has one. -/
def order? : (t : ArgType) → Option (t.Carrier ω → t.Carrier ω → Ordering)
  | .scalar s => some s.order
  | .text => some (compare : String → String → Ordering)
  | .typeName => some (compare : TypeName → TypeName → Ordering)
  | .pointer target => target.order?
  | _ => none

end ArgType

end MemoKey
