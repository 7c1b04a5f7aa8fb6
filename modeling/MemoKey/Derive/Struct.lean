import MemoKey.Derive.Item
import MemoKey.Text.Uppercase

/-!
# Deriving the fields of a struct

Every field of a struct becomes a member with a role. One field may be marked as the parent: its
own fields are inherited. Fields that are marked to be skipped, and fields whose type is a phantom
marker, are synthetic. All others are plain and can be read.

The checks are made in a fixed order, and the first that fails decides: generic parameters, then
the kind of item, then the fields from first to last, each with its attributes from first to last.

* `Member` is a field with its role.
* `StructExpansion` is what deriving yields, `StructExpansion.ofItem` derives.
-/

namespace MemoKey.Derive

/-- The part that a field plays. -/
inductive Role where
  /-- The field can be read. -/
  | plain
  /-- The field is left out of keys. -/
  | synthetic
  /-- The fields of the field's own type are inherited. -/
  | parent
  deriving DecidableEq, Inhabited

/-- A field of a struct with its role. -/
structure Member where
  /-- The name of the field, or its index in a tuple. -/
  label : String
  /-- The type of the field. -/
  type : FieldType
  /-- The role of the field. -/
  role : Role
  deriving DecidableEq, Inhabited

/-- How a field is reached from its struct. -/
def Member.access (m : Member) : String :=
  "self." ++ m.label

/-! ## Options -/

/-- The options that a field carries. -/
structure Options where
  skip : Bool := false
  parent : Bool := false
  deriving DecidableEq, Inhabited

namespace Options

/-- Takes one option. -/
def addItem (o : Options) : OptionItem → Except Rejection Options
  | .word "skip" => .ok { o with skip := true }
  | .word "parent" => .ok { o with parent := true }
  | _ => .error .unknownOption

/-- Takes one attribute. Attributes of something else do not matter. -/
def addAttribute (o : Options) : Attribute → Except Rejection Options
  | .options items => items.foldlM addItem o
  | .bare => .error .attributeForm
  | .assigned => .error .attributeForm
  | .malformed fault => .error (.malformedAttribute fault)
  | .foreign => .ok o

/-- The options of a field. -/
def ofField (field : Field) : Except Rejection Options := do
  let o ← field.attributes.foldlM addAttribute {}
  if o.skip && o.parent then throw .skippedParent
  return o

end Options

/-! ## Members -/

/-- Whether a type is a phantom marker. -/
def FieldType.isPhantom (type : FieldType) : Bool :=
  type.lastSegment? == some "PhantomData"

/-- The role of a field with given options. -/
def Options.role (o : Options) (type : FieldType) : Role :=
  if o.parent then .parent
  else if o.skip || type.isPhantom then .synthetic
  else .plain

/-- The name of the field at an index. -/
def Field.label (field : Field) (index : Nat) : String :=
  field.name?.getD (toString index)

/-- The members of a list of fields, the first of which stands at an index. A parent is accepted
only if there was none before. -/
def membersFrom (index : Nat) (hasParent : Bool) : List Field → Except Rejection (List Member)
  | [] => .ok []
  | field :: rest => do
    let role := (← Options.ofField field).role field.type
    if role == .parent && hasParent then throw .secondParent
    let members ← membersFrom (index + 1) (hasParent || role == .parent) rest
    return ⟨field.label index, field.type, role⟩ :: members

/-- The members of a struct. -/
def members (fields : List Field) : Except Rejection (List Member) :=
  membersFrom 0 false fields

/-- The members that are listed as fields: all but the parent. -/
def listed (members : List Member) : List Member :=
  members.filter (·.role != .parent)

/-- The members that can be read. -/
def readable (members : List Member) : List Member :=
  members.filter (·.role == .plain)

/-! ## Expansions -/

/-- What deriving yields for a struct. -/
structure StructExpansion where
  /-- The name of the struct. -/
  typeName : String
  /-- The name of the constant that holds the description of the struct. -/
  constantName : String
  /-- The fields in order of declaration. -/
  members : List Member
  deriving DecidableEq, Inhabited

namespace StructExpansion

/-- The fields that are listed, each with whether it is synthetic. -/
def fields (e : StructExpansion) : List (String × Bool) :=
  (listed e.members).map fun m => (m.label, m.role == .synthetic)

/-- The field whose fields are inherited. -/
def parent? (e : StructExpansion) : Option Member :=
  e.members.find? (·.role == .parent)

/-- The fields that can be read, each with how it is reached. -/
def reads (e : StructExpansion) : List (String × String) :=
  (readable e.members).map fun m => (m.label, m.access)

/-- Whether a name is written in raw form. A raw name cannot be part of a longer one. -/
def isRaw (name : String) : Bool :=
  name.startsWith "r#"

/-- The expansion for an item. The constant's name is made from the item's name in upper case. -/
def ofItem (item : Item) : Except Failure StructExpansion := do
  if !item.isReadable then throw .unreadable
  if item.isGeneric then throw (.rejected .genericStruct)
  let fields ←
    match item.body with
    | .struct fields => pure fields
    | _ => throw (.rejected .notStruct)
  let members ← (Derive.members fields).mapError Rejection.failure
  if isRaw item.name then throw .unnameable
  return ⟨item.name, "__" ++ Text.uppercase item.name ++ "_TYPE_INFO", members⟩

end StructExpansion

end MemoKey.Derive
