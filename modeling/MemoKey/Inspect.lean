import MemoKey.Primitive.Text
import MemoKey.Store.Basic

/-!
# Inspecting values

Inspection shows what a value is made of, for people to read. Composites are shown by kind and
address and never entered, since they may contain themselves. How an address is shown is up to the
caller.

* `Value.inspect` shows a value, `TypeInfo.inspect` the description of a type.
* `Object.inspectLayout` shows an object by its type and layout.
* `Whole.inspect` shows a value that a key keeps whole.
-/

namespace MemoKey

/-- A name with named parts between braces. -/
def inspectRecord (name : String) (parts : List (String × String)) : String :=
  let body := ", ".intercalate (parts.map fun p => p.1 ++ ": " ++ p.2)
  name ++ " \x7b " ++ body ++ " \x7d"

/-- A name with one part in parentheses. -/
def inspectTagged (name part : String) : String :=
  name ++ "(" ++ part ++ ")"

/-- Parts between brackets. -/
def inspectParts (parts : List String) : String :=
  "[" ++ ", ".intercalate parts ++ "]"

def TypeName.inspect (name : TypeName) : String :=
  inspectTagged "TypeName" (Text.quote name.text)

def EnumConstant.inspect (constant : EnumConstant) : String :=
  inspectRecord "EnumValue"
    [("type_name", constant.type.inspect), ("member", Text.quote constant.member)]

def ArrayKind.inspect : ArrayKind → String
  | primitive kind => inspectTagged "Primitive" kind.inspect
  | reference => "Reference"

def Atom.inspect : Atom → String
  | null => "Null"
  | primitive value => inspectTagged "Primitive" value.inspect
  | text value => inspectTagged "Text" (Text.quote value)
  | constant value => inspectTagged "Enum" value.inspect
  | type name => inspectTagged "Type" name.inspect

def FieldInfo.inspect (field : FieldInfo) : String :=
  inspectRecord "FieldInfo"
    [("name", Text.quote field.name), ("synthetic", toString field.synthetic)]

/-- A type by its name, its own fields and the name of its parent. -/
def TypeInfo.inspect (info : TypeInfo) : String :=
  let parent :=
    match info.parent? with
    | some parent => inspectTagged "Some" (Text.quote parent.name.text)
    | none => "None"
  inspectRecord "TypeInfo"
    [("name", Text.quote info.name.text),
      ("fields", inspectParts (info.fields.map FieldInfo.inspect)), ("parent", parent)]

variable {ω : Type}

/-- An object by the name of its type and the slots of its layout. -/
def Object.inspectLayout (object : Object ω) : String :=
  inspectRecord "FieldSnapshot"
    [("type_name", Text.quote object.type.name.text),
      ("layout", inspectParts (object.type.layout.map Slot.path))]

/-- A composite by its kind and its address. -/
def Cell.inspect (address : String) : Cell ω → String
  | seq (.array kind) items =>
    inspectRecord "Array"
      [("kind", kind.inspect), ("len", toString items.length), ("id", address)]
  | seq .list _ => inspectTagged "List" (inspectTagged "Shared" address)
  | seq .set _ => inspectTagged "Set" (inspectTagged "Shared" address)
  | map _ => inspectTagged "Map" (inspectTagged "Shared" address)
  | object o => inspectTagged "Object" o.inspectLayout

variable [OpaqueValue ω]

/-- A value in inspections. -/
def Value.inspect (store : Store ω) (address : Identity → String) : Value ω → String
  | atom value => value.inspect
  | whole value => inspectTagged "Opaque" (OpaqueValue.inspect value)
  | ref shape id =>
    ((store.deref? (.ref shape id)).map (Cell.inspect (address id))).getD Atom.null.inspect

/-- A whole value in inspections: an opaque value as it shows itself, an object by the name of its
type and its address. -/
def Whole.inspect (store : Store ω) (address : Identity → String) : Whole ω → String
  | value v => OpaqueValue.inspect v
  | object id =>
    match store.get? id with
    | some (.object o) => o.type.name.text ++ "@" ++ address id
    | _ => "@" ++ address id

end MemoKey
