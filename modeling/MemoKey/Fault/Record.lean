import MemoKey.Fault

/-!
# Faults on record

A fault can be put on record and read back. A record names the kind of the fault and what the
fault is about: one text, or several parts by name.

* `Fault.Record` is the record, `Fault.record` makes it and `Fault.ofRecord?` reads it.
* `Fault.ofRecord?_record` says that a record gives back the fault it was made of.
-/

namespace MemoKey.Fault

/-- A named part of a record. -/
inductive Part where
  | text (value : String)
  | count (value : Nat)
  deriving DecidableEq, Inhabited

/-- What a record says besides the kind of the fault. -/
inductive Body where
  /-- One text. -/
  | bare (text : String)
  /-- Several parts by name. -/
  | parts (parts : List (String × Part))
  deriving DecidableEq, Inhabited

/-- A fault on record. -/
structure Record where
  /-- The kind of the fault. -/
  kind : String
  /-- What the fault is about. -/
  body : Body
  deriving DecidableEq, Inhabited

namespace Record

/-- The only text of a record. -/
def bare? (r : Record) : Option String :=
  match r.body with
  | .bare text => some text
  | .parts _ => none

/-- The part of a given name. -/
def part? (r : Record) (name : String) : Option Part :=
  match r.body with
  | .bare _ => none
  | .parts parts => parts.lookup name

/-- The text of a given name. -/
def text? (r : Record) (name : String) : Option String :=
  match r.part? name with
  | some (.text value) => some value
  | _ => none

/-- The number of a given name. -/
def count? (r : Record) (name : String) : Option Nat :=
  match r.part? name with
  | some (.count value) => some value
  | _ => none

end Record

/-- The name of the kind of a fault. -/
def kind : Fault → String
  | fieldAccess .. => "FieldAccess"
  | indexOutOfBounds .. => "IndexOutOfBounds"
  | elementKind .. => "ElementKind"
  | missingSignature .. => "MissingSignature"
  | config .. => "Config"

/-- What a record of a fault says. -/
def body : Fault → Body
  | fieldAccess typeName field => .parts [("type_name", .text typeName), ("field", .text field)]
  | indexOutOfBounds index length => .parts [("index", .count index), ("len", .count length)]
  | elementKind expected found => .parts [("expected", .text expected), ("found", .text found)]
  | missingSignature part => .bare part
  | config reason => .bare reason

/-- Puts a fault on record. -/
def record (fault : Fault) : Record :=
  ⟨fault.kind, fault.body⟩

/-- The fault that a record is about. -/
def ofRecord? (r : Record) : Option Fault :=
  match r.kind with
  | "FieldAccess" => do return fieldAccess (← r.text? "type_name") (← r.text? "field")
  | "IndexOutOfBounds" => do return indexOutOfBounds (← r.count? "index") (← r.count? "len")
  | "ElementKind" => do return elementKind (← r.text? "expected") (← r.text? "found")
  | "MissingSignature" => r.bare?.map missingSignature
  | "Config" => r.bare?.map config
  | _ => none

/-- A record gives back the fault it was made of. -/
@[simp] theorem ofRecord?_record (fault : Fault) : ofRecord? fault.record = some fault := by
  cases fault <;> rfl

end MemoKey.Fault
