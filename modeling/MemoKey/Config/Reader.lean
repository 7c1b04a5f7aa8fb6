import MemoKey.Config.Basic
import MemoKey.Config.Document
import MemoKey.Fault
import MemoKey.Text.Decode

/-!
# Reading configurations

A configuration is an object with a member for each setting, or an array of the settings in a fixed
order. Settings that are left out have their defaults. An object may have other members, but no
setting twice; an array has no more items than there are settings.

* `Config.ofDocument?` reads a document, `Config.ofText` a text.
-/

namespace MemoKey

namespace Derivation

/-- The kind of key of a given name. -/
def ofName? : String → Option Derivation
  | "structural" => some structural
  | "hash_code" => some hashCode
  | _ => none

/-- The name of a kind of key. -/
def name : Derivation → String
  | structural => "structural"
  | hashCode => "hash_code"

/-- A kind of key in a document: its name, or an object whose only member has that name and is
null. -/
def ofDocument? : Document → Option Derivation
  | .string units => Text.ofUnits? units >>= ofName?
  | .object [(key, .null)] => Text.ofUnits? key >>= ofName?
  | _ => none

end Derivation

namespace Config

/-- A truth value in a document. -/
def truth? : Document → Option Bool
  | .bool value => some value
  | _ => none

/-- A setting: how it is put into a configuration. -/
abbrev Setting := Config → Document → Option Config

/-- The settings by name, in the order in which an array gives them. -/
def settings : List (String × Setting) :=
  [("include_method_name", fun c d => (truth? d).map ({ c with includeMethodName := · })),
    ("include_declaring_type_and_param_types",
      fun c d => (truth? d).map ({ c with includeSignatureTypes := · })),
    ("check_for_cycles", fun c d => (truth? d).map ({ c with checkForCycles := · })),
    ("use_reflection", fun c d => (truth? d).map ({ c with useReflection := · })),
    ("derivation", fun c d => (Derivation.ofDocument? d).map ({ c with derivation := · }))]

/-- Takes the settings of an array, one for each item. -/
def ofItems? : List (String × Setting) → List Document → Config → Option Config
  | _, [], c => some c
  | [], _ :: _, _ => none
  | (_, setting) :: rest, item :: items, c => setting c item >>= ofItems? rest items

/-- Takes the settings of an object. Every key has to be a text, and no setting may occur among
those that were seen before. -/
def ofMembers? (seen : List String) : List (List UInt16 × Document) → Config → Option Config
  | [], c => some c
  | (units, value) :: members, c => do
    let key ← Text.ofUnits? units
    match settings.lookup key with
    | none => ofMembers? seen members c
    | some setting => if seen.contains key then none else setting c value >>= ofMembers? (key :: seen) members

/-- The configuration that a document gives. -/
def ofDocument? : Document → Option Config
  | .object members => ofMembers? [] members {}
  | .array items => ofItems? settings items {}
  | _ => none

/-- The configuration that a text gives. -/
def ofText (text : String) : Except Fault Config :=
  match Document.parse? text with
  | none => .error (.config "the text is no document")
  | some document =>
    match ofDocument? document with
    | none => .error (.config "the document is no configuration")
    | some c => .ok c

end Config

end MemoKey
