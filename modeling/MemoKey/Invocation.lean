import MemoKey.Config.Basic
import MemoKey.Fault
import MemoKey.Value

/-!
# Calls

A call is a list of arguments and, if the caller knows it, the signature of the method. The parts
of the signature that a configuration asks for stand in front of the arguments: the declaring
type, the name, and the list of parameter types.

* `Signature` and `Invocation` are the two.
* `Config.signatureEvents` reports the parts of a signature that a key is to include.
-/

namespace MemoKey

/-- A method: where it is declared, its name and the types of its parameters. -/
structure Signature where
  declaringType : TypeName
  name : String
  parameterTypes : List TypeName
  deriving DecidableEq, Inhabited

/-- A call. -/
structure Invocation (ω : Type) where
  /-- The method, if it is known. -/
  signature : Option Signature := none
  /-- The arguments, in order. -/
  arguments : List (Value ω) := []

namespace Config

/-- What a key lacks if it is to include parts of a signature and there is none. -/
def missingPart (c : Config) : String :=
  if c.includeSignatureTypes then "declaring type and parameter types" else "method name"

/-- The parts of a signature that go into a key. -/
def prefixEvents {ω : Type} (c : Config) (s : Signature) : List (Event ω) :=
  let name : List (Event ω) := if c.includeMethodName then [.atom (.text s.name)] else []
  if c.includeSignatureTypes then
    [.atom (.type s.declaringType)] ++ name ++
      [.opens (.seq .list)] ++ s.parameterTypes.map (fun t => .atom (.type t)) ++ [.closes]
  else name

/-- The events that come before the arguments. A configuration that asks for a part of the
signature needs one. -/
def signatureEvents {ω : Type} (c : Config) (signature : Option Signature) :
    Except Fault (List (Event ω)) :=
  if c.includesSignature then
    match signature with
    | some s => .ok (c.prefixEvents s)
    | none => .error (.missingSignature c.missingPart)
  else .ok []

end Config

end MemoKey
