/-!
# Faults

A fault is a reason why a key, an array or a configuration could not be made. Each fault carries
what its message names.

* `Fault.message` is the text of a fault.
-/

namespace MemoKey

/-- A reason for failure. -/
inductive Fault where
  /-- A declared field of an object cannot be read. Leaving the field out would let different
  arguments share a key, so it is a fault. -/
  | fieldAccess (typeName field : String)
  /-- An array has no slot of that index. -/
  | indexOutOfBounds (index length : Nat)
  /-- A value of another kind was put into a primitive array. -/
  | elementKind (expected found : String)
  /-- The key is to include a part of a signature, and the call has none. -/
  | missingSignature (part : String)
  /-- A configuration cannot be read. -/
  | config (reason : String)
  deriving DecidableEq, Inhabited

namespace Fault

/-- The text of a fault. -/
def message : Fault → String
  | fieldAccess typeName field => "cannot read field \x60" ++ field ++ "\x60 of \x60" ++ typeName ++ "\x60"
  | indexOutOfBounds index length =>
    "index " ++ toString index ++ " out of bounds for array of length " ++ toString length
  | elementKind expected found => "array of " ++ expected ++ " cannot hold " ++ found
  | missingSignature part =>
    "invocation carries no method signature but the key includes the " ++ part
  | config reason => "Configuration error: " ++ reason

end Fault

end MemoKey
