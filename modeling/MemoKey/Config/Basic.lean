/-!
# Configurations

A configuration says what goes into a key besides the arguments, how arguments are walked, and
which kind of key is made.

* `Config` is the configuration, `Config.argumentsOnly` the one without any part of a signature.
-/

namespace MemoKey

/-- The two kinds of keys. -/
inductive Derivation where
  /-- A key that remembers the arguments in full. -/
  | structural
  /-- A 64-bit hash. -/
  | hashCode
  deriving DecidableEq, Inhabited

/-- How keys are made. -/
structure Config where
  /-- Put the name of the method before the arguments. -/
  includeMethodName : Bool := true
  /-- Put the declaring type and the parameter types before the arguments. -/
  includeSignatureTypes : Bool := true
  /-- Cut values that contain themselves. -/
  checkForCycles : Bool := true
  /-- Take objects apart into their fields instead of comparing them by identity. -/
  useReflection : Bool := false
  /-- The kind of key to make. -/
  derivation : Derivation := .structural
  deriving DecidableEq, Inhabited

namespace Config

/-- A configuration for keys that are made of the arguments alone. -/
def argumentsOnly : Config :=
  { includeMethodName := false, includeSignatureTypes := false }

/-- Whether any part of the signature goes into a key. -/
def includesSignature (c : Config) : Bool :=
  c.includeMethodName || c.includeSignatureTypes

end Config

end MemoKey
