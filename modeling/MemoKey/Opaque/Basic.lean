import MemoKey.Hash

/-!
# Opaque values

An opaque value has no parts that a key could be made of. It takes part in a key through its own
equality and its own hash, so the library asks for nothing else.

* `OpaqueValue` is the class of types whose values may be opaque arguments.
-/

namespace MemoKey

/-- A type whose values may be used in keys as they are. -/
class OpaqueValue (ω : Type) where
  /-- The equality by which keys compare two values. -/
  same : ω → ω → Bool
  /-- What a value adds to a hash. Equal values should add the same. -/
  hash : ω → Hash
  /-- How a value is shown in inspections. -/
  inspect : ω → String

end MemoKey
