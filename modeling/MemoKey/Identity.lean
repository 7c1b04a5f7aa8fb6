import MemoKey.Hash

/-!
# Identities

Composite values are told apart by identity, not by content: two lists with equal items are two
values, and a list reached on two ways is one. An identity is an address. Addresses are handed out
once and mean nothing beyond being equal or not, except in the hash of an object that is kept
whole.
-/

namespace MemoKey

/-- The identity of a composite value. -/
structure Identity where
  /-- The address that stands for the value. -/
  addr : Nat
  deriving DecidableEq, Inhabited

/-- An identity adds its address to a hash. -/
def Identity.hash (id : Identity) : Hash :=
  Int64.ofNat id.addr

end MemoKey
