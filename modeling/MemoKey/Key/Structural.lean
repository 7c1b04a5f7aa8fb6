import MemoKey.Key.Node

/-!
# Structural keys

A structural key is the list of nodes of one call: the parts of its signature that the key is to
include, then one node for each argument. Keys are compared node by node.

* `StructuralKey` is the key.
* `StructuralKey.hash` is its hash. It is the hash of the same call as a hash key.
-/

namespace MemoKey

/-- A key that remembers the arguments in full. -/
structure StructuralKey (ω : Type) where
  /-- The nodes at the top level. -/
  nodes : List (Node ω)
  deriving Inhabited

namespace StructuralKey

variable {ω : Type}

/-- The key of a call without arguments and without signature. -/
def empty : StructuralKey ω :=
  ⟨[]⟩

/-- The number of nodes at the top level. -/
def length (key : StructuralKey ω) : Nat :=
  key.nodes.length

/-- Whether a key has no nodes. -/
def isEmpty (key : StructuralKey ω) : Bool :=
  key.nodes.isEmpty

variable [OpaqueValue ω]

/-- The hash of a key: that of the words of its nodes. -/
def hash (key : StructuralKey ω) : Hash :=
  Hash.ofList (Node.itemWords key.nodes)

/-- Equality of keys, node by node. -/
def same (key other : StructuralKey ω) : Bool :=
  Node.sameItems key.nodes other.nodes

instance : BEq (StructuralKey ω) := ⟨same⟩

end StructuralKey

end MemoKey
