import MemoKey.Key.Cache

/-!
# What keys feed to a hash table

A hash table asks its keys for words and hashes those its own way. Equal keys feed equal words.

* `Feed` is one word.
* The functions named `feeds` list the words of a primitive, a node and each kind of key.
-/

namespace MemoKey

/-- A word that is fed to a hash table. -/
inductive Feed where
  /-- A signed 64-bit word. -/
  | signed (word : Int64)
  /-- An unsigned 64-bit word. -/
  | unsigned (word : UInt64)
  /-- The position of an alternative among its siblings. -/
  | alternative (index : Nat)
  deriving DecidableEq, Inhabited

variable {ω : Type} [OpaqueValue ω]

/-- A kind feeds its position. -/
def Primitive.Kind.feeds (kind : Primitive.Kind) : List Feed :=
  [.alternative kind.index]

/-- A primitive feeds its kind and its bit pattern. -/
def Primitive.feeds (p : Primitive) : List Feed :=
  p.kind.feeds ++ [.unsigned p.bits]

/-- A node feeds its contribution. -/
def Node.feeds (node : Node ω) : List Feed :=
  [.signed node.contribution]

/-- A structural key feeds its hash. -/
def StructuralKey.feeds (key : StructuralKey ω) : List Feed :=
  [.signed key.hash]

/-- A cache key feeds which kind it is, and its hash. -/
def CacheKey.feeds : CacheKey ω → List Feed
  | .structural key => .alternative 0 :: key.feeds
  | .hashCode hash => [.alternative 1, .signed hash]

end MemoKey
