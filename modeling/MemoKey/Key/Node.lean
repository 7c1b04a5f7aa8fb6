import MemoKey.Event

/-!
# Nodes of structural keys

A node is one value of an argument list as a key remembers it: composites with all their parts,
everything else as it is. Two nodes are equal if they have the same shape and equal leaves.

The hash of a node is made from words. Every node adds one word to its parent, its contribution;
a primitive array adds the tag of its kind before it.

* `Node` is the tree.
* `Node.contribution` and `Node.words` are what a node adds to a hash.
* `Node.same` is equality of nodes.
* `Node.keepsObject` tells whether a node depends on an address.
-/

namespace MemoKey

/-- A value as a structural key remembers it. -/
inductive Node (ω : Type) where
  /-- A value without parts. -/
  | atom (value : Atom)
  /-- A value kept as it is. -/
  | whole (value : Whole ω)
  /-- A value that was cut because it contains itself. -/
  | cycle
  /-- A sequence with its items. -/
  | seq (sequence : Sequence) (items : List (Node ω))
  /-- A map with its entries. -/
  | map (entries : List (Node ω × Node ω))
  /-- An object with the names and values of its fields. -/
  | object (type : TypeName) (fields : List (String × Node ω))
  deriving Inhabited

namespace Node

variable {ω : Type} [OpaqueValue ω]

/-! ## Hashes -/

/-- The words that a node puts into its parent's hash ahead of its contribution. -/
def tags : Node ω → List Hash
  | seq sequence _ => sequence.tags
  | _ => []

mutual

/-- What a node adds to its parent's hash. For a composite it is the hash of the words of its
parts, an object starting with the name of its type. -/
def contribution : Node ω → Hash
  | atom value => value.contribution
  | whole value => value.contribution
  | cycle => Hash.absent
  | seq _ items => Hash.ofList (itemWords items)
  | map entries => Hash.ofList (entryHashes entries)
  | object type fields => Hash.ofList (type.hash :: fieldWords fields)

/-- The words of a list of nodes. -/
def itemWords : List (Node ω) → List Hash
  | [] => []
  | node :: rest => node.tags ++ contribution node :: itemWords rest

/-- One word for each entry: the hash of the words of its key and its value. -/
def entryHashes : List (Node ω × Node ω) → List Hash
  | [] => []
  | (key, value) :: rest =>
    Hash.ofList (key.tags ++ contribution key :: (value.tags ++ [contribution value])) ::
      entryHashes rest

/-- The words of the values of a list of fields. The names take no part. -/
def fieldWords : List (String × Node ω) → List Hash
  | [] => []
  | (_, value) :: rest => value.tags ++ contribution value :: fieldWords rest

end

/-- All words that a node puts into its parent's hash. -/
def words (node : Node ω) : List Hash :=
  node.tags ++ [node.contribution]

/-- Takes a node into a hash. -/
def foldInto (node : Node ω) (acc : Hash) : Hash :=
  Hash.extend acc node.words

theorem itemWords_eq (nodes : List (Node ω)) : itemWords nodes = nodes.flatMap words := by
  induction nodes with
  | nil => simp [itemWords]
  | cons node rest ih => simp [itemWords, words, ih]

theorem entryHashes_eq (entries : List (Node ω × Node ω)) :
    entryHashes entries = entries.map fun e => Hash.ofList (e.1.words ++ e.2.words) := by
  induction entries with
  | nil => simp [entryHashes]
  | cons e rest ih => simp [entryHashes, words, ih]

theorem fieldWords_eq (fields : List (String × Node ω)) :
    fieldWords fields = fields.flatMap fun f => f.2.words := by
  induction fields with
  | nil => simp [fieldWords]
  | cons f rest ih => simp [fieldWords, words, ih]

/-! ## Equality -/

mutual

/-- Equality of nodes: the same shape, and equal leaves. -/
def same : Node ω → Node ω → Bool
  | atom a, atom b => a == b
  | whole a, whole b => a.same b
  | cycle, cycle => true
  | seq s xs, seq t ys => s == t && sameItems xs ys
  | map xs, map ys => sameEntries xs ys
  | object s xs, object t ys => s == t && sameFields xs ys
  | _, _ => false

/-- Equality of lists of nodes, item by item. -/
def sameItems : List (Node ω) → List (Node ω) → Bool
  | [], [] => true
  | x :: xs, y :: ys => same x y && sameItems xs ys
  | _, _ => false

/-- Equality of lists of entries, key by key and value by value. -/
def sameEntries : List (Node ω × Node ω) → List (Node ω × Node ω) → Bool
  | [], [] => true
  | (k, v) :: xs, (l, w) :: ys => same k l && same v w && sameEntries xs ys
  | _, _ => false

/-- Equality of lists of fields, name by name and value by value. -/
def sameFields : List (String × Node ω) → List (String × Node ω) → Bool
  | [], [] => true
  | (m, v) :: xs, (n, w) :: ys => m == n && same v w && sameFields xs ys
  | _, _ => false

end

instance : BEq (Node ω) := ⟨same⟩

/-! ## Addresses -/

mutual

/-- Whether an object is kept whole in a node or in any of its parts. -/
def keepsObject : Node ω → Bool
  | whole value => value.isObject
  | seq _ items => itemsKeepObject items
  | map entries => entriesKeepObject entries
  | object _ fields => fieldsKeepObject fields
  | _ => false

/-- Whether an object is kept whole in a list of nodes. -/
def itemsKeepObject : List (Node ω) → Bool
  | [] => false
  | node :: rest => keepsObject node || itemsKeepObject rest

/-- Whether an object is kept whole in a list of entries. -/
def entriesKeepObject : List (Node ω × Node ω) → Bool
  | [] => false
  | (key, value) :: rest => keepsObject key || keepsObject value || entriesKeepObject rest

/-- Whether an object is kept whole in a list of fields. -/
def fieldsKeepObject : List (String × Node ω) → Bool
  | [] => false
  | (_, value) :: rest => keepsObject value || fieldsKeepObject rest

end

end Node

end MemoKey
