import MemoKey.Opaque.Datum
import MemoKey.Proofs.Agreement
import MemoKey.Proofs.Separation

/-!
# One changed leaf changes the hash

A hash mixes 64-bit words and cannot tell all keys apart.  But it loses nothing at any one place: if
all of a key is fixed except for one node, then the hash determines what that node contributes.

The reason is that each step of Horner's rule can be undone.  Because 31 is odd, it has an inverse
among 64-bit words, so the accumulator before a step can be found from the one after it, and the
word as well (`Hash.step_left_injective`, `Hash.step_right_injective`).

## Positions

* `Place` is a node with a gap for one of its parts, and `Position` is a key with a gap, at the top
  level or at any depth.  `Position.exists_fill_eq` says that whatever stands in a key stands at a
  position.
* `Position.hash_fill` says that the hash of a key is an injective function of the accumulator after
  the node at a position.

## What contributions tell apart

Primitives of one kind contribute different words if their bits are different
(`Primitive.eq_of_contribution_eq`), and the tags of two kinds of arrays are different
(`Primitive.Kind.arrayTag_injective`).

The main statement is `Position.one_change_changes_hash`.
-/

namespace MemoKey

variable {ω : Type}

/-! ## Horner's rule can be undone -/

namespace Hash

/-- The inverse of 31 among 64-bit words. -/
def inverse31 : Hash := -1190112520884487201

lemma mul_31_injective : Function.Injective fun x : Hash => x * 31 := by
  intro x y h
  have hinverse : (31 : Hash) * inverse31 = 1 := by decide
  have hundo (z : Hash) : z * 31 * inverse31 = z := by rw [Int64.mul_assoc, hinverse, Int64.mul_one]
  have hsame : x * 31 = y * 31 := h
  rw [← hundo x, hsame, hundo y]

/-- A step can be undone: the accumulator before it can be found from the one after it, and so can
the word. -/
lemma step_left_injective (word : Hash) : Function.Injective fun acc => step acc word := by
  intro acc acc' h
  exact mul_31_injective ((Int64.add_left_inj word).mp h)

lemma step_right_injective (acc : Hash) : Function.Injective (step acc) := by
  intro word word' h
  exact (Int64.add_right_inj (acc * 31)).mp h

lemma extend_left_injective (words : List Hash) :
    Function.Injective fun acc => extend acc words := by
  induction words with
  | nil => exact Function.injective_id
  | cons word rest ih => exact ih.comp (step_left_injective word)

lemma ofBool_injective : Function.Injective ofBool := by
  intro x y h
  cases x <;> cases y <;> simp [ofBool] at h ⊢

end Hash

/-! ## Primitives and array kinds -/

/-- Primitives of one kind that contribute the same word are the same. -/
lemma Primitive.eq_of_contribution_eq {p q : Primitive} (hkind : p.kind = q.kind)
    (h : p.contribution = q.contribution) : p = q := by
  refine Primitive.eq_iff.mpr ⟨hkind, ?_⟩
  cases p <;> cases q <;> simp only [kind, reduceCtorEq] at hkind
  case float32.float32 x y =>
    have hsigned : x.toInt32.toInt64 = y.toInt32.toInt64 := h
    have hint : x.toInt32.toInt = y.toInt32.toInt := by simpa using congrArg Int64.toInt hsigned
    have hbits : x = y := congrArg Int32.toUInt32 (Int32.toInt_inj.mp hint)
    rw [hbits]
  case bool.bool x y => rw [Hash.ofBool_injective h]
  -- For all other kinds the bits are the contribution, read without a sign.
  all_goals exact congrArg Int64.toUInt64 h

lemma Primitive.Kind.arrayTag_injective : Function.Injective Primitive.Kind.arrayTag := by
  intro kind other h
  cases kind <;> cases other <;> first | rfl | exact absurd h (by decide)

/-! ## Positions -/

/-- A node with a gap in the place of one of its parts. -/
inductive Place (ω : Type) where
  /-- A gap among the items of a sequence. -/
  | item (sequence : Sequence) (before after : List (Node ω))
  /-- A gap for the key of an entry. -/
  | entryKey (before : List (Node ω × Node ω)) (value : Node ω) (after : List (Node ω × Node ω))
  /-- A gap for the value of an entry. -/
  | entryValue (before : List (Node ω × Node ω)) (key : Node ω) (after : List (Node ω × Node ω))
  /-- A gap for the value of a field. -/
  | field (type : TypeName) (before : List (String × Node ω)) (name : String)
      (after : List (String × Node ω))

/-- A structural key with a gap in it. -/
structure Position (ω : Type) where
  /-- The nodes around the gap, innermost first. -/
  places : List (Place ω)
  /-- The nodes of the key before the one that has the gap. -/
  before : List (Node ω)
  /-- The nodes of the key after it. -/
  after : List (Node ω)

/-- Puts a node into the gap. -/
def Place.fill (node : Node ω) : Place ω → Node ω
  | item sequence before after => .seq sequence (before ++ node :: after)
  | entryKey before value after => .map (before ++ (node, value) :: after)
  | entryValue before key after => .map (before ++ (key, node) :: after)
  | field type before name after => .object type (before ++ (name, node) :: after)

/-- Puts a node into the gap. -/
def Position.fill (p : Position ω) (node : Node ω) : StructuralKey ω :=
  ⟨p.before ++ p.places.foldl Place.fill node :: p.after⟩

lemma Place.exists_fill_eq {node part : Node ω} (h : part ∈ node.parts) :
    ∃ place : Place ω, place.fill part = node := by
  cases node with
  | atom | whole | cycle => simp [Node.parts] at h
  | seq sequence items =>
    obtain ⟨before, after, rfl⟩ := List.append_of_mem h
    exact ⟨.item sequence before after, rfl⟩
  | map entries =>
    obtain ⟨⟨key, value⟩, hentry, hpart⟩ := List.mem_flatMap.mp h
    obtain ⟨before, after, rfl⟩ := List.append_of_mem hentry
    simp only [List.mem_cons, List.not_mem_nil, or_false] at hpart
    rcases hpart with rfl | rfl
    · exact ⟨.entryKey before value after, rfl⟩
    · exact ⟨.entryValue before key after, rfl⟩
  | object type fields =>
    obtain ⟨⟨name, value⟩, hfield, rfl⟩ := List.mem_map.mp h
    obtain ⟨before, after, rfl⟩ := List.append_of_mem hfield
    exact ⟨.field type before name after, rfl⟩

/-- Whatever stands in a key, at any depth, stands at a position. -/
theorem Position.exists_fill_eq {key : StructuralKey ω} {node part : Node ω}
    (hnode : node ∈ key.nodes) (h : node.Holds part) : ∃ p : Position ω, p.fill part = key := by
  have hplaces : ∃ places : List (Place ω), places.foldl Place.fill part = node := by
    induction h with
    | refl => exact ⟨[], rfl⟩
    | tail _ hpart ih =>
      obtain ⟨places, hplaces⟩ := ih
      obtain ⟨place, hplace⟩ := Place.exists_fill_eq hpart
      exact ⟨place :: places, by rw [List.foldl_cons, hplace, hplaces]⟩
  obtain ⟨places, rfl⟩ := hplaces
  obtain ⟨before, after, hsplit⟩ := List.append_of_mem hnode
  exact ⟨⟨places, before, after⟩, congrArg StructuralKey.mk hsplit.symm⟩

/-! ## The hash at a position -/

namespace Node

/-- The arrays whose elements are primitives of one kind. -/
def IsPrimitiveArray (node : Node ω) : Prop :=
  ∃ kind items, node = .seq (.array (.primitive kind)) items

lemma tags_eq_nil {node : Node ω} (h : ¬ node.IsPrimitiveArray) : node.tags = [] := by
  cases node with
  | seq sequence items =>
    cases sequence with
    | array kind =>
      cases kind with
      | primitive kind => exact absurd ⟨kind, items, rfl⟩ h
      | reference => rfl
    | list => rfl
    | set => rfl
  | _ => rfl

variable [OpaqueValue ω]

lemma foldInto_eq (node : Node ω) (acc : Hash) :
    node.foldInto acc = Hash.step (Hash.extend acc node.tags) node.contribution := by
  rw [foldInto, words, Hash.extend_append]
  rfl

/-- A node among others is taken in where those before it leave off. -/
lemma ofList_itemWords (before after : List (Node ω)) (node : Node ω) :
    Hash.ofList (itemWords (before ++ node :: after)) =
      Hash.extend (node.foldInto (Hash.ofList (itemWords before))) (itemWords after) := by
  simp only [itemWords_eq, List.flatMap_append, List.flatMap_cons, Hash.ofList_append,
    Hash.extend_append, foldInto]

/-- An entry of a map adds the hash of its key and its value to that of the map. -/
lemma contribution_map (before after : List (Node ω × Node ω)) (e : Node ω × Node ω) :
    (map (before ++ e :: after)).contribution =
      Hash.extend
        (Hash.step (Hash.ofList (entryHashes before)) (Hash.ofList (e.1.words ++ e.2.words)))
        (entryHashes after) := by
  simp only [contribution, entryHashes_eq, List.map_append, List.map_cons, Hash.ofList_append,
    Hash.extend_cons]

end Node

namespace Place

lemma tags_fill (place : Place ω) (node other : Node ω) :
    (place.fill node).tags = (place.fill other).tags := by
  cases place <;> rfl

variable [OpaqueValue ω]

/-- What a node contributes determines the accumulator after the part in its gap. -/
lemma contribution_fill (place : Place ω) :
    ∃ (acc : Hash) (g : Hash → Hash), Function.Injective g ∧
      ∀ node, (place.fill node).contribution = g (node.foldInto acc) := by
  cases place with
  | item sequence before after =>
    refine ⟨Hash.ofList (Node.itemWords before),
      fun acc => Hash.extend acc (Node.itemWords after),
      Hash.extend_left_injective _, fun node => ?_⟩
    rw [fill, Node.contribution, Node.ofList_itemWords]
  | entryKey before value after =>
    refine ⟨Hash.seed,
      fun acc => Hash.extend
        (Hash.step (Hash.ofList (Node.entryHashes before)) (Hash.extend acc value.words))
        (Node.entryHashes after), ?_, fun node => ?_⟩
    · exact (Hash.extend_left_injective _).comp
        ((Hash.step_right_injective _).comp (Hash.extend_left_injective _))
    · rw [fill, Node.contribution_map, Hash.ofList_append]
      rfl
  | entryValue before key after =>
    refine ⟨Hash.ofList key.words,
      fun acc => Hash.extend (Hash.step (Hash.ofList (Node.entryHashes before)) acc)
        (Node.entryHashes after), ?_, fun node => ?_⟩
    · exact (Hash.extend_left_injective _).comp (Hash.step_right_injective _)
    · rw [fill, Node.contribution_map, Hash.ofList_append]
      rfl
  | field type before name after =>
    let words (f : String × Node ω) : List Hash := f.2.words
    refine ⟨Hash.ofList (type.hash :: before.flatMap words),
      fun acc => Hash.extend acc (after.flatMap words),
      Hash.extend_left_injective _, fun node => ?_⟩
    simp only [fill, Node.contribution, Node.fieldWords_eq, List.flatMap_append,
      List.flatMap_cons, Node.foldInto, words]
    rw [← List.cons_append, Hash.ofList_append, Hash.extend_append]

/-- What a node with a gap at any depth takes into a hash determines the accumulator after the node
in the gap. -/
lemma foldInto_foldl_fill (places : List (Place ω)) (start : Hash) :
    ∃ (acc : Hash) (g : Hash → Hash), Function.Injective g ∧
      ∀ node, (places.foldl fill node).foldInto start = g (node.foldInto acc) := by
  induction places with
  | nil => exact ⟨start, id, Function.injective_id, fun _ => rfl⟩
  | cons place rest ih =>
    -- The innermost place comes first: what is around it sees the filled place as one node.
    obtain ⟨acc, g, hg, hrest⟩ := ih
    obtain ⟨acc', g', hg', hplace⟩ := place.contribution_fill
    set tagged : Hash := Hash.extend acc (place.fill .cycle).tags with htagged
    refine ⟨acc', fun inner => g (Hash.step tagged (g' inner)), ?_, fun node => ?_⟩
    · exact hg.comp ((Hash.step_right_injective tagged).comp hg')
    · rw [List.foldl_cons, hrest, Node.foldInto_eq, hplace, tags_fill place node .cycle, htagged]

end Place

namespace Position

variable [OpaqueValue ω]

/-- The hash of a key determines the accumulator after the node at a position. -/
theorem hash_fill (p : Position ω) :
    ∃ (acc : Hash) (g : Hash → Hash), Function.Injective g ∧
      ∀ node, (p.fill node).hash = g (node.foldInto acc) := by
  obtain ⟨acc, g, hg, hplaces⟩ :=
    Place.foldInto_foldl_fill p.places (Hash.ofList (Node.itemWords p.before))
  refine ⟨acc, fun inner => Hash.extend (g inner) (Node.itemWords p.after), ?_, fun node => ?_⟩
  · exact (Hash.extend_left_injective _).comp hg
  · rw [StructuralKey.hash, fill, Node.ofList_itemWords, hplaces]

/-- The hash of a key is an injective function of what the node at a position contributes, as long
as the node is not an array of primitives. -/
lemma hash_fill_of_contribution (p : Position ω) :
    ∃ g : Hash → Hash, Function.Injective g ∧
      ∀ node : Node ω, ¬ node.IsPrimitiveArray → (p.fill node).hash = g node.contribution := by
  obtain ⟨acc, g, hg, hhash⟩ := p.hash_fill
  refine ⟨fun word => g (Hash.step acc word), hg.comp (Hash.step_right_injective acc), ?_⟩
  intro node harray
  rw [hhash, Node.foldInto_eq, Node.tags_eq_nil harray, Hash.extend_nil]

lemma hash_fill_primitive_ne (p : Position ω) {a b : Primitive} (hkind : a.kind = b.kind)
    (hbits : a.bits ≠ b.bits) :
    (p.fill (.atom (.primitive a))).hash ≠ (p.fill (.atom (.primitive b))).hash := by
  obtain ⟨g, hg, hhash⟩ := p.hash_fill_of_contribution
  have hleaf (q : Primitive) : ¬ (.atom (.primitive q) : Node ω).IsPrimitiveArray := nofun
  rw [hhash _ (hleaf a), hhash _ (hleaf b)]
  intro h
  have hsame : a = b := Primitive.eq_of_contribution_eq hkind (hg h)
  exact hbits (Primitive.eq_iff.mp hsame).2

lemma hash_fill_array_ne (p : Position ω) {kind other : Primitive.Kind} (h : kind ≠ other)
    (items : List (Node ω)) :
    (p.fill (.seq (.array (.primitive kind)) items)).hash ≠
      (p.fill (.seq (.array (.primitive other)) items)).hash := by
  obtain ⟨acc, g, hg, hhash⟩ := p.hash_fill
  rw [hhash, hhash, Node.foldInto_eq, Node.foldInto_eq]
  intro hsame
  -- The items contribute the same, so the accumulators before them are the same, tag and all.
  have htagged : Hash.step acc kind.arrayTag = Hash.step acc other.arrayTag :=
    Hash.step_left_injective _ (hg hsame)
  exact h (Primitive.Kind.arrayTag_injective (Hash.step_right_injective acc htagged))

/-- **One changed leaf changes the hash.**  At every position of a key the hash is an injective
function of what the node there contributes, unless it is an array of primitives.  So two calls
whose structural keys differ only in one primitive of the same kind, with different bits, have
different hash keys; and two keys that differ only in the kind of one array of primitives, empty or
not, have different hashes. -/
theorem one_change_changes_hash :
    (∀ key : StructuralKey ω, ∀ node ∈ key.nodes, ∀ part, node.Holds part →
      ∃ p : Position ω, p.fill part = key) ∧
    (∀ p : Position ω, ∃ g : Hash → Hash, Function.Injective g ∧
      ∀ node : Node ω, ¬ node.IsPrimitiveArray → (p.fill node).hash = g node.contribution) ∧
    (∀ (p : Position ω) (a b : Primitive), a.kind = b.kind → a.bits ≠ b.bits →
      ∀ (c : Config) (s t : Store ω) (call other : Invocation ω) (session session' : Session),
        (c.structuralKey s call session).1 = .ok (p.fill (.atom (.primitive a))) →
        (c.structuralKey t other session').1 = .ok (p.fill (.atom (.primitive b))) →
        ∃ hash hash', (c.hashKey s call session).1 = .ok hash ∧
          (c.hashKey t other session').1 = .ok hash' ∧ hash ≠ hash') ∧
    (∀ (p : Position ω) (kind other : Primitive.Kind) (items : List (Node ω)), kind ≠ other →
      (p.fill (.seq (.array (.primitive kind)) items)).hash ≠
        (p.fill (.seq (.array (.primitive other)) items)).hash) := by
  refine ⟨?_, ?_, ?_, ?_⟩
  · intro key node hnode part hpart
    exact exists_fill_eq hnode hpart
  · exact hash_fill_of_contribution
  · intro p a b hkind hbits c s t call other session session' hkey hkey'
    refine ⟨_, _, Config.hashKey_of_structuralKey hkey, Config.hashKey_of_structuralKey hkey', ?_⟩
    exact p.hash_fill_primitive_ne hkind hbits
  · intro p kind other items hkind
    exact p.hash_fill_array_ne hkind items

/-- Prices in a list that is the value of a map: the nearest floats to 1.5 and 1.7 have different
hash keys there, and so do two not-a-numbers with different payloads.  In the place of a price,
empty arrays of two kinds have different hashes. -/
theorem one_change_changes_hash_price :
    let p : Position Datum := ⟨[.item .list [] [], .entryValue [] (.atom (.text "a")) []], [], []⟩
    let price (bits : UInt32) : Store Datum :=
      { contents :=
          [(⟨0⟩, .entries [(.atom (.text "a"), .ref .list ⟨1⟩)]),
            (⟨1⟩, .items [.atom (.primitive (.float32 bits))])]
        next := 2 }
    let call : Invocation Datum := { arguments := [.ref .map ⟨0⟩] }
    let c : Config := Config.argumentsOnly
    (∃ hash hash', (c.hashKey (price 0x3fc00000) call {}).1 = .ok hash ∧
      (c.hashKey (price 0x3fd9999a) call {}).1 = .ok hash' ∧ hash ≠ hash') ∧
    (∃ hash hash', (c.hashKey (price 0x7fc00000) call {}).1 = .ok hash ∧
      (c.hashKey (price 0x7fc00001) call {}).1 = .ok hash' ∧ hash ≠ hash') ∧
    (p.fill (.seq (.array (.primitive .int32)) [])).hash ≠
      (p.fill (.seq (.array (.primitive .int64)) [])).hash := by
  intro p price call c
  obtain ⟨_, _, hleaf, hkind⟩ := one_change_changes_hash (ω := Datum)
  have hprice (x y : UInt32) (h : (Primitive.float32 x).bits ≠ (Primitive.float32 y).bits) :
      ∃ hash hash', (c.hashKey (price x) call {}).1 = .ok hash ∧
        (c.hashKey (price y) call {}).1 = .ok hash' ∧ hash ≠ hash' :=
    hleaf p (.float32 x) (.float32 y) rfl h c (price x) (price y) call call {} {} rfl rfl
  exact ⟨hprice _ _ (by decide), hprice _ _ (by decide), hkind p .int32 .int64 [] (by decide)⟩

end Position

end MemoKey
