import MemoKey.Proofs.Horner
import MemoKey.Proofs.Position

/-!
# Exchanged neighbours

A hash depends on the order of what it is made of, but not always.  Two words that are taken one
after the other stand with neighbouring powers of 31, so that exchanging them moves the hash by
thirty times their difference.  Thirty is even, and therefore the hash stays where it is if the
words differ by one half of the range, `2 ^ 63`, or not at all, and in no other case
(`Hash.step_step_eq_iff`).

Words of 32 bits are never so far apart.  Among them every exchange of different words shows.

## Gaps for two

* `DoublePlace` is a composite with a gap for two neighbouring parts, and `DoublePosition` is a key
  with such a gap, at the top level or at any depth.  `DoublePosition.exists_fill_eq_iff` says that
  these are the places where two nodes of a key are neighbours.
* `DoublePosition.hash_fill` says that the hash of the key is an injective function of the
  accumulator after the two.

The main statement is `DoublePosition.exchange_keeps_hash_iff`.
-/

namespace MemoKey

variable {ω : Type}

/-! ## Two words in a row -/

namespace Hash

/-- A word that has room in 32 bits, with or without a sign. -/
def IsNarrow (word : Hash) : Prop :=
  -2 ^ 31 ≤ word.toInt ∧ word.toInt < 2 ^ 32

instance (word : Hash) : Decidable word.IsNarrow :=
  inferInstanceAs (Decidable (_ ∧ _))

/-- Of the factors of thirty only the two divides the range. -/
lemma thirty_mul_modEq_iff {x y : ℤ} :
    30 * x ≡ 30 * y [ZMOD 2 ^ 64] ↔ x ≡ y [ZMOD 2 ^ 63] := by
  constructor
  · intro h
    have hhalf : (2 : ℤ) ^ 64 / Int.gcd (2 ^ 64) 30 = 2 ^ 63 := by decide
    exact hhalf ▸ h.cancel_left_div_gcd (by decide)
  · intro h
    have hmul : 30 * x ≡ 30 * y [ZMOD 30 * 2 ^ 63] := h.mul_left'
    exact hmul.of_dvd ⟨15, by decide⟩

/-- Two steps of Horner's rule, in integers. -/
lemma toInt_step_step (acc first second : Hash) :
    (step (step acc first) second).toInt ≡
      acc.toInt * 961 + first.toInt * 31 + second.toInt [ZMOD 2 ^ 64] := by
  have hfirst := ((toInt_step acc first).mul_right 31).add_right second.toInt
  calc
    (step (step acc first) second).toInt
        ≡ (step acc first).toInt * 31 + second.toInt [ZMOD 2 ^ 64] := toInt_step _ second
    _ ≡ (acc.toInt * 31 + first.toInt) * 31 + second.toInt [ZMOD 2 ^ 64] := hfirst
    _ = acc.toInt * 961 + first.toInt * 31 + second.toInt := by ring

/-- **Two words may be taken in either order** exactly if they are congruent modulo `2 ^ 63`. -/
theorem step_step_eq_iff (acc a b : Hash) :
    step (step acc b) a = step (step acc a) b ↔ a.toInt ≡ b.toInt [ZMOD 2 ^ 63] := by
  -- Both orders have this in common; what is left is thirty times the word that comes first.
  set common : ℤ := acc.toInt * 961 + a.toInt + b.toInt
  have hab : (step (step acc a) b).toInt ≡ 30 * a.toInt + common [ZMOD 2 ^ 64] := by
    rw [show 30 * a.toInt + common = acc.toInt * 961 + a.toInt * 31 + b.toInt by ring]
    exact toInt_step_step acc a b
  have hba : (step (step acc b) a).toInt ≡ 30 * b.toInt + common [ZMOD 2 ^ 64] := by
    rw [show 30 * b.toInt + common = acc.toInt * 961 + b.toInt * 31 + a.toInt by ring]
    exact toInt_step_step acc b a
  rw [eq_iff_toInt_modEq, ← thirty_mul_modEq_iff]
  constructor
  · intro h
    exact ((hba.symm.trans h).trans hab).symm.add_right_cancel' common
  · intro h
    exact hba.trans ((h.symm.add_right common).trans hab.symm)

/-- Words of 32 bits are congruent modulo `2 ^ 63` only if they are the same. -/
lemma IsNarrow.eq_of_modEq {a b : Hash} (ha : a.IsNarrow) (hb : b.IsNarrow)
    (h : a.toInt ≡ b.toInt [ZMOD 2 ^ 63]) : a = b := by
  obtain ⟨hmin, hmax⟩ := ha
  obtain ⟨hmin', hmax'⟩ := hb
  have hmod : a.toInt % 2 ^ 63 = b.toInt % 2 ^ 63 := h
  have hsame : a.toInt = b.toInt := by omega
  exact Int64.toInt_inj.mp hsame

end Hash

/-! ## Neighbours -/

/-- Two nodes are neighbours directly inside a node: items or values of fields in a row, or the key
and the value of one entry. -/
def Node.HasNeighbours (node a b : Node ω) : Prop :=
  match node with
  | .seq _ items => [a, b] <:+: items
  | .map entries => (a, b) ∈ entries
  | .object _ fields => [a, b] <:+: fields.map (·.2)
  | _ => False

/-- Two nodes are neighbours in a key, at the top level or at any depth. -/
def StructuralKey.HasNeighbours (key : StructuralKey ω) (a b : Node ω) : Prop :=
  [a, b] <:+: key.nodes ∨
    ∃ node ∈ key.nodes, ∃ inner, node.Holds inner ∧ inner.HasNeighbours a b

/-- A composite with a gap in the place of two neighbouring parts. -/
inductive DoublePlace (ω : Type) where
  /-- A gap for two items of a sequence. -/
  | items (sequence : Sequence) (before after : List (Node ω))
  /-- A gap for the key and the value of an entry. -/
  | entry (before after : List (Node ω × Node ω))
  /-- A gap for the values of two fields. -/
  | fields (type : TypeName) (before : List (String × Node ω)) (name name' : String)
      (after : List (String × Node ω))

/-- A structural key with a gap for two neighbours. -/
inductive DoublePosition (ω : Type) where
  /-- A gap at the top level. -/
  | top (before after : List (Node ω))
  /-- A gap in a composite, which stands at a position. -/
  | inside (position : Position ω) (place : DoublePlace ω)

/-- Puts two nodes into the gap. -/
def DoublePlace.fill (first second : Node ω) : DoublePlace ω → Node ω
  | items sequence before after => .seq sequence (before ++ first :: second :: after)
  | entry before after => .map (before ++ (first, second) :: after)
  | fields type before name name' after =>
    .object type (before ++ (name, first) :: (name', second) :: after)

/-- Puts two nodes into the gap. -/
def DoublePosition.fill (p : DoublePosition ω) (first second : Node ω) : StructuralKey ω :=
  match p with
  | top before after => ⟨before ++ first :: second :: after⟩
  | inside position place => position.fill (place.fill first second)

lemma Place.mem_parts_fill (place : Place ω) (node : Node ω) : node ∈ (place.fill node).parts := by
  cases place <;> simp [fill, Node.parts]

/-- Whatever stands at a position stands in the key. -/
lemma Position.holds_fill (p : Position ω) (node : Node ω) :
    ∃ outer ∈ (p.fill node).nodes, outer.Holds node := by
  have hplaces (places : List (Place ω)) (part : Node ω) :
      (places.foldl Place.fill part).Holds part := by
    induction places generalizing part with
    | nil => exact .refl
    | cons place rest ih => exact (ih (place.fill part)).tail (place.mem_parts_fill part)
  exact ⟨_, List.mem_append_right _ List.mem_cons_self, hplaces p.places node⟩

namespace DoublePlace

/-- The composites with two given neighbours are those that have a gap for them. -/
lemma exists_fill_eq_iff {node a b : Node ω} :
    (∃ place : DoublePlace ω, place.fill a b = node) ↔ node.HasNeighbours a b := by
  constructor
  · rintro ⟨place, rfl⟩
    cases place with
    | items sequence before after => exact ⟨before, after, List.append_assoc ..⟩
    | entry before after => exact List.mem_append_right before List.mem_cons_self
    | fields type before name name' after =>
      exact ⟨before.map (·.2), after.map (·.2), by simp⟩
  · intro h
    cases node with
    | atom | whole | cycle => exact h.elim
    | seq sequence items =>
      obtain ⟨before, after, rfl⟩ := h
      exact ⟨.items sequence before after, by simp [fill]⟩
    | map entries =>
      obtain ⟨before, after, rfl⟩ := List.append_of_mem h
      exact ⟨.entry before after, rfl⟩
    | object type fields =>
      obtain ⟨values, values', hsplit⟩ := h
      rw [List.append_assoc] at hsplit
      obtain ⟨before, rest, rfl, rfl, hrest⟩ := List.map_eq_append_iff.mp hsplit.symm
      obtain ⟨⟨name, _⟩, rest', rfl, rfl, hrest'⟩ := List.map_eq_cons_iff.mp hrest
      obtain ⟨⟨name', _⟩, after, rfl, rfl, rfl⟩ := List.map_eq_cons_iff.mp hrest'
      exact ⟨.fields type before name name' after, rfl⟩

lemma tags_fill (place : DoublePlace ω) (a b c d : Node ω) :
    (place.fill a b).tags = (place.fill c d).tags := by
  cases place <;> rfl

end DoublePlace

/-- **Positions for two** are the places where two nodes of a key are neighbours. -/
theorem DoublePosition.exists_fill_eq_iff {key : StructuralKey ω} {a b : Node ω} :
    (∃ p : DoublePosition ω, p.fill a b = key) ↔ key.HasNeighbours a b := by
  constructor
  · rintro ⟨p, rfl⟩
    cases p with
    | top before after => exact .inl ⟨before, after, List.append_assoc ..⟩
    | inside position place =>
      obtain ⟨outer, houter, hholds⟩ := position.holds_fill (place.fill a b)
      have hneighbours : (place.fill a b).HasNeighbours a b :=
        DoublePlace.exists_fill_eq_iff.mp ⟨place, rfl⟩
      exact .inr ⟨outer, houter, place.fill a b, hholds, hneighbours⟩
  · rintro (⟨before, after, hsplit⟩ | ⟨outer, houter, inner, hholds, hneighbours⟩)
    · rw [List.append_assoc] at hsplit
      exact ⟨.top before after, congrArg StructuralKey.mk hsplit⟩
    · obtain ⟨place, rfl⟩ := DoublePlace.exists_fill_eq_iff.mpr hneighbours
      obtain ⟨position, hposition⟩ := Position.exists_fill_eq houter hholds
      exact ⟨.inside position place, hposition⟩

/-! ## The hash at a gap for two -/

section Hashes

variable [OpaqueValue ω]

/-- Two nodes among others are taken in where those before them leave off. -/
lemma Node.ofList_itemWords_pair (before after : List (Node ω)) (a b : Node ω) :
    Hash.ofList (itemWords (before ++ a :: b :: after)) =
      Hash.extend (b.foldInto (a.foldInto (Hash.ofList (itemWords before)))) (itemWords after) := by
  have hcons : itemWords (b :: after) = b.words ++ itemWords after := by
    rw [itemWords_eq, List.flatMap_cons, ← itemWords_eq]
  rw [ofList_itemWords, hcons, Hash.extend_append]
  rfl

/-- Two nodes without tags may be taken into a hash in either order exactly if their contributions
are congruent modulo `2 ^ 63`. -/
lemma Node.foldInto_foldInto_eq_iff {a b : Node ω} (ha : ¬ a.IsPrimitiveArray)
    (hb : ¬ b.IsPrimitiveArray) (acc : Hash) :
    a.foldInto (b.foldInto acc) = b.foldInto (a.foldInto acc) ↔
      a.contribution.toInt ≡ b.contribution.toInt [ZMOD 2 ^ 63] := by
  simp only [foldInto_eq, tags_eq_nil ha, tags_eq_nil hb, Hash.extend_nil]
  exact Hash.step_step_eq_iff acc a.contribution b.contribution

/-- What a composite contributes determines the accumulator after the two parts in its gap. -/
lemma DoublePlace.contribution_fill (place : DoublePlace ω) :
    ∃ (acc : Hash) (g : Hash → Hash), Function.Injective g ∧
      ∀ a b, (place.fill a b).contribution = g (b.foldInto (a.foldInto acc)) := by
  cases place with
  | items sequence before after =>
    refine ⟨Hash.ofList (Node.itemWords before),
      fun acc => Hash.extend acc (Node.itemWords after),
      Hash.extend_left_injective _, fun a b => ?_⟩
    rw [fill, Node.contribution, Node.ofList_itemWords_pair]
  | entry before after =>
    -- The hash of an entry starts anew, and the map takes in what it comes to.
    refine ⟨Hash.seed,
      fun entry => Hash.extend (Hash.step (Hash.ofList (Node.entryHashes before)) entry)
        (Node.entryHashes after), ?_, fun a b => ?_⟩
    · exact (Hash.extend_left_injective _).comp (Hash.step_right_injective _)
    · rw [fill, Node.contribution_map, Hash.ofList_append]
      rfl
  | fields type before name name' after =>
    let words (f : String × Node ω) : List Hash := f.2.words
    refine ⟨Hash.ofList (type.hash :: before.flatMap words),
      fun acc => Hash.extend acc (after.flatMap words),
      Hash.extend_left_injective _, fun a b => ?_⟩
    simp only [fill, Node.contribution, Node.fieldWords_eq, List.flatMap_append,
      List.flatMap_cons, Node.foldInto, words]
    rw [← List.cons_append, Hash.ofList_append, Hash.extend_append, Hash.extend_append]

namespace DoublePosition

/-- The hash of a key determines the accumulator after two neighbours. -/
theorem hash_fill (p : DoublePosition ω) :
    ∃ (acc : Hash) (g : Hash → Hash), Function.Injective g ∧
      ∀ a b, (p.fill a b).hash = g (b.foldInto (a.foldInto acc)) := by
  cases p with
  | top before after =>
    refine ⟨Hash.ofList (Node.itemWords before),
      fun acc => Hash.extend acc (Node.itemWords after),
      Hash.extend_left_injective _, fun a b => ?_⟩
    rw [fill, StructuralKey.hash, Node.ofList_itemWords_pair]
  | inside position place =>
    obtain ⟨acc, g, hg, hposition⟩ := position.hash_fill
    obtain ⟨acc', g', hg', hplace⟩ := place.contribution_fill
    set tagged : Hash := Hash.extend acc (place.fill .cycle .cycle).tags with htagged
    refine ⟨acc', fun inner => g (Hash.step tagged (g' inner)), ?_, fun a b => ?_⟩
    · exact hg.comp ((Hash.step_right_injective tagged).comp hg')
    · rw [fill, hposition, Node.foldInto_eq, hplace, place.tags_fill a b .cycle .cycle, htagged]

lemma hash_fill_eq_iff (p : DoublePosition ω) {a b : Node ω} (ha : ¬ a.IsPrimitiveArray)
    (hb : ¬ b.IsPrimitiveArray) :
    (p.fill b a).hash = (p.fill a b).hash ↔
      a.contribution.toInt ≡ b.contribution.toInt [ZMOD 2 ^ 63] := by
  obtain ⟨acc, g, hg, hhash⟩ := p.hash_fill
  rw [hhash, hhash, hg.eq_iff]
  exact Node.foldInto_foldInto_eq_iff ha hb acc

/-- **When an exchange of neighbours keeps the hash.**  Two nodes are neighbours in a key, at the
top level, in a composite at any depth or as the key and the value of an entry, exactly if they
stand in a gap for two.  If neither is an array of primitives, then exchanging them keeps the hash
of the key exactly if their contributions are congruent modulo `2 ^ 63`.  So if both contributions
have room in 32 bits and are different, the exchange changes the hash. -/
theorem exchange_keeps_hash_iff :
    (∀ (key : StructuralKey ω) (a b : Node ω),
      key.HasNeighbours a b ↔ ∃ p : DoublePosition ω, p.fill a b = key) ∧
    (∀ (p : DoublePosition ω) (a b : Node ω), ¬ a.IsPrimitiveArray → ¬ b.IsPrimitiveArray →
      ((p.fill b a).hash = (p.fill a b).hash ↔
        a.contribution.toInt ≡ b.contribution.toInt [ZMOD 2 ^ 63])) ∧
    (∀ (p : DoublePosition ω) (a b : Node ω), ¬ a.IsPrimitiveArray → ¬ b.IsPrimitiveArray →
      a.contribution.IsNarrow → b.contribution.IsNarrow → a.contribution ≠ b.contribution →
      (p.fill b a).hash ≠ (p.fill a b).hash) := by
  refine ⟨fun key a b => exists_fill_eq_iff.symm, ?_, ?_⟩
  · intro p a b ha hb
    exact p.hash_fill_eq_iff ha hb
  · intro p a b ha hb hnarrow hnarrow' hne hsame
    have hmod := (p.hash_fill_eq_iff ha hb).mp hsame
    exact hne (hnarrow.eq_of_modEq hnarrow' hmod)

/-- In a map that is an item of a list, the entry from 1 to 2 has another hash than that from 2 to
1.  The smallest 64-bit integer and zero can be exchanged there. -/
theorem exchange_keeps_hash_iff_entry :
    let p : DoublePosition Datum := .inside ⟨[.item .list [] []], [], []⟩ (.entry [] [])
    let int (n : Int64) : Node Datum := .atom (.primitive (.int64 n))
    StructuralKey.HasNeighbours (p.fill (int 1) (int 2)) (int 1) (int 2) ∧
    (p.fill (int 2) (int 1)).hash ≠ (p.fill (int 1) (int 2)).hash ∧
    (p.fill (int 0) (int Int64.minValue)).hash = (p.fill (int Int64.minValue) (int 0)).hash := by
  intro p int
  obtain ⟨hgaps, hiff, hnarrow⟩ := exchange_keeps_hash_iff (ω := Datum)
  have hleaf (n : Int64) : ¬ (int n).IsPrimitiveArray := nofun
  have hmoved : (p.fill (int 2) (int 1)).hash ≠ (p.fill (int 1) (int 2)).hash :=
    hnarrow p _ _ (hleaf 1) (hleaf 2) (by decide) (by decide) (by decide)
  have hkept : (p.fill (int 0) (int Int64.minValue)).hash =
      (p.fill (int Int64.minValue) (int 0)).hash :=
    (hiff p _ _ (hleaf _) (hleaf 0)).mpr (by decide)
  exact ⟨(hgaps _ _ _).mpr ⟨p, rfl⟩, hmoved, hkept⟩

end DoublePosition

end Hashes

end MemoKey
