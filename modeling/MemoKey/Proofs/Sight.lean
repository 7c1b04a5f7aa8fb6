import Mathlib.Data.Finset.Card
import Mathlib.Data.Finset.SDiff
import Mathlib.Data.Set.Card
import Mathlib.Logic.Relation
import MemoKey.Walk

/-!
# What a walk finds at a value

Before it asks the guard, a walk has three cases to tell apart at a value: an atom, a value that
is kept whole, and a composite to go into.  `Store.sight` makes this distinction once, so that
everything said about a walk splits on three cases and not on the forms of values and cells.

## Argument graphs

* `Cell.parts` are the values that a walk visits inside a composite, in order, and `Cell.heading`
  is all else that the composite is: together they determine it.
* `Store.Contains` is the edge relation of the argument graph, `Store.Reaches` its closure and
  `Store.Acyclic` says that nothing below a value contains itself.
* `Store.composites` are the identities of the composites that a walk may go into, and
  `Store.Clear` says that none of them is on a path.
* `Store.Descending` is a simple reason for a store to have no cycles.

## The measures of a walk

`Store.unvisited` are the identities of a store off a given path.  A guarded walk that goes into a
composite takes one of them away (`card_unvisited_cons_lt`), which is why it ends.  A walk without
a guard has no path; over an acyclic graph it is measured by the composites that are still ahead
(`Acyclic.ncard_composites_lt`).
-/

namespace MemoKey

/-- What a walk finds at a value. -/
inductive Sight (ω : Type) where
  /-- A value without parts. -/
  | atom (value : Atom)
  /-- A value that is kept whole. -/
  | whole (value : Whole ω)
  /-- A composite to go into. -/
  | composite (id : Identity) (cell : Cell ω)

variable {ω : Type}

/-- The values of the fields of an object.  A slot that cannot be read counts as absent. -/
def Object.parts (o : Object ω) : List (Value ω) :=
  o.type.layout.map fun slot => (o.read slot).getD .null

/-- The values that a store holds for an identity, in order; the key of an entry stands before its
value. -/
def Content.parts : Content ω → List (Value ω)
  | .array _ slots => slots
  | .items xs => xs
  | .entries es => es.flatMap fun e => [e.1, e.2]
  | .object o => o.parts

namespace Cell

/-- The values inside a composite, in order; the key of an entry stands before its value. -/
def parts : Cell ω → List (Value ω)
  | .seq _ items => items
  | .map entries => entries.flatMap fun e => [e.1, e.2]
  | .object o => o.parts

/-- A composite without its parts: its variant, the kind of an array, the type and the field names
of an object. -/
def heading : Cell ω → Composite
  | .seq sequence _ => .seq sequence
  | .map _ => .map
  | .object o => .object o.type.name (o.type.layout.map (·.name))

lemma fst_mem_parts {entries : List (Value ω × Value ω)} {e : Value ω × Value ω}
    (he : e ∈ entries) : e.1 ∈ (map entries).parts :=
  List.mem_flatMap.mpr ⟨e, he, by simp⟩

lemma snd_mem_parts {entries : List (Value ω × Value ω)} {e : Value ω × Value ω}
    (he : e ∈ entries) : e.2 ∈ (map entries).parts :=
  List.mem_flatMap.mpr ⟨e, he, by simp⟩

/-- What a cell has inside does not depend on how its content is referred to. -/
lemma parts_content (cell : Cell ω) : cell.content.parts = cell.parts := by
  match cell with
  | .seq (.array _) _ | .seq .list _ | .seq .set _ | .map _ | .object _ => rfl

end Cell

namespace Store

variable {store : Store ω} {reflect : Bool} {u v w : Value ω} {id : Identity}
  {cell cell' : Cell ω}

/-- What a walk finds at a value.  A reference to nothing counts as absent, and an object is kept
whole unless the walk looks into objects. -/
def sight (store : Store ω) (reflect : Bool) : Value ω → Sight ω
  | .atom value => .atom value
  | .whole value => .whole (.value value)
  | .ref shape id =>
    match store.deref? (.ref shape id) with
    | none => .atom .null
    | some cell => if cell.isObject && !reflect then .whole (.object id) else .composite id cell

/-- Composites are found under their own identities, by references of their own shapes. -/
lemma sight_eq_composite (h : store.sight reflect v = .composite id cell) :
    v = .ref cell.shape id ∧ store.get? id = some cell.content := by
  unfold sight at h
  split at h
  · cases h
  · cases h
  · rename_i other
    split at h
    · cases h
    · rename_i found hfound
      obtain ⟨rfl, hget⟩ := deref?_ref_eq_some_iff.mp hfound
      split at h
      · cases h
      · cases h
        exact ⟨rfl, hget⟩

lemma identity?_of_sight (h : store.sight reflect v = .composite id cell) :
    v.identity? = some id := by
  rw [(sight_eq_composite h).1, Value.identity?]

lemma deref?_of_sight (h : store.sight reflect v = .composite id cell) :
    store.deref? v = some cell := by
  obtain ⟨rfl, hget⟩ := sight_eq_composite h
  exact deref?_ref_eq_some_iff.mpr ⟨rfl, hget⟩

/-- A walk that looks into objects goes into every composite. -/
lemma sight_true {shape : Shape} (h : store.deref? (.ref shape id) = some cell) :
    store.sight true (.ref shape id) = .composite id cell := by
  rw [sight, h]
  simp

/-- A composite has the same content wherever it is met, as a list or as a set. -/
lemma content_eq_of_sight (h : store.sight reflect v = .composite id cell)
    (h' : store.sight reflect w = .composite id cell') : cell.content = cell'.content :=
  Option.some.inj ((sight_eq_composite h).2.symm.trans (sight_eq_composite h').2)

lemma parts_eq_of_sight (h : store.sight reflect v = .composite id cell)
    (h' : store.sight reflect w = .composite id cell') : cell.parts = cell'.parts := by
  rw [← cell.parts_content, content_eq_of_sight h h', cell'.parts_content]

lemma mem_contents_of_get? {content : Content ω} (h : store.get? id = some content) :
    (id, content) ∈ store.contents := by
  obtain ⟨before, after, hsplit, _⟩ := List.lookup_eq_some_iff.mp h
  simp [hsplit]

/-! ## Argument graphs -/

/-- A collection that holds itself as a set, and a map that has it, taken for a list, for a key: a
graph with cycles through items and through keys, in which one collection is met as both. -/
def knot : Store ω where
  contents :=
    [(⟨0⟩, .items [.ref .set ⟨0⟩, .ref .map ⟨1⟩]), (⟨1⟩, .entries [(.ref .list ⟨0⟩, .null)])]
  next := 2

/-- Two equal lists, a map that holds the first one twice, and a map that holds both: two graphs
without cycles, of different shapes, that are the same tree. -/
def shelf : Store ω where
  contents :=
    [(⟨0⟩, .items [.atom (.text "a")]), (⟨1⟩, .items [.atom (.text "a")]),
      (⟨2⟩, .entries [(.ref .list ⟨0⟩, .ref .list ⟨0⟩)]),
      (⟨3⟩, .entries [(.ref .list ⟨0⟩, .ref .list ⟨1⟩)])]
  next := 4

/-- A value directly inside another one, as a walk sees it. -/
def Contains (store : Store ω) (reflect : Bool) (v w : Value ω) : Prop :=
  ∃ id cell, store.sight reflect v = .composite id cell ∧ w ∈ cell.parts

/-- A value that is another one or lies somewhere inside it. -/
def Reaches (store : Store ω) (reflect : Bool) : Value ω → Value ω → Prop :=
  Relation.ReflTransGen (store.Contains reflect)

/-- Nothing that can be reached from a value contains itself. -/
def Acyclic (store : Store ω) (reflect : Bool) (v : Value ω) : Prop :=
  ∀ w, store.Reaches reflect v w → ¬ Relation.TransGen (store.Contains reflect) w w

/-- The identities of the composites that can be reached from a value. -/
def composites (store : Store ω) (reflect : Bool) (v : Value ω) : Set Identity :=
  {id | ∃ w cell, store.Reaches reflect v w ∧ store.sight reflect w = .composite id cell}

lemma Acyclic.of_contains (hv : store.Acyclic reflect v) (h : store.Contains reflect v w) :
    store.Acyclic reflect w :=
  fun u hu => hv u (.head h hu)

/-- A value is acyclic if all that it contains is. -/
lemma acyclic_of_contains (h : ∀ w, store.Contains reflect v w → store.Acyclic reflect w) :
    store.Acyclic reflect v := by
  intro w hreaches hcycle
  rcases Relation.ReflTransGen.cases_head hreaches with rfl | ⟨u, hu, huw⟩
  · -- Going round once leads back through a part, and nothing below a part contains itself.
    obtain ⟨u, hu, hback⟩ := Relation.TransGen.head'_iff.mp hcycle
    exact h u hu _ hback hcycle
  · exact h u hu w huw hcycle

lemma acyclic_atom (store : Store ω) (reflect : Bool) (a : Atom) :
    store.Acyclic reflect (.atom a) :=
  acyclic_of_contains fun _ ⟨_, _, hsight, _⟩ => nomatch hsight

/-- A composite that is found at a value is one of the composites that the value reaches. -/
lemma mem_composites_self (h : store.sight reflect v = .composite id cell) :
    id ∈ store.composites reflect v :=
  ⟨v, cell, .refl, h⟩

lemma composites_subset_of_contains (h : store.Contains reflect v w) :
    store.composites reflect w ⊆ store.composites reflect v :=
  fun _ ⟨u, cell, hreaches, hsight⟩ => ⟨u, cell, .head h hreaches, hsight⟩

/-- Another reference to the same composite contains the same values. -/
lemma Contains.of_identity?_eq (h : store.Contains reflect v u) (hv : v.identity? = some id)
    (hsight : store.sight reflect w = .composite id cell) : store.Contains reflect w u := by
  obtain ⟨other, cell', hsight', hu⟩ := h
  obtain rfl : other = id := Option.some.inj ((identity?_of_sight hsight').symm.trans hv)
  exact ⟨other, cell, hsight, parts_eq_of_sight hsight' hsight ▸ hu⟩

/-- A composite that one of its own parts reaches lies inside itself.  It may come up there under
another shape, and it is under that shape that it does. -/
lemma exists_cycle_of_mem_composites (hsight : store.sight reflect v = .composite id cell)
    (hw : w ∈ cell.parts) (h : id ∈ store.composites reflect w) :
    ∃ u cell', store.Reaches reflect w u ∧ store.sight reflect u = .composite id cell' ∧
      Relation.TransGen (store.Contains reflect) u u := by
  obtain ⟨u, cell', hreaches, hsight'⟩ := h
  have hcontains : store.Contains reflect v w := ⟨id, cell, hsight, hw⟩
  have hback : store.Contains reflect u w :=
    hcontains.of_identity?_eq (identity?_of_sight hsight) hsight'
  exact ⟨u, cell', hreaches, hsight', .head' hback hreaches⟩

/-- In an acyclic graph a composite is not one of those that its parts reach. -/
lemma Acyclic.notMem_composites (hv : store.Acyclic reflect v)
    (hsight : store.sight reflect v = .composite id cell) (hw : w ∈ cell.parts) :
    id ∉ store.composites reflect w := by
  intro h
  obtain ⟨u, _, hreaches, _, hcycle⟩ := exists_cycle_of_mem_composites hsight hw h
  exact hv u (.head ⟨id, cell, hsight, hw⟩ hreaches) hcycle

/-- Every composite of a store refers to lower addresses only. -/
def Descending (store : Store ω) : Prop :=
  ∀ e ∈ store.contents, ∀ part ∈ e.2.parts, ∀ other ∈ part.identity?, other.addr < e.1.addr

lemma Descending.addr_lt_of_contains {shape shape' : Shape} {other : Identity}
    (h : store.Descending)
    (hcontains : store.Contains reflect (.ref shape id) (.ref shape' other)) :
    other.addr < id.addr := by
  obtain ⟨_, cell, hsight, hpart⟩ := hcontains
  obtain ⟨⟨⟩, hget⟩ := sight_eq_composite hsight
  exact h _ (mem_contents_of_get? hget) _ (cell.parts_content ▸ hpart) other rfl

/-- Only composites contain anything. -/
lemma Contains.exists_ref (h : store.Contains reflect v w) : ∃ shape id, v = .ref shape id := by
  obtain ⟨id, cell, hsight, _⟩ := h
  exact ⟨cell.shape, id, (sight_eq_composite hsight).1⟩

lemma Descending.addr_lt_of_transGen {shape shape' : Shape} {other : Identity}
    (h : store.Descending)
    (hinside : Relation.TransGen (store.Contains reflect) (.ref shape id) v)
    (hv : v = .ref shape' other) : other.addr < id.addr := by
  induction hinside generalizing shape' other with
  | single hcontains =>
    subst hv
    exact h.addr_lt_of_contains hcontains
  | tail _ hcontains ih =>
    subst hv
    obtain ⟨_, middle, rfl⟩ := hcontains.exists_ref
    exact (h.addr_lt_of_contains hcontains).trans (ih rfl)

/-- A store whose composites refer to lower addresses only has no cycles. -/
theorem Descending.acyclic (h : store.Descending) (v : Value ω) : store.Acyclic reflect v := by
  intro x _ hcycle
  obtain ⟨_, hcontains, _⟩ := Relation.TransGen.head'_iff.mp hcycle
  obtain ⟨_, id, rfl⟩ := hcontains.exists_ref
  exact (h.addr_lt_of_transGen hcycle rfl).false

lemma descending_shelf : (shelf : Store ω).Descending := by
  simp [Descending, shelf, Content.parts, Value.identity?]

/-- No composite that can be reached from a value is on a path. -/
def Clear (store : Store ω) (reflect : Bool) (path : List Identity) (v : Value ω) : Prop :=
  ∀ id ∈ path, id ∉ store.composites reflect v

lemma clear_nil : store.Clear reflect [] v := by
  simp [Clear]

lemma Clear.notMem {path : List Identity} (h : store.Clear reflect path v)
    (hsight : store.sight reflect v = .composite id cell) : id ∉ path :=
  fun hid => h id hid (mem_composites_self hsight)

/-- In an acyclic graph the way from a composite into a part stays clear. -/
lemma Clear.cons {path : List Identity} (h : store.Clear reflect path v)
    (hv : store.Acyclic reflect v) (hsight : store.sight reflect v = .composite id cell)
    (hw : w ∈ cell.parts) : store.Clear reflect (id :: path) w := by
  intro other hother hreached
  rcases List.mem_cons.mp hother with rfl | hpath
  · exact hv.notMem_composites hsight hw hreached
  · exact h other hpath (composites_subset_of_contains ⟨id, cell, hsight, hw⟩ hreached)

/-! ## The measures of a walk -/

/-- The identities that a store knows. -/
def ids (store : Store ω) : Finset Identity :=
  (store.contents.map (·.1)).toFinset

lemma mem_ids_of_sight (h : store.sight reflect v = .composite id cell) : id ∈ store.ids :=
  List.mem_toFinset.mpr (List.mem_map_of_mem (mem_contents_of_get? (sight_eq_composite h).2))

lemma card_ids_le_size (store : Store ω) : store.ids.card ≤ store.size := by
  calc
    store.ids.card ≤ (store.contents.map (·.1)).length := List.toFinset_card_le _
    _ = store.size := by simp [size]

lemma composites_subset_ids (store : Store ω) (reflect : Bool) (v : Value ω) :
    store.composites reflect v ⊆ store.ids := by
  rintro id ⟨_, _, _, h⟩
  exact mem_ids_of_sight h

lemma finite_composites (store : Store ω) (reflect : Bool) (v : Value ω) :
    (store.composites reflect v).Finite :=
  store.ids.finite_toSet.subset (store.composites_subset_ids reflect v)

lemma ncard_composites_pos (h : store.sight reflect v = .composite id cell) :
    0 < (store.composites reflect v).ncard :=
  (Set.ncard_pos (store.finite_composites reflect v)).mpr ⟨id, mem_composites_self h⟩

lemma ncard_composites_le_size (store : Store ω) (reflect : Bool) (v : Value ω) :
    (store.composites reflect v).ncard ≤ store.size := by
  calc
    (store.composites reflect v).ncard ≤ (store.ids : Set Identity).ncard :=
      Set.ncard_le_ncard (store.composites_subset_ids reflect v) store.ids.finite_toSet
    _ = store.ids.card := Set.ncard_coe_finset store.ids
    _ ≤ store.size := store.card_ids_le_size

/-- In an acyclic graph the parts of a composite reach fewer composites than the whole does. -/
lemma Acyclic.ncard_composites_lt (hv : store.Acyclic reflect v)
    (hsight : store.sight reflect v = .composite id cell) (hw : w ∈ cell.parts) :
    (store.composites reflect w).ncard < (store.composites reflect v).ncard := by
  have hssubset : store.composites reflect w ⊂ store.composites reflect v := by
    rw [Set.ssubset_iff_of_subset (composites_subset_of_contains ⟨id, cell, hsight, hw⟩)]
    exact ⟨id, mem_composites_self hsight, hv.notMem_composites hsight hw⟩
  exact Set.ncard_lt_ncard hssubset (store.finite_composites reflect v)

/-- The identities of a store that are not on a path. -/
def unvisited (store : Store ω) (path : List Identity) : Finset Identity :=
  store.ids \ path.toFinset

lemma card_unvisited_nil_le (store : Store ω) : (store.unvisited []).card ≤ store.size := by
  simpa [unvisited] using store.card_ids_le_size

/-- Going into a composite that is not on the path leaves fewer to go into. -/
lemma card_unvisited_cons_lt {path : List Identity}
    (h : store.sight reflect v = .composite id cell) (hpath : id ∉ path) :
    (store.unvisited (id :: path)).card < (store.unvisited path).card := by
  have hid : id ∈ store.unvisited path := by
    simp [unvisited, mem_ids_of_sight h, hpath]
  have herase : store.unvisited (id :: path) = (store.unvisited path).erase id := by
    ext other
    simp only [unvisited, List.toFinset_cons, Finset.mem_sdiff, Finset.mem_insert, Finset.mem_erase]
    tauto
  rw [herase]
  exact Finset.card_erase_lt_of_mem hid

end Store

end MemoKey
