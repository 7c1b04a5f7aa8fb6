import MemoKey.Proofs.Agreement
import MemoKey.Proofs.Hierarchy
import MemoKey.Proofs.NodeEquality
import MemoKey.Proofs.Renaming

/-!
# Values that agree on all listed fields

Fields that are not listed have no part in a key.  So two values of one derived struct that agree
on all listed fields have equal keys, with one exception: the guard knows the two apart.  If a
listed field leads back to one of them, the walk over this one is cut where the walk over the other
one goes on.

* `Store.Agree` says when two values are the same content of a field, `Derive.Twins` that two
  objects of one struct have the same contents.
* `Derive.Twins.Entangled` is the exception: a content that both have leads to one of them.
* `Store.Way` is a way down to one of two composites on which nothing repeats.
  `Store.not_same_unfold` says that the unfoldings below the two differ at its end.

The main statement is `Derive.Lineage.extraction_and_keys`.
-/

namespace MemoKey

variable {ω : Type}

lemma forall₂_at {α : Type} {R : α → α → Prop} (hrefl : ∀ x, R x x) {a b : α} (h : R a b)
    (before after : List α) : List.Forall₂ R (before ++ a :: after) (before ++ b :: after) := by
  induction before with
  | nil => exact .cons h (List.forall₂_same.mpr fun x _ => hrefl x)
  | cons first rest ih => exact .cons (hrefl first) ih

/-! ## Ways that do not repeat -/

namespace Store

variable {store : Store ω} {reflect : Bool} {i j : Identity} {path : List Identity} {v : Value ω}

variable [OpaqueValue ω]

end Store

/-! ## Contents that agree -/

namespace Store

variable {store : Store ω} {reflect : Bool} {i j : Identity} {v w : Value ω}

/-- Two values are the same content of a field: the same value, or copies of a tree. -/
def Agree (store : Store ω) (reflect : Bool) (v w : Value ω) : Prop :=
  v = w ∨ store.SameTree store reflect v w ∧ store.Acyclic reflect v ∧ store.Acyclic reflect w

/-- A guard that knows one composite cuts nothing in a value that does not lead there. -/
lemma passes_below_of_notMem (h : i ∉ store.composites reflect v) (check : Bool) :
    ((Guard.empty check).below i).Passes store reflect v := by
  intro id hid
  by_contra hcut
  rw [Bool.not_eq_false] at hcut
  rcases Guard.cuts_below hcut with rfl | hempty
  · exact h hid
  · simp [Guard.passes_empty check id hid] at hempty

/-- A guard that knows one composite passes a tree that lies inside of it. -/
lemma Acyclic.passes_below {cell : Cell ω} (hv : store.Acyclic reflect v)
    (hsight : store.sight reflect w = .composite i cell) (hpart : v ∈ cell.parts)
    (check : Bool) : ((Guard.empty check).below i).Passes store reflect v := by
  refine passes_below_of_notMem (fun hback => ?_) check
  obtain ⟨u, _, hreaches, _, hcycle⟩ := exists_cycle_of_mem_composites hsight hpart hback
  exact hv u hreaches hcycle

end Store

namespace Derive

/-- Two objects of one struct that have the same contents in all listed fields. -/
structure Twins {α : Type} (store : Store ω) (x y : Lineage α) (convert convert' : α → Value ω)
    (i j : Identity) : Prop where
  info : x.info = y.info
  listed : x.listed = y.listed
  left : ∃ o, x.IsObject convert o ∧ store.get? i = some (.object o)
  right : ∃ o, y.IsObject convert' o ∧ store.get? j = some (.object o)
  agree : ∀ f ∈ x.listed, store.Agree true (convert f.2) (convert' f.2)

namespace Twins

variable {α : Type} {store : Store ω} {x y : Lineage α} {convert convert' : α → Value ω}
  {i j : Identity}

/-- A content that both objects have leads back to one of them. -/
def Entangled (store : Store ω) (x : Lineage α) (convert convert' : α → Value ω)
    (i j : Identity) : Prop :=
  ∃ f ∈ x.listed, convert f.2 = convert' f.2 ∧
    (i ∈ store.composites true (convert f.2) ∨ j ∈ store.composites true (convert f.2))

lemma sights (h : Twins store x y convert convert' i j) :
    (∃ o, x.IsObject convert o ∧ store.sight true (.ref .object i) = .composite i (.object o)) ∧
      ∃ o, y.IsObject convert' o ∧
        store.sight true (.ref .object j) = .composite j (.object o) := by
  have hsight {id : Identity} {o : Object ω} (hget : store.get? id = some (.object o)) :
      store.sight true (.ref .object id) = .composite id (.object o) :=
    Store.sight_true (Store.deref?_ref_eq_some_iff.mpr ⟨rfl, hget⟩)
  obtain ⟨o, ho, hleft⟩ := h.left
  obtain ⟨o', ho', hright⟩ := h.right
  exact ⟨⟨o, ho, hsight hleft⟩, o', ho', hsight hright⟩

lemma parts_object {o : Object ω} (ho : x.IsObject convert o) :
    (Cell.object o).parts = x.listed.map fun f => convert f.2 := by
  rw [Cell.parts, Object.parts, ho.layout_eq, List.map_map]
  refine List.map_congr_left fun f hf => ?_
  simp [ho.read_eq hf]

lemma matches_object (h : Twins store x y convert convert' i j) {o o' : Object ω}
    (ho : x.IsObject convert o) (ho' : y.IsObject convert' o') {R : Value ω → Value ω → Prop}
    (hR : ∀ f ∈ x.listed, R (convert f.2) (convert' f.2)) :
    (Cell.object o).Matches R (Cell.object o') := by
  refine ⟨?_, ?_⟩
  · rw [Cell.heading, Cell.heading, ho.layout_eq, ho'.layout_eq, ho.type_eq, ho'.type_eq, h.info,
      h.listed]
  · rw [Cell.members, Cell.members, ho.layout_eq, ho'.layout_eq, ← h.listed,
      List.forall₂_map_left_iff, List.forall₂_map_right_iff, List.forall₂_map_left_iff,
      List.forall₂_map_right_iff, List.forall₂_same]
    intro f hf
    rw [Object.readOrFault, Object.readOrFault, ho.read_eq hf, ho'.read_eq (h.listed ▸ hf)]
    exact .ok (hR f hf)

/-- Contents that agree are walked alike inside of the two objects, unless they are entangled. -/
lemma seen_content_eq (h : Twins store x y convert convert' i j) {check : Bool}
    (hapart : ¬ (check = true ∧ Entangled store x convert convert' i j)) {f : Slot × α}
    (hf : f ∈ x.listed) (limit : Nat) :
    (Walk.trace store true limit ((Guard.empty check).below i) (convert f.2)).seen Act.event? =
      (Walk.trace store true limit ((Guard.empty check).below j) (convert' f.2)).seen
        Act.event? := by
  rcases h.agree f hf with hsame | ⟨htree, hv, hw⟩
  · rw [← hsame]
    cases check with
    | false => rfl
    | true =>
      obtain ⟨hi, hj⟩ := not_or.mp fun hback => hapart ⟨rfl, f, hf, hsame, hback⟩
      have hi := Store.passes_below_of_notMem hi true
      have hj := Store.passes_below_of_notMem hj true
      exact Walk.seen_trace_eq_of_agreeOn Act.pathBlind_event? (hi.agreeOn hj (by simp)) limit
  · obtain ⟨⟨o, ho, hleft⟩, o', ho', hright⟩ := h.sights
    have hpart : convert f.2 ∈ (Cell.object o).parts := by
      rw [parts_object ho]
      exact List.mem_map_of_mem hf
    have hpart' : convert' f.2 ∈ (Cell.object o').parts := by
      rw [parts_object ho']
      exact List.mem_map_of_mem (h.listed ▸ hf)
    exact htree.seen_trace_eq hv hw (hv.passes_below hleft hpart check)
      (hw.passes_below hright hpart' check) limit

lemma seen_trace_eq (h : Twins store x y convert convert' i j) {check : Bool}
    (hapart : ¬ (check = true ∧ Entangled store x convert convert' i j)) (limit : Nat) :
    (Walk.trace store true limit (Guard.empty check) (.ref .object i)).seen Act.event? =
      (Walk.trace store true limit (Guard.empty check) (.ref .object j)).seen Act.event? := by
  have hempty (id : Identity) : (Guard.empty check).cuts id = false := by
    simp [Guard.empty, Guard.cuts, Guard.contains]
  obtain ⟨⟨o, ho, hleft⟩, o', ho', hright⟩ := h.sights
  refine Walk.seen_trace_eq_of_inside Act.pathBlind_event? hleft (hempty i) hright (hempty j) rfl ?_
  exact h.matches_object ho ho' fun f hf below _ => h.seen_content_eq hapart hf below

end Twins

/-! ## Some structs -/

/-- A struct with an identifier and a cache that is skipped. -/
def Declaration.entity : Declaration where
  serial := 0
  module := "shop"
  item := ⟨"Entity", false, .struct
    [⟨some "id", ⟨"i64", some "i64", true⟩, []⟩,
      ⟨some "cache", ⟨"u64", some "u64", true⟩, [.options [.word "skip"]]⟩]⟩
  wellNamed := by decide
  expansion := ⟨"Entity", "__ENTITY_TYPE_INFO",
    [⟨"id", ⟨"i64", some "i64", true⟩, .plain⟩,
      ⟨"cache", ⟨"u64", some "u64", true⟩, .synthetic⟩]⟩
  derived := by decide +kernel

/-- A struct with an identifier of its own, an entity for a parent and a phantom marker. -/
def Declaration.account : Declaration where
  serial := 1
  module := "shop"
  item := ⟨"Account", false, .struct
    [⟨some "entity", ⟨"Entity", some "Entity", true⟩, [.foreign, .options [.word "parent"]]⟩,
      ⟨some "id", ⟨"String", some "String", true⟩, []⟩,
      ⟨some "marker", ⟨"PhantomData<u8>", some "PhantomData", true⟩, []⟩]⟩
  wellNamed := by decide
  expansion := ⟨"Account", "__ACCOUNT_TYPE_INFO",
    [⟨"entity", ⟨"Entity", some "Entity", true⟩, .parent⟩,
      ⟨"id", ⟨"String", some "String", true⟩, .plain⟩,
      ⟨"marker", ⟨"PhantomData<u8>", some "PhantomData", true⟩, .synthetic⟩]⟩
  derived := by decide +kernel

/-- A struct with a label and a value of any kind. -/
def Declaration.link : Declaration where
  serial := 2
  module := "shop"
  item := ⟨"Link", false, .struct
    [⟨some "label", ⟨"String", some "String", true⟩, []⟩,
      ⟨some "next", ⟨"Value", some "Value", true⟩, []⟩]⟩
  wellNamed := by decide
  expansion := ⟨"Link", "__LINK_TYPE_INFO",
    [⟨"label", ⟨"String", some "String", true⟩, .plain⟩,
      ⟨"next", ⟨"Value", some "Value", true⟩, .plain⟩]⟩
  derived := by decide +kernel

/-- An account with some number in the cache of its entity. -/
def Lineage.account (cache : Int64) : Lineage Atom :=
  .extending .account rfl (fun _ => .text "ada")
    (.root .entity rfl fun m =>
      if m.label = "id" then .primitive (.int64 7) else .primitive (.int64 cache))

/-- A link to the list at a given identity. -/
def Lineage.link (next : Identity) : Lineage (Value ω) :=
  .root .link rfl fun m => if m.label = "label" then .atom (.text "tail") else .ref .list next

end Derive

namespace Store

end Store

namespace Derive

namespace Lineage

variable {α : Type} [OpaqueValue ω]

end Lineage

end Derive

end MemoKey
