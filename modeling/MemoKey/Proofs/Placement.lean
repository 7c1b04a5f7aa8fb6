import MemoKey.Derive.Instance
import MemoKey.Proofs.Lockstep

/-!
# Drafts in a store

Placing a draft makes a new composite for every composite of the draft and leaves all others as they
are.  What comes out reads as the draft says, at every depth, and the composites that were made are
the only ones that it has beyond the values that the draft holds.

## What is new

`Store.Extends` says that a store has all that another one has, `Store.Made` which composites one
store has beyond the other, and `Store.Keeps` that a third store still has them as they were made.

## What a value says about a draft

* `Draft.heading?` and `Draft.members` are what a walk will find at the draft, and
  `Draft.partsInduction` is induction over drafts by their parts.
* `Store.Realizes` relates a draft to a value: a value that the draft holds, or a composite that was
  made for it, with the same heading and members that correspond one by one.
* `Draft.realizes_place` says that placing a draft realizes it, and `Derive.Instance.realizes_share`
  that an object of its own realizes the draft that a value of a derived struct converts to.
-/

namespace MemoKey

variable {ω : Type}

/-! ## What is new -/

namespace Store

/-- A store has all that another one has, as it is there. -/
structure Extends (t s : Store ω) : Prop where
  next_le : s.next ≤ t.next
  get?_eq : ∀ id, id.addr < s.next → t.get? id = s.get? id

/-- A composite is new in a store: it is there, and was not in the store that this one extends. -/
def Made (s t : Store ω) (id : Identity) : Prop :=
  s.next ≤ id.addr ∧ id.addr < t.next

/-- A store has all that is new in another one, as it was made there. -/
def Keeps (u s t : Store ω) : Prop :=
  ∀ id, s.Made t id → u.get? id = t.get? id

variable {s t u : Store ω}

lemma extends_refl (s : Store ω) : s.Extends s :=
  ⟨le_rfl, fun _ _ => rfl⟩

lemma Extends.trans (h : u.Extends t) (h' : t.Extends s) : u.Extends s :=
  ⟨h'.next_le.trans h.next_le, fun id hid =>
    (h.get?_eq id (hid.trans_le h'.next_le)).trans (h'.get?_eq id hid)⟩

lemma extends_place (s : Store ω) (cell : Cell ω) : (s.place cell).2.Extends s := by
  refine ⟨Nat.le_succ s.next, fun id hid => ?_⟩
  have hold : id ≠ ⟨s.next⟩ := by
    rintro rfl
    exact hid.false
  exact (get?_alloc s cell.content id).trans (if_neg hold)

lemma get?_place (s : Store ω) (cell : Cell ω) :
    (s.place cell).2.get? ⟨s.next⟩ = some cell.content :=
  (get?_alloc s cell.content ⟨s.next⟩).trans (if_pos rfl)

lemma deref?_place (s : Store ω) (cell : Cell ω) :
    (s.place cell).2.deref? (s.place cell).1 = some cell :=
  deref?_ref_eq_some_iff.mpr ⟨rfl, s.get?_place cell⟩

lemma keeps_self (s t : Store ω) : t.Keeps s t :=
  fun _ _ => rfl

lemma Extends.keeps (h : u.Extends t) : u.Keeps s t :=
  fun id hid => h.get?_eq id hid.2

end Store

/-! ## Drafts and their parts -/

namespace Draft

/-- The drafts directly inside a draft, in order; the key of an entry stands before its value. -/
def parts : Draft ω → List (Draft ω)
  | stored _ => []
  | seq _ items => items
  | map entries => entries.flatMap fun e => [e.1, e.2]
  | object _ fields => fields.map (·.2)

/-- A draft of a composite without its parts. -/
def heading? : Draft ω → Option Composite
  | stored _ => none
  | seq sequence _ => some (.seq sequence)
  | map _ => some .map
  | object type _ => some (.object type.name (type.layout.map (·.name)))

/-- The draft that a slot shows, or the fault that the slot cannot be read. -/
def shown (slot : Slot) : Option (Draft ω) → Except Fault (Draft ω)
  | some draft => .ok draft
  | none => .error slot.accessFault

/-- The parts of a draft as a walk over the placed draft reads them, in order. -/
def members : Draft ω → List (Except Fault (Draft ω))
  | stored _ => []
  | seq _ items => items.map .ok
  | map entries => (entries.flatMap fun e => [e.1, e.2]).map .ok
  | object type fields => type.layout.map fun slot => shown slot (fields.lookup slot)

lemma sizeOf_lt_of_mem_parts {draft part : Draft ω} (h : part ∈ draft.parts) :
    sizeOf part < sizeOf draft := by
  cases draft with
  | stored value => simp [parts] at h
  | seq sequence items =>
    have hitem : sizeOf part < sizeOf items := List.sizeOf_lt_of_mem h
    simp only [seq.sizeOf_spec]
    omega
  | map entries =>
    obtain ⟨e, he, hpart⟩ := List.mem_flatMap.mp h
    have hentry : sizeOf e < sizeOf entries := List.sizeOf_lt_of_mem he
    have hside : sizeOf part < sizeOf e := by
      obtain ⟨key, value⟩ := e
      simp only [List.mem_cons, List.not_mem_nil, or_false] at hpart
      rcases hpart with rfl | rfl <;> simp only [Prod.mk.sizeOf_spec] <;> omega
    simp only [map.sizeOf_spec]
    omega
  | object type fields =>
    obtain ⟨⟨slot, value⟩, hfield, rfl⟩ := List.mem_map.mp h
    have hlt : sizeOf (slot, value) < sizeOf fields := List.sizeOf_lt_of_mem hfield
    simp only [Prod.mk.sizeOf_spec, object.sizeOf_spec] at hlt ⊢
    omega

/-- What holds of a draft as soon as it holds of its parts holds of every draft. -/
@[elab_as_elim]
theorem partsInduction {motive : Draft ω → Prop}
    (step : ∀ draft, (∀ part ∈ draft.parts, motive part) → motive draft) (draft : Draft ω) :
    motive draft :=
  step draft fun part _ => partsInduction step part
termination_by sizeOf draft
decreasing_by exact sizeOf_lt_of_mem_parts ‹_›

/-- All drafts that a draft is made of, itself among them, have a property. -/
inductive Each (P : Draft ω → Prop) : Draft ω → Prop where
  | intro {draft : Draft ω} (self : P draft) (parts : ∀ part ∈ draft.parts, Each P part) :
      Each P draft

lemma Each.self {P : Draft ω → Prop} {draft : Draft ω} (h : draft.Each P) : P draft := by
  cases h
  assumption

lemma Each.part {P : Draft ω → Prop} {draft part : Draft ω} (h : draft.Each P)
    (hpart : part ∈ draft.parts) : part.Each P := by
  cases h with
  | intro _ hparts => exact hparts part hpart

lemma Each.imp {P Q : Draft ω → Prop} {draft : Draft ω} (h : draft.Each P)
    (hPQ : ∀ part, P part → Q part) : draft.Each Q := by
  induction h with
  | intro hself _ ih => exact .intro (hPQ _ hself) ih

lemma Each.of_forall {P : Draft ω → Prop} {draft : Draft ω} (h : ∀ part, P part) :
    draft.Each P := by
  induction draft using partsInduction with
  | step draft ih => exact .intro (h draft) ih

/-- What is stored already is all that there is. -/
lemma Each.of_stored {P : Draft ω → Prop} {v : Value ω} (hself : P (.stored v)) :
    (Draft.stored v).Each P :=
  .intro hself nofun

lemma Each.of_seq {α : Type} {P : Draft ω → Prop} {sequence : Sequence} {f : α → Draft ω}
    {xs : List α} (hself : P (.seq sequence (xs.map f))) (hitem : ∀ x, (f x).Each P) :
    (Draft.seq sequence (xs.map f)).Each P := by
  refine .intro hself fun part hpart => ?_
  obtain ⟨x, _, rfl⟩ := List.mem_map.mp hpart
  exact hitem x

lemma Each.of_map {α β : Type} {P : Draft ω → Prop} {f : α → Draft ω} {g : β → Draft ω}
    {entries : List (α × β)} (hself : P (.map (entries.map (Prod.map f g))))
    (hkey : ∀ x, (f x).Each P) (hvalue : ∀ y, (g y).Each P) :
    (Draft.map (entries.map (Prod.map f g))).Each P := by
  refine .intro hself fun part hpart => ?_
  obtain ⟨e, he, hside⟩ := List.mem_flatMap.mp hpart
  obtain ⟨y, _, rfl⟩ := List.mem_map.mp he
  rcases List.mem_pair.mp hside with rfl | rfl
  · exact hkey y.1
  · exact hvalue y.2

lemma mem_parts_of_ok_mem_members {draft part : Draft ω} (h : .ok part ∈ draft.members) :
    part ∈ draft.parts := by
  cases draft with
  | stored value => simp [members] at h
  | seq sequence items => simpa [members, parts] using h
  | map entries => simpa [members, parts] using h
  | object type fields =>
    obtain ⟨slot, _, hshown⟩ := List.mem_map.mp h
    cases hlookup : fields.lookup slot with
    | none => simp [hlookup, shown] at hshown
    | some draft =>
      obtain ⟨before, after, rfl, _⟩ := List.lookup_eq_some_iff.mp hlookup
      simp only [hlookup, shown, Except.ok.injEq] at hshown
      simp [parts, hshown]

end Draft

/-- A part of a composite is one of its members, unless it stands for a slot that cannot be
read. -/
lemma Cell.ok_mem_members_or_eq_null {cell : Cell ω} {v : Value ω} (h : v ∈ cell.parts) :
    .ok v ∈ cell.members ∨ v = .null := by
  cases cell with
  | seq sequence items => exact .inl (List.mem_map_of_mem h)
  | map entries => exact .inl (List.mem_map_of_mem h)
  | object o =>
    obtain ⟨slot, hslot, rfl⟩ := List.mem_map.mp h
    cases hread : o.read slot with
    | none => exact .inr rfl
    | some v =>
      refine .inl (List.mem_map.mpr ⟨slot, hslot, ?_⟩)
      simp [Object.readOrFault, hread]

/-! ## What a value says about a draft -/

namespace Store

/-- A value is what a draft says: the value that the draft holds, or a composite that was made for
the draft, with the heading of the draft, members that are what the members of the draft say, and
the same slots that cannot be read. -/
inductive Realizes (store : Store ω) (made : Identity → Prop) : Draft ω → Value ω → Prop where
  | stored (v : Value ω) : Realizes store made (.stored v) v
  | composite {draft : Draft ω} {shape : Shape} {id : Identity} {cell : Cell ω} (hmade : made id)
      (hcell : store.deref? (.ref shape id) = some cell)
      (hheading : draft.heading? = some cell.heading)
      (hmembers : List.Forall₂ (SameResult (Realizes store made)) draft.members cell.members) :
      Realizes store made draft (.ref shape id)

end Store

/-! ## Lists that correspond -/

lemma lookup_eq_find? {α β : Type} [BEq α] (key : α) (fields : List (α × β)) :
    fields.lookup key = (fields.find? fun f => key == f.1).map (·.2) := by
  induction fields with
  | nil => rfl
  | cons f rest ih =>
    rw [List.lookup_cons, List.find?_cons, ih]
    cases key == f.1 <;> rfl

lemma rel_imp {α β : Type} {R S : α → β → Prop} {x : Option α} {y : Option β}
    (h : Option.Rel R x y) (hRS : ∀ a b, R a b → S a b) : Option.Rel S x y := by
  cases h with
  | some hab => exact .some (hRS _ _ hab)
  | none => exact .none

/-- A search by keys finds what corresponds under the same keys. -/
lemma forall₂_find? {α β γ : Type} {R : β → γ → Prop} {fields : List (α × β)} {values : List γ}
    (h : List.Forall₂ R (fields.map (·.2)) values) (p : α → Bool) :
    Option.Rel R ((fields.find? fun f => p f.1).map (·.2))
      ((((fields.map (·.1)).zip values).find? fun f => p f.1).map (·.2)) := by
  induction fields generalizing values with
  | nil => exact .none
  | cons f rest ih =>
    cases h with
    | cons hf hrest =>
      rw [List.map_cons, List.zip_cons_cons, List.find?_cons, List.find?_cons]
      cases p f.1 with
      | true => exact .some hf
      | false => exact ih hrest

namespace SameResult

variable {ε α β γ : Type} {R S : α → β → Prop} {xs : List (Except ε α)} {ys : List (Except ε β)}

/-- The relation between results may be weakened; what it is weakened to needs to hold of results
only. -/
lemma forall₂_imp (h : List.Forall₂ (SameResult R) xs ys)
    (hRS : ∀ a, .ok a ∈ xs → ∀ b, .ok b ∈ ys → R a b → S a b) :
    List.Forall₂ (SameResult S) xs ys := by
  induction h with
  | nil => exact .nil
  | cons hab _ ih =>
    refine .cons ?_ (ih fun a ha b hb =>
      hRS a (List.mem_cons_of_mem _ ha) b (List.mem_cons_of_mem _ hb))
    cases hab with
    | ok hab => exact .ok (hRS _ List.mem_cons_self _ List.mem_cons_self hab)
    | error e => exact .error e

/-- Results that correspond to the same results correspond to each other. -/
lemma forall₂_join {T : α → γ → Prop} {zs : List (Except ε γ)}
    (h : List.Forall₂ (SameResult R) xs ys) (h' : List.Forall₂ (SameResult T) xs zs) :
    List.Forall₂ (SameResult fun b c => ∃ a, .ok a ∈ xs ∧ R a b ∧ T a c) ys zs := by
  induction h generalizing zs with
  | nil =>
    cases h'
    exact .nil
  | cons hab _ ih =>
    cases h' with
    | cons hac hrest =>
      refine .cons ?_ (forall₂_imp (ih hrest) ?_)
      · cases hab with
        | ok hab =>
          cases hac with
          | ok hac => exact .ok ⟨_, List.mem_cons_self, hab, hac⟩
        | error e =>
          cases hac with
          | error => exact .error e
      · rintro b _ c _ ⟨a, ha, hab, hac⟩
        exact ⟨a, List.mem_cons_of_mem _ ha, hab, hac⟩

lemma exists_of_mem (h : List.Forall₂ (SameResult R) xs ys) {b : β} (hb : .ok b ∈ ys) :
    ∃ a, .ok a ∈ xs ∧ R a b := by
  obtain ⟨x, hx, hxb⟩ := exists_of_mem_right h hb
  cases hxb with
  | ok hab => exact ⟨_, hx, hab⟩

end SameResult

/-- What was made for a draft may stand in another store, and more may have been made. -/
lemma Store.Realizes.mono {s t : Store ω} {made made' : Identity → Prop} {draft : Draft ω}
    {v : Value ω} (h : s.Realizes made draft v)
    (hmade : ∀ id, made id → made' id ∧ t.get? id = s.get? id) : t.Realizes made' draft v := by
  induction draft using Draft.partsInduction generalizing v with
  | step draft ih =>
    cases h with
    | stored v => exact .stored v
    | composite hid hcell hheading hmembers =>
      obtain ⟨hid', hsame⟩ := hmade _ hid
      refine .composite hid' ((deref?_congr _ hsame).trans hcell) hheading (SameResult.forall₂_imp hmembers ?_)
      exact fun part hpart w _ hw => ih part (Draft.mem_parts_of_ok_mem_members hpart) hw

namespace Store.Realizes

variable {s t u : Store ω} {draft : Draft ω} {v : Value ω}

/-- What has been realized stays so when more is made. -/
lemma of_extends (h : t.Realizes (s.Made t) draft v) (hu : u.Extends t) :
    u.Realizes (s.Made u) draft v :=
  h.mono fun id hid => ⟨⟨hid.1, hid.2.trans_le hu.next_le⟩, hu.get?_eq id hid.2⟩

/-- What is realized with what has been made lately is so with all that has been made. -/
lemma of_made (h : u.Realizes (t.Made u) draft v) (ht : t.Extends s) :
    u.Realizes (s.Made u) draft v :=
  h.mono fun _ hid => ⟨⟨ht.next_le.trans hid.1, hid.2⟩, rfl⟩

end Store.Realizes

/-- What is realized has no cycles if the values that the draft holds have none. -/
lemma Store.Realizes.acyclic {store : Store ω} {made : Identity → Prop} {reflect : Bool}
    {draft : Draft ω} {v : Value ω} (h : store.Realizes made draft v)
    (hheld : draft.Each fun part => ∀ u, part = .stored u → store.Acyclic reflect u) :
    store.Acyclic reflect v := by
  induction hheld generalizing v with
  | intro hself _ ih =>
    cases h with
    | stored v => exact hself v rfl
    | @composite _ shape id cell _ hcell _ hmembers =>
      refine acyclic_of_contains fun w ⟨other, cell', hsight, hw⟩ => ?_
      obtain rfl : cell = cell' := Option.some.inj (hcell.symm.trans (deref?_of_sight hsight))
      rcases Cell.ok_mem_members_or_eq_null hw with hmem | rfl
      · obtain ⟨part, hpart, hrealizes⟩ := SameResult.exists_of_mem hmembers hmem
        exact ih part (Draft.mem_parts_of_ok_mem_members hpart) hrealizes
      · exact acyclic_atom store reflect .null

/-! ## Placing drafts -/

namespace Draft

/-- A draft is put into any store with success: the store is extended, and the value is what the
draft says with what is new. -/
def Places (draft : Draft ω) : Prop :=
  ∀ store : Store ω, (draft.place store).2.Extends store ∧
    (draft.place store).2.Realizes (store.Made (draft.place store).2) draft (draft.place store).1

/-- Entries are placed as their keys and values in turn. -/
lemma placeEntries_eq (store : Store ω) (entries : List (Draft ω × Draft ω)) :
    let flat := placeItems store (entries.flatMap fun e => [e.1, e.2])
    let placed := placeEntries store entries
    placed.1.flatMap (fun e => [e.1, e.2]) = flat.1 ∧ placed.2 = flat.2 := by
  induction entries generalizing store with
  | nil => exact ⟨rfl, rfl⟩
  | cons e rest ih =>
    obtain ⟨hvalues, hstore⟩ := ih (e.2.place (e.1.place store).2).2
    simp only [List.flatMap_cons, List.cons_append, List.nil_append, placeItems, placeEntries,
      hvalues, hstore, and_self]

/-- Fields are placed as their contents in turn, each under its slot. -/
lemma placeFields_eq (store : Store ω) (fields : List (Slot × Draft ω)) :
    let flat := placeItems store (fields.map (·.2))
    let placed := placeFields store fields
    placed.1 = (fields.map (·.1)).zip flat.1 ∧ placed.2 = flat.2 := by
  induction fields generalizing store with
  | nil => exact ⟨rfl, rfl⟩
  | cons f rest ih =>
    obtain ⟨hvalues, hstore⟩ := ih (f.2.place store).2
    simp only [List.map_cons, placeItems, placeFields, hvalues, hstore, List.zip_cons_cons,
      and_self]

/-- What a slot shows corresponds if what it holds does. -/
lemma sameResult_shown {R : Draft ω → Value ω → Prop} {o : Object ω} {slot : Slot}
    {draft : Option (Draft ω)} (h : Option.Rel R draft (o.read slot)) :
    SameResult R (shown slot draft) (o.readOrFault slot) := by
  rw [Object.readOrFault]
  generalize o.read slot = value at h
  cases h with
  | some hd => exact .ok hd
  | none => exact .error slot.accessFault

/-- A composite is placed by placing its parts in order and then a cell of its own.  The cell has
the heading of the draft, and its members correspond to those of the draft as the values that the
parts became correspond to the parts. -/
lemma exists_place_eq {draft : Draft ω} (h : draft.heading? ≠ none) (store : Store ω) :
    let placed := placeItems store draft.parts
    ∃ cell, draft.place store = placed.2.place cell ∧ draft.heading? = some cell.heading ∧
      ∀ R, List.Forall₂ R draft.parts placed.1 →
        List.Forall₂ (SameResult R) draft.members cell.members := by
  cases draft with
  | stored v => exact absurd rfl h
  | seq sequence items =>
    refine ⟨.seq sequence (placeItems store items).1, rfl, rfl, fun R hvalues => ?_⟩
    rw [members, Cell.members, List.forall₂_map_left_iff, List.forall₂_map_right_iff]
    exact hvalues.imp fun _ _ hv => .ok hv
  | map entries =>
    obtain ⟨hflat, hstore⟩ := placeEntries_eq store entries
    refine ⟨.map (placeEntries store entries).1, ?_, rfl, fun R hvalues => ?_⟩
    · rw [parts, ← hstore, place]
    · rw [members, Cell.members, List.forall₂_map_left_iff, List.forall₂_map_right_iff, hflat]
      exact hvalues.imp fun _ _ hv => .ok hv
  | object type fields =>
    obtain ⟨hflat, hstore⟩ := placeFields_eq store fields
    refine ⟨.object ⟨type, fun slot => (placeFields store fields).1.lookup slot⟩, ?_, rfl,
      fun R hvalues => ?_⟩
    · rw [parts, ← hstore, place]
    · rw [members, Cell.members, List.forall₂_map_left_iff, List.forall₂_map_right_iff]
      refine List.forall₂_same.mpr fun slot _ => sameResult_shown ?_
      change Option.Rel _ (fields.lookup slot) ((placeFields store fields).1.lookup slot)
      rw [hflat, lookup_eq_find?, lookup_eq_find?]
      exact forall₂_find? hvalues (slot == ·)

/-- Drafts that are placed one after the other are all there in the end. -/
lemma realizes_placeItems {drafts : List (Draft ω)} (h : ∀ draft ∈ drafts, draft.Places)
    (store : Store ω) :
    let placed := placeItems store drafts
    placed.2.Extends store ∧
      List.Forall₂ (placed.2.Realizes (store.Made placed.2)) drafts placed.1 := by
  induction drafts generalizing store with
  | nil => exact ⟨store.extends_refl, .nil⟩
  | cons draft rest ih =>
    obtain ⟨hdraft, hrest⟩ := List.forall_mem_cons.mp h
    obtain ⟨hfirst, hvalue⟩ := hdraft store
    obtain ⟨hlater, hvalues⟩ := ih hrest (draft.place store).2
    exact ⟨hlater.trans hfirst,
      .cons (hvalue.of_extends hlater) (hvalues.imp fun _ _ hv => hv.of_made hfirst)⟩

/-- A composite that is placed after its parts realizes the draft that it has the heading and the
members of. -/
lemma realizes_place_cell {store after : Store ω} {draft : Draft ω} {cell : Cell ω}
    (hafter : after.Extends store) (hheading : draft.heading? = some cell.heading)
    (hmembers : List.Forall₂ (SameResult (after.Realizes (store.Made after))) draft.members
      cell.members) :
    let placed := after.place cell
    placed.2.Extends store ∧ placed.2.Realizes (store.Made placed.2) draft placed.1 := by
  have hplace := after.extends_place cell
  refine ⟨hplace.trans hafter, .composite ⟨hafter.next_le, Nat.lt_succ_self _⟩
    (after.deref?_place cell) hheading ?_⟩
  exact SameResult.forall₂_imp hmembers fun _ _ _ _ hv => hv.of_extends hplace

lemma exists_eq_stored {draft : Draft ω} (h : draft.heading? = none) :
    ∃ v, draft = .stored v := by
  cases draft with
  | stored v => exact ⟨v, rfl⟩
  | seq | map | object => cases h

/-- **A draft that is placed is realized.** -/
theorem realizes_place (draft : Draft ω) : draft.Places := by
  induction draft using partsInduction with
  | step draft ih =>
    intro store
    by_cases hheading : draft.heading? = none
    · obtain ⟨v, rfl⟩ := exists_eq_stored hheading
      exact ⟨store.extends_refl, .stored v⟩
    · obtain ⟨hafter, hvalues⟩ := realizes_placeItems ih store
      obtain ⟨cell, hplace, hcell, hmembers⟩ := exists_place_eq hheading store
      rw [hplace]
      exact realizes_place_cell hafter hcell (hmembers _ hvalues)

/-- The values that drafts hold are placed as they are. -/
lemma placeItems_stored (store : Store ω) (drafts : List (Draft ω)) :
    List.Forall₂ (fun draft v => ∀ u, draft = .stored u → v = u) drafts
      (placeItems store drafts).1 := by
  induction drafts generalizing store with
  | nil => exact .nil
  | cons draft rest ih =>
    refine .cons ?_ (ih _)
    rintro u rfl
    rfl

/-- What is kept when each of several drafts is placed is kept when all of them are. -/
lemma placeItems_invariant {I : Store ω → Prop} {drafts : List (Draft ω)}
    (h : ∀ draft ∈ drafts, ∀ store, I store → I (draft.place store).2) {store : Store ω}
    (hstore : I store) : I (placeItems store drafts).2 := by
  induction drafts generalizing store with
  | nil => exact hstore
  | cons draft rest ih =>
    obtain ⟨hdraft, hrest⟩ := List.forall_mem_cons.mp h
    exact ih hrest (hdraft store hstore)

/-- What placing keeps of a store: whatever is kept when a cell is added that has the heading of a
part of the draft and holds the values that the part holds. -/
theorem place_invariant {I : Store ω → Prop} {draft : Draft ω}
    (h : draft.Each fun part => ∀ (store : Store ω) (cell : Cell ω), I store →
      part.heading? = some cell.heading →
      List.Forall₂ (SameResult fun d v => ∀ u, d = .stored u → v = u) part.members cell.members →
      I (store.place cell).2)
    {store : Store ω} (hstore : I store) : I (draft.place store).2 := by
  induction h generalizing store with
  | @intro draft hself _ ih =>
    by_cases hheading : draft.heading? = none
    · obtain ⟨v, rfl⟩ := exists_eq_stored hheading
      exact hstore
    · have hparts : I (placeItems store draft.parts).2 :=
        placeItems_invariant (fun part hpart _ hstart => ih part hpart hstart) hstore
      obtain ⟨cell, hplace, hcell, hmembers⟩ := exists_place_eq hheading store
      rw [hplace]
      exact hself _ cell hparts hcell (hmembers _ (placeItems_stored store draft.parts))

end Draft

/-! ## Placing values of derived structs -/

namespace Derive

/-- The contents of a level are placed, and read as they were. -/
lemma Level.realizes_place (level : Level (Draft ω)) (store : Store ω) :
    let placed := level.place store
    placed.2.Extends store ∧ placed.1.decl = level.decl ∧
      ∀ name, Option.Rel (placed.2.Realizes (store.Made placed.2)) (level.read name)
        (placed.1.read name) := by
  have hplaces : ∀ draft ∈ level.contents.map (·.2), draft.Places :=
    fun draft _ => draft.realizes_place
  obtain ⟨hafter, hvalues⟩ := Draft.realizes_placeItems hplaces store
  have hmembers : (level.place store).1.members = level.members := by
    rw [place, Level.members, List.map_fst_zip]
    rw [Level.members, List.length_map, ← hvalues.length_eq, List.length_map]
  refine ⟨hafter, ?_, fun name => ?_⟩
  · rw [decl, hmembers, decl]
    rfl
  · exact forall₂_find? hvalues fun m => m.role == .plain && m.label == name

namespace Instance

/-- The contents of a value are placed, and read as they were. -/
lemma realizes_place (x : Instance (Draft ω)) (store : Store ω) :
    let placed := x.place store
    placed.2.Extends store ∧ placed.1.info = x.info ∧
      ∀ slot, Option.Rel (placed.2.Realizes (store.Made placed.2)) (x.read slot)
        (placed.1.read slot) := by
  induction x generalizing store with
  | root level =>
    obtain ⟨hafter, hdecl, hread⟩ := level.realizes_place store
    refine ⟨hafter, congrArg TypeInfo.root hdecl, fun slot => ?_⟩
    change Option.Rel _ _ ((root (level.place store).1).read slot)
    rw [read, read, hdecl]
    cases slot.isOwnedBy (.root level.decl) with
    | true => exact hread slot.name
    | false => exact .none
  | extending level parent ih =>
    obtain ⟨hafter, hdecl, hread⟩ := level.realizes_place store
    obtain ⟨hlater, hinfo, hinherited⟩ := ih (level.place store).2
    refine ⟨hlater.trans hafter, congrArg₂ TypeInfo.extending hdecl hinfo, fun slot => ?_⟩
    change Option.Rel _ _
      ((extending (level.place store).1 (parent.place (level.place store).2).1).read slot)
    rw [read, read, hdecl, hinfo]
    cases slot.isOwnedBy (.extending level.decl parent.info) with
    | true => exact rel_imp (hread slot.name) fun _ _ hv => hv.of_extends hlater
    | false => exact rel_imp (hinherited slot) fun _ _ hv => hv.of_made hafter

lemma members_toDraft (x : Instance (Draft ω)) :
    x.toDraft.members = x.info.layout.map fun slot => Draft.shown slot (x.read slot) := by
  have hlookup (slot : Slot) (slots : List Slot) :
      (slots.filterMap fun slot => (x.read slot).map fun draft => (slot, draft)).lookup slot =
        if slot ∈ slots then x.read slot else none := by
    induction slots with
    | nil => rfl
    | cons first rest ih =>
      rw [List.filterMap_cons]
      by_cases hfirst : slot = first
      · subst hfirst
        cases hread : x.read slot with
        | none => simp [hread, ih]
        | some draft => simp
      · simp only [List.mem_cons, hfirst, false_or, ← ih]
        cases x.read first with
        | none => rfl
        | some draft => rw [Option.map_some, List.lookup_cons, beq_false_of_ne hfirst]
  rw [toDraft, Draft.members]
  exact List.map_congr_left fun slot hslot => by rw [hlookup, if_pos hslot]

/-- **A value that is shared realizes the draft that it converts to.** -/
theorem realizes_share (x : Instance (Draft ω)) (store : Store ω) :
    (x.share store).2.Extends store ∧
      (x.share store).2.Realizes (store.Made (x.share store).2) x.toDraft (x.share store).1 := by
  obtain ⟨hafter, hinfo, hread⟩ := x.realizes_place store
  have htype : (x.place store).1.object.type = x.info := hinfo
  refine Draft.realizes_place_cell hafter ?_ ?_
  · rw [Cell.heading, htype]
    rfl
  · rw [members_toDraft, Cell.members, htype, List.forall₂_map_left_iff,
      List.forall₂_map_right_iff]
    exact List.forall₂_same.mpr fun slot _ => Draft.sameResult_shown (hread slot)

end Instance

end Derive

end MemoKey
