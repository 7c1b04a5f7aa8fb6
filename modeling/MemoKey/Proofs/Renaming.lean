import MemoKey.Proofs.Cuts
import MemoKey.Proofs.NodeEquality
import MemoKey.Proofs.Outcome

/-!
# Keys do not depend on addresses

The guard branches on identities, and identities are addresses.  Still nothing of an address gets
into a key, apart from those of objects that are kept whole: a graph may be moved to other
addresses, and values may be shared or copied where nothing is cyclic.

## Moving a graph

`Store.Renames` says that one argument graph is another one under other identities.  A walk over
the one and a walk over the other are kept in step by their paths, which correspond identity by
identity (`Store.Corresponding`), so a composite is cut in both or in neither.  Every store can be
moved, by `Store.shift`.

## Sharing and copying

`Store.SameTree` says that two values are the same tree when all that can be reached is unfolded.
Over acyclic graphs the paths of the two walks need not correspond at all: nothing is cut in either.

The main statement is `Config.same_outcome_of_renames_or_sameTree`.
-/

namespace MemoKey

variable {ω : Type}

/-! ## Graphs under other identities -/

/-- A value with another identity in the place of its own. -/
def Value.rename (f : Identity → Identity) : Value ω → Value ω
  | .ref shape id => .ref shape (f id)
  | v => v

namespace Store

variable {f : Identity → Identity} {s t : Store ω} {reflect : Bool} {vs ws : List (Value ω)}
  {v w : Value ω} {id : Identity}

/-- The values that can be reached from a list of values. -/
def reached (store : Store ω) (reflect : Bool) (vs : List (Value ω)) : Set (Value ω) :=
  {w | ∃ v ∈ vs, store.Reaches reflect v w}

/-- The identities that can be reached from a list of values. -/
def mentioned (store : Store ω) (reflect : Bool) (vs : List (Value ω)) : Set Identity :=
  {id | ∃ shape, .ref shape id ∈ store.reached reflect vs}

lemma reached_of_contains (hv : v ∈ s.reached reflect vs) (h : s.Contains reflect v w) :
    w ∈ s.reached reflect vs := by
  obtain ⟨a, ha, hreaches⟩ := hv
  exact ⟨a, ha, hreaches.tail h⟩

/-- One argument graph is another one under other identities: different identities stay different,
and what references show matches, the parts being the renamed ones in the same order. -/
structure Renames (f : Identity → Identity) (s t : Store ω) (reflect : Bool)
    (vs ws : List (Value ω)) : Prop where
  /-- No two composites are made one. -/
  injOn : Set.InjOn f (s.mentioned reflect vs)
  /-- The arguments are the renamed ones. -/
  arguments : ws = vs.map (Value.rename f)
  /-- Every reference shows the same variant, heading and parts again under its new identity. -/
  cells : ∀ v ∈ s.reached reflect vs,
    Option.Rel (Cell.Matches fun v w => w = v.rename f) (s.deref? v) (t.deref? (v.rename f))

/-- No object that can be reached from a value is compared by identity. -/
def TakesApart (store : Store ω) (reflect : Bool) (v : Value ω) : Prop :=
  ∀ w, store.Reaches reflect v w → ∀ id, store.sight reflect w ≠ .whole (.object id)

/-- No object is compared by identity if a walk looks into objects, or if there are none. -/
lemma takesApart_of_reflect_or_no_objects
    (h : reflect = true ∨ ∀ e ∈ s.contents, ∀ o, e.2 ≠ .object o) : s.TakesApart reflect v := by
  intro w _ id hsight
  cases w with
  | atom a => simp [sight] at hsight
  | whole x => simp [sight] at hsight
  | ref shape other =>
    cases hcell : s.deref? (.ref shape other) with
    | none => simp [sight, hcell] at hsight
    | some cell =>
      have happart : (cell.isObject && !reflect) = false := by
        rcases h with rfl | hnone
        · simp
        · have hget := (deref?_ref_eq_some_iff.mp hcell).2
          cases cell with
          | seq | map => rfl
          | object o => exact absurd rfl (hnone _ (mem_contents_of_get? hget) o)
      simp [sight, hcell, happart] at hsight

/-- Two walks stand at corresponding places: at a value and at the renamed one, below paths that
correspond identity by identity. -/
def Corresponding (f : Identity → Identity) (s : Store ω) (reflect : Bool) (vs : List (Value ω))
    (g : Guard) (v : Value ω) (g' : Guard) (w : Value ω) : Prop :=
  w = v.rename f ∧ v ∈ s.reached reflect vs ∧
    ∃ path : List Identity, (∀ id ∈ path, id ∈ s.mentioned reflect vs) ∧
      g = ⟨path, true⟩ ∧ g' = ⟨path.map f, true⟩

lemma Renames.mem_map_iff (h : Renames f s t reflect vs ws) {path : List Identity}
    (hpath : ∀ id ∈ path, id ∈ s.mentioned reflect vs) (hid : id ∈ s.mentioned reflect vs) :
    f id ∈ path.map f ↔ id ∈ path := by
  constructor
  · intro hmem
    obtain ⟨other, hother, heq⟩ := List.mem_map.mp hmem
    have hsame : other = id := h.injOn (hpath other hother) hid heq
    rwa [← hsame]
  · intro hmem
    exact List.mem_map_of_mem hmem

/-- At corresponding places walks are in step, and they get to corresponding places. -/
lemma Renames.inStep (h : Renames f s t reflect vs ws)
    (happart : ∀ a ∈ vs, s.TakesApart reflect a) {g g' : Guard}
    (hplace : Corresponding f s reflect vs g v g' w) :
    Walk.InStep Act.event? s t reflect (Corresponding f s reflect vs) g v g' w := by
  obtain ⟨rfl, hv, path, hpath, rfl, rfl⟩ := hplace
  cases v with
  | atom b => exact .atom rfl rfl
  | whole x => exact .whole rfl rfl
  | ref shape id =>
    have hid : id ∈ s.mentioned reflect vs := ⟨shape, hv⟩
    have hcell := h.cells _ hv
    rw [Value.rename] at hcell ⊢
    generalize hfound : s.deref? (.ref shape id) = found,
      hfound' : t.deref? (.ref shape (f id)) = found' at hcell
    cases hcell with
    | none => exact .atom (a := .null) (by rw [sight, hfound]) (by rw [sight, hfound'])
    | @some cell cell' hmatches =>
      -- The object would be kept whole on both sides, under different identities.
      have hinside : (cell.isObject && !reflect) = false := by
        by_contra hkept
        obtain ⟨a, ha, hreaches⟩ := hv
        refine happart a ha (.ref shape id) hreaches id ?_
        rw [Bool.not_eq_false] at hkept
        simp [sight, hfound, hkept]
      have hsight : s.sight reflect (.ref shape id) = .composite id cell := by
        simp [sight, hfound, hinside]
      have hsight' : t.sight reflect (.ref shape (f id)) = .composite (f id) cell' := by
        rw [Cell.isObject_eq_of_heading_eq hmatches.heading] at hinside
        simp [sight, hfound', hinside]
      have hmem : f id ∈ path.map f ↔ id ∈ path := h.mem_map_iff hpath hid
      by_cases hcut : id ∈ path
      · exact .cut hsight (by simpa using hcut) hsight' (by simpa using hmem.mpr hcut)
      · have hcut' : f id ∉ path.map f := fun hcut' => hcut (hmem.mp hcut')
        refine .inside hsight (by simpa using hcut) hsight' (by simpa using hcut') ?_ ?_
        · simp [Act.event?]
        · rw [Guard.below_enabled hcut, Guard.below_enabled hcut']
          refine hmatches.mono fun part hpart part' _ hrenamed => ?_
          have hcontains : s.Contains reflect (.ref shape id) part := ⟨id, cell, hsight, hpart⟩
          refine ⟨hrenamed, reached_of_contains hv hcontains, id :: path, ?_, rfl, rfl⟩
          intro other hother
          rcases List.mem_cons.mp hother with rfl | hother
          · exact hid
          · exact hpath other hother

/-- Guarded walks over a graph and the renamed one report the same events and end the same way. -/
lemma Renames.seen_trace_eq (h : Renames f s t reflect vs ws)
    (happart : ∀ a ∈ vs, s.TakesApart reflect a) (hv : v ∈ vs) (limit : Nat) :
    (Walk.trace s reflect limit (Guard.empty true) v).seen Act.event? =
      (Walk.trace t reflect limit (Guard.empty true) (v.rename f)).seen Act.event? := by
  have hstart : Corresponding f s reflect vs (Guard.empty true) v (Guard.empty true)
      (v.rename f) := ⟨rfl, ⟨v, hv, .refl⟩, [], by simp, rfl, rfl⟩
  exact Walk.seen_trace_eq Act.pathBlind_event?
    (fun g v g' w hplace => h.inStep happart hplace) limit hstart

end Store

/-! ## Moving all composites of a store -/

/-- An object with renamed fields. -/
def Object.rename (f : Identity → Identity) (o : Object ω) : Object ω :=
  { o with read := fun slot => (o.read slot).map (Value.rename f) }

/-- A composite with renamed parts. -/
def Cell.rename (f : Identity → Identity) : Cell ω → Cell ω
  | .seq sequence items => .seq sequence (items.map (Value.rename f))
  | .map entries => .map (entries.map fun e => (e.1.rename f, e.2.rename f))
  | .object o => .object (o.rename f)

/-- A content with renamed parts. -/
def Content.rename (f : Identity → Identity) : Content ω → Content ω
  | .array kind slots => .array kind (slots.map (Value.rename f))
  | .items xs => .items (xs.map (Value.rename f))
  | .entries es => .entries (es.map fun e => (e.1.rename f, e.2.rename f))
  | .object o => .object (o.rename f)

lemma Content.as?_rename (f : Identity → Identity) (shape : Shape) (content : Content ω) :
    (content.rename f).as? shape = (content.as? shape).map (Cell.rename f) := by
  cases shape <;> cases content <;> rfl

lemma Cell.matches_rename (f : Identity → Identity) (cell : Cell ω) :
    cell.Matches (fun v w => w = v.rename f) (cell.rename f) := by
  cases cell with
  | seq sequence items =>
    refine ⟨rfl, ?_⟩
    simp only [members, rename, List.map_map, List.forall₂_map_left_iff,
      List.forall₂_map_right_iff]
    exact List.forall₂_same.mpr fun v _ => .ok rfl
  | map entries =>
    refine ⟨rfl, ?_⟩
    have hparts : (entries.map fun e => (e.1.rename f, e.2.rename f)).flatMap
        (fun e => [e.1, e.2]) = (entries.flatMap fun e => [e.1, e.2]).map (Value.rename f) := by
      simp [List.flatMap_map, List.map_flatMap]
    simp only [members, rename, hparts, List.map_map, List.forall₂_map_left_iff,
      List.forall₂_map_right_iff]
    exact List.forall₂_same.mpr fun v _ => .ok rfl
  | object o =>
    refine ⟨rfl, ?_⟩
    simp only [members, rename, Object.rename, List.forall₂_map_left_iff,
      List.forall₂_map_right_iff]
    refine List.forall₂_same.mpr fun slot _ => ?_
    cases hread : o.read slot with
    | none => simpa [Object.readOrFault, hread] using .error _
    | some v => simpa [Object.readOrFault, hread] using .ok rfl

namespace Store

/-- The identity a number of addresses further on. -/
def shiftId (k : Nat) (id : Identity) : Identity :=
  ⟨id.addr + k⟩

lemma shiftId_injective (k : Nat) : Function.Injective (shiftId k) := by
  rintro ⟨x⟩ ⟨y⟩ h
  simpa [shiftId] using h

/-- A store with all its composites moved a number of addresses further on. -/
def shift (k : Nat) (store : Store ω) : Store ω where
  contents := store.contents.map fun e => (shiftId k e.1, e.2.rename (shiftId k))
  next := store.next + k
  addr_lt_next := fun c h => by
    obtain ⟨e, he, rfl⟩ := List.mem_map.mp h
    exact Nat.add_lt_add_right (store.addr_lt_next e he) k

lemma get?_shift (k : Nat) (store : Store ω) (id : Identity) :
    (store.shift k).get? (shiftId k id) = (store.get? id).map (Content.rename (shiftId k)) := by
  change (store.contents.map fun e => (shiftId k e.1, e.2.rename (shiftId k))).lookup _ =
    (store.contents.lookup id).map _
  induction store.contents with
  | nil => rfl
  | cons e rest ih =>
    obtain ⟨other, content⟩ := e
    by_cases hid : id = other
    · simp [hid]
    · have hne : shiftId k id ≠ shiftId k other := fun h => hid (shiftId_injective k h)
      simp only [List.map_cons, List.lookup_cons]
      rw [beq_eq_false_iff_ne.mpr hne, beq_eq_false_iff_ne.mpr hid]
      exact ih

lemma deref?_shift (k : Nat) (store : Store ω) (v : Value ω) :
    (store.shift k).deref? (v.rename (shiftId k)) =
      (store.deref? v).map (Cell.rename (shiftId k)) := by
  cases v with
  | atom | whole => rfl
  | ref shape id =>
    rw [Value.rename, deref?, deref?, get?_shift]
    cases store.get? id with
    | none => rfl
    | some content => exact content.as?_rename (shiftId k) shape

/-- Moving all composites of a store is a renaming, whatever the arguments. -/
lemma renames_shift (k : Nat) (store : Store ω) (reflect : Bool) (vs : List (Value ω)) :
    Renames (shiftId k) store (store.shift k) reflect vs (vs.map (Value.rename (shiftId k))) where
  injOn := (shiftId_injective k).injOn
  arguments := rfl
  cells := by
    intro v _
    rw [deref?_shift]
    cases store.deref? v with
    | none => exact .none
    | some cell => exact .some (cell.matches_rename (shiftId k))

/-! ## The same tree -/

/-- Two values are the same tree, each unfolded in its own store: the same leaves, and composites
of one heading with the same trees for parts and the same slots that cannot be read. -/
inductive SameTree (s t : Store ω) (reflect : Bool) : Value ω → Value ω → Prop where
  /-- Both are one atom. -/
  | atom {v w : Value ω} {a : Atom} (hv : s.sight reflect v = .atom a)
      (hw : t.sight reflect w = .atom a) : SameTree s t reflect v w
  /-- Both are one value that is kept whole. -/
  | whole {v w : Value ω} {x : Whole ω} (hv : s.sight reflect v = .whole x)
      (hw : t.sight reflect w = .whole x) : SameTree s t reflect v w
  /-- Both are composites of one heading, with the same trees at the same places. -/
  | composite {v w : Value ω} {id other : Identity} {cell cell' : Cell ω}
      (hv : s.sight reflect v = .composite id cell)
      (hw : t.sight reflect w = .composite other cell')
      (hheading : cell.heading = cell'.heading)
      (hmembers : List.Forall₂ (SameResult (SameTree s t reflect)) cell.members cell'.members) :
      SameTree s t reflect v w

/-- Walks over the same tree in two acyclic graphs report the same events and end the same way, if
neither guard cuts anything. -/
lemma SameTree.seen_trace_eq {s t : Store ω} {reflect : Bool} {v w : Value ω} {g g' : Guard}
    (h : s.SameTree t reflect v w) (hv : s.Acyclic reflect v) (hw : t.Acyclic reflect w)
    (hg : g.Passes s reflect v) (hg' : g'.Passes t reflect w) (limit : Nat) :
    (Walk.trace s reflect limit g v).seen Act.event? =
      (Walk.trace t reflect limit g' w).seen Act.event? := by
  let R (g : Guard) (v : Value ω) (g' : Guard) (w : Value ω) : Prop :=
    s.SameTree t reflect v w ∧ (s.Acyclic reflect v ∧ t.Acyclic reflect w) ∧
      g.Passes s reflect v ∧ g'.Passes t reflect w
  refine Walk.seen_trace_eq (R := R) Act.pathBlind_event? ?_ limit ⟨h, ⟨hv, hw⟩, hg, hg'⟩
  rintro g v g' w ⟨h, ⟨hv, hw⟩, hg, hg'⟩
  cases h with
  | atom hsight hsight' => exact .atom hsight hsight'
  | whole hsight hsight' => exact .whole hsight hsight'
  | @composite _ _ id other cell cell' hsight hsight' hheading hmembers =>
    have hcut : g.cuts id = false := hg id (mem_composites_self hsight)
    have hcut' : g'.cuts other = false := hg' other (mem_composites_self hsight')
    refine .inside hsight hcut hsight' hcut' (by simp [Act.event?]) ?_
    have hmatches : cell.Matches (s.SameTree t reflect) cell' := ⟨hheading, hmembers⟩
    refine hmatches.mono fun part hpart part' hpart' hsame => ⟨hsame, ⟨?_, ?_⟩, ?_, ?_⟩
    · exact hv.of_contains ⟨id, cell, hsight, hpart⟩
    · exact hw.of_contains ⟨other, cell', hsight', hpart'⟩
    · exact hg.below hv hsight hpart
    · exact hg'.below hw hsight' hpart'

end Store

/-! ## Calls -/

namespace Config

variable {c : Config} {s t : Store ω} {call other : Invocation ω}

/-- Calls report the same if their traces look the same under every common bound. -/
lemma report_eq_of_forall_limit (hsignature : call.signature = other.signature)
    (h : ∀ limit, List.Forall₂
      (fun v w => (Walk.trace s c.useReflection limit (Guard.empty c.checkForCycles) v).seen
          Act.event? =
        (Walk.trace t c.useReflection limit (Guard.empty c.checkForCycles) w).seen Act.event?)
      call.arguments other.arguments) :
    c.report s call = c.report t other := by
  -- The two stores may differ in size, so both walks are given the larger bound.
  obtain ⟨hhalt, htrace⟩ := trace_of_size_le c call (Nat.le_max_left s.size t.size)
  obtain ⟨hhalt', htrace'⟩ := trace_of_size_le c other (Nat.le_max_right s.size t.size)
  obtain ⟨hevents, hsame⟩ := Prod.mk.inj (Trace.seen_all_congr (h (max s.size t.size)))
  refine report_congr (by rw [hsignature]) (by rw [← hhalt, ← hhalt', hsame]) fun hend => ?_
  rw [← hhalt] at hend
  rw [← htrace hend, ← htrace' (hsame ▸ hend)]
  exact hevents

variable [OpaqueValue ω]

/-- Two calls come to the same, in whatever sessions they are made: the same key of either kind, or
the same error.  Structural keys that are made are also equal to each other as keys compare, as far
as opaque values are equal to themselves. -/
def SameOutcome (c : Config) (s : Store ω) (call : Invocation ω) (t : Store ω)
    (other : Invocation ω) : Prop :=
  ∀ session session',
    (c.structuralKey s call session).1 = (c.structuralKey t other session').1 ∧
    (c.hashKey s call session).1 = (c.hashKey t other session').1 ∧
    (c.cacheKey s call session).1 = (c.cacheKey t other session').1 ∧
    ((∀ x : ω, OpaqueValue.same x x = true) → ∀ key key',
      (c.structuralKey s call session).1 = .ok key →
      (c.structuralKey t other session').1 = .ok key' → key.same key' = true)

lemma sameOutcome_of_report_eq (h : c.report s call = c.report t other) :
    c.SameOutcome s call t other := by
  intro session session'
  have hstructural : (c.structuralKey s call session).1 = (c.structuralKey t other session').1 := by
    rw [structuralKey_fst, structuralKey_fst, h]
  refine ⟨hstructural, ?_, ?_, ?_⟩
  · rw [hashKey_fst, hashKey_fst, h]
  · rw [cacheKey_fst, cacheKey_fst, h]
  · intro hrefl key key' hkey hkey'
    rw [hstructural, hkey'] at hkey
    cases hkey
    exact Node.sameItems_iff.mpr (List.forall₂_same.mpr fun node _ => Node.same_self hrefl node)

/-- **Keys do not depend on addresses.**  With the check for cycles a call comes to the same when
its argument graph, cyclic or not, is moved to other identities, as long as no object is compared
by identity.  Over acyclic graphs two calls come to the same whenever their arguments are the same
trees, however parts are shared or copied, with or without the check. -/
theorem same_outcome_of_renames_or_sameTree (c : Config) (s t : Store ω)
    {call other : Invocation ω} (hsignature : call.signature = other.signature) :
    (c.checkForCycles = true →
      (∀ v ∈ call.arguments, s.TakesApart c.useReflection v) →
      (∃ f, Store.Renames f s t c.useReflection call.arguments other.arguments) →
      c.SameOutcome s call t other) ∧
    ((∀ v ∈ call.arguments, s.Acyclic c.useReflection v) →
      (∀ w ∈ other.arguments, t.Acyclic c.useReflection w) →
      List.Forall₂ (s.SameTree t c.useReflection) call.arguments other.arguments →
      c.SameOutcome s call t other) := by
  constructor
  · rintro hcheck happart ⟨f, hrenames⟩
    refine sameOutcome_of_report_eq ?_
    refine report_eq_of_forall_limit hsignature fun limit => ?_
    rw [hrenames.arguments, List.forall₂_map_right_iff, List.forall₂_same, hcheck]
    intro v hv
    exact hrenames.seen_trace_eq happart hv limit
  · intro hacyclic hacyclic' hsame
    refine sameOutcome_of_report_eq ?_
    refine report_eq_of_forall_limit hsignature fun limit => ?_
    refine List.forall₂_iff_zip.mpr ⟨hsame.length_eq, fun {v w} hvw => ?_⟩
    obtain ⟨hv, hw⟩ := List.of_mem_zip hvw
    have htree : s.SameTree t c.useReflection v w := (List.forall₂_iff_zip.mp hsame).2 hvw
    exact htree.seen_trace_eq (hacyclic v hv) (hacyclic' w hw) (Guard.passes_empty _)
      (Guard.passes_empty _) limit

/-- The collection that holds itself may be moved, and the list on the shelf may be shared or
copied. -/
theorem same_outcome_of_renames_or_sameTree_knot_shelf :
    let knot : Invocation Datum := { arguments := [.ref .list ⟨0⟩] }
    let moved : Invocation Datum := { arguments := [.ref .list ⟨7⟩] }
    let shared : Invocation Datum := { arguments := [.ref .map ⟨2⟩] }
    let copied : Invocation Datum := { arguments := [.ref .map ⟨3⟩] }
    argumentsOnly.SameOutcome Store.knot knot (Store.knot.shift 7) moved ∧
      argumentsOnly.SameOutcome Store.shelf shared Store.shelf copied := by
  intro knot moved shared copied
  have hapart (v : Value Datum) : Store.knot.TakesApart false v :=
    Store.takesApart_of_reflect_or_no_objects (.inr (by simp [Store.knot]))
  have hacyclic (v : Value Datum) : Store.shelf.Acyclic false v :=
    Store.descending_shelf.acyclic v
  have hleaf (v w : Identity) (hv : v = ⟨0⟩ ∨ v = ⟨1⟩) (hw : w = ⟨0⟩ ∨ w = ⟨1⟩) :
      (Store.shelf : Store Datum).SameTree Store.shelf false (.ref .list v) (.ref .list w) := by
    have hcell (id : Identity) (hid : id = ⟨0⟩ ∨ id = ⟨1⟩) :
        (Store.shelf : Store Datum).sight false (.ref .list id) =
          .composite id (.seq .list [.atom (.text "a")]) := by
      rcases hid with rfl | rfl <;> rfl
    exact .composite (hcell v hv) (hcell w hw) rfl (.cons (.ok (.atom rfl rfl)) .nil)
  have htree : (Store.shelf : Store Datum).SameTree Store.shelf false (.ref .map ⟨2⟩)
      (.ref .map ⟨3⟩) :=
    .composite rfl rfl rfl
      (.cons (.ok (hleaf ⟨0⟩ ⟨0⟩ (.inl rfl) (.inl rfl)))
        (.cons (.ok (hleaf ⟨0⟩ ⟨1⟩ (.inl rfl) (.inr rfl))) .nil))
  have hsignature : knot.signature = moved.signature := rfl
  have hsignature' : shared.signature = copied.signature := rfl
  obtain ⟨hmoved, _⟩ := same_outcome_of_renames_or_sameTree argumentsOnly Store.knot
    (Store.knot.shift 7) hsignature
  obtain ⟨_, hcopied⟩ := same_outcome_of_renames_or_sameTree argumentsOnly Store.shelf Store.shelf
    hsignature'
  refine ⟨?_, ?_⟩
  · exact hmoved rfl (fun v _ => hapart v)
      ⟨Store.shiftId 7, Store.renames_shift 7 Store.knot false knot.arguments⟩
  · exact hcopied (fun v _ => hacyclic v) (fun v _ => hacyclic v) (.cons htree .nil)

end Config

end MemoKey
