import MemoKey.Opaque.Datum
import MemoKey.Proofs.History
import MemoKey.Proofs.Placement
import MemoKey.Store.Holdings

/-!
# Arrays keep their shape

An array is made in one of five ways, and only one of them looks at what it is given.  The
conversion of a slice takes the kind from the type of the items and trusts that the items convert to
it.  After that slots are set, through any of the handles, in any order, with any values.

## What the kinds promise

`Store.Homogeneous` says that every array holds only what its kind admits.
`ArgType.each_toDraft_fits` says that conversions keep the promise of the type of the items, and
with it `Store.Homogeneous.place_draft` that a store remains so when something is converted into it.

## Steps and runs

`Holdings.Sound` is the invariant of programs.  `Holdings.Evolves` is what lies between two moments:
handles are not lost, and arrays keep their kinds and lengths.  Both are shown for one action
(`Holdings.Sound.apply`) and then for runs (`Holdings.Sound.run`).  The main statement is
`Holdings.arrays_stay_as_made`.

## Setting a slot

`Store.setSlot_eq` says what setting comes to, with two faults in their order, and
`Config.sameOutcome_set` which calls do not notice.  The main statement is
`Holdings.set_all_or_nothing`.
-/

namespace MemoKey

variable {ω : Type}

/-! ## What the kinds promise -/

/-- An array of primitives takes the primitives of its kind and nothing else. -/
lemma ArrayKind.admits_primitive_iff {kind : Primitive.Kind} {v : Value ω} :
    (primitive kind).admits v = true ↔ ∃ p, v = .atom (.primitive p) ∧ p.kind = kind := by
  unfold admits
  split <;> simp_all

/-- What an array refuses. -/
lemma ArrayKind.not_admits_iff {kind : ArrayKind} {v : Value ω} :
    ¬ kind.admits v = true ↔
      ∃ k, kind = .primitive k ∧ ∀ p, v = .atom (.primitive p) → p.kind ≠ k := by
  cases kind with
  | reference => simp [admits]
  | primitive k => simp [admits_primitive_iff]

lemma ArrayKind.admits_reference (v : Value ω) : reference.admits v = true := by
  rfl

/-- An array holds only what its kind admits. -/
def Cell.Homogeneous (cell : Cell ω) : Prop :=
  ∀ kind items, cell = .seq (.array kind) items → ∀ item ∈ items, kind.admits item = true

/-- What is held as an array shows as one. -/
lemma Cell.content_eq_array_iff {cell : Cell ω} {kind : ArrayKind} {items : List (Value ω)} :
    cell.content = .array kind items ↔ cell = .seq (.array kind) items := by
  match cell with
  | .seq (.array _) _ | .seq .list _ | .seq .set _ | .map _ | .object _ => simp [content]

namespace Store

/-- Every array holds only what its kind admits. -/
def Homogeneous (store : Store ω) : Prop :=
  ∀ id kind items, store.get? id = some (.array kind items) →
    ∀ item ∈ items, kind.admits item = true

variable {store : Store ω}

lemma Homogeneous.place (h : store.Homogeneous) {cell : Cell ω} (hcell : cell.Homogeneous) :
    (store.place cell).2.Homogeneous := by
  intro id kind items hget
  change (store.alloc cell.content).2.get? id = some (.array kind items) at hget
  rw [get?_alloc] at hget
  split at hget
  · exact hcell kind items (Cell.content_eq_array_iff.mp (Option.some.inj hget))
  · exact h id kind items hget

lemma Homogeneous.set (h : store.Homogeneous) {kind : ArrayKind} {items : List (Value ω)}
    (hitems : ∀ item ∈ items, kind.admits item = true) (id : Identity) :
    (store.set id (.array kind items)).Homogeneous := by
  intro other kind' items' hget
  rw [get?_set] at hget
  split at hget
  · obtain ⟨_, _, ⟨⟩⟩ := Option.map_eq_some_iff.mp hget
    exact hitems
  · exact h other kind' items' hget

end Store

/-- The items of a draft of an array of primitives are primitives of its kind. -/
def Draft.Fits : Draft ω → Prop
  | seq (.array (.primitive kind)) items =>
    ∀ item ∈ items, ∃ p, item = .stored (.atom (.primitive p)) ∧ p.kind = kind
  | _ => True

namespace ArgType

/-- Values of a type of scalars, behind any pointers, convert to primitives of the kind of the
type. -/
lemma toDraft_of_elementKind {type : ArgType} {kind : Primitive.Kind}
    (h : type.elementKind = .primitive kind) (x : type.Carrier ω) :
    ∃ p, type.toDraft x = .stored (.atom (.primitive p)) ∧ p.kind = kind := by
  induction type with
  | scalar s =>
    exact ⟨s.toPrimitive x, rfl, (s.kind_toPrimitive x).trans (ArrayKind.primitive.inj h)⟩
  | pointer target ih => exact ih h x
  | _ => cases h

lemma fits_array {item : ArgType} (xs : List (item.Carrier ω)) :
    (Draft.seq (.array item.elementKind) (xs.map item.toDraft)).Fits := by
  cases hkind : item.elementKind with
  | reference => trivial
  | primitive kind =>
    intro draft hdraft
    obtain ⟨x, _, rfl⟩ := List.mem_map.mp hdraft
    exact toDraft_of_elementKind hkind x

/-- **Every array that a conversion makes has items of its kind**, at any depth. -/
theorem each_toDraft_fits (type : ArgType) (x : type.Carrier ω) :
    (type.toDraft x).Each Draft.Fits := by
  induction type with
  | scalar | text | typeName | constant | primitive | value | array | object =>
    exact .of_stored trivial
  | pointer target ih => exact ih x
  | option content ih =>
    cases x with
    | none => exact .of_stored trivial
    | some x => exact ih x
  | slice item ih | vector length item ih => exact .of_seq (fits_array _) ih
  | list item ih | deque item ih | set item ih => exact .of_seq trivial ih
  | map key content ihkey ihcontent => exact .of_map trivial ihkey ihcontent

/-- A value that converts to an array converts to one of the kind and the length that are asked
for. -/
lemma exists_of_array? {type : ArgType} {x : type.Carrier ω} {kind : ArrayKind} {length : Nat}
    (h : type.array? x = some (kind, length)) :
    ∃ drafts, type.toDraft x = .seq (.array kind) drafts ∧ drafts.length = length := by
  induction type with
  | pointer target ih => exact ih h
  | option content ih =>
    cases x with
    | none => cases h
    | some x => exact ih h
  | slice item =>
    cases h
    exact ⟨_, rfl, List.length_map _⟩
  | vector length item =>
    cases h
    exact ⟨_, rfl, (List.length_map _).trans Vector.length_toList⟩
  | _ => cases h

end ArgType

/-- A cell that has the heading of a draft, and holds what the draft holds, is homogeneous if the
items of the draft fit. -/
lemma Draft.Fits.homogeneous {draft : Draft ω} {cell : Cell ω} (h : draft.Fits)
    (hheading : draft.heading? = some cell.heading)
    (hmembers : List.Forall₂ (SameResult fun d v => ∀ u, d = .stored u → v = u) draft.members
      cell.members) : cell.Homogeneous := by
  rintro kind items rfl item hitem
  cases kind with
  | reference => exact ArrayKind.admits_reference item
  | primitive kind =>
    cases draft with
    | stored | map | object => simp [heading?, Cell.heading] at hheading
    | seq sequence drafts =>
      obtain rfl : sequence = .array (.primitive kind) := by
        simpa [heading?, Cell.heading] using hheading
      obtain ⟨d, hd, hsame⟩ := exists_of_mem_right (SameResult.forall₂_of_ok hmembers) hitem
      obtain ⟨p, rfl, hkind⟩ := h d hd
      exact ArrayKind.admits_primitive_iff.mpr ⟨p, hsame _ rfl, hkind⟩

lemma Store.Homogeneous.place_draft {store : Store ω} {draft : Draft ω} (h : store.Homogeneous)
    (hdraft : draft.Each Draft.Fits) : (draft.place store).2.Homogeneous := by
  refine Draft.place_invariant (hdraft.imp fun part hfits start cell hstart => ?_) h
  exact fun hheading hmembers => hstart.place (hfits.homogeneous hheading hmembers)

namespace Cell

lemma homogeneous_reference (items : List (Value ω)) :
    (Cell.seq (.array .reference) items).Homogeneous := by
  rintro kind others ⟨⟩ item _
  exact ArrayKind.admits_reference item

/-- An array of primitives is made only if all of them are of its kind. -/
lemma primitiveArray?_eq_ok {kind : Primitive.Kind} {items : List Primitive} {cell : Cell ω}
    (h : primitiveArray? kind items = .ok cell) :
    cell = .seq (.array (.primitive kind)) (items.map fun p => .atom (.primitive p)) ∧
      ∀ p ∈ items, p.kind = kind := by
  unfold primitiveArray? at h
  split at h
  · cases h
  · next hfind =>
    cases h
    refine ⟨rfl, fun p hp => ?_⟩
    simpa using List.find?_eq_none.mp hfind p hp

lemma homogeneous_primitiveArray {kind : Primitive.Kind} {items : List Primitive} {cell : Cell ω}
    (h : primitiveArray? kind items = .ok cell) : cell.Homogeneous := by
  obtain ⟨rfl, hkinds⟩ := primitiveArray?_eq_ok h
  rintro _ _ ⟨⟩ item hitem
  obtain ⟨p, hp, rfl⟩ := List.mem_map.mp hitem
  exact ArrayKind.admits_primitive_iff.mpr ⟨p, rfl, hkinds p hp⟩

end Cell

/-! ## Setting a slot of a store -/

namespace Store

variable {store : Store ω} {id : Identity} {kind : ArrayKind} {items : List (Value ω)}

lemma addr_lt_of_get? {content : Content ω} (h : store.get? id = some content) :
    id.addr < store.next :=
  store.addr_lt_next _ (mem_contents_of_get? h)

lemma array_eq (h : store.get? id = some (.array kind items)) :
    store.array id = (kind, items) := by
  rw [array, h]

/-- Setting a slot of an array: the kind of the value is looked at first, then the index. -/
lemma setSlot_eq (h : store.get? id = some (.array kind items)) (index : Nat)
    (value : Value ω) :
    store.setSlot id index value =
      if kind.admits value then
        if index < items.length then
          .ok (store.set id (.array kind (items.set index value)))
        else .error (.indexOutOfBounds index items.length)
      else .error (.elementKind kind.name (store.describe value)) := by
  simp only [setSlot, array_eq h]
  cases kind.admits value <;> simp

/-- What is there after a slot of an array has been set. -/
lemma get?_set_array (h : store.get? id = some (.array kind items)) (content : Content ω)
    (other : Identity) :
    (store.set id content).get? other =
      if other = id then some content else store.get? other := by
  rw [get?_set, h]
  rfl

end Store

/-- A call whose arguments do not lead to a composite comes to the same when its content is
replaced. -/
lemma Config.sameOutcome_set [OpaqueValue ω] {c : Config} {store : Store ω} {call : Invocation ω}
    {id : Identity} (hnot : id ∉ store.mentioned c.useReflection call.arguments)
    (content : Content ω) : c.SameOutcome store call (store.set id content) call := by
  refine sameOutcome_of_report_eq <| report_eq_of_sameContents <|
    Store.sameContents_of_get?_eq fun other hother => ?_
  rw [Store.get?_set, if_neg (ne_of_mem_of_not_mem hother hnot)]

/-! ## Steps and runs -/

namespace Holdings

/-- Arrays hold only what their kinds admit, and all handles are handles of arrays. -/
structure Sound (h : Holdings ω) : Prop where
  homogeneous : h.store.Homogeneous
  handles : ∀ id ∈ h.handles, ∃ kind items, h.store.get? id = some (.array kind items)

/-- What lies between a moment and a later one: there may be more handles, and every array has the
kind and the length that it had. -/
structure Evolves (h h' : Holdings ω) : Prop where
  handles : h.handles <+: h'.handles
  arrays : ∀ id kind items, h.store.get? id = some (.array kind items) →
    ∃ items', h'.store.get? id = some (.array kind items') ∧ items'.length = items.length

variable {h h' h'' : Holdings ω}

lemma evolves_refl (h : Holdings ω) : h.Evolves h :=
  ⟨List.prefix_refl _, fun _ _ items hget => ⟨items, hget, rfl⟩⟩

lemma Evolves.trans (hfirst : h.Evolves h') (hlater : h'.Evolves h'') : h.Evolves h'' := by
  refine ⟨hfirst.handles.trans hlater.handles, fun id kind items hget => ?_⟩
  obtain ⟨items', hget', hlength⟩ := hfirst.arrays id kind items hget
  obtain ⟨items'', hget'', hlength'⟩ := hlater.arrays id kind items' hget'
  exact ⟨items'', hget'', hlength'.trans hlength⟩

/-- Handles of arrays may be added. -/
lemma evolves_handles (h : Holdings ω) (ids : List Identity) :
    h.Evolves { h with handles := h.handles ++ ids } :=
  ⟨List.prefix_append _ _, fun _ _ items hget => ⟨items, hget, rfl⟩⟩

/-- The store may be extended. -/
lemma evolves_of_extends {store : Store ω} (hstore : store.Extends h.store) :
    h.Evolves { h with store } :=
  ⟨List.prefix_refl _, fun id _ items hget =>
    ⟨items, (hstore.get?_eq id (Store.addr_lt_of_get? hget)).trans hget, rfl⟩⟩

/-- A sound program stays so when its store changes to a homogeneous one that keeps its arrays. -/
lemma Sound.of_store (hsound : h.Sound) {store : Store ω} (hevolves : h.Evolves { h with store })
    (hstore : store.Homogeneous) : ({ h with store } : Holdings ω).Sound := by
  refine ⟨hstore, fun id hid => ?_⟩
  obtain ⟨kind, items, hget⟩ := hsound.handles id hid
  obtain ⟨items', hget', _⟩ := hevolves.arrays id kind items hget
  exact ⟨kind, items', hget'⟩

lemma Sound.take (hsound : h.Sound) (v : Value ω) : (h.take v).Sound ∧ h.Evolves (h.take v) := by
  unfold Holdings.take
  split
  · next id kind items hcell =>
    refine ⟨⟨hsound.homogeneous, fun other hother => ?_⟩, h.evolves_handles [id]⟩
    rcases List.mem_append.mp hother with hold | hnew
    · exact hsound.handles other hold
    · obtain rfl := List.mem_singleton.mp hnew
      exact ⟨kind, items, (Store.deref?_ref_eq_some_iff.mp hcell).2⟩
  · exact ⟨hsound, h.evolves_refl⟩

lemma Sound.clone (hsound : h.Sound) (n : Nat) : (h.clone n).Sound ∧ h.Evolves (h.clone n) := by
  refine ⟨⟨hsound.homogeneous, fun id hid => hsound.handles id ?_⟩, h.evolves_handles _⟩
  rcases List.mem_append.mp hid with hold | hcopy
  · exact hold
  · exact List.mem_of_getElem? (Option.mem_toList.mp hcopy)

lemma Sound.add (hsound : h.Sound) {placed : Value ω × Store ω}
    (hstore : placed.2.Extends h.store) (hplaced : placed.2.Homogeneous) :
    (h.add placed).Sound ∧ h.Evolves (h.add placed) := by
  have hevolves : h.Evolves { h with store := placed.2 } := evolves_of_extends hstore
  obtain ⟨htaken, hlater⟩ := (hsound.of_store hevolves hplaced).take placed.1
  exact ⟨htaken, hevolves.trans hlater⟩

/-- Setting a slot through a handle: the kind of the value is looked at first, then the index, and
only then does anything change. -/
lemma set_eq {n : Nat} {id : Identity} {kind : ArrayKind} {items : List (Value ω)}
    (hid : h.handles[n]? = some id) (hget : h.store.get? id = some (.array kind items))
    (index : Nat) (value : Value ω) :
    h.set n index value =
      if kind.admits value then
        if index < items.length then
          (.ok (), { h with store := h.store.set id (.array kind (items.set index value)) })
        else (.error (.indexOutOfBounds index items.length), h)
      else (.error (.elementKind kind.name (h.store.describe value)), h) := by
  simp only [Holdings.set, hid, Store.run_assign, Store.setSlot_eq hget]
  cases kind.admits value with
  | false => rfl
  | true => by_cases hindex : index < items.length <;> simp only [hindex, if_true, if_false]

/-- A slot may be set to what the array admits. -/
lemma Sound.set_slot (hsound : h.Sound) {id : Identity} {kind : ArrayKind} {items : List (Value ω)}
    (hget : h.store.get? id = some (.array kind items)) {value : Value ω}
    (hadmits : kind.admits value = true) (index : Nat) :
    let changed : Holdings ω :=
      { h with store := h.store.set id (.array kind (items.set index value)) }
    changed.Sound ∧ h.Evolves changed := by
  intro changed
  -- The value may be the array itself: what an array admits does not depend on the store.
  have hitems : ∀ item ∈ items.set index value, kind.admits item = true := by
    intro item hitem
    rcases List.mem_or_eq_of_mem_set hitem with hold | rfl
    · exact hsound.homogeneous id kind items hget item hold
    · exact hadmits
  have hevolves : h.Evolves changed := by
    refine ⟨List.prefix_refl _, fun other kind' items' hother => ?_⟩
    rw [Store.get?_set_array hget]
    by_cases hid : other = id
    · subst hid
      cases hget.symm.trans hother
      exact ⟨items.set index value, if_pos rfl, List.length_set⟩
    · exact ⟨items', (if_neg hid).trans hother, rfl⟩
  exact ⟨hsound.of_store hevolves (hsound.homogeneous.set hitems id), hevolves⟩

lemma Sound.set (hsound : h.Sound) (n index : Nat) (value : Value ω) :
    (h.set n index value).2.Sound ∧ h.Evolves (h.set n index value).2 := by
  cases hid : h.handles[n]? with
  | none =>
    have hnothing : h.set n index value = (.ok (), h) := by simp only [Holdings.set, hid]
    rw [hnothing]
    exact ⟨hsound, h.evolves_refl⟩
  | some id =>
    obtain ⟨kind, items, hget⟩ := hsound.handles id (List.mem_of_getElem? hid)
    rw [set_eq hid hget]
    split
    · next hadmits =>
      split
      · exact hsound.set_slot hget hadmits index
      · exact ⟨hsound, h.evolves_refl⟩
    · exact ⟨hsound, h.evolves_refl⟩

/-- **One action keeps a program sound and its arrays in shape.** -/
theorem Sound.apply (hsound : h.Sound) (action : Action ω) :
    (h.apply action).2.Sound ∧ h.Evolves (h.apply action).2 := by
  have hplace (cell : Cell ω) (hcell : cell.Homogeneous) :
      (h.add (h.store.place cell)).Sound ∧ h.Evolves (h.add (h.store.place cell)) :=
    hsound.add (h.store.extends_place cell) (hsound.homogeneous.place hcell)
  cases action with
  | blank length => exact hplace _ (Cell.homogeneous_reference _)
  | ofValues items => exact hplace _ (Cell.homogeneous_reference _)
  | ofPrimitives kind items =>
    rw [Holdings.apply]
    cases hcell : (Cell.primitiveArray? kind items : Except Fault (Cell ω)) with
    | ok cell => exact hplace cell (Cell.homogeneous_primitiveArray hcell)
    | error fault => exact ⟨hsound, h.evolves_refl⟩
  | convert type x =>
    exact hsound.add ((type.toDraft x).realizes_place h.store).1
      (hsound.homogeneous.place_draft (type.each_toDraft_fits x))
  | take value => exact hsound.take value
  | clone n => exact hsound.clone n
  | set n index value => exact hsound.set n index value

/-- **So does any number of actions.** -/
theorem Sound.run (hsound : h.Sound) (actions : List (Action ω)) :
    (h.run actions).Sound ∧ h.Evolves (h.run actions) := by
  induction actions generalizing h with
  | nil => exact ⟨hsound, h.evolves_refl⟩
  | cons action rest ih =>
    obtain ⟨hnext, hstep⟩ := hsound.apply action
    obtain ⟨hend, hrest⟩ := ih hnext
    exact ⟨hend, hstep.trans hrest⟩

/-! ## What handles show -/

lemma view_eq {n : Nat} {id : Identity} {kind : ArrayKind} {items : List (Value ω)}
    (hid : h.handles[n]? = some id) (hget : h.store.get? id = some (.array kind items)) :
    h.view n = some (kind, items) := by
  rw [view, hid, Option.map_some, Store.array_eq hget]

/-- A handle stays the handle of its array. -/
lemma Evolves.getElem?_handles (hevolves : h.Evolves h') {n : Nat} {id : Identity}
    (hid : h.handles[n]? = some id) : h'.handles[n]? = some id := by
  obtain ⟨more, hmore⟩ := hevolves.handles
  rw [← hmore, List.getElem?_append_left (List.getElem?_eq_some_iff.mp hid).1, hid]

/-- A handle shows the kind and the length that it has shown before. -/
lemma Evolves.view (hevolves : h.Evolves h') (hsound : h.Sound) {n : Nat} {kind : ArrayKind}
    {items : List (Value ω)} (hview : h.view n = some (kind, items)) :
    ∃ items', h'.view n = some (kind, items') ∧ items'.length = items.length := by
  cases hid : h.handles[n]? with
  | none => simp [Holdings.view, hid] at hview
  | some id =>
    obtain ⟨kind', others, hget⟩ := hsound.handles id (List.mem_of_getElem? hid)
    rw [view_eq hid hget] at hview
    cases hview
    obtain ⟨items', hget', hlength⟩ := hevolves.arrays id kind items hget
    exact ⟨items', view_eq (hevolves.getElem?_handles hid) hget', hlength⟩

/-- The next handle shows the array that has been placed. -/
lemma view_add_place (h : Holdings ω) (store : Store ω) (kind : ArrayKind)
    (items : List (Value ω)) :
    (h.add (store.place (.seq (.array kind) items))).view h.handles.length =
      some (kind, items) := by
  set placed := store.place (.seq (.array kind) items) with hplaced
  have hget : placed.2.get? ⟨store.next⟩ = some (.array kind items) := store.get?_place _
  have hadd : h.add placed = ⟨placed.2, h.handles ++ [⟨store.next⟩]⟩ := by
    have hcell : placed.2.deref? placed.1 = some (.seq (.array kind) items) :=
      store.deref?_place _
    simp only [add, Holdings.take, hcell]
    rfl
  rw [hadd]
  exact view_eq List.getElem?_concat_length hget

/-- An action that asks for an array and does not fail gives a handle of such an array. -/
lemma view_apply {action : Action ω} {kind : ArrayKind} {length : Nat}
    (hmakes : action.makes? = some (kind, length)) (hok : (h.apply action).1 = .ok ()) :
    ∃ items, (h.apply action).2.view h.handles.length = some (kind, items) ∧
      items.length = length := by
  cases action with
  | blank n =>
    cases hmakes
    exact ⟨_, view_add_place h h.store .reference _, List.length_replicate⟩
  | ofValues items =>
    cases hmakes
    exact ⟨_, view_add_place h h.store .reference _, rfl⟩
  | ofPrimitives kind' items =>
    cases hmakes
    rw [Holdings.apply] at hok ⊢
    cases hcell : (Cell.primitiveArray? kind' items : Except Fault (Cell ω)) with
    | ok cell =>
      obtain ⟨rfl, _⟩ := Cell.primitiveArray?_eq_ok hcell
      exact ⟨_, view_add_place h h.store _ _, List.length_map _⟩
    | error fault =>
      rw [hcell] at hok
      cases hok
  | convert type x =>
    obtain ⟨drafts, hdraft, rfl⟩ := ArgType.exists_of_array? hmakes
    rw [Holdings.apply, hdraft]
    have hlength := (Draft.placeItems_stored h.store drafts).length_eq
    exact ⟨_, view_add_place h (Draft.placeItems h.store drafts).2 kind _, hlength.symm⟩
  | take | clone | set => cases hmakes

/-- Handles of one array show the same. -/
lemma view_congr {m n : Nat} (hsame : h.handles[m]? = h.handles[n]?) : h.view m = h.view n := by
  rw [view, hsame, view]

lemma handles_clone {n : Nat} {id : Identity} (hid : h.handles[n]? = some id) :
    (h.clone n).handles = h.handles ++ [id] := by
  rw [Holdings.clone, hid, Option.toList_some]

/-- **Arrays stay as they are made.**  A program starts with nothing (`sound_empty`), or with a store
that is sound already.  Whatever it has done, arrays of primitives hold primitives of their kind and
nothing else.  Whatever it does then, every array keeps its kind and its length, and those of a new
array are the ones that were asked for.  A clone shows what the handle shows that it is a clone
of. -/
theorem arrays_stay_as_made {start : Holdings ω} (hstart : start.Sound) (past : List (Action ω)) :
    let now := start.run past
    (∀ id kind items, now.store.get? id = some (.array (.primitive kind) items) →
      ∀ item ∈ items, ∃ p, item = .atom (.primitive p) ∧ p.kind = kind) ∧
    ∀ future : List (Action ω),
      (∀ id kind items, now.store.get? id = some (.array kind items) →
        ∃ items', (now.run future).store.get? id = some (.array kind items') ∧
          items'.length = items.length) ∧
      (∀ action kind length, action.makes? = some (kind, length) →
        (now.apply action).1 = .ok () →
        ∃ items, ((now.apply action).2.run future).view now.handles.length = some (kind, items) ∧
          items.length = length) ∧
      ∀ n < now.handles.length,
        let cloned := (now.clone n).run future
        cloned.view now.handles.length = cloned.view n := by
  intro now
  have hsound : now.Sound := (hstart.run past).1
  refine ⟨fun id kind items hget item hitem => ?_, fun future => ⟨?_, ?_, ?_⟩⟩
  · exact ArrayKind.admits_primitive_iff.mp (hsound.homogeneous id _ items hget item hitem)
  · exact (hsound.run future).2.arrays
  · intro action kind length hmakes hok
    obtain ⟨items, hview, rfl⟩ := view_apply hmakes hok
    obtain ⟨hmade, _⟩ := hsound.apply action
    exact (hmade.run future).2.view hmade hview
  · intro n hn cloned
    have hlater : (now.clone n).Evolves cloned := ((hsound.clone n).1.run future).2
    have hhandles : (now.clone n).handles = now.handles ++ [now.handles[n]] :=
      handles_clone (List.getElem?_eq_getElem hn)
    have hold : cloned.handles[n]? = some now.handles[n] := hlater.getElem?_handles <| by
      rw [hhandles, List.getElem?_append_left hn, List.getElem?_eq_getElem hn]
    have hnew : cloned.handles[now.handles.length]? = some now.handles[n] :=
      hlater.getElem?_handles <| by rw [hhandles, List.getElem?_concat_length]
    exact view_congr (hnew.trans hold.symm)

lemma sound_empty : ({} : Holdings ω).Sound := by
  refine ⟨fun id kind items hget => ?_, fun id hid => ?_⟩
  · cases hget
  · cases hid

/-- Bytes widen, and their array is one of the wider kind.  It refuses a text and takes a number
through a clone, and it remains an array of two such numbers for good. -/
theorem arrays_stay_as_made_widened :
    let past : List (Action Datum) :=
      [.convert (.vector 2 (.pointer (.scalar .nat8))) #v[(200 : UInt8), (7 : UInt8)], .clone 0,
        .set 1 0 (.atom (.text "a")), .set 1 0 (.atom (.primitive (.int16 (-1))))]
    let now := ({} : Holdings Datum).run past
    let shown : List (Value Datum) :=
      [.atom (.primitive (.int16 (-1))), .atom (.primitive (.int16 7))]
    now.view 0 = some (.primitive .int16, shown) ∧ now.view 1 = some (.primitive .int16, shown) ∧
      (∀ item ∈ shown, ∃ p, item = .atom (.primitive p) ∧ p.kind = .int16) ∧
      ∀ future, ∃ items, (now.run future).store.get? ⟨0⟩ =
        some (.array (.primitive .int16) items) ∧ items.length = 2 := by
  intro past now shown
  have hget : now.store.get? ⟨0⟩ = some (.array (.primitive .int16) shown) := rfl
  obtain ⟨hhomogeneous, hlater⟩ := arrays_stay_as_made sound_empty past
  exact ⟨rfl, rfl, hhomogeneous _ _ _ hget, fun future => (hlater future).1 _ _ _ hget⟩

/-! ## Setting a slot through a handle -/

section Slot

variable {n : Nat} {id : Identity} {kind : ArrayKind} {items : List (Value ω)} {index : Nat}
  {value : Value ω}

/-- What a slot of an array shows through a handle. -/
lemma get_eq (hid : h.handles[n]? = some id)
    (hget : h.store.get? id = some (.array kind items)) (index : Nat) :
    h.get n index = items[index]? := by
  rw [Holdings.get, hid, Option.bind_some, Store.slot?, Store.array_eq hget]

/-- The three results of setting a slot: the index is looked at only if the value fits. -/
lemma result_set_iff (hid : h.handles[n]? = some id)
    (hget : h.store.get? id = some (.array kind items)) (index : Nat) (value : Value ω) :
    ((h.set n index value).1 = .error (.elementKind kind.name (h.store.describe value)) ↔
        ¬ kind.admits value = true) ∧
      ((h.set n index value).1 = .error (.indexOutOfBounds index items.length) ↔
        kind.admits value = true ∧ ¬ index < items.length) ∧
      ((h.set n index value).1 = .ok () ↔ kind.admits value = true ∧ index < items.length) := by
  rw [set_eq hid hget]
  by_cases hadmits : kind.admits value = true
  · by_cases hindex : index < items.length <;> simp [hadmits, hindex]
  · simp [hadmits]

lemma set_of_result_ne (hid : h.handles[n]? = some id)
    (hget : h.store.get? id = some (.array kind items))
    (hfault : (h.set n index value).1 ≠ .ok ()) : (h.set n index value).2 = h := by
  rw [set_eq hid hget] at hfault ⊢
  split at hfault
  · next hadmits =>
    split at hfault
    · exact absurd rfl hfault
    · next hindex => rw [if_pos hadmits, if_neg hindex]
  · next hadmits => rw [if_neg hadmits]

lemma set_of_result (hid : h.handles[n]? = some id)
    (hget : h.store.get? id = some (.array kind items))
    (hdone : (h.set n index value).1 = .ok ()) :
    index < items.length ∧ (h.set n index value).2 =
      { h with store := h.store.set id (.array kind (items.set index value)) } := by
  obtain ⟨hadmits, hindex⟩ := (result_set_iff hid hget index value).2.2.mp hdone
  exact ⟨hindex, by rw [set_eq hid hget, if_pos hadmits, if_pos hindex]⟩

end Slot

/-- **Setting a slot is all or nothing.**  A value that is not a primitive of the kind of the array
is refused whatever the index is, and any other value if there is no such slot.  A fault changes
nothing, so that every call comes to what it would have come to.  Without a fault one slot changes.
It shows the value through every handle of the array, all other slots and composites are as they
were, and so is every call whose arguments do not lead to the array. -/
theorem set_all_or_nothing [OpaqueValue ω] {n : Nat} {id : Identity} {kind : ArrayKind}
    {items : List (Value ω)} (hid : h.handles[n]? = some id)
    (hget : h.store.get? id = some (.array kind items)) (index : Nat) (value : Value ω) :
    let result := (h.set n index value).1
    let after := (h.set n index value).2
    let misfit := ∃ k, kind = .primitive k ∧ ∀ p, value = .atom (.primitive p) → p.kind ≠ k
    (result = .error (.elementKind kind.name (h.store.describe value)) ↔ misfit) ∧
      (result = .error (.indexOutOfBounds index items.length) ↔
        ¬ misfit ∧ items.length ≤ index) ∧
      (result = .ok () ↔ ¬ misfit ∧ index < items.length) ∧
      (result ≠ .ok () → after = h ∧
        ∀ (c : Config) (call : Invocation ω), c.SameOutcome h.store call after.store call) ∧
      (result = .ok () → after.handles = h.handles ∧
        (∀ other, after.store.get? other =
          if other = id then some (.array kind (items.set index value))
          else h.store.get? other) ∧
        (∀ m, h.handles[m]? = some id → after.get m index = some value ∧
          ∀ i ≠ index, after.get m i = h.get m i) ∧
        ∀ (c : Config) (call : Invocation ω),
          id ∉ h.store.mentioned c.useReflection call.arguments →
          c.SameOutcome h.store call after.store call) := by
  intro result after misfit
  have hmisfit : misfit ↔ ¬ kind.admits value = true := ArrayKind.not_admits_iff.symm
  obtain ⟨hkind, hindex, hok⟩ := result_set_iff hid hget index value
  rw [hmisfit]
  refine ⟨hkind, by simpa using hindex, by simpa using hok, fun hfault => ?_, fun hdone => ?_⟩
  · have hafter : after = h := set_of_result_ne hid hget hfault
    refine ⟨hafter, fun c call => ?_⟩
    rw [hafter]
    exact Config.sameOutcome_of_report_eq rfl
  · obtain ⟨hlt, hafter⟩ := set_of_result hid hget hdone
    have hstore (other : Identity) : after.store.get? other =
        if other = id then some (.array kind (items.set index value))
        else h.store.get? other := by
      rw [show after = _ from hafter]
      exact Store.get?_set_array hget _ other
    have hhandles : after.handles = h.handles := by rw [show after = _ from hafter]
    refine ⟨hhandles, hstore, fun m hm => ?_, fun c call hnot => ?_⟩
    · have hm' : after.handles[m]? = some id := hhandles ▸ hm
      have hnow := (hstore id).trans (if_pos rfl)
      refine ⟨by rw [get_eq hm' hnow, List.getElem?_set_self hlt], fun i hi => ?_⟩
      rw [get_eq hm' hnow, get_eq hm hget, List.getElem?_set_ne hi.symm]
    · rw [show after = _ from hafter]
      exact Config.sameOutcome_set hnot _

/-- The array holds itself and has two handles.  It may be put into its other slot too, which shows
through both; behind its end there is no slot.  An array of numbers does not take it, and there it
does not matter that the index is wrong as well. -/
theorem set_all_or_nothing_knot :
    let knot : Holdings Datum :=
      ({} : Holdings Datum).run
        [.blank 2, .clone 0, .set 0 0 (.ref .array ⟨0⟩), .ofPrimitives .int32 [.int32 1]]
    let tied := knot.set 0 1 (.ref .array ⟨0⟩)
    let refused := knot.set 1 2 (.ref .array ⟨0⟩)
    let unfit := knot.set 2 9 (.ref .array ⟨0⟩)
    tied.1 = .ok () ∧ tied.2.get 0 1 = some (.ref .array ⟨0⟩) ∧
      tied.2.get 1 1 = some (.ref .array ⟨0⟩) ∧ tied.2.get 1 0 = some (.ref .array ⟨0⟩) ∧
      refused.1 = .error (.indexOutOfBounds 2 2) ∧ refused.2 = knot ∧ unfit.1 = .error (.elementKind "int32[]" "value[]") ∧ unfit.2 = knot := by
  intro knot tied refused unfit
  have hget : knot.store.get? ⟨0⟩ = some (.array .reference [.ref .array ⟨0⟩, .atom .null]) := rfl
  have hany : ¬ ∃ k, ArrayKind.reference = .primitive k ∧
      ∀ p, (.ref .array ⟨0⟩ : Value Datum) = .atom (.primitive p) → p.kind ≠ k := nofun
  obtain ⟨-, -, hok, -, hset⟩ := set_all_or_nothing (n := 0) rfl hget 1 (.ref .array ⟨0⟩)
  have htied : tied.1 = .ok () := hok.mpr ⟨hany, by decide⟩
  obtain ⟨-, -, hshown, -⟩ := hset htied
  obtain ⟨-, hbounds, -, hfault, -⟩ := set_all_or_nothing (n := 1) rfl hget 2 (.ref .array ⟨0⟩)
  have hrefused : refused.1 = .error (.indexOutOfBounds 2 2) := hbounds.mpr ⟨hany, by decide⟩
  obtain ⟨hkind, -, -, hunfit, -⟩ := set_all_or_nothing (n := 2) rfl
    (show knot.store.get? ⟨1⟩ = some (.array (.primitive .int32) _) from rfl) 9 (.ref .array ⟨0⟩)
  have hthird : unfit.1 = .error (.elementKind "int32[]" "value[]") := hkind.mpr ⟨_, rfl, nofun⟩
  exact ⟨htied, (hshown 0 rfl).1, (hshown 1 rfl).1, (hshown 1 rfl).2 0 (by decide), hrefused,
    (hfault (by rw [hrefused]; nofun)).1, hthird, (hunfit (by rw [hthird]; nofun)).1⟩

end Holdings

end MemoKey
