import MemoKey.Value

/-!
# Stores of composites

A store holds the composites of a program by identity. They may refer to each other in any way. A
new one gets an identity that no other has, and what is held under an identity may be replaced.

* `Store.get?` is what is held under an identity, `Store.deref?` is what a reference shows of it.
* `Store.alloc` adds a composite, `Store.set` replaces one. `Store.get?_alloc`, `Store.get?_set` and
  `Store.deref?_set` say what is there afterwards.
* `Store.place` adds a composite and refers to it.
-/

namespace MemoKey

/-- Composites by identity. -/
structure Store (ω : Type) where
  /-- The contents with their identities. -/
  contents : List (Identity × Content ω) := []
  /-- An address above all that are in use. -/
  next : Nat := 0
  /-- Identities in use lie below the next one. -/
  addr_lt_next : ∀ c ∈ contents, c.1.addr < next := by simp

namespace Store

variable {ω : Type}

instance : Inhabited (Store ω) := ⟨{}⟩

/-- The number of composites. -/
def size (store : Store ω) : Nat :=
  store.contents.length

/-- What is held under an identity. -/
def get? (store : Store ω) (id : Identity) : Option (Content ω) :=
  store.contents.lookup id

/-- Adds a composite under a new identity. -/
def alloc (store : Store ω) (content : Content ω) : Identity × Store ω :=
  let id : Identity := ⟨store.next⟩
  (id, {
    contents := (id, content) :: store.contents
    next := store.next + 1
    addr_lt_next := fun c h => by
      rcases List.mem_cons.mp h with rfl | h
      · exact Nat.lt_succ_self _
      · exact Nat.lt_succ_of_lt (store.addr_lt_next c h) })

/-- Replaces what is held under an identity. -/
def set (store : Store ω) (id : Identity) (content : Content ω) : Store ω where
  contents := store.contents.map fun c => (c.1, if c.1 = id then content else c.2)
  next := store.next
  addr_lt_next := fun c h => by
    obtain ⟨d, hd, rfl⟩ := List.mem_map.mp h
    exact store.addr_lt_next d hd

/-- The composite that a value refers to. -/
def deref? (store : Store ω) : Value ω → Option (Cell ω)
  | .ref shape id => (store.get? id).bind (Content.as? shape)
  | _ => none

/-- Adds a composite and refers to it. -/
def place (store : Store ω) (cell : Cell ω) : Value ω × Store ω :=
  let (id, store) := store.alloc cell.content
  (.ref cell.shape id, store)

/-- References show what is held under their identity if it has their shape. -/
theorem deref?_ref_eq_some_iff {store : Store ω} {shape : Shape} {id : Identity} {cell : Cell ω} :
    store.deref? (.ref shape id) = some cell ↔
      shape = cell.shape ∧ store.get? id = some cell.content := by
  rw [deref?, Option.bind_eq_some_iff]
  constructor
  · rintro ⟨content, hget, hcell⟩
    obtain ⟨rfl, rfl⟩ := Content.as?_eq_some_iff.mp hcell
    exact ⟨rfl, hget⟩
  · rintro ⟨rfl, hget⟩
    exact ⟨cell.content, hget, Content.as?_eq_some_iff.mpr ⟨rfl, rfl⟩⟩

theorem deref?_congr {store other : Store ω} (shape : Shape) {id : Identity}
    (h : store.get? id = other.get? id) :
    store.deref? (.ref shape id) = other.deref? (.ref shape id) := by
  rw [deref?, deref?, h]

/-- What is new stands under the next address, and all else stands where it stood. -/
theorem get?_alloc (store : Store ω) (content : Content ω) (id : Identity) :
    (store.alloc content).2.get? id =
      if id = ⟨store.next⟩ then some content else store.get? id := by
  simp only [alloc, get?, List.lookup_cons]
  split
  · next h => simp [beq_iff_eq.mp h]
  · next h => simp [beq_eq_false_iff_ne.mp h]

/-- Only what is replaced is another, and only if there was something. -/
theorem get?_set (store : Store ω) (id other : Identity) (content : Content ω) :
    (store.set id content).get? other =
      if other = id then (store.get? id).map fun _ => content else store.get? other := by
  change (store.contents.map fun c => (c.1, if c.1 = id then content else c.2)).lookup other =
    if other = id then (store.contents.lookup id).map fun _ => content
    else store.contents.lookup other
  induction store.contents with
  | nil => simp
  | cons c rest ih =>
    rw [List.map_cons, List.lookup_cons, List.lookup_cons, List.lookup_cons, ih]
    by_cases hother : other = c.1 <;> by_cases hid : id = c.1 <;> grind

/-- What is replaced is so for all references to it, whatever they take it for. -/
theorem deref?_set (store : Store ω) (id other : Identity) (content : Content ω) (shape : Shape) :
    (store.set id content).deref? (.ref shape other) =
      if other = id then (store.get? id).bind fun _ => content.as? shape
      else store.deref? (.ref shape other) := by
  rw [deref?, get?_set]
  split
  · rw [Option.bind_map]
    rfl
  · rfl

end Store

end MemoKey
