import MemoKey.Counters
import MemoKey.Reflect.TypeInfo

/-!
# What outlives a call

A generator keeps two things between calls: the layouts of the types it has met, and its counters.
A layout depends on its type alone, so the cache changes what is counted and never an answer. The
cache may be shared between generators that count on their own.

The cache stands for a map that is taken from elsewhere, made for use by several threads at once.
Three things are asked of it: what it has for a type, to keep a layout unless there is one for its
type, and how many it has. Here they are asked one after the other, and what is relied on are the
laws of a finite map, `LayoutCache.find?_insert` and `LayoutCache.size_insert`. In which order such
a map lists its entries, how it grows and how it is locked plays no part.

* `LayoutCache` holds layouts by type.
* `Session` is a cache together with counters.
* `Session.layout` is the layout of a type, from the cache if it is there.
-/

namespace MemoKey

/-- The layouts that have been computed, by type. -/
structure LayoutCache where
  /-- The types with their layouts. -/
  entries : List (TypeInfo × List Slot)
  /-- What is kept for a type is its layout. -/
  exact : ∀ e ∈ entries, e.2 = e.1.layout

namespace LayoutCache

/-- No layout yet. -/
def empty : LayoutCache :=
  ⟨[], List.forall_mem_nil _⟩

instance : Inhabited LayoutCache := ⟨empty⟩

/-- The layout of a type, if it has been computed. -/
def find? (cache : LayoutCache) (info : TypeInfo) : Option (List Slot) :=
  cache.entries.lookup info

/-- Computes and keeps the layout of a type, unless there is one. -/
def insert (cache : LayoutCache) (info : TypeInfo) : LayoutCache :=
  match cache.find? info with
  | some _ => cache
  | none => {
      entries := (info, info.layout) :: cache.entries
      exact := fun e h => by
        rcases List.mem_cons.mp h with rfl | h
        · rfl
        · exact cache.exact e h }

/-- The number of layouts that have been computed. -/
def size (cache : LayoutCache) : Nat :=
  cache.entries.length

/-- What the cache finds for a type is the layout of the type. -/
theorem eq_layout_of_find? {cache : LayoutCache} {info : TypeInfo} {slots : List Slot}
    (h : cache.find? info = some slots) : slots = info.layout := by
  obtain ⟨before, after, split, _⟩ := List.lookup_eq_some_iff.mp h
  exact cache.exact (info, slots) (by simp [split])

theorem entries_insert {cache : LayoutCache} {info : TypeInfo} (h : cache.find? info = none) :
    (cache.insert info).entries = (info, info.layout) :: cache.entries := by
  rw [insert, h]

/-- What is kept for a type is found for this type, and nothing else changes. -/
theorem find?_insert (cache : LayoutCache) (info other : TypeInfo) :
    (cache.insert info).find? other =
      if other = info then some info.layout else cache.find? other := by
  cases h : cache.find? info with
  | some slots =>
    have hsame : cache.insert info = cache := by rw [insert, h]
    rw [hsame]
    split
    · next heq => rw [heq, h, eq_layout_of_find? h]
    · rfl
  | none =>
    rw [find?, entries_insert h, List.lookup_cons]
    by_cases heq : other = info
    · rw [if_pos heq, beq_iff_eq.mpr heq]
    · rw [if_neg heq, beq_false_of_ne heq]
      rfl

/-- There is one layout more if there was none for the type. -/
theorem size_insert {cache : LayoutCache} {info : TypeInfo} (h : cache.find? info = none) :
    (cache.insert info).size = cache.size + 1 := by
  rw [size, entries_insert h, List.length_cons, size]

end LayoutCache

/-- The state of a generator between calls. -/
structure Session where
  /-- The layouts that have been computed. -/
  layouts : LayoutCache := .empty
  /-- What has been counted. -/
  counters : Counters := {}
  deriving Inhabited

namespace Session

/-- Records an occurrence in the counters. -/
def record (s : Session) (f : Counters → Counters) : Session :=
  { s with counters := f s.counters }

/-- The layout of a type. The first request computes and keeps it, and counts as a miss; every
later one is a hit. -/
def layout (s : Session) (info : TypeInfo) : List Slot × Session :=
  match s.layouts.find? info with
  | some slots => (slots, s.record .recordHit)
  | none =>
    (info.layout, { s.record .recordMiss with layouts := s.layouts.insert info })

/-- The cache changes what is counted and never an answer. -/
@[simp] theorem layout_fst (s : Session) (info : TypeInfo) : (s.layout info).1 = info.layout := by
  unfold layout
  split
  next slots h => exact LayoutCache.eq_layout_of_find? h
  next => rfl

end Session

end MemoKey
