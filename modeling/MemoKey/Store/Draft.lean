import MemoKey.Store.Basic

/-!
# Drafts

A draft is a composite that has no identity yet: the tree of what is to be put into a store. Every
composite of the tree gets a new identity when it is placed, parts before wholes.

* `Draft` is the tree.
* `Draft.place` puts it into a store.
-/

namespace MemoKey

/-- A value that is yet to be placed. -/
inductive Draft (ω : Type) where
  /-- A value that exists already. -/
  | stored (value : Value ω)
  | seq (sequence : Sequence) (items : List (Draft ω))
  | map (entries : List (Draft ω × Draft ω))
  /-- An object with a table of the slots that can be read. -/
  | object (type : TypeInfo) (fields : List (Slot × Draft ω))
  deriving Inhabited

namespace Draft

variable {ω : Type}

/-- The absent value. -/
abbrev null : Draft ω :=
  .stored .null

mutual

/-- Puts a draft into a store. -/
def place (store : Store ω) : Draft ω → Value ω × Store ω
  | stored value => (value, store)
  | seq sequence items =>
    let (values, store) := placeItems store items
    store.place (.seq sequence values)
  | map entries =>
    let (values, store) := placeEntries store entries
    store.place (.map values)
  | object type fields =>
    let (values, store) := placeFields store fields
    store.place (.object ⟨type, fun slot => values.lookup slot⟩)

/-- Puts a list of drafts into a store, in order. -/
def placeItems (store : Store ω) : List (Draft ω) → List (Value ω) × Store ω
  | [] => ([], store)
  | draft :: rest =>
    let (value, store) := place store draft
    let (values, store) := placeItems store rest
    (value :: values, store)

/-- Puts a list of entries into a store, in order, each key before its value. -/
def placeEntries (store : Store ω) :
    List (Draft ω × Draft ω) → List (Value ω × Value ω) × Store ω
  | [] => ([], store)
  | (key, value) :: rest =>
    let (key, store) := place store key
    let (value, store) := place store value
    let (values, store) := placeEntries store rest
    ((key, value) :: values, store)

/-- Puts the fields of an object into a store, in order. -/
def placeFields (store : Store ω) : List (Slot × Draft ω) → List (Slot × Value ω) × Store ω
  | [] => ([], store)
  | (slot, draft) :: rest =>
    let (value, store) := place store draft
    let (values, store) := placeFields store rest
    ((slot, value) :: values, store)

end

end Draft

end MemoKey
