import MemoKey.Guard
import MemoKey.Reflect.Object
import MemoKey.Store.Basic

/-!
# Walking arguments

A walk visits an argument and everything reachable from it, depth first, and reports each value as
an event. Composites are entered through the guard, so a value that contains itself is cut where
it comes up again. An object is entered like any composite if the walk looks into objects, and is
kept whole otherwise.

No more composites may be open at a time than the store holds. That is no restriction as long as no
composite is entered inside itself, which the guard rules out: a way on which no identity repeats
is no longer than the store is large. Only an unguarded walk over a cyclic graph meets the bound,
and it would have no end without it.

* `Walk` is a walk as a computation: it may halt, and its progress is kept when it does.
* `Walk.value` walks one value, `Walk.values` several in turn.
* `Walk.reachesWhole` tells whether an object could be kept whole.
-/

namespace MemoKey

/-- Why a walk has no result. -/
inductive Halt where
  /-- A fault was met. -/
  | fault (fault : Fault)
  /-- The walk has no end. -/
  | endless
  deriving DecidableEq, Inhabited

/-- What changes in the course of a walk. -/
structure Progress (ω : Type) where
  /-- The composites that are open. -/
  guard : Guard
  /-- The layouts and counters. -/
  session : Session
  /-- The events so far. -/
  events : Array (Event ω)
  deriving Inhabited

/-- A computation that makes progress and may halt. What was reported up to then stays. -/
abbrev Walk (ω : Type) :=
  ExceptT Halt (StateM (Progress ω))

namespace Walk

variable {ω : Type}

/-- Reports an event. -/
def emit (event : Event ω) : Walk ω Unit :=
  modify fun p => { p with events := p.events.push event }

/-- Records an occurrence in the counters. -/
def record (f : Counters → Counters) : Walk ω Unit :=
  modify fun p => { p with session := p.session.record f }

/-- Keeps a value whole. -/
def keep (value : Whole ω) : Walk ω Unit := do
  record .recordWhole
  emit (.whole value)

/-- Takes an object apart. -/
def extract (object : Object ω) : Walk ω (Extract ω) := do
  let p ← get
  let (result, session) := p.session.extract object
  set { p with session }
  match result with
  | .ok fields => return fields
  | .error fault => throw (.fault fault)

/-- Runs a walk and takes a composite off the path afterwards, also if the walk halts. -/
def leaving (id : Identity) (body : Walk ω Unit) : Walk ω Unit :=
  ExceptT.mk do
    let result ← body.run
    modify fun p => { p with guard := p.guard.exit id }
    return result

/-- Enters a composite and runs a walk inside it, or reports that the composite contains itself. -/
def descend (id : Identity) (body : Walk ω Unit) : Walk ω Unit := do
  let p ← get
  match p.guard.enter id with
  | (.cycle, _) =>
    record .recordCycle
    emit .cycle
  | (.first, guard) =>
    set { p with guard }
    leaving id body
  | (.untracked, _) => body

/-- Reports a composite with its parts, each walked in the given way. All fields of an object are
read before any of their values is walked. -/
def contents (visit : Value ω → Walk ω Unit) : Cell ω → Walk ω Unit
  | .seq sequence items => do
    emit (.opens (.seq sequence))
    items.forM visit
    emit .closes
  | .map entries => do
    emit (.opens .map)
    entries.forM fun (key, value) => do
      emit (.opens .entry)
      visit key
      visit value
      emit .closes
    emit .closes
  | .object object => do
    let fields ← extract object
    record .recordObject
    emit (.opens (.object fields.type fields.names))
    fields.values.forM visit
    emit .closes

/-- Walks a value with at most `limit` composites open around its parts. A reference to nothing
counts as absent. -/
def value (store : Store ω) (reflect : Bool) (limit : Nat) : Value ω → Walk ω Unit
  | .atom atom => emit (.atom atom)
  | .whole opaqueValue => keep (.value opaqueValue)
  | .ref shape id =>
    match store.deref? (.ref shape id) with
    | none => emit (.atom .null)
    | some cell =>
      if cell.isObject && !reflect then keep (.object id)
      else
        descend id <|
          match limit with
          | 0 => throw .endless
          | limit + 1 => contents (value store reflect limit) cell

/-- Walks values one after the other, within the bound that the store sets. -/
def values (store : Store ω) (reflect : Bool) (vs : List (Value ω)) : Walk ω Unit :=
  vs.forM (value store reflect store.size)

/-- Whether an object that a walk would keep whole can be reached from values. All that can be
reached is walked, because the path is empty at first. -/
def reachesWhole (store : Store ω) (reflect : Bool) (vs : List (Value ω)) : Bool :=
  ((values store reflect vs).run ⟨Guard.empty true, {}, #[]⟩).2.events.any (·.keepsObject)

end Walk

end MemoKey
