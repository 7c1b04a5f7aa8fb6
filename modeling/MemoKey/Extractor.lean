import MemoKey.Pool

/-!
# An extractor and those who use it

An extractor looks up layouts in a cache that all its users share, while each of them counts on its
own. A program may ask it for the layout of a type or for the values of an object, and a generator
that it was given to asks it whenever it makes a key.

Users are known by numbers. A user that is a generator makes one kind of keys under one
configuration, but nothing here depends on that.

* `Inquiry` is one use of an extractor, `Reply` what comes of it, and `Session.serve` serves it.
* `Extractor` is the cache with the counters of all users.
* `Extractor.ask` is one use by one user, `Extractor.run` several in turn.
-/

namespace MemoKey

variable {ω : Type}

/-- One use of an extractor. -/
inductive Inquiry (ω : Type) where
  /-- The layout of a type is asked for. -/
  | layout (info : TypeInfo)
  /-- An object is taken apart. -/
  | extract (object : Object ω)
  /-- A generator makes the key of a call over a store. -/
  | key (kind : Derivation) (config : Config) (store : Store ω) (call : Invocation ω)

/-- What comes of one use of an extractor. -/
inductive Reply (ω : Type) where
  | layout (slots : List Slot)
  | extract (result : Except Fault (Extract ω))
  | key (result : Except Halt (CacheKey ω))

/-- Serves one use with a cache and counters. -/
def Session.serve [OpaqueValue ω] (s : Session) : Inquiry ω → Reply ω × Session
  | .layout info => (s.layout info).map .layout id
  | .extract object => (s.extract object).map .extract id
  | .key kind config store call =>
    let generator : Generator := { kind, config, cache := 0, counters := s.counters }
    (generator.answer store s.layouts call).map .key id

/-- A cache of layouts, and what each of its users has counted. -/
structure Extractor where
  /-- The layouts that have been computed. -/
  layouts : LayoutCache := .empty
  /-- The counters by the number of the user. -/
  counters : Nat → Counters := fun _ => {}
  deriving Inhabited

namespace Extractor

/-- What one user works with. -/
def session (e : Extractor) (who : Nat) : Session :=
  ⟨e.layouts, e.counters who⟩

/-- Takes over what one user has left. -/
def update (e : Extractor) (who : Nat) (s : Session) : Extractor where
  layouts := s.layouts
  counters := fun n => if n = who then s.counters else e.counters n

variable [OpaqueValue ω]

/-- One use by one user. -/
def ask (e : Extractor) (who : Nat) (inquiry : Inquiry ω) : Reply ω × Extractor :=
  let (reply, session) := (e.session who).serve inquiry
  (reply, e.update who session)

/-- Several uses in turn, each by the user with the given number. -/
def run (e : Extractor) : List (Nat × Inquiry ω) → List (Reply ω) × Extractor
  | [] => ([], e)
  | (who, inquiry) :: rest =>
    let (reply, e) := e.ask who inquiry
    let (replies, e) := e.run rest
    (reply :: replies, e)

end Extractor

end MemoKey
