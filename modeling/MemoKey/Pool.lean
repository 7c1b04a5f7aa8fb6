import MemoKey.Generator

/-!
# Generators side by side

A program may have several generators. Each has a configuration and makes one kind of keys; each
counts on its own, and looks layouts up in a cache that it may share with others. They all see the
same store, which changes while they work.

A generator is known by its number: the first one that is built is number zero. Each starts with an
empty cache under its own number, and may be given the cache of another one at any time.

* `Generator` is a generator, `Generator.answer` its answer to a call.
* `Pool` is all that there is at a time, `Pool.ask` asks a generator for a key.
* `Operation` is one thing that a program may do, `Pool.apply` does it, and `Pool.run` does several
  and keeps the answers.
-/

namespace MemoKey

variable {ω : Type}

/-- A generator. -/
structure Generator where
  /-- The kind of the keys. The one that the configuration names need not be it. -/
  kind : Derivation
  config : Config
  /-- The number of the cache that layouts are looked up in. -/
  cache : Nat
  /-- What the generator has done so far. -/
  counters : Counters := {}
  deriving Inhabited

/-- The answer of a generator to a call, and what it leaves in the cache and on the counters. -/
def Generator.answer [OpaqueValue ω] (g : Generator) (store : Store ω) (layouts : LayoutCache)
    (call : Invocation ω) : Except Halt (CacheKey ω) × Session :=
  match g.kind with
  | .structural =>
    (g.config.structuralKey store call ⟨layouts, g.counters⟩).map (·.map .structural) id
  | .hashCode => (g.config.hashKey store call ⟨layouts, g.counters⟩).map (·.map .hashCode) id

/-- One thing that a program may do. -/
inductive Operation (ω : Type) where
  /-- A generator is built, for keys of a kind. -/
  | build (kind : Derivation) (config : Config)
  /-- A generator is given the cache of another one. -/
  | share (who other : Nat)
  /-- Composites are made, changed or dropped. -/
  | change (store : Store ω)
  /-- A generator is asked for the key of a call, which need not have a signature. -/
  | ask (who : Nat) (call : Invocation ω)

/-- The kind and the configuration of the generator that an operation builds. -/
def Operation.built? : Operation ω → Option (Derivation × Config)
  | build kind config => some (kind, config)
  | _ => none

/-- What a generator has answered. -/
structure Answer (ω : Type) where
  /-- The number of the generator. -/
  who : Nat
  result : Except Halt (CacheKey ω)

/-- Generators with their caches, and the store that arguments live in. -/
structure Pool (ω : Type) where
  store : Store ω := default
  /-- The generators by number. -/
  generators : List Generator := []
  /-- The caches by number. -/
  caches : Nat → LayoutCache := fun _ => .empty

namespace Pool

instance : Inhabited (Pool ω) := ⟨{}⟩

/-- One more generator. -/
def build (p : Pool ω) (kind : Derivation) (config : Config) : Pool ω :=
  { p with generators := p.generators ++ [{ kind, config, cache := p.generators.length }] }

/-- A pool with a single generator that nobody has asked for anything. -/
def fresh (store : Store ω) (kind : Derivation) (config : Config) : Pool ω :=
  build { store } kind config

/-- One generator gets the cache of another one. -/
def share (p : Pool ω) (who other : Nat) : Pool ω :=
  match p.generators[other]? with
  | some source =>
    { p with generators := p.generators.modify who fun g => { g with cache := source.cache } }
  | none => p

variable [OpaqueValue ω]

/-- Asks a generator for the key of a call. There is no answer only if there is no generator of that
number. -/
def ask (p : Pool ω) (who : Nat) (call : Invocation ω) : Option (Answer ω) × Pool ω :=
  match p.generators[who]? with
  | none => (none, p)
  | some g =>
    let (result, session) := g.answer p.store (p.caches g.cache) call
    (some ⟨who, result⟩,
      { p with
        generators := p.generators.set who { g with counters := session.counters }
        caches := fun n => if n = g.cache then session.layouts else p.caches n })

/-- Does one thing. -/
def apply (p : Pool ω) : Operation ω → Option (Answer ω) × Pool ω
  | .build kind config => (none, p.build kind config)
  | .share who other => (none, p.share who other)
  | .change store => (none, { p with store })
  | .ask who call => p.ask who call

/-- Does several things in turn, and keeps the answers in order. -/
def run (p : Pool ω) : List (Operation ω) → List (Answer ω) × Pool ω
  | [] => ([], p)
  | op :: rest =>
    let (answer, p) := p.apply op
    let (answers, p) := p.run rest
    (answer.toList ++ answers, p)

end Pool

end MemoKey
