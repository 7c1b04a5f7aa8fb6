import MemoKey.Invocation
import MemoKey.Key.Cache
import MemoKey.Walk

/-!
# Making keys

A key is made from the events of one call: the parts of the signature first, then the walk over
the arguments. The signature is looked at before anything else, so a call that lacks one changes
nothing. Every call starts with a fresh guard; only layouts and counters outlive it, and a key is
counted once it is complete.

* `Config.events` lists the events of a call.
* `Config.structuralKey`, `Config.hashKey` and `Config.cacheKey` make the keys.
-/

namespace MemoKey

namespace Config

variable {ω : Type}

/-- The events of a call, or why there are none, and what the call leaves behind. -/
def events (c : Config) (store : Store ω) (call : Invocation ω) (session : Session) :
    Except Halt (List (Event ω)) × Session :=
  match c.signatureEvents call.signature with
  | .error fault => (.error (.fault fault), session)
  | .ok head =>
    let start : Progress ω := ⟨Guard.empty c.checkForCycles, session, head.toArray⟩
    match (Walk.values store c.useReflection call.arguments).run start with
    | (.error halt, p) => (.error halt, p.session)
    | (.ok (), p) => (.ok p.events.toList, p.session.record .recordKey)

/-- The structural key of a call. -/
def structuralKey (c : Config) (store : Store ω) (call : Invocation ω) (session : Session) :
    Except Halt (StructuralKey ω) × Session :=
  (c.events store call session).map (·.map StructuralKey.ofEvents) id

variable [OpaqueValue ω]

/-- The hash key of a call. -/
def hashKey (c : Config) (store : Store ω) (call : Invocation ω) (session : Session) :
    Except Halt Hash × Session :=
  (c.events store call session).map (·.map Hash.ofEvents) id

/-- The key of a call, of the kind that the configuration names. -/
def cacheKey (c : Config) (store : Store ω) (call : Invocation ω) (session : Session) :
    Except Halt (CacheKey ω) × Session :=
  (c.events store call session).map (·.map (CacheKey.ofEvents c.derivation)) id

end Config

end MemoKey
