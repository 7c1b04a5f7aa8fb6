import MemoKey.Config.Basic
import MemoKey.Key.Assembly

/-!
# Keys of either kind

A cache key is a structural key or a hash key. Keys of different kinds are never equal.

* `CacheKey` is the key, `CacheKey.hash` its hash.
* `CacheKey.ofEvents` makes a key of the kind that is asked for.
* `CacheKey.Builder` makes a key of either kind event by event, `CacheKey.finish_foldl_feed` says
  that both ways agree.
-/

namespace MemoKey

/-- A key of either kind. -/
inductive CacheKey (ω : Type) where
  | structural (key : StructuralKey ω)
  | hashCode (hash : Hash)
  deriving Inhabited

namespace CacheKey

variable {ω : Type} [OpaqueValue ω]

/-- The hash of a key, whatever its kind. -/
def hash : CacheKey ω → Hash
  | structural key => key.hash
  | hashCode hash => hash

/-- Equality of keys of the same kind. -/
def same : CacheKey ω → CacheKey ω → Bool
  | structural key, structural other => key.same other
  | hashCode hash, hashCode other => hash == other
  | _, _ => false

instance : BEq (CacheKey ω) := ⟨same⟩

/-- The key of a list of events. -/
def ofEvents (derivation : Derivation) (events : List (Event ω)) : CacheKey ω :=
  match derivation with
  | .structural => structural (StructuralKey.ofEvents events)
  | .hashCode => hashCode (Hash.ofEvents events)

/-- A key of either kind in the making. -/
inductive Builder (ω : Type) where
  | structural (assembly : Assembly ω)
  | hashCode (combiner : Combiner)
  deriving Inhabited

namespace Builder

/-- No event yet. -/
def start : Derivation → Builder ω
  | .structural => structural .start
  | .hashCode => hashCode .start

/-- Takes one event. -/
def feed : Builder ω → Event ω → Builder ω
  | structural assembly, event => structural (assembly.feed event)
  | hashCode combiner, event => hashCode (combiner.feed event)

/-- The key of what stands at the top level. -/
def finish : Builder ω → CacheKey ω
  | structural assembly => .structural assembly.finish
  | hashCode combiner => .hashCode combiner.finish

theorem foldl_feed_structural (assembly : Assembly ω) (events : List (Event ω)) :
    events.foldl feed (structural assembly) = structural (events.foldl Assembly.feed assembly) := by
  induction events generalizing assembly with
  | nil => rfl
  | cons event rest ih => exact ih (assembly.feed event)

theorem foldl_feed_hashCode (combiner : Combiner) (events : List (Event ω)) :
    events.foldl feed (hashCode combiner) = hashCode (events.foldl Combiner.feed combiner) := by
  induction events generalizing combiner with
  | nil => rfl
  | cons event rest ih => exact ih (combiner.feed event)

end Builder

/-- A builder makes the key of the events that it was fed. -/
theorem finish_foldl_feed (derivation : Derivation) (events : List (Event ω)) :
    (events.foldl Builder.feed (.start derivation)).finish = ofEvents derivation events := by
  cases derivation with
  | structural => exact congrArg Builder.finish (Builder.foldl_feed_structural _ events)
  | hashCode => exact congrArg Builder.finish (Builder.foldl_feed_hashCode _ events)

end CacheKey

end MemoKey
