import MemoKey.Event

/-!
# Hash keys

The combiner makes a hash out of events without building anything. Every open composite owns an
accumulator, and closing it takes its hash into the accumulator of its parent. A primitive array
first puts the tag of its kind into the parent, so that empty arrays of different kinds differ.

* `Combiner` is the state: the accumulators of the open composites, innermost first.
* `Combiner.feed` takes one event, `Combiner.ofEvents` a list of them.
* `Combiner.finish` is the hash of what stands at the top level.
-/

namespace MemoKey

/-- The accumulators of a hash in the making. -/
structure Combiner where
  /-- The accumulator of the innermost open composite, or of the top level. -/
  current : Hash
  /-- The accumulators of the composites around it, innermost first; the last one is the top
  level's. -/
  outer : List Hash
  deriving DecidableEq, Inhabited

namespace Combiner

variable {ω : Type} [OpaqueValue ω]

/-- No event yet. -/
def start : Combiner :=
  ⟨Hash.seed, []⟩

/-- The number of open composites. -/
def depth (c : Combiner) : Nat :=
  c.outer.length

/-- Takes one word into the innermost accumulator. -/
def take (c : Combiner) (word : Hash) : Combiner :=
  { c with current := Hash.step c.current word }

/-- Opens a composite. -/
def enter (c : Combiner) (composite : Composite) : Combiner :=
  ⟨Hash.ofList composite.heading, Hash.extend c.current composite.tags :: c.outer⟩

/-- Closes the innermost composite. At the top level there is nothing to close. -/
def leave (c : Combiner) : Combiner :=
  match c.outer with
  | [] => c
  | parent :: rest => ⟨Hash.step parent c.current, rest⟩

/-- Takes one event. -/
def feed (c : Combiner) : Event ω → Combiner
  | .atom value => c.take value.contribution
  | .whole value => c.take value.contribution
  | .cycle => c.take Hash.absent
  | .opens composite => c.enter composite
  | .closes => c.leave

/-- The state after a list of events. -/
def ofEvents (events : List (Event ω)) : Combiner :=
  events.foldl feed start

/-- The hash at the top level. Composites that are still open have no part in it, apart from the
tags they put there. -/
def finish (c : Combiner) : Hash :=
  c.outer.getLast?.getD c.current

end Combiner

end MemoKey
