/-!
# Counters

What a generator has done so far, as 64-bit counts that wrap.

* `Counters` holds the counts, and one function for each of them records an occurrence.
* `Counters.hitRate` is the share of layouts that were found in the cache.
-/

namespace MemoKey

/-- The counts of a generator. -/
structure Counters where
  /-- Keys that were completed. -/
  keys : UInt64 := 0
  /-- Values that were cut because they contain themselves. -/
  cycles : UInt64 := 0
  /-- Objects that were taken apart into their fields. -/
  objects : UInt64 := 0
  /-- Values that were kept whole. -/
  wholes : UInt64 := 0
  /-- Layouts that were found in the cache. -/
  hits : UInt64 := 0
  /-- Layouts that had to be computed. -/
  misses : UInt64 := 0
  deriving DecidableEq, Inhabited

namespace Counters

def recordKey (c : Counters) : Counters := { c with keys := c.keys + 1 }

def recordCycle (c : Counters) : Counters := { c with cycles := c.cycles + 1 }

def recordObject (c : Counters) : Counters := { c with objects := c.objects + 1 }

def recordWhole (c : Counters) : Counters := { c with wholes := c.wholes + 1 }

def recordHit (c : Counters) : Counters := { c with hits := c.hits + 1 }

def recordMiss (c : Counters) : Counters := { c with misses := c.misses + 1 }

/-- The share of layouts that were found in the cache: zero as long as none was asked for. -/
def hitRate (c : Counters) : Float :=
  if c.hits + c.misses = 0 then 0.0 else c.hits.toFloat / (c.hits + c.misses).toFloat

end Counters

end MemoKey
