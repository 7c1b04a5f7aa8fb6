import MemoKey.Identity

/-!
# Guards against cycles

A guard knows the composites that are open on the way from an argument to the value at hand. Only
a value that lies on its own way is a cycle; one that is met again beside it is walked again. A
disabled guard knows nothing and reports nothing.

* `Guard.enter` and `Guard.exit` keep the path.
* `Visit` is what entering finds.
-/

namespace MemoKey

/-- What entering a composite finds. -/
inductive Visit where
  /-- The composite was not on the path and now is. -/
  | first
  /-- The composite is on the path: it contains itself. -/
  | cycle
  /-- The guard is disabled. -/
  | untracked
  deriving DecidableEq, Inhabited

/-- The name of a finding. -/
def Visit.name : Visit → String
  | first => "first"
  | cycle => "cycle"
  | untracked => "untracked"

/-- The composites on the way to the value at hand. -/
structure Guard where
  /-- Their identities, innermost first. -/
  path : List Identity
  /-- Whether cycles are looked for. -/
  enabled : Bool
  deriving DecidableEq, Inhabited

namespace Guard

/-- A guard with an empty path. -/
def empty (enabled : Bool) : Guard :=
  ⟨[], enabled⟩

/-- The number of composites on the path. -/
def depth (g : Guard) : Nat :=
  g.path.length

/-- Whether a composite is on the path. -/
def contains (g : Guard) (id : Identity) : Bool :=
  g.path.contains id

/-- Enters a composite: puts it on the path unless it is there. -/
def enter (g : Guard) (id : Identity) : Visit × Guard :=
  if !g.enabled then (.untracked, g)
  else if g.contains id then (.cycle, g)
  else (.first, { g with path := id :: g.path })

/-- Leaves a composite: takes it off the path. -/
def exit (g : Guard) (id : Identity) : Guard :=
  { g with path := g.path.erase id }

section

variable {g : Guard} {id : Identity}

theorem enter_of_disabled (h : g.enabled = false) : g.enter id = (.untracked, g) := by
  simp [enter, h]

theorem enter_of_mem (h : g.enabled = true) (hid : id ∈ g.path) : g.enter id = (.cycle, g) := by
  simp [enter, contains, h, hid]

theorem enter_of_notMem (h : g.enabled = true) (hid : id ∉ g.path) :
    g.enter id = (.first, { g with path := id :: g.path }) := by
  simp [enter, contains, h, hid]

/-- Leaving undoes entering. -/
@[simp] theorem exit_cons (path : List Identity) (enabled : Bool) :
    exit ⟨id :: path, enabled⟩ id = ⟨path, enabled⟩ := by
  simp [exit]

end

end Guard

end MemoKey
