import MemoKey.Proofs.Termination

/-!
# Both kinds of keys agree

A structural key is hashed after it has been built, node by node; a hash key is computed while the
arguments are walked, and nothing is built.  Both are made of the same events, and on the events of
nodes the two ways come to the same number.

* `Config.map_hash_report` is this for the events of a call.
* `Config.hashKey_eq_map_hash` states it for the keys: a call has a hash key exactly if it has a
  structural key, the fault is the same if there is none, and the hash key is the hash of the
  structural key.  So the hash of a cache key does not depend on the kind of the key.
-/

namespace MemoKey

namespace Config

variable {ω : Type} [OpaqueValue ω]

/-- On the events of a call the hash key is the hash of the structural key. -/
lemma map_hash_report (c : Config) (store : Store ω) (call : Invocation ω) :
    (c.report store call).map Hash.ofEvents =
      (c.report store call).map fun events => (StructuralKey.ofEvents events).hash := by
  cases hreport : c.report store call with
  | error halt => rfl
  | ok events =>
    obtain ⟨_, rfl⟩ := report_eq_ok hreport
    have hkey : Hash.ofEvents (Node.itemEvents (c.nodes store call)) =
        (StructuralKey.ofEvents (Node.itemEvents (c.nodes store call))).hash := by
      rw [Hash.ofEvents_itemEvents, StructuralKey.ofEvents_itemEvents]
    exact congrArg Except.ok hkey

/-- The hash of a cache key is the hash key, whatever kind is asked for. -/
lemma map_hash_cacheKey (c : Config) (store : Store ω) (call : Invocation ω) (session : Session) :
    (c.cacheKey store call session).1.map CacheKey.hash =
      (c.report store call).map Hash.ofEvents := by
  rw [cacheKey_fst]
  cases hderivation : c.derivation with
  | structural =>
    rw [map_hash_report]
    cases c.report store call <;> rfl
  | hashCode => cases c.report store call <;> rfl

/-- A call that has a structural key has the hash of this key for a hash key. -/
lemma hashKey_of_structuralKey {c : Config} {store : Store ω} {call : Invocation ω}
    {session : Session} {key : StructuralKey ω}
    (h : (c.structuralKey store call session).1 = .ok key) :
    (c.hashKey store call session).1 = .ok key.hash := by
  rw [structuralKey_fst] at h
  rw [hashKey_fst, map_hash_report]
  cases hreport : c.report store call with
  | error halt => simp [hreport, Except.map] at h
  | ok events =>
    rw [hreport] at h
    cases h
    rfl

/-- A call that has a hash key has a structural key, and the one is the hash of the other. -/
lemma exists_structuralKey_of_hashKey {c : Config} {store : Store ω} {call : Invocation ω}
    {session : Session} {hash : Hash} (h : (c.hashKey store call session).1 = .ok hash) :
    ∃ key, (c.structuralKey store call session).1 = .ok key ∧ key.hash = hash := by
  rw [hashKey_fst, map_hash_report] at h
  rw [structuralKey_fst]
  cases hreport : c.report store call with
  | error halt => simp [hreport, Except.map] at h
  | ok events =>
    rw [hreport] at h
    cases h
    exact ⟨_, rfl, rfl⟩

/-- **Both kinds of keys agree on every call.**  The hash key is the hash of the structural key,
and there is none, for the same reason, where there is no structural key; the sessions in which the
keys are made may differ.  The hash of a cache key is the same for both kinds of keys.  A call is
endless under neither if it is guarded or its graph is acyclic. -/
theorem hashKey_eq_map_hash (c : Config) (store : Store ω) (call : Invocation ω)
    (s s' : Session) :
    (c.hashKey store call s).1 = (c.structuralKey store call s').1.map StructuralKey.hash ∧
    (∀ kind kind' : Derivation,
      (({ c with derivation := kind }).cacheKey store call s).1.map CacheKey.hash =
        (({ c with derivation := kind' }).cacheKey store call s').1.map CacheKey.hash) ∧
    ((c.checkForCycles = true ∨ ∀ v ∈ call.arguments, store.Acyclic c.useReflection v) →
      (c.structuralKey store call s').1 ≠ .error .endless) := by
  refine ⟨?_, ?_, ?_⟩
  · rw [hashKey_fst, structuralKey_fst, map_hash_report]
    cases c.report store call <;> rfl
  · intro kind kind'
    rw [map_hash_cacheKey, map_hash_cacheKey]
    rfl
  · intro hends
    rw [structuralKey_fst]
    cases hreport : c.report store call with
    | error halt =>
      rintro ⟨⟩
      exact report_ne_endless hends hreport
    | ok events => simp [Except.map]

/-- A list that holds itself as a set: both ways of making a key cut it, and come to the same
hash. -/
theorem hashKey_eq_map_hash_knot :
    let c : Config := Config.argumentsOnly
    let call : Invocation Datum := { arguments := [.ref .list ⟨0⟩] }
    let key : StructuralKey Datum := ⟨[.seq .list [.cycle, .map [(.cycle, .atom .null)]]]⟩
    c.checkForCycles = true ∧
      (c.structuralKey Store.knot call {}).1 = .ok key ∧
      (c.hashKey Store.knot call {}).1 = .ok key.hash ∧
      (c.structuralKey Store.knot call {}).1 ≠ .error .endless := by
  intro c call key
  have hcheck : c.checkForCycles = true := rfl
  have hkey : (c.structuralKey Store.knot call {}).1 = .ok key := rfl
  obtain ⟨hhash, _, hends⟩ := hashKey_eq_map_hash c Store.knot call {} {}
  refine ⟨hcheck, hkey, ?_, hends (.inl hcheck)⟩
  rw [hhash, hkey]
  rfl

end Config

end MemoKey
