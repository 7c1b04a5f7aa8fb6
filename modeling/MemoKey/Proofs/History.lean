import MemoKey.Pool
import MemoKey.Proofs.Renaming

/-!
# Generators have no memory

A generator keeps layouts and counts from one call to the next, may share the layouts with other
generators, and may have failed half-way through a walk.  None of this shows in an answer.

## What an answer depends on

* `Generator.answer_eq` says what a generator answers: the session takes no part.
* `Store.SameContents` says that two stores hold the same for some values.  What else there is in
  the stores does not matter, not even how large they are (`Config.report_eq_of_sameContents`).

## Histories

`Pool.designs` are the generators of a pool without their states.  Building adds one and nothing
changes any (`designs_run`), and they determine every answer together with the store
(`ask_fst`).  The main statement is `Pool.ask_after_eq_ask_fresh`.
-/

namespace MemoKey

variable {ω : Type}

/-- A generator answers with the key of what the call reports. -/
lemma Generator.answer_eq [OpaqueValue ω] (g : Generator) (store : Store ω) (layouts : LayoutCache)
    (call : Invocation ω) :
    g.answer store layouts call =
      ((g.config.report store call).map (CacheKey.ofEvents g.kind),
        g.config.sessionAfter store call ⟨layouts, g.counters⟩) := by
  obtain ⟨kind, c, cache, counters⟩ := g
  cases kind <;> simp only [answer, Config.structuralKey, Config.hashKey, Config.events_eq] <;>
    cases c.report store call <;> rfl

/-! ## Stores with the same contents -/

namespace Store

variable {s t : Store ω} {reflect : Bool} {vs : List (Value ω)}

/-- Two stores hold the same for some values: every reference that can be reached is to nothing in
both, or to composites with the same heading, the same parts and the same slots that cannot be
read. -/
def SameContents (s t : Store ω) (reflect : Bool) (vs : List (Value ω)) : Prop :=
  ∀ v ∈ s.reached reflect vs, Option.Rel (Cell.Matches Eq) (s.deref? v) (t.deref? v)

lemma sameContents_of_get?_eq (h : ∀ id ∈ s.mentioned reflect vs, s.get? id = t.get? id) :
    s.SameContents t reflect vs := by
  intro v hv
  have hsame : t.deref? v = s.deref? v := by
    cases v with
    | atom | whole => rfl
    | ref shape id => exact deref?_congr shape (h id ⟨shape, hv⟩).symm
  rw [hsame]
  cases s.deref? v with
  | none => exact .none
  | some cell => exact .some (Cell.matches_self fun _ _ => rfl)

/-- Two walks stand at one value below one path, and the value can be reached. -/
def Together (s : Store ω) (reflect : Bool) (vs : List (Value ω)) (g : Guard) (v : Value ω)
    (g' : Guard) (w : Value ω) : Prop :=
  g' = g ∧ w = v ∧ v ∈ s.reached reflect vs

lemma SameContents.inStep (h : s.SameContents t reflect vs) {g g' : Guard} {v w : Value ω}
    (hplace : Together s reflect vs g v g' w) :
    Walk.InStep Act.event? s t reflect (Together s reflect vs) g v g' w := by
  obtain ⟨rfl, rfl, hw⟩ := hplace
  cases w with
  | atom b => exact .atom rfl rfl
  | whole x => exact .whole rfl rfl
  | ref shape id =>
    have hcell := h _ hw
    generalize hfound : s.deref? (.ref shape id) = found,
      hfound' : t.deref? (.ref shape id) = found' at hcell
    cases hcell with
    | none => exact .atom (a := .null) (by rw [sight, hfound]) (by rw [sight, hfound'])
    | @some cell cell' hmatches =>
      have hobject : cell.isObject = cell'.isObject :=
        Cell.isObject_eq_of_heading_eq hmatches.heading
      cases hkept : cell.isObject && !reflect with
      | true =>
        have hkept' : (cell'.isObject && !reflect) = true := by rwa [← hobject]
        exact .whole (x := .object id) (by simp [sight, hfound, hkept])
          (by simp [sight, hfound', hkept'])
      | false =>
        have hsight : s.sight reflect (.ref shape id) = .composite id cell := by
          simp [sight, hfound, hkept]
        have hsight' : t.sight reflect (.ref shape id) = .composite id cell' := by
          rw [hobject] at hkept
          simp [sight, hfound', hkept]
        cases hcut : g'.cuts id with
        | true => exact .cut hsight hcut hsight' hcut
        | false =>
          refine .inside hsight hcut hsight' hcut (by simp [Act.event?]) ?_
          refine hmatches.mono fun part hpart part' _ hsame => ⟨rfl, hsame.symm, ?_⟩
          exact reached_of_contains hw ⟨id, cell, hsight, hpart⟩

end Store

/-- Calls report the same over stores that hold the same for their arguments. -/
lemma Config.report_eq_of_sameContents {c : Config} {s t : Store ω} {call : Invocation ω}
    (h : s.SameContents t c.useReflection call.arguments) : c.report s call = c.report t call := by
  refine report_eq_of_forall_limit rfl fun limit => List.forall₂_same.mpr fun v hv => ?_
  have hstart : Store.Together s c.useReflection call.arguments (Guard.empty c.checkForCycles) v
      (Guard.empty c.checkForCycles) v := ⟨rfl, rfl, v, hv, .refl⟩
  exact Walk.seen_trace_eq Act.pathBlind_event? (fun _ _ _ _ hplace => h.inStep hplace) limit hstart

/-! ## Histories -/

/-- A drawer with a handle, which is as given. -/
def Store.drawer (handle : Option (Value ω)) : Store ω where
  contents :=
    [(⟨0⟩, .object
        { type := .root ⟨0, ⟨"Drawer"⟩, [{ name := "handle" }]⟩
          read := fun _ => handle })]
  next := 1

lemma Store.eq_of_mem_mentioned_drawer {a : Atom} {reflect : Bool} {id : Identity}
    (h : id ∈ (Store.drawer (some (.atom a)) : Store ω).mentioned reflect [.ref .object ⟨0⟩]) :
    id = ⟨0⟩ := by
  have hdescending : (Store.drawer (some (.atom a)) : Store ω).Descending := by
    simp [Descending, drawer, Content.parts, Object.parts, Value.identity?]
  obtain ⟨shape, v, hv, hreaches⟩ := h
  obtain rfl : v = .ref .object ⟨0⟩ := by simpa using hv
  rcases Relation.reflTransGen_iff_eq_or_transGen.mp hreaches with heq | hinside
  · cases heq
    rfl
  · have hlower := hdescending.addr_lt_of_transGen hinside rfl
    simp at hlower

namespace Pool

/-- The kinds and the configurations of the generators. -/
def designs (p : Pool ω) : List (Derivation × Config) :=
  p.generators.map fun g => (g.kind, g.config)

lemma designs_build (p : Pool ω) (kind : Derivation) (config : Config) :
    (p.build kind config).designs = p.designs ++ [(kind, config)] := by
  simp [designs, build]

lemma designs_share (p : Pool ω) (who other : Nat) : (p.share who other).designs = p.designs := by
  unfold share
  cases p.generators[other]? with
  | none => rfl
  | some source =>
    refine List.ext_getElem? fun n => ?_
    simp only [designs, List.getElem?_map, List.getElem?_modify]
    cases p.generators[n]? <;> by_cases hn : who = n <;> simp [hn]

variable [OpaqueValue ω]

lemma designs_ask (p : Pool ω) (who : Nat) (call : Invocation ω) :
    (p.ask who call).2.designs = p.designs := by
  unfold ask
  cases hg : p.generators[who]? with
  | none => rfl
  | some g =>
    refine List.ext_getElem? fun n => ?_
    simp only [designs, List.getElem?_map, List.getElem?_set]
    by_cases hn : who = n
    · subst hn
      obtain ⟨hlt, hget⟩ := List.getElem?_eq_some_iff.mp hg
      simp [hlt, hget]
    · simp [hn]

lemma designs_apply (p : Pool ω) (op : Operation ω) :
    (p.apply op).2.designs = p.designs ++ op.built?.toList := by
  cases op with
  | build kind config => exact p.designs_build kind config
  | share who other => simpa [apply, Operation.built?] using p.designs_share who other
  | change store => simp [apply, Operation.built?, designs]
  | ask who call => simpa [apply, Operation.built?] using p.designs_ask who call

/-- A generator is what it was built as, whatever has happened since. -/
lemma designs_run (p : Pool ω) (ops : List (Operation ω)) :
    (p.run ops).2.designs = p.designs ++ ops.filterMap Operation.built? := by
  induction ops generalizing p with
  | nil => simp [run]
  | cons op rest ih =>
    simp only [run, ih, designs_apply, List.filterMap_cons]
    cases op.built? <;> simp

/-- A generator answers with the key of what the call reports, and counts what the call does. -/
lemma ask_of_getElem? {p : Pool ω} {who : Nat} {g : Generator} (h : p.generators[who]? = some g)
    (call : Invocation ω) :
    (p.ask who call).1 =
        some ⟨who, (g.config.report p.store call).map (CacheKey.ofEvents g.kind)⟩ ∧
      (p.ask who call).2.generators[who]? = some { g with
        counters :=
          (g.config.sessionAfter p.store call ⟨p.caches g.cache, g.counters⟩).counters } := by
  obtain ⟨hlt, _⟩ := List.getElem?_eq_some_iff.mp h
  rw [ask, h]
  simp [Generator.answer_eq, hlt]

/-- The answer of a generator, from what it was built as and what is in the store. -/
lemma ask_fst {p : Pool ω} {who : Nat} {kind : Derivation} {config : Config}
    (h : p.designs[who]? = some (kind, config)) (call : Invocation ω) :
    (p.ask who call).1 =
      some ⟨who, (config.report p.store call).map (CacheKey.ofEvents kind)⟩ := by
  rw [designs, List.getElem?_map, Option.map_eq_some_iff] at h
  obtain ⟨g, hg, hdesign⟩ := h
  cases hdesign
  exact (ask_of_getElem? hg call).1

/-- **Generators have no memory.**  Whatever has been built, shared, changed and asked before, with
success or without, a generator answers a call, and answers it as one does that is built anew with
the same configuration and asked first of all, over the store as it is, or over any other one that
holds the same for the arguments. -/
theorem ask_after_eq_ask_fresh (past : List (Operation ω)) {who : Nat} {kind : Derivation}
    {config : Config} (h : (past.filterMap Operation.built?)[who]? = some (kind, config))
    (call : Invocation ω) :
    let now := (({} : Pool ω).run past).2
    ∃ result, (now.ask who call).1 = some ⟨who, result⟩ ∧
      ((fresh now.store kind config).ask 0 call).1 = some ⟨0, result⟩ ∧
      ∀ store, now.store.SameContents store config.useReflection call.arguments →
        ((fresh store kind config).ask 0 call).1 = some ⟨0, result⟩ := by
  intro now
  have hnow : now.designs[who]? = some (kind, config) := by
    have hdesigns : now.designs = past.filterMap Operation.built? := designs_run {} past
    rwa [hdesigns]
  have hfresh (store : Store ω) :
      ((fresh store kind config).ask 0 call).1 =
        some ⟨0, (config.report store call).map (CacheKey.ofEvents kind)⟩ := ask_fst rfl call
  refine ⟨_, ask_fst hnow call, hfresh now.store, fun store hsame => ?_⟩
  rw [hfresh, ← Config.report_eq_of_sameContents hsame]

/-- A drawer whose handle cannot be read is in the way of a first key.  The failed call leaves the
layout in the cache that both generators use; once the handle can be read the other one makes the
key that a new generator makes, here or where there is something else in the store. -/
theorem ask_after_eq_ask_fresh_drawer :
    let inside : Config := { Config.argumentsOnly with useReflection := true }
    let call : Invocation Datum := { arguments := [.ref .object ⟨0⟩] }
    let shut : Store Datum := Store.drawer none
    let opened : Store Datum := Store.drawer (some (.atom (.text "a")))
    let past : List (Operation Datum) :=
      [.change shut, .build .hashCode inside, .build .structural inside, .share 1 0, .ask 0 call,
        .change opened]
    let now := (({} : Pool Datum).run past).2
    let result : Except Halt (CacheKey Datum) :=
      .ok (.structural ⟨[.object ⟨"Drawer"⟩ [("handle", .atom (.text "a"))]]⟩)
    (({} : Pool Datum).run past).1 = [⟨0, .error (.fault (.fieldAccess "Drawer" "handle"))⟩] ∧
      (now.caches 0).size = 1 ∧
      (past.filterMap Operation.built?)[1]? = some (.structural, inside) ∧
      (now.ask 1 call).1 = some ⟨1, result⟩ ∧
      ((fresh now.store .structural inside).ask 0 call).1 = some ⟨0, result⟩ ∧
      ((fresh (opened.place (.map [])).2 .structural inside).ask 0 call).1 = some ⟨0, result⟩ := by
  intro inside call shut opened past now result
  have hbuilt : (past.filterMap Operation.built?)[1]? = some (.structural, inside) := rfl
  have hsame : opened.SameContents (opened.place (.map [])).2 true [.ref .object ⟨0⟩] := by
    refine Store.sameContents_of_get?_eq fun id hid => ?_
    obtain rfl : id = ⟨0⟩ := Store.eq_of_mem_mentioned_drawer hid
    rfl
  obtain ⟨found, hask, hnow, hother⟩ := ask_after_eq_ask_fresh past hbuilt call
  obtain rfl : result = found := congrArg Answer.result (Option.some.inj hask)
  exact ⟨rfl, rfl, hbuilt, hask, hnow, hother _ hsame⟩

end Pool

end MemoKey
