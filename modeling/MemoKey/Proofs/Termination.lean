import MemoKey.Opaque.Datum
import MemoKey.Proofs.Unfolding

/-!
# Walks end

The bound on the number of open composites is only there to make a walk a total function.  A
guarded walk over any store never meets it, and neither does an unguarded walk over an acyclic
graph; so an endless walk is one over a cyclic graph with the check for cycles off.

## Two measures

A guarded walk is measured by `Store.unvisited`, the identities off the path.  An unguarded walk
has no path, and is measured by `Store.composites`, the identities that it can still reach: inside
a composite of an acyclic graph the composite itself is out of reach.

## Main statements

* `Walk.Suffices` says that a walk never meets a bound.  Then the walk is not endless
  (`Suffices.halt_ne_endless`), and it is the same under every larger bound (`Suffices.trace_eq`).
* `Walk.suffices_of_card_unvisited_le` finds such a bound for every guarded walk, and
  `Walk.suffices_of_acyclic` for an unguarded walk over an acyclic graph.
* `Store.depth_unfold_le` bounds the nesting of an unfolding by the number of composites.
* `Config.guarded_call_ends` says all of this about the keys of a call.
-/

namespace MemoKey

variable {ω : Type}

/-! ## Nesting -/

namespace Node

mutual

/-- The length of the longest chain of composites nested in each other in a node. -/
def depth : Node ω → Nat
  | seq _ items => itemsDepth items + 1
  | map entries => entriesDepth entries + 1
  | object _ fields => fieldsDepth fields + 1
  | _ => 0

/-- The depth of the deepest of several nodes. -/
def itemsDepth : List (Node ω) → Nat
  | [] => 0
  | node :: rest => max (depth node) (itemsDepth rest)

/-- The depth of the deepest key or value. -/
def entriesDepth : List (Node ω × Node ω) → Nat
  | [] => 0
  | (key, value) :: rest => max (max (depth key) (depth value)) (entriesDepth rest)

/-- The depth of the deepest field. -/
def fieldsDepth : List (String × Node ω) → Nat
  | [] => 0
  | (_, value) :: rest => max (depth value) (fieldsDepth rest)

end

lemma itemsDepth_le_iff {nodes : List (Node ω)} {k : Nat} :
    itemsDepth nodes ≤ k ↔ ∀ node ∈ nodes, node.depth ≤ k := by
  induction nodes with
  | nil => simp [itemsDepth]
  | cons node rest ih => simp [itemsDepth, ih]

lemma entriesDepth_eq (entries : List (Node ω × Node ω)) :
    entriesDepth entries = itemsDepth (entries.flatMap fun e => [e.1, e.2]) := by
  induction entries with
  | nil => simp [entriesDepth, itemsDepth]
  | cons e rest ih => simp [entriesDepth, itemsDepth, ih, Nat.max_assoc]

lemma fieldsDepth_eq (fields : List (String × Node ω)) :
    fieldsDepth fields = itemsDepth (fields.map (·.2)) := by
  induction fields with
  | nil => simp [fieldsDepth, itemsDepth]
  | cons f rest ih => simp [fieldsDepth, itemsDepth, ih]

/-- A node is nested one deeper than its parts at most. -/
lemma depth_le_succ {node : Node ω} {k : Nat} (h : ∀ part ∈ node.parts, part.depth ≤ k) :
    node.depth ≤ k + 1 := by
  have hparts : itemsDepth node.parts ≤ k := itemsDepth_le_iff.mpr h
  cases node with
  | atom | whole | cycle => simp [depth]
  | seq sequence items => simpa [depth, parts] using hparts
  | map entries => simpa [depth, entriesDepth_eq, parts] using hparts
  | object type fields => simpa [depth, fieldsDepth_eq, parts] using hparts

end Node

/-- **Nesting is bounded by the number of composites.**  Along a chain of nested composites in an
unfolding no identity repeats, so the chain is no longer than the composites that can be reached
and are not on the path yet. -/
theorem Store.depth_unfold_le (store : Store ω) (reflect : Bool) (path : List Identity)
    (v : Value ω) :
    (store.unfold reflect path v).depth ≤
      (store.composites reflect v \ {id | id ∈ path}).ncard := by
  induction hn : (store.unvisited path).card using Nat.strongRecOn generalizing path v with
  | _ n ih =>
    cases hsight : store.sight reflect v with
    | atom value => simp [unfold_of_atom hsight, Node.depth]
    | whole value => simp [unfold_of_whole hsight, Node.depth]
    | composite id cell =>
      by_cases hid : id ∈ path
      · simp [unfold_of_composite hsight, hid, Node.depth]
      · rw [unfold_of_composite hsight, if_neg hid]
        set ahead := store.composites reflect v \ {id | id ∈ path}
        have hfinite : ahead.Finite := (store.finite_composites reflect v).sdiff
        have hmem : id ∈ ahead := ⟨mem_composites_self hsight, hid⟩
        rw [← Set.ncard_sdiff_singleton_add_one hmem hfinite]
        refine Node.depth_le_succ fun node hnode => ?_
        rw [Cell.parts_toNode] at hnode
        obtain ⟨part, hpart, rfl⟩ := List.mem_map.mp hnode
        have hfewer := card_unvisited_cons_lt hsight hid
        -- What the part reaches off the longer path, the whole reaches off the shorter one.
        have hsubset : store.composites reflect part \ {other | other ∈ id :: path} ⊆
            ahead \ {id} := by
          rintro other ⟨hother, hoff⟩
          simp only [Set.mem_ofPred_eq, List.mem_cons, not_or] at hoff
          exact ⟨⟨composites_subset_of_contains ⟨id, cell, hsight, hpart⟩ hother, hoff.2⟩, hoff.1⟩
        calc
          (store.unfold reflect (id :: path) part).depth
              ≤ (store.composites reflect part \ {other | other ∈ id :: path}).ncard :=
            ih _ (hn ▸ hfewer) (id :: path) part rfl
          _ ≤ (ahead \ {id}).ncard := Set.ncard_le_ncard hsubset hfinite.sdiff

/-! ## Bounds that suffice -/

namespace Walk

/-- A bound suffices for a walk if the walk never meets it. -/
inductive Suffices (store : Store ω) (reflect : Bool) : Nat → Guard → Value ω → Prop where
  /-- There is nothing to go into. -/
  | leaf {limit : Nat} {g : Guard} {v : Value ω}
      (h : ∀ id cell, store.sight reflect v ≠ .composite id cell) : Suffices store reflect limit g v
  /-- The guard cuts the composite. -/
  | cut {limit : Nat} {g : Guard} {v : Value ω} {id : Identity} {cell : Cell ω}
      (h : store.sight reflect v = .composite id cell) (hcut : g.cuts id = true) :
      Suffices store reflect limit g v
  /-- Inside the composite one less suffices. -/
  | inside {limit : Nat} {g : Guard} {v : Value ω} {id : Identity} {cell : Cell ω}
      (h : store.sight reflect v = .composite id cell) (hcut : g.cuts id = false)
      (hparts : ∀ part ∈ cell.parts, Suffices store reflect limit (g.below id) part) :
      Suffices store reflect (limit + 1) g v

variable {store : Store ω} {reflect : Bool} {limit limit' : Nat} {g : Guard} {path : List Identity}
  {v : Value ω}

/-- Where a bound suffices a walk is not endless. -/
theorem Suffices.halt_ne_endless (h : Suffices store reflect limit g v) :
    (trace store reflect limit g v).halt ≠ some .endless := by
  induction h with
  | @leaf limit g v h =>
    cases hsight : store.sight reflect v with
    | atom value => simp [trace_of_atom hsight, Trace.report, Trace.act]
    | whole value => simp [trace_of_whole hsight, Trace.report, Trace.act]
    | composite id cell => exact absurd hsight (h id cell)
  | cut h hcut => simp [trace_of_cuts h hcut, Trace.report, Trace.act]
  | @inside limit g v id cell h hcut _ ih =>
    intro hendless
    rw [trace_succ h, Trace.halt_descend, hcut] at hendless
    obtain ⟨part, hpart, hpartEndless⟩ := Cell.exists_endless_part hendless
    exact ih part hpart hpartEndless

/-- Where a bound suffices a walk is the same under every larger one. -/
theorem Suffices.trace_eq (h : Suffices store reflect limit g v) (hle : limit ≤ limit') :
    trace store reflect limit' g v = trace store reflect limit g v := by
  induction h generalizing limit' with
  | @leaf limit g v h =>
    cases hsight : store.sight reflect v with
    | atom value => rw [trace_of_atom hsight, trace_of_atom hsight]
    | whole value => rw [trace_of_whole hsight, trace_of_whole hsight]
    | composite id cell => exact absurd hsight (h id cell)
  | cut h hcut => rw [trace_of_cuts h hcut, trace_of_cuts h hcut]
  | @inside limit g v id cell h hcut _ ih =>
    obtain ⟨limit', rfl⟩ : ∃ k, limit' = k + 1 := ⟨limit' - 1, by omega⟩
    rw [trace_succ h, trace_succ h]
    refine Trace.descend_congr fun _ => Cell.trace_congr fun part hpart => ?_
    exact ih part hpart (by omega)

/-- A guarded walk needs no more than the identities off its path. -/
theorem suffices_of_card_unvisited_le (h : (store.unvisited path).card ≤ limit) :
    Suffices store reflect limit ⟨path, true⟩ v := by
  induction limit using Nat.strongRecOn generalizing path v with
  | _ limit ih =>
    cases hsight : store.sight reflect v with
    | atom value => exact .leaf (by simp [hsight])
    | whole value => exact .leaf (by simp [hsight])
    | composite id cell =>
      by_cases hid : id ∈ path
      · exact .cut hsight (by simpa using hid)
      · have hfewer := Store.card_unvisited_cons_lt hsight hid
        obtain ⟨limit, rfl⟩ : ∃ k, limit = k + 1 := ⟨limit - 1, by omega⟩
        refine .inside hsight (by simpa using hid) fun part _ => ?_
        rw [Guard.below_enabled hid]
        exact ih limit (by omega) (by omega)

/-- An unguarded walk over an acyclic graph needs no more than the composites that it can reach. -/
theorem suffices_of_acyclic (hv : store.Acyclic reflect v)
    (h : (store.composites reflect v).ncard ≤ limit) :
    Suffices store reflect limit ⟨path, false⟩ v := by
  induction limit using Nat.strongRecOn generalizing v with
  | _ limit ih =>
    cases hsight : store.sight reflect v with
    | atom value => exact .leaf (by simp [hsight])
    | whole value => exact .leaf (by simp [hsight])
    | composite id cell =>
      have hpos := Store.ncard_composites_pos hsight
      obtain ⟨limit, rfl⟩ : ∃ k, limit = k + 1 := ⟨limit - 1, by omega⟩
      refine .inside hsight rfl fun part hpart => ?_
      have hfewer := hv.ncard_composites_lt hsight hpart
      exact ih limit (by omega) (hv.of_contains ⟨id, cell, hsight, hpart⟩) (by omega)

end Walk

/-! ## Calls -/

namespace Config

variable {c : Config} {store : Store ω} {call : Invocation ω}

/-- The bound that the store sets suffices for a guarded call, and for any call over an acyclic
graph. -/
lemma suffices_size
    (h : c.checkForCycles = true ∨ ∀ v ∈ call.arguments, store.Acyclic c.useReflection v)
    {v : Value ω} (hv : v ∈ call.arguments) :
    Walk.Suffices store c.useReflection store.size (Guard.empty c.checkForCycles) v := by
  cases hcheck : c.checkForCycles with
  | true => exact Walk.suffices_of_card_unvisited_le store.card_unvisited_nil_le
  | false =>
    have hacyclic : store.Acyclic c.useReflection v := (h.resolve_left (by simp [hcheck])) v hv
    exact Walk.suffices_of_acyclic hacyclic (store.ncard_composites_le_size c.useReflection v)

/-- A call is not endless if it is guarded or its graph is acyclic. -/
lemma report_ne_endless
    (h : c.checkForCycles = true ∨ ∀ v ∈ call.arguments, store.Acyclic c.useReflection v) :
    c.report store call ≠ .error .endless := by
  intro hreport
  unfold report at hreport
  cases hhead : (c.signatureEvents call.signature : Except Fault (List (Event ω))) with
  | error fault => simp [hhead] at hreport
  | ok head =>
    cases hhalt : (c.trace store call).halt with
    | none => simp [hhead, hhalt] at hreport
    | some halt =>
      obtain rfl : halt = .endless := by simpa [hhead, hhalt] using hreport
      obtain ⟨v, hv, hendless⟩ := Trace.exists_of_halt_all hhalt
      exact (suffices_size h hv).halt_ne_endless hendless

/-- **A guarded call ends.**  No key of a guarded call is endless, whatever the store; the bound on
open composites takes no part, because the walk is the same under every larger one; and in a
structural key that is made the composites of an argument are nested no deeper than there are
composites to reach from it. -/
theorem guarded_call_ends [OpaqueValue ω] (hcheck : c.checkForCycles = true) (store : Store ω)
    (call : Invocation ω) (session : Session) :
    (c.structuralKey store call session).1 ≠ .error .endless ∧
    (c.hashKey store call session).1 ≠ .error .endless ∧
    (∀ limit ≥ store.size, ∀ p : Progress ω, p.guard = Guard.empty true →
      (call.arguments.forM (Walk.value store c.useReflection limit)).run p =
        (Walk.values store c.useReflection call.arguments).run p) ∧
    ∀ key, (c.structuralKey store call session).1 = .ok key →
      ∃ nodes, key.nodes = c.prefixNodes call.signature ++ nodes ∧
        List.Forall₂ (fun v node => node.depth ≤ (store.composites c.useReflection v).ncard)
          call.arguments nodes := by
  have hkey {α : Type} (f : List (Event ω) → α) :
      (c.report store call).map f ≠ .error .endless := by
    have hreport : c.report store call ≠ .error .endless := report_ne_endless (.inl hcheck)
    cases hresult : c.report store call with
    | error halt =>
      rintro ⟨⟩
      exact hreport hresult
    | ok events => simp [Except.map]
  refine ⟨?_, ?_, ?_, ?_⟩
  · rw [structuralKey_fst]
    exact hkey StructuralKey.ofEvents
  · rw [hashKey_fst]
    exact hkey Hash.ofEvents
  · intro limit hlimit p hp
    have hlarge := Walk.follows_forM call.arguments
      (Walk.value_follows store c.useReflection limit (Guard.empty true))
    have hsize := Walk.values_follows store c.useReflection (Guard.empty true) call.arguments
    have hsame : Trace.all (Walk.trace store c.useReflection limit (Guard.empty true))
        call.arguments = Walk.traceAll store c.useReflection (Guard.empty true) call.arguments :=
      Trace.all_congr fun v _ =>
        (Walk.suffices_of_card_unvisited_le store.card_unvisited_nil_le).trace_eq hlimit
    rw [(hlarge p hp).1, (hsize p hp).1, hsame]
  · intro key hmade
    refine ⟨_, (structuralKey_eq_ok hmade).2.trans (nodes_eq_unfold hcheck store call), ?_⟩
    rw [List.forall₂_map_right_iff, List.forall₂_same]
    intro v _
    simpa using store.depth_unfold_le c.useReflection [] v

/-- A list that holds itself as a set has a key, nested as deep as there are composites: two. -/
theorem guarded_call_ends_knot :
    let call : Invocation Datum := { arguments := [.ref .list ⟨0⟩] }
    let key : StructuralKey Datum := ⟨[.seq .list [.cycle, .map [(.cycle, .atom .null)]]]⟩
    argumentsOnly.checkForCycles = true ∧
      (argumentsOnly.structuralKey Store.knot call {}).1 = .ok key ∧
      (argumentsOnly.hashKey Store.knot call {}).1 ≠ .error .endless ∧
      ∃ nodes, key.nodes = argumentsOnly.prefixNodes none ++ nodes ∧
        List.Forall₂ (fun v node => node.depth ≤ (Store.knot.composites false v).ncard)
          call.arguments nodes := by
  intro call key
  have hcheck : argumentsOnly.checkForCycles = true := rfl
  have hkey : (argumentsOnly.structuralKey Store.knot call {}).1 = .ok key := rfl
  obtain ⟨_, hhash, _, hdepth⟩ := guarded_call_ends hcheck Store.knot call {}
  exact ⟨hcheck, hkey, hhash, hdepth key hkey⟩

end Config

end MemoKey
