import MemoKey.Opaque.Datum
import MemoKey.Proofs.Agreement

/-!
# How a call comes out

A call has a key unless it lacks the signature that it needs or goes into an object with a slot
that cannot be read.  Which slot it is that fails is a question of order: all slots of an object are
read before any of the values is walked, and the first object in pre-order decides.

## The order of a walk

`Walk.preorder` lists the composites that a walk goes into, each before its parts.
`Walk.halt_trace_eq` says that a walk that is not cut short by its bound halts at the first slot
in this order that cannot be read, and does not halt if there is none.

## Walks that end

A walk that ends does so under some bound.  The bound that the store sets is as good as any: to be
cut short by it and not by a larger one, an unguarded walk would need a chain of composites, one for
each number up to the bound, that are all different (`Walk.exists_chain`), and there are not so
many.  So `Walk.halt_size_eq` says that a walk that ends under some bound comes out in the same way
under that of the store.

The main statement is `Config.outcome_of_call`.
-/

namespace MemoKey

variable {ω : Type}

/-! ## How a walk halts -/

/-- Searches come out the same if they do wherever the first one does not find a given thing, and
that thing is not what it finds in the end. -/
lemma findSome?_eq_of_ne {α β : Type} {f g : α → Option β} {b : β} {xs : List α}
    (h : ∀ x ∈ xs, f x ≠ some b → g x = f x) (hne : xs.findSome? f ≠ some b) :
    xs.findSome? g = xs.findSome? f := by
  induction xs with
  | nil => rfl
  | cons x rest ih =>
    obtain ⟨hx, hrest⟩ := List.forall_mem_cons.mp h
    rw [List.findSome?_cons] at hne ⊢
    rw [List.findSome?_cons]
    cases hfound : f x with
    | none =>
      rw [hfound] at hne
      rw [hx (by simp [hfound]), hfound]
      exact ih hrest hne
    | some found =>
      have hfoundNe : f x ≠ some b := by
        rw [hfound] at hne ⊢
        exact hne
      rw [hx hfoundNe, hfound]

lemma Store.unreadable?_of_sight {store : Store ω} {v : Value ω} {id : Identity} {cell : Cell ω}
    (h : store.sight false v = .composite id cell) : cell.unreadable? = none := by
  cases cell with
  | seq sequence items => rfl
  | map entries => rfl
  | object o =>
    have hcell := deref?_of_sight h
    obtain ⟨rfl, _⟩ := sight_eq_composite h
    simp [sight, hcell, Cell.isObject] at h

namespace Walk

variable {store : Store ω} {reflect : Bool} {limit limit' : Nat} {g : Guard} {v : Value ω}

/-- A walk that is not cut short by its bound comes out the same under every larger one. -/
lemma halt_trace_of_le (hle : limit ≤ limit')
    (h : (trace store reflect limit g v).halt ≠ some .endless) :
    (trace store reflect limit' g v).halt = (trace store reflect limit g v).halt := by
  induction limit, g, v using boundInduction store reflect generalizing limit' with
  | atom limit g v a hsight => rw [trace_of_atom hsight, trace_of_atom hsight]
  | whole limit g v x hsight => rw [trace_of_whole hsight, trace_of_whole hsight]
  | cut limit g v id cell hsight hcut => rw [trace_of_cuts hsight hcut, trace_of_cuts hsight hcut]
  | outside g v id cell hsight hcut => exact absurd (halt_trace_zero hsight hcut) h
  | inside limit g v id cell hsight hcut ih =>
    obtain ⟨limit', rfl⟩ : ∃ k, limit' = k + 1 := ⟨limit' - 1, by omega⟩
    rw [halt_trace_succ hsight hcut] at h
    rw [halt_trace_succ hsight hcut, halt_trace_succ hsight hcut]
    cases hslot : cell.unreadable? with
    | some slot => rfl
    | none =>
      simp only [hslot, Option.map_none, Option.none_or] at h ⊢
      exact findSome?_eq_of_ne (fun part hpart hends => ih part hpart (by omega) hends) h

/-! ## The order of a walk -/

/-- The composites that a walk goes into within its bound, each before its parts. -/
def preorder (store : Store ω) (reflect : Bool) (limit : Nat) (g : Guard) (v : Value ω) :
    List (Cell ω) :=
  match store.sight reflect v with
  | .composite id cell =>
    if g.cuts id then []
    else
      match limit with
      | 0 => []
      | limit + 1 => cell :: cell.parts.flatMap (preorder store reflect limit (g.below id))
  | _ => []

lemma preorder_succ {id : Identity} {cell : Cell ω}
    (hsight : store.sight reflect v = .composite id cell) (hcut : g.cuts id = false) :
    preorder store reflect (limit + 1) g v =
      cell :: cell.parts.flatMap (preorder store reflect limit (g.below id)) := by
  rw [preorder, hsight]
  simp [hcut]

/-- A walk that is not cut short by its bound halts at the first slot that cannot be read, of the
first composite in pre-order that has one. -/
theorem halt_trace_eq (h : (trace store reflect limit g v).halt ≠ some .endless) :
    (trace store reflect limit g v).halt =
      ((preorder store reflect limit g v).findSome? Cell.unreadable?).map
        fun slot => .fault slot.accessFault := by
  induction limit, g, v using boundInduction store reflect with
  | atom limit g v a hsight =>
    rw [trace_of_atom hsight, preorder, hsight]
    rfl
  | whole limit g v x hsight =>
    rw [trace_of_whole hsight, preorder, hsight]
    rfl
  | cut limit g v id cell hsight hcut =>
    rw [trace_of_cuts hsight hcut, preorder, hsight]
    simp [hcut, Trace.report, Trace.act]
  | outside g v id cell hsight hcut => exact absurd (halt_trace_zero hsight hcut) h
  | inside limit g v id cell hsight hcut ih =>
    rw [halt_trace_succ hsight hcut] at h ⊢
    rw [preorder_succ hsight hcut, List.findSome?_cons]
    cases hslot : cell.unreadable? with
    | some slot => rfl
    | none =>
      simp only [hslot, Option.map_none, Option.none_or] at h ⊢
      rw [findSome?_flatMap, List.map_findSome?]
      exact (findSome?_eq_of_ne (fun part hpart hends => (ih part hpart hends).symm) h).symm

lemma unreadable?_of_mem_preorder {cell : Cell ω} (h : cell ∈ preorder store false limit g v) :
    cell.unreadable? = none := by
  induction limit, g, v using boundInduction store false with
  | atom limit g v a hsight => simp [preorder, hsight] at h
  | whole limit g v x hsight => simp [preorder, hsight] at h
  | cut limit g v id found hsight hcut => simp [preorder, hsight, hcut] at h
  | outside g v id found hsight hcut => simp [preorder, hsight] at h
  | inside limit g v id found hsight hcut ih =>
    rw [preorder_succ hsight hcut, List.mem_cons, List.mem_flatMap] at h
    rcases h with rfl | ⟨part, hpart, hinside⟩
    · exact Store.unreadable?_of_sight hsight
    · exact ih part hpart hinside

/-! ## Walks that end -/

/-- If an unguarded walk meets one bound and not the next one, so does the walk inside one of the
parts, with bounds that are one less. -/
lemma exists_part_of_meets (hg : g.enabled = false) {id : Identity} {cell : Cell ω}
    (hsight : store.sight reflect v = .composite id cell)
    (h : (trace store reflect (limit + 1) g v).halt = some .endless)
    (hnext : (trace store reflect (limit + 2) g v).halt ≠ some .endless) :
    ∃ part ∈ cell.parts, (trace store reflect limit g part).halt = some .endless ∧
      (trace store reflect (limit + 1) g part).halt ≠ some .endless := by
  have hcut : g.cuts id = false := by simp [Guard.cuts, hg]
  have hbelow : g.below id = g := by simp [Guard.below, Guard.enter_of_disabled hg]
  rw [halt_trace_succ hsight hcut, hbelow] at h hnext
  cases hslot : cell.unreadable? with
  | some slot => simp [hslot] at h
  | none =>
    simp only [hslot, Option.map_none, Option.none_or] at h hnext
    -- If every part that meets its bound met the next one too, the next bound would change nothing.
    by_contra hnone
    have hsame (part : Value ω) (hpart : part ∈ cell.parts)
        (hends : (trace store reflect (limit + 1) g part).halt ≠ some .endless) :
        (trace store reflect limit g part).halt =
          (trace store reflect (limit + 1) g part).halt := by
      by_cases hmeets : (trace store reflect limit g part).halt = some .endless
      · exact absurd ⟨part, hpart, hmeets, hends⟩ hnone
      · exact (halt_trace_of_le (Nat.le_succ limit) hmeets).symm
    rw [findSome?_eq_of_ne hsame hnext] at h
    exact hnext h

lemma exists_sight_of_meets (h : (trace store reflect limit g v).halt = some .endless) :
    ∃ id cell, store.sight reflect v = .composite id cell := by
  cases hsight : store.sight reflect v with
  | atom a => simp [trace_of_atom hsight, Trace.report, Trace.act] at h
  | whole x => simp [trace_of_whole hsight, Trace.report, Trace.act] at h
  | composite id cell => exact ⟨id, cell, rfl⟩

/-- An unguarded walk that meets one bound and not the next one goes into as many different
composites as that bound says: they differ in the bound up to which they are met. -/
lemma exists_chain (hg : g.enabled = false)
    (h : (trace store reflect limit g v).halt = some .endless)
    (hnext : (trace store reflect (limit + 1) g v).halt ≠ some .endless) :
    ∃ chain : List Identity, chain.Nodup ∧ chain.length = limit + 1 ∧
      ∀ id ∈ chain, ∃ w cell, store.sight reflect w = .composite id cell ∧ ∃ bound ≤ limit,
        (trace store reflect (bound + 1) g w).halt ≠ some .endless := by
  induction limit generalizing v with
  | zero =>
    obtain ⟨id, cell, hsight⟩ := exists_sight_of_meets h
    refine ⟨[id], by simp, rfl, fun other hother => ?_⟩
    obtain rfl : other = id := by simpa using hother
    exact ⟨v, cell, hsight, 0, le_rfl, hnext⟩
  | succ limit ih =>
    obtain ⟨id, cell, hsight⟩ := exists_sight_of_meets h
    obtain ⟨part, _, hpart, hpartNext⟩ := exists_part_of_meets hg hsight h hnext
    obtain ⟨chain, hnodup, hlength, hchain⟩ := ih hpart hpartNext
    -- The composite still meets a bound that those further down do not.
    have hid : id ∉ chain := by
      intro hmem
      obtain ⟨w, _, hsight', bound, hbound, hends⟩ := hchain id hmem
      have hstill := halt_trace_of_le (Nat.succ_le_succ hbound) hends
      exact hends ((hstill.symm.trans (halt_trace_eq_of_sight hsight' hsight)).trans h)
    refine ⟨id :: chain, List.nodup_cons.mpr ⟨hid, hnodup⟩, by simp [hlength], ?_⟩
    intro other hother
    rcases List.mem_cons.mp hother with rfl | hmem
    · exact ⟨v, cell, hsight, limit + 1, le_rfl, hnext⟩
    · obtain ⟨w, cell', hsight', bound, hbound, hends⟩ := hchain other hmem
      exact ⟨w, cell', hsight', bound, Nat.le_succ_of_le hbound, hends⟩

/-- An unguarded walk that meets the bound of its store meets every larger one. -/
lemma meets_of_meets_size (hg : g.enabled = false)
    (h : (trace store reflect store.size g v).halt = some .endless) (hle : store.size ≤ limit) :
    (trace store reflect limit g v).halt = some .endless := by
  induction limit, hle using Nat.le_induction with
  | base => exact h
  | succ limit hle ih =>
    by_contra hnext
    obtain ⟨chain, hnodup, hlength, hchain⟩ := exists_chain hg ih hnext
    have hsubset : chain.toFinset ⊆ store.ids := fun id hid => by
      obtain ⟨_, _, hsight, _⟩ := hchain id (List.mem_toFinset.mp hid)
      exact Store.mem_ids_of_sight hsight
    have hcard : limit + 1 ≤ store.size := by
      calc
        limit + 1 = chain.toFinset.card := by rw [List.toFinset_card_of_nodup hnodup, hlength]
        _ ≤ store.ids.card := Finset.card_le_card hsubset
        _ ≤ store.size := store.card_ids_le_size
    omega

/-- The bound of a store is as good as any larger one. -/
lemma halt_eq_of_size_le {enabled : Bool} (hle : store.size ≤ limit) :
    (trace store reflect limit (Guard.empty enabled) v).halt =
      (trace store reflect store.size (Guard.empty enabled) v).halt := by
  by_cases hmeets : (trace store reflect store.size (Guard.empty enabled) v).halt = some .endless
  · cases enabled with
    | true =>
      have hsuffices : Suffices store reflect store.size (Guard.empty true) v :=
        suffices_of_card_unvisited_le store.card_unvisited_nil_le
      exact absurd hmeets hsuffices.halt_ne_endless
    | false => rw [hmeets, meets_of_meets_size rfl hmeets hle]
  · exact halt_trace_of_le hle hmeets

/-- A walk that ends under some bound comes out the same under the bound of its store. -/
lemma halt_size_eq {enabled : Bool}
    (h : (trace store reflect limit (Guard.empty enabled) v).halt ≠ some .endless) :
    (trace store reflect store.size (Guard.empty enabled) v).halt =
      (trace store reflect limit (Guard.empty enabled) v).halt := by
  rcases Nat.le_total limit store.size with hle | hle
  · exact halt_trace_of_le hle h
  · exact (halt_eq_of_size_le hle).symm

/-- A bound suffices for a walk that goes to its end. -/
lemma suffices_of_halt_eq_none (h : (trace store reflect limit g v).halt = none) :
    Suffices store reflect limit g v := by
  induction limit, g, v using boundInduction store reflect with
  | atom limit g v a hsight => exact .leaf (by simp [hsight])
  | whole limit g v x hsight => exact .leaf (by simp [hsight])
  | cut limit g v id cell hsight hcut => exact .cut hsight hcut
  | outside g v id cell hsight hcut => simp [halt_trace_zero hsight hcut] at h
  | inside limit g v id cell hsight hcut ih =>
    rw [trace_succ hsight, Trace.halt_descend, hcut] at h
    exact .inside hsight hcut fun part hpart => ih part hpart (Cell.halt_of_mem_parts h hpart)

end Walk

/-! ## Keys are counted -/

lemma Act.keys_onSession (session : Session) (a : Act ω) :
    (a.onSession session).counters.keys = session.counters.keys := by
  cases a with
  | report event =>
    cases event with
    | opens composite => cases composite <;> rfl
    | _ => rfl
  | request info =>
    rw [onSession, Session.layout]
    cases session.layouts.find? info <;> rfl
  | enter id => rfl
  | exit id => rfl

lemma Act.keys_foldl_onSession (session : Session) (acts : List (Act ω)) :
    (acts.foldl onSession session).counters.keys = session.counters.keys := by
  induction acts generalizing session with
  | nil => rfl
  | cons a rest ih => rw [List.foldl_cons, ih, keys_onSession]

/-- One key more is counted if a call has a key, and none otherwise. -/
def Session.CountsKey {α : Type} (session : Session) (result : Except Halt α × Session) : Prop :=
  result.2.counters.keys =
    match result.1 with
    | .ok _ => session.counters.keys + 1
    | .error _ => session.counters.keys

/-! ## Calls -/

/-- A list with a text and a cabinet.  The cabinet has a drawer and a lock, the drawer a handle;
lock and handle cannot be read. -/
def Store.cabinet : Store ω where
  contents :=
    [(⟨0⟩, .items [.atom (.text "a"), .ref .object ⟨1⟩]),
      (⟨1⟩, .object
        { type := .root ⟨0, ⟨"Cabinet"⟩, [{ name := "drawer" }, { name := "lock" }]⟩
          read := fun slot => if slot.name = "drawer" then some (.ref .object ⟨2⟩) else none }),
      (⟨2⟩, .object
        { type := .root ⟨1, ⟨"Drawer"⟩, [{ name := "handle" }]⟩
          read := fun _ => none })]
  next := 3

namespace Config

variable {c : Config} {store : Store ω} {call : Invocation ω} {limit : Nat}

/-- The walk over the arguments ends, and keeps to a bound on open composites while it does. -/
def EndsWithin (c : Config) (store : Store ω) (call : Invocation ω) (limit : Nat) : Prop :=
  ((call.arguments.forM (Walk.value store c.useReflection limit)).run
    ⟨Guard.empty c.checkForCycles, {}, #[]⟩).1 ≠ .error .endless

/-- The composites that the walk over the arguments goes into, each before its parts. -/
def preorder (c : Config) (store : Store ω) (call : Invocation ω) (limit : Nat) : List (Cell ω) :=
  call.arguments.flatMap
    (Walk.preorder store c.useReflection limit (Guard.empty c.checkForCycles))

lemma endsWithin_iff :
    c.EndsWithin store call limit ↔
      (call.arguments.findSome? fun v =>
        (Walk.trace store c.useReflection limit (Guard.empty c.checkForCycles) v).halt) ≠
          some .endless := by
  have hfollows := Walk.follows_forM call.arguments
    (Walk.value_follows store c.useReflection limit (Guard.empty c.checkForCycles))
  have hrun := (hfollows ⟨Guard.empty c.checkForCycles, {}, #[]⟩ rfl).1
  rw [EndsWithin, hrun, ← Trace.halt_all, Trace.result]
  cases (Trace.all (Walk.trace store c.useReflection limit (Guard.empty c.checkForCycles))
    call.arguments).halt <;> simp

/-- A guarded walk ends, and so does any walk over an acyclic graph. -/
lemma endsWithin_size
    (h : c.checkForCycles = true ∨ ∀ v ∈ call.arguments, store.Acyclic c.useReflection v) :
    c.EndsWithin store call store.size := by
  rw [endsWithin_iff]
  intro hendless
  obtain ⟨v, hv, hhalt⟩ := List.exists_of_findSome?_eq_some hendless
  exact (suffices_size h hv).halt_ne_endless hhalt

/-- A call whose walk ends halts at the first slot that cannot be read, if there is one. -/
lemma halt_trace_eq (h : c.EndsWithin store call limit) :
    (c.trace store call).halt =
      ((c.preorder store call limit).findSome? Cell.unreadable?).map
        fun slot => .fault slot.accessFault := by
  rw [endsWithin_iff] at h
  rw [trace, Walk.traceAll, Trace.halt_all, preorder, findSome?_flatMap, List.map_findSome?]
  calc
    _ = call.arguments.findSome? fun v =>
        (Walk.trace store c.useReflection limit (Guard.empty c.checkForCycles) v).halt :=
      findSome?_eq_of_ne (fun _ _ hv => Walk.halt_size_eq hv) h
    _ = _ := (findSome?_eq_of_ne (fun _ _ hv => (Walk.halt_trace_eq hv).symm) h).symm

/-- Under a larger bound than that of its store a call comes out the same, and does the same if it
goes to its end. -/
lemma trace_of_size_le (c : Config) (call : Invocation ω) (hlimit : store.size ≤ limit) :
    let larger : Trace ω :=
      .all (Walk.trace store c.useReflection limit (Guard.empty c.checkForCycles)) call.arguments
    larger.halt = (c.trace store call).halt ∧
      (larger.halt = none → larger = c.trace store call) := by
  intro larger
  have hhalt : larger.halt = (c.trace store call).halt := by
    rw [trace, Walk.traceAll, Trace.halt_all, Trace.halt_all]
    exact congrArg (fun f => call.arguments.findSome? f)
      (funext fun v => Walk.halt_eq_of_size_le hlimit)
  refine ⟨hhalt, fun hnone => Trace.all_congr fun v hv => ?_⟩
  rw [hhalt] at hnone
  have hend := Trace.halt_all_eq_none.mp hnone v hv
  exact (Walk.suffices_of_halt_eq_none hend).trace_eq hlimit

/-- Without the signature that it needs a call changes nothing. -/
lemma events_of_signature_eq_none (store : Store ω) (hincludes : c.includesSignature = true)
    (hnone : call.signature = none) (session : Session) :
    c.events store call session =
      (.error (.fault (.missingSignature c.missingPart)), session) := by
  simp [events, signatureEvents, hincludes, hnone]

/-- With it, or if it needs none, a call comes out as its walk does. -/
lemma report_of_signature (store : Store ω)
    (h : c.includesSignature = true → call.signature ≠ none) :
    c.report store call =
      match (c.trace store call).halt with
      | some halt => .error halt
      | none => .ok (Node.itemEvents (c.nodes store call)) := by
  have hhead : ∃ head : List (Event ω), c.signatureEvents call.signature = .ok head := by
    unfold signatureEvents
    cases hincludes : c.includesSignature with
    | false => exact ⟨[], rfl⟩
    | true =>
      obtain ⟨signature, hsignature⟩ := Option.ne_none_iff_exists'.mp (h hincludes)
      exact ⟨c.prefixEvents signature, by simp [hsignature]⟩
  obtain ⟨head, hhead⟩ := hhead
  cases hhalt : (c.trace store call).halt with
  | some halt => simp [report, hhead, hhalt]
  | none =>
    have hreport : c.report store call = .ok (head ++ (c.trace store call).events) := by
      simp [report, hhead, hhalt]
    rw [hreport, (report_eq_ok hreport).2]

lemma countsKey_events {α : Type} (f : List (Event ω) → α) (session : Session) :
    session.CountsKey ((c.events store call session).map (·.map f) id) := by
  rw [events_eq]
  unfold Session.CountsKey report sessionAfter
  cases (c.signatureEvents call.signature : Except Fault (List (Event ω))) with
  | error fault => rfl
  | ok head =>
    cases (c.trace store call).halt with
    | some halt => exact Act.keys_foldl_onSession session _
    | none => exact congrArg (· + 1) (Act.keys_foldl_onSession session _)

lemma report_ne_fieldAccess (store : Store ω) (call : Invocation ω) (h : c.useReflection = false)
    (typeName field : String) :
    c.report store call ≠ .error (.fault (.fieldAccess typeName field)) := by
  intro hreport
  by_cases hsignature : c.includesSignature = true → call.signature ≠ none
  · rw [report_of_signature store hsignature] at hreport
    have hhalt : (c.trace store call).halt = some (.fault (.fieldAccess typeName field)) := by
      cases hhalt : (c.trace store call).halt <;> simp_all
    have hends : c.EndsWithin store call store.size := by
      rw [endsWithin_iff, ← Trace.halt_all]
      change (c.trace store call).halt ≠ _
      simp [hhalt]
    have hnone : (c.preorder store call store.size).findSome? Cell.unreadable? = none := by
      rw [List.findSome?_eq_none_iff]
      intro cell hcell
      obtain ⟨v, _, hinside⟩ := List.mem_flatMap.mp hcell
      rw [h] at hinside
      exact Walk.unreadable?_of_mem_preorder hinside
    rw [halt_trace_eq hends, hnone] at hhalt
    simp at hhalt
  · obtain ⟨hincludes, hnone⟩ : c.includesSignature = true ∧ call.signature = none := by
      simpa using hsignature
    rw [← events_fst c store call {}, events_of_signature_eq_none store hincludes hnone] at hreport
    simp at hreport

variable [OpaqueValue ω]

/-- **How a call comes out.**  A call that lacks the signature it needs fails for that reason and
changes nothing.  Any other call whose walk ends fails exactly if the walk goes into an object with
a slot that cannot be read; the fault names the declaring type and the name of the first such slot,
in the layout of the first such object in pre-order.  If there is none, the call has a key of either
kind.  A call that does not look into objects never fails at a slot, and only a call that has a key
is counted, once. -/
theorem outcome_of_call (c : Config) (store : Store ω) (call : Invocation ω) (session : Session) :
    (c.includesSignature = true → call.signature = none →
      c.structuralKey store call session =
          (.error (.fault (.missingSignature c.missingPart)), session) ∧
        c.hashKey store call session =
          (.error (.fault (.missingSignature c.missingPart)), session)) ∧
    ((c.includesSignature = true → call.signature ≠ none) →
      ∀ limit, c.EndsWithin store call limit →
        match (c.preorder store call limit).findSome? Cell.unreadable? with
        | some slot =>
          (c.structuralKey store call session).1 =
              .error (.fault (.fieldAccess slot.owner.name.text slot.name)) ∧
            (c.hashKey store call session).1 =
              .error (.fault (.fieldAccess slot.owner.name.text slot.name))
        | none =>
          ∃ key, (c.structuralKey store call session).1 = .ok key ∧
            (c.hashKey store call session).1 = .ok key.hash) ∧
    (c.useReflection = false → ∀ typeName field,
      (c.structuralKey store call session).1 ≠ .error (.fault (.fieldAccess typeName field)) ∧
        (c.hashKey store call session).1 ≠ .error (.fault (.fieldAccess typeName field))) ∧
    session.CountsKey (c.structuralKey store call session) ∧
    session.CountsKey (c.hashKey store call session) := by
  refine ⟨?_, ?_, ?_, ?_, ?_⟩
  · intro hincludes hnone
    have hevents := events_of_signature_eq_none store hincludes hnone session
    rw [structuralKey, hashKey, hevents]
    exact ⟨rfl, rfl⟩
  · intro hsignature limit hends
    have hreport := report_of_signature store hsignature
    rw [halt_trace_eq hends] at hreport
    rw [structuralKey_fst, hashKey_fst]
    cases hslot : (c.preorder store call limit).findSome? Cell.unreadable? with
    | some slot =>
      rw [hslot] at hreport
      rw [hreport]
      exact ⟨rfl, rfl⟩
    | none =>
      rw [hslot] at hreport
      rw [map_hash_report, hreport]
      exact ⟨_, rfl, rfl⟩
  · intro hreflect typeName field
    have hreport := report_ne_fieldAccess store call hreflect typeName field
    rw [structuralKey_fst, hashKey_fst]
    cases hresult : c.report store call with
    | ok events => simp [Except.map]
    | error halt =>
      rw [hresult] at hreport
      simpa [Except.map] using hreport
  · exact countsKey_events StructuralKey.ofEvents session
  · exact countsKey_events Hash.ofEvents session

/-- The lock of the cabinet is what fails, and not the handle of the drawer inside it.  Without
looking into the cabinet there is a key, and without a signature there is none. -/
theorem outcome_of_call_cabinet :
    let cabinet : Store Datum := Store.cabinet
    let call : Invocation Datum := { arguments := [.ref .list ⟨0⟩] }
    let inside : Config := { argumentsOnly with useReflection := true }
    inside.EndsWithin cabinet call cabinet.size ∧
      (inside.structuralKey cabinet call {}).1 =
        .error (.fault (.fieldAccess "Cabinet" "lock")) ∧
      (inside.hashKey cabinet call {}).1 = .error (.fault (.fieldAccess "Cabinet" "lock")) ∧
      (∃ key, (argumentsOnly.structuralKey cabinet call {}).1 = .ok key ∧
        (argumentsOnly.hashKey cabinet call {}).1 = .ok key.hash) ∧
      ({} : Config).structuralKey cabinet call {} =
        (.error (.fault (.missingSignature "declaring type and parameter types")), {}) := by
  intro cabinet call inside
  have hends : inside.EndsWithin cabinet call cabinet.size := endsWithin_size (.inl rfl)
  have hwhole : argumentsOnly.EndsWithin cabinet call cabinet.size := endsWithin_size (.inl rfl)
  obtain ⟨_, hfails, _⟩ := outcome_of_call inside cabinet call {}
  obtain ⟨_, hmade, _⟩ := outcome_of_call argumentsOnly cabinet call {}
  obtain ⟨hmissing, _⟩ := outcome_of_call {} cabinet call {}
  obtain ⟨hstructural, hhash⟩ := hfails nofun _ hends
  exact ⟨hends, hstructural, hhash, hmade nofun _ hwhole, (hmissing rfl rfl).1⟩

end Config

end MemoKey
