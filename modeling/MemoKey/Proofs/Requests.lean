import MemoKey.Proofs.Counting

/-!
# Which layouts a walk asks for

A walk asks for the layout of an object before it reads anything.  So the layouts that it asks for
are those of the objects that it goes into, in the order in which it does, and of one more if it
halts: the first object that cannot be read.

`through` is a list through the first member of a sort.  `Trace.Visits` says of a trace and of some
composites that the trace asks for the layouts of the objects among them, through the first one that
cannot be read, and halts there.  Each building block of a trace has one lemma, as in `Walk.trace`,
and `Walk.visits_trace` puts them together: a walk visits the composites in pre-order.

`Config.requests_eq` is what this means for the key of a call.
-/

namespace MemoKey

variable {ω : Type}

/-! ## Lists that end early -/

/-- The members of a list through the first one that has a property. -/
def through {α : Type} (p : α → Bool) : List α → List α
  | [] => []
  | x :: rest => if p x then [x] else x :: through p rest

lemma through_append {α : Type} (p : α → Bool) (xs ys : List α) :
    through p (xs ++ ys) = if xs.any p then through p xs else xs ++ through p ys := by
  induction xs with
  | nil => rfl
  | cons x rest ih =>
    rw [List.cons_append, through, through, ih, List.any_cons]
    cases p x with
    | true => rfl
    | false => cases rest.any p <;> rfl

lemma through_eq_self {α : Type} {p : α → Bool} {xs : List α} (h : xs.any p = false) :
    through p xs = xs := by
  have happend := through_append p xs []
  rwa [List.append_nil, h, if_neg Bool.false_ne_true, through, List.append_nil] at happend

/-! ## Traces -/

/-- The type whose layout an act asks for. -/
def Act.requested? : Act ω → Option TypeInfo
  | request info => some info
  | _ => none

/-- A composite with a slot that cannot be read. -/
def Cell.isUnreadable (cell : Cell ω) : Bool :=
  cell.unreadable?.isSome

namespace Trace

/-- The types whose layouts are asked for, in order. -/
def requests (t : Trace ω) : List TypeInfo :=
  t.acts.filterMap Act.requested?

/-- A trace asks for the layouts of the objects among some composites, through the first one that
cannot be read, and stops short if there is such a one. -/
structure Visits (t : Trace ω) (cells : List (Cell ω)) : Prop where
  requests_eq : t.requests = (through Cell.isUnreadable cells).filterMap Cell.type?
  halts : t.halt.isSome = cells.any Cell.isUnreadable

variable {t u : Trace ω} {xs ys : List (Cell ω)}

lemma visits_report (event : Event ω) : (report event).Visits [] :=
  ⟨rfl, rfl⟩

lemma Visits.append (ht : t.Visits xs) (hu : t.halt = none → u.Visits ys) :
    (t ++ u).Visits (xs ++ ys) := by
  cases hhalt : t.halt with
  | none =>
    have hread : xs.any Cell.isUnreadable = false := by rw [← ht.halts, hhalt, Option.isSome_none]
    obtain ⟨hrequests, hhalts⟩ := hu hhalt
    rw [append_of_halt_eq_none hhalt]
    refine ⟨?_, ?_⟩
    · have hfirst : t.requests = xs.filterMap Cell.type? := by
        rw [ht.requests_eq, through_eq_self hread]
      rw [through_append, hread, if_neg Bool.false_ne_true, List.filterMap_append, ← hfirst,
        ← hrequests]
      exact List.filterMap_append
    · rw [List.any_append, hread, Bool.false_or]
      exact hhalts
  | some halt =>
    have hunread : xs.any Cell.isUnreadable = true := by rw [← ht.halts, hhalt, Option.isSome_some]
    rw [append_of_halt_eq_some hhalt]
    refine ⟨?_, ?_⟩
    · rw [through_append, hunread, if_pos rfl]
      exact ht.requests_eq
    · rw [List.any_append, hunread, Bool.true_or, hhalt, Option.isSome_some]

lemma Visits.inside (ht : t.Visits xs) (id : Identity) : (inside id t).Visits xs := by
  refine ⟨?_, ht.halts⟩
  rw [← ht.requests_eq]
  simp [requests, Trace.inside, Act.requested?, List.filterMap_cons]

lemma visits_descend {g : Guard} {id : Identity} {body : Guard → Trace ω}
    (hcut : g.cuts id = false) (h : (body (g.below id)).Visits xs) :
    (descend g id body).Visits xs := by
  obtain hopen | hinside := descend_of_not_cuts hcut body
  · rwa [hopen]
  · rw [hinside]
    exact h.inside id

/-- Several traces visit what they visit one after the other, as long as none has no end. -/
lemma visits_all {α : Type} {f : α → Trace ω} {cells : α → List (Cell ω)} {as : List α}
    (hends : (all f as).halt ≠ some .endless)
    (h : ∀ a ∈ as, (f a).halt ≠ some .endless → (f a).Visits (cells a)) :
    (all f as).Visits (as.flatMap cells) := by
  induction as with
  | nil => exact ⟨rfl, rfl⟩
  | cons a rest ih =>
    obtain ⟨ha, hrest⟩ := List.forall_mem_cons.mp h
    rw [all, halt_append] at hends
    rw [all, List.flatMap_cons]
    refine (ha fun hendless => hends ?_).append fun hnone => ih (fun hendless => hends ?_) hrest
    · rw [hendless, Option.some_or]
    · rw [hnone, Option.none_or, hendless]

/-- An object that cannot be read is the last one whose layout is asked for. -/
lemma visits_object_unreadable {o : Object ω} (h : (Cell.object o).isUnreadable = true)
    (halt : Halt) (xs : List (Cell ω)) :
    (act (.request o.type) ++ halting halt).Visits (.object o :: xs) := by
  refine ⟨?_, ?_⟩
  · rw [through, h, if_pos rfl]
    rfl
  · rw [List.any_cons, h, Bool.true_or]
    rfl

lemma visits_object {o : Object ω} (h : (Cell.object o).isUnreadable = false)
    (ht : t.Visits xs) : (act (.request o.type) ++ t).Visits (.object o :: xs) := by
  rw [append_of_halt_eq_none rfl]
  refine ⟨?_, ?_⟩
  · rw [through, h, if_neg Bool.false_ne_true, List.filterMap_cons, Cell.type?, ← ht.requests_eq]
    rfl
  · rw [List.any_cons, h, Bool.false_or, ← ht.halts]

end Trace

/-- A composite is visited before its parts. -/
lemma Cell.visits_trace {cell : Cell ω} {t : Value ω → Trace ω} {cells : Value ω → List (Cell ω)}
    (hends : (cell.trace t).halt ≠ some .endless)
    (h : ∀ v ∈ cell.parts, (t v).halt ≠ some .endless → (t v).Visits (cells v)) :
    (cell.trace t).Visits (cell :: cell.parts.flatMap cells) := by
  -- Marks of where a composite begins and ends take no part.
  have hbracket {α : Type} (event : Event ω) {f : α → Trace ω} {as : List α} {xs : List (Cell ω)}
      (hall : (Trace.all f as).Visits xs) :
      (Trace.report event ++ (.all f as ++ .report .closes)).Visits xs := by
    have hrest := hall.append fun _ => Trace.visits_report .closes
    rw [List.append_nil] at hrest
    exact (Trace.visits_report event).append fun _ => hrest
  have hreadable {u : Trace ω} {xs : List (Cell ω)} (htype : cell.type? = none)
      (hread : cell.isUnreadable = false) (hu : u.Visits xs) : u.Visits (cell :: xs) := by
    refine ⟨?_, ?_⟩
    · rw [hu.requests_eq, through, hread, if_neg Bool.false_ne_true, List.filterMap_cons, htype]
    · rw [hu.halts, List.any_cons, hread, Bool.false_or]
  cases cell with
  | seq sequence items =>
    rw [trace, Trace.halt_bracket] at hends
    exact hreadable rfl rfl (hbracket _ (Trace.visits_all hends h))
  | map entries =>
    rw [trace, Trace.halt_bracket] at hends
    have hparts : (Cell.map entries).parts.flatMap cells =
        entries.flatMap fun e => cells e.1 ++ cells e.2 := by
      simp [parts, List.flatMap_assoc]
    rw [hparts]
    refine hreadable rfl rfl (hbracket _ (Trace.visits_all hends fun e he hentry => ?_))
    simp only [Trace.halt_append] at hentry
    have hkey : (t e.1).Visits (cells e.1) :=
      h e.1 (fst_mem_parts he) fun hendless => hentry (by simp [hendless, Trace.report, Trace.act])
    have hvalue (hnone : (t e.1).halt = none) : (t e.2).Visits (cells e.2) :=
      h e.2 (snd_mem_parts he) fun hendless =>
        hentry (by simp [hnone, hendless, Trace.report, Trace.act])
    refine (Trace.visits_report _).append fun _ => hkey.append fun hnone => ?_
    have hrest := (hvalue hnone).append fun _ => Trace.visits_report .closes
    rwa [List.append_nil] at hrest
  | object o =>
    have hunreadable : (Cell.object o).isUnreadable =
        (o.type.layout.find? fun slot => (o.read slot).isNone).isSome := rfl
    rw [trace, Object.readAll_eq] at hends ⊢
    cases hslot : o.type.layout.find? fun slot => (o.read slot).isNone with
    | some slot => exact Trace.visits_object_unreadable (by rw [hunreadable, hslot]; rfl) _ _
    | none =>
      simp only [hslot] at hends
      rw [Trace.halt_append, Trace.halt_bracket] at hends
      exact Trace.visits_object (by rw [hunreadable, hslot]; rfl)
        (hbracket _ (Trace.visits_all hends h))

/-! ## Walks and calls -/

namespace Walk

variable {store : Store ω} {reflect : Bool} {limit : Nat} {g : Guard} {v : Value ω}

/-- A walk visits the composites that it goes into in pre-order. -/
theorem visits_trace (h : (trace store reflect limit g v).halt ≠ some .endless) :
    (trace store reflect limit g v).Visits (preorder store reflect limit g v) := by
  induction limit, g, v using boundInduction store reflect with
  | atom limit g v a hsight =>
    rw [trace_of_atom hsight, preorder, hsight]
    exact Trace.visits_report _
  | whole limit g v x hsight =>
    rw [trace_of_whole hsight, preorder, hsight]
    exact Trace.visits_report _
  | cut limit g v id cell hsight hcut =>
    rw [trace_of_cuts hsight hcut, preorder, hsight]
    simpa [hcut] using Trace.visits_report _
  | outside g v id cell hsight hcut => exact absurd (halt_trace_zero hsight hcut) h
  | inside limit g v id cell hsight hcut ih =>
    rw [trace_succ hsight, Trace.halt_descend, hcut, if_neg Bool.false_ne_true] at h
    rw [trace_succ hsight, preorder_succ hsight hcut]
    exact Trace.visits_descend hcut (Cell.visits_trace h ih)

end Walk

/-- The types whose layouts the making of a key asks for. -/
def Config.requests (c : Config) (store : Store ω) (call : Invocation ω) : List TypeInfo :=
  (c.callTrace store call).requests

/-- A key asks for the layouts of the objects that the walk goes into, in pre-order and through the
first one that cannot be read, and for none if it lacks a signature. -/
lemma Config.requests_eq {c : Config} {store : Store ω} {call : Invocation ω}
    (h : c.report store call ≠ .error .endless) :
    c.requests store call =
      match (c.signatureEvents call.signature : Except Fault (List (Event ω))) with
      | .error _ => []
      | .ok _ =>
        (through Cell.isUnreadable (c.preorder store call store.size)).filterMap Cell.type? := by
  have hends : (c.callTrace store call).halt ≠ some .endless := by
    rw [halt_callTrace]
    cases hreport : c.report store call with
    | error halt => simpa [hreport] using h
    | ok events => simp
  unfold requests callTrace at *
  cases hhead : (c.signatureEvents call.signature : Except Fault (List (Event ω))) with
  | error fault => rfl
  | ok head =>
    simp only [hhead] at hends
    exact (Trace.visits_all hends fun v _ hv => Walk.visits_trace hv).requests_eq

end MemoKey
