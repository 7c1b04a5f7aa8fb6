import Mathlib.Data.List.Forall2
import MemoKey.Proofs.Trace

/-!
# Walks in lockstep

Two walks may go over different stores, meet different identities and carry different guards, and
still do the same as far as an observer can tell.  To know that they do, it is enough to relate the
values that both stand at, each with its guard, so that related values are alike on the spot and
have related parts.

## What is compared

* `Trace.seen` is what an observer sees of a trace: some of its acts, and how it ends.  An observer
  is `Act.PathBlind` if it does not see what is done to the path.
* `Cell.members` are the parts of a composite as a walk reads them, with the faults of the slots
  that cannot be read, and `Cell.Matches` compares two composites by heading and members.

## The principle

`Walk.InStep` says what it takes for two walks to do the same at one value, in terms of a relation
for what comes after.  `Walk.seen_trace_eq` concludes from a relation that keeps the walks in step
that their traces look the same, under every bound.
-/

namespace MemoKey

variable {ω : Type}

/-! ## Results that correspond -/

/-- Two results are both values, related by `R`, or both the same error. -/
inductive SameResult {ε α β : Type} (R : α → β → Prop) : Except ε α → Except ε β → Prop where
  | ok {a : α} {b : β} (h : R a b) : SameResult R (.ok a) (.ok b)
  | error (e : ε) : SameResult R (.error e) (.error e)

/-- Lists of computations with results that correspond one by one have results that correspond as a
whole: the same first error, or values related one by one. -/
lemma SameResult.mapM {ε α β γ δ : Type} {R : γ → δ → Prop} {f : α → Except ε γ}
    {g : β → Except ε δ} {xs : List α} {ys : List β}
    (h : List.Forall₂ (fun x y => SameResult R (f x) (g y)) xs ys) :
    SameResult (List.Forall₂ R) (xs.mapM f) (ys.mapM g) := by
  induction h with
  | nil => exact .ok .nil
  | @cons x y xs ys hxy _ ih =>
    rw [List.mapM_cons, List.mapM_cons]
    generalize f x = a, g y = b at hxy
    generalize xs.mapM f = as, ys.mapM g = bs at ih
    cases hxy with
    | error e => exact .error e
    | ok hab =>
      cases ih with
      | error e => exact .error e
      | ok hrest => exact .ok (.cons hab hrest)

/-- Entries correspond if their keys and values do in turn. -/
lemma forall₂_entries {α β : Type} {R : α → β → Prop} {entries : List (α × α)}
    {others : List (β × β)}
    (h : List.Forall₂ R (entries.flatMap fun e => [e.1, e.2])
      (others.flatMap fun e => [e.1, e.2])) :
    List.Forall₂ (fun e e' => R e.1 e'.1 ∧ R e.2 e'.2) entries others := by
  induction entries generalizing others with
  | nil => cases others <;> simp_all
  | cons e rest ih =>
    cases others with
    | nil => simp at h
    | cons e' rest' =>
      simp only [List.flatMap_cons, List.cons_append, List.nil_append, List.forall₂_cons] at h
      exact .cons ⟨h.1, h.2.1⟩ (ih h.2.2)

lemma exists_of_mem_right {α β : Type} {R : α → β → Prop} {xs : List α} {ys : List β}
    (h : List.Forall₂ R xs ys) {y : β} (hy : y ∈ ys) : ∃ x ∈ xs, R x y := by
  induction h with
  | nil => simp at hy
  | cons hab _ ih =>
    rcases List.mem_cons.mp hy with rfl | hrest
    · exact ⟨_, List.mem_cons_self, hab⟩
    · obtain ⟨x, hx, hxy⟩ := ih hrest
      exact ⟨x, List.mem_cons_of_mem _ hx, hxy⟩

lemma SameResult.forall₂_of_ok {ε α β : Type} {R : α → β → Prop} {xs : List α} {ys : List β}
    (h : List.Forall₂ (SameResult R) (xs.map (.ok : α → Except ε α)) (ys.map .ok)) :
    List.Forall₂ R xs ys := by
  rw [List.forall₂_map_left_iff, List.forall₂_map_right_iff] at h
  exact h.imp fun x y hxy => by cases hxy; assumption

/-! ## What is seen of a trace -/

/-- An observer does not see a composite being put on the path or taken off it. -/
def Act.PathBlind {β : Type} (see : Act ω → Option β) : Prop :=
  ∀ id, see (.enter id) = none ∧ see (.exit id) = none

namespace Trace

variable {β : Type} {see : Act ω → Option β}

/-- What an observer sees of a trace: the acts that it can see, and how the trace ends. -/
def seen (see : Act ω → Option β) (t : Trace ω) : List β × Option Halt :=
  (t.acts.filterMap see, t.halt)

lemma seen_append_congr {t t' u u' : Trace ω} (ht : t.seen see = t'.seen see)
    (hu : u.seen see = u'.seen see) : (t ++ u).seen see = (t' ++ u').seen see := by
  obtain ⟨hacts, hhalt⟩ := Prod.mk.inj ht
  obtain ⟨hacts', hhalt'⟩ := Prod.mk.inj hu
  cases h : t.halt with
  | none =>
    rw [append_of_halt_eq_none h, append_of_halt_eq_none (hhalt ▸ h)]
    simp [seen, hacts, hacts', hhalt']
  | some halt => rwa [append_of_halt_eq_some h, append_of_halt_eq_some (hhalt ▸ h)]

lemma seen_all_congr {α γ : Type} {f : α → Trace ω} {g : γ → Trace ω} {xs : List α} {ys : List γ}
    (h : List.Forall₂ (fun x y => (f x).seen see = (g y).seen see) xs ys) :
    (all f xs).seen see = (all g ys).seen see := by
  induction h with
  | nil => rfl
  | cons hxy _ ih => exact seen_append_congr hxy ih

/-- An observer that is blind to the path sees of a composite its cut or its contents. -/
lemma seen_descend (hblind : Act.PathBlind see) (g : Guard) (id : Identity)
    (body : Guard → Trace ω) :
    (descend g id body).seen see =
      if g.cuts id then (report .cycle).seen see else (body (g.below id)).seen see := by
  have hinside (t : Trace ω) : (inside id t).seen see = t.seen see := by
    simp [seen, inside, hblind id]
  unfold descend Guard.below Guard.enter Guard.cuts
  cases g.enabled <;> cases g.contains id <;> simp [hinside]

end Trace

/-! ## Composites that match -/

namespace Cell

/-- The parts of a composite as a walk reads them, in order.  A slot that cannot be read gives its
fault. -/
def members : Cell ω → List (Except Fault (Value ω))
  | .seq _ items => items.map .ok
  | .map entries => (entries.flatMap fun e => [e.1, e.2]).map .ok
  | .object o => o.type.layout.map o.readOrFault

/-- The type whose layout is asked for when a composite is taken apart. -/
def type? : Cell ω → Option TypeInfo
  | .object o => some o.type
  | _ => none

/-- Two composites match if they have the same heading and members that correspond one by one:
parts related by `R`, and the same faults at the same slots. -/
structure Matches (R : Value ω → Value ω → Prop) (cell cell' : Cell ω) : Prop where
  heading : cell.heading = cell'.heading
  members : List.Forall₂ (SameResult R) cell.members cell'.members

lemma isObject_eq_of_heading_eq {cell cell' : Cell ω} (h : cell.heading = cell'.heading) :
    cell.isObject = cell'.isObject := by
  cases cell <;> cases cell' <;> simp_all [heading, isObject]

lemma ok_mem_members {cell : Cell ω} {v : Value ω} (h : .ok v ∈ cell.members) : v ∈ cell.parts := by
  cases cell with
  | seq sequence items => simpa [members, parts] using h
  | map entries => simpa [members, parts] using h
  | object o =>
    obtain ⟨slot, hslot, hread⟩ := List.mem_map.mp h
    refine List.mem_map.mpr ⟨slot, hslot, ?_⟩
    unfold Object.readOrFault at hread
    split at hread <;> simp_all

variable {R R' : Value ω → Value ω → Prop} {cell cell' : Cell ω}

/-- The relation between the parts of composites that match may be weakened; what it is weakened to
needs to hold of parts only. -/
lemma Matches.mono (h : cell.Matches R cell')
    (hR : ∀ v ∈ cell.parts, ∀ w ∈ cell'.parts, R v w → R' v w) : cell.Matches R' cell' := by
  refine ⟨h.heading, List.forall₂_iff_zip.mpr ⟨h.members.length_eq, fun {a b} hab => ?_⟩⟩
  obtain ⟨ha, hb⟩ := List.of_mem_zip hab
  have hsame : SameResult R a b := (List.forall₂_iff_zip.mp h.members).2 hab
  cases hsame with
  | ok hvw => exact .ok (hR _ (ok_mem_members ha) _ (ok_mem_members hb) hvw)
  | error fault => exact .error fault

lemma matches_self (h : ∀ v ∈ cell.parts, R v v) : cell.Matches R cell := by
  refine ⟨rfl, List.forall₂_same.mpr fun a ha => ?_⟩
  cases a with
  | ok v => exact .ok (h v (ok_mem_members ha))
  | error fault => exact .error fault

/-- Traces of composites that match look the same if those of related parts do, and if the same is
seen of a request for either layout. -/
lemma seen_trace_eq {β : Type} {see : Act ω → Option β} {t t' : Value ω → Trace ω}
    (h : cell.Matches R cell')
    (hrequest : cell.type?.bind (fun info => see (.request info)) =
      cell'.type?.bind (fun info => see (.request info)))
    (ht : ∀ v w, R v w → (t v).seen see = (t' w).seen see) :
    (cell.trace t).seen see = (cell'.trace t').seen see := by
  obtain ⟨hheading, hmembers⟩ := h
  cases cell with
  | seq sequence items =>
    cases cell' <;> simp only [heading, Composite.seq.injEq, reduceCtorEq] at hheading
    rename_i sequence' items'
    subst hheading
    have hall : (Trace.all t items).seen see = (Trace.all t' items').seen see :=
      Trace.seen_all_congr ((SameResult.forall₂_of_ok hmembers).imp ht)
    exact Trace.seen_append_congr rfl (Trace.seen_append_congr hall rfl)
  | map entries =>
    cases cell' <;> simp only [heading, reduceCtorEq] at hheading
    rename_i entries'
    refine Trace.seen_append_congr rfl (Trace.seen_append_congr (Trace.seen_all_congr ?_) rfl)
    refine (forall₂_entries (SameResult.forall₂_of_ok hmembers)).imp fun e e' he => ?_
    exact Trace.seen_append_congr rfl (Trace.seen_append_congr (ht _ _ he.1)
      (Trace.seen_append_congr (ht _ _ he.2) rfl))
  | object o =>
    cases cell' <;> simp only [heading, Composite.object.injEq, reduceCtorEq] at hheading
    rename_i o'
    have hseen : (Trace.act (.request o.type) : Trace ω).seen see =
        (Trace.act (.request o'.type) : Trace ω).seen see := by
      have hsame : see (.request o.type) = see (.request o'.type) := hrequest
      simp [Trace.seen, Trace.act, List.filterMap_cons, hsame]
    have hread : SameResult (List.Forall₂ R) (o.readAll o.type.layout)
        (o'.readAll o'.type.layout) := by
      refine SameResult.mapM ?_
      rwa [members, members, List.forall₂_map_left_iff, List.forall₂_map_right_iff] at hmembers
    rw [trace, trace]
    refine Trace.seen_append_congr hseen ?_
    generalize o.readAll o.type.layout = values, o'.readAll o'.type.layout = values' at hread
    cases hread with
    | error fault => rfl
    | ok hvalues =>
      simp only [hheading.1, hheading.2]
      exact Trace.seen_append_congr rfl
        (Trace.seen_append_congr (Trace.seen_all_congr (hvalues.imp ht)) rfl)

end Cell

/-! ## The principle -/

namespace Walk

/-- Two walks are in step at two values, with the relation `R` for the values to come: they find the
same atom or the same whole value, or both cut, or both go into composites that match. -/
inductive InStep {β : Type} (see : Act ω → Option β) (s t : Store ω) (reflect : Bool)
    (R : Guard → Value ω → Guard → Value ω → Prop) (g : Guard) (v : Value ω) (g' : Guard)
    (w : Value ω) : Prop where
  | atom {a : Atom} (hv : s.sight reflect v = .atom a) (hw : t.sight reflect w = .atom a)
  | whole {x : Whole ω} (hv : s.sight reflect v = .whole x) (hw : t.sight reflect w = .whole x)
  | cut {id other : Identity} {cell cell' : Cell ω}
      (hv : s.sight reflect v = .composite id cell) (hcut : g.cuts id = true)
      (hw : t.sight reflect w = .composite other cell') (hcut' : g'.cuts other = true)
  | inside {id other : Identity} {cell cell' : Cell ω}
      (hv : s.sight reflect v = .composite id cell) (hcut : g.cuts id = false)
      (hw : t.sight reflect w = .composite other cell') (hcut' : g'.cuts other = false)
      (hrequest : cell.type?.bind (fun info => see (.request info)) =
        cell'.type?.bind (fun info => see (.request info)))
      (hcells : cell.Matches (fun a b => R (g.below id) a (g'.below other) b) cell')

section

variable {β : Type} {see : Act ω → Option β} {s t : Store ω} {reflect : Bool}

/-- Walks that go into two composites look the same if what comes after does, and if the same is
seen of a request for either layout. -/
lemma seen_trace_eq_of_inside (hblind : Act.PathBlind see) {g g' : Guard} {v w : Value ω}
    {id other : Identity} {cell cell' : Cell ω} {limit : Nat}
    (hv : s.sight reflect v = .composite id cell) (hcut : g.cuts id = false)
    (hw : t.sight reflect w = .composite other cell') (hcut' : g'.cuts other = false)
    (hrequest : cell.type?.bind (fun info => see (.request info)) =
      cell'.type?.bind (fun info => see (.request info)))
    (hcells : cell.Matches (fun a b => ∀ below < limit,
      (trace s reflect below (g.below id) a).seen see =
        (trace t reflect below (g'.below other) b).seen see) cell') :
    (trace s reflect limit g v).seen see = (trace t reflect limit g' w).seen see := by
  cases limit with
  | zero =>
    rw [trace_zero hv, trace_zero hw, Trace.seen_descend hblind, Trace.seen_descend hblind, hcut,
      hcut']
  | succ limit =>
    rw [trace_succ hv, trace_succ hw, Trace.seen_descend hblind, Trace.seen_descend hblind, hcut,
      hcut']
    exact Cell.seen_trace_eq hcells hrequest fun _ _ hab => hab limit (Nat.lt_succ_self limit)

/-- **Walks that are kept in step look the same.**  If walks are in step wherever a relation holds,
with the same relation for what comes after, then their traces look the same wherever it holds. -/
theorem seen_trace_eq (hblind : Act.PathBlind see)
    {R : Guard → Value ω → Guard → Value ω → Prop}
    (hR : ∀ g v g' w, R g v g' w → InStep see s t reflect R g v g' w) (limit : Nat)
    {g g' : Guard} {v w : Value ω} (h : R g v g' w) :
    (trace s reflect limit g v).seen see = (trace t reflect limit g' w).seen see := by
  induction limit using Nat.strongRecOn generalizing g v g' w with
  | _ limit ih =>
    cases hR g v g' w h with
    | atom hv hw => rw [trace_of_atom hv, trace_of_atom hw]
    | whole hv hw => rw [trace_of_whole hv, trace_of_whole hw]
    | cut hv hcut hw hcut' => rw [trace_of_cuts hv hcut, trace_of_cuts hw hcut']
    | inside hv hcut hw hcut' hrequest hcells =>
      refine seen_trace_eq_of_inside hblind hv hcut hw hcut' hrequest ?_
      exact hcells.mono fun _ _ _ _ hab below hbelow => ih below hbelow hab

end

end Walk

/-! ## Calls -/

namespace Act

/-- The acts that do more than change the path. -/
def offPath : Act ω → Option (Act ω)
  | enter _ => none
  | exit _ => none
  | a => some a

lemma pathBlind_offPath : PathBlind (offPath : Act ω → Option (Act ω)) :=
  fun _ => ⟨rfl, rfl⟩

lemma pathBlind_event? : PathBlind (event? : Act ω → Option (Event ω)) :=
  fun _ => ⟨rfl, rfl⟩

/-- Sessions and events take no part in the path. -/
lemma foldl_onSession_filterMap_offPath (acts : List (Act ω)) (s : Session) :
    (acts.filterMap offPath).foldl onSession s = acts.foldl onSession s := by
  induction acts generalizing s with
  | nil => rfl
  | cons a rest ih => cases a <;> exact ih _

lemma filterMap_event?_offPath (acts : List (Act ω)) :
    (acts.filterMap offPath).filterMap event? = acts.filterMap event? := by
  rw [List.filterMap_filterMap]
  refine congrArg (fun f => acts.filterMap f) (funext fun a => ?_)
  cases a <;> rfl

end Act

namespace Config

variable {c c' : Config} {s t : Store ω} {call other : Invocation ω}

/-- Calls report the same if they have the same parts of a signature, and the traces of their
arguments end the same way and report the same events if they go to their ends. -/
lemma report_congr
    (hhead : (c.signatureEvents call.signature : Except Fault (List (Event ω))) =
      c'.signatureEvents other.signature)
    (hhalt : (c.trace s call).halt = (c'.trace t other).halt)
    (hevents : (c.trace s call).halt = none →
      (c.trace s call).events = (c'.trace t other).events) :
    c.report s call = c'.report t other := by
  unfold report
  rw [hhead, ← hhalt]
  cases hend : (c.trace s call).halt with
  | some halt => rfl
  | none => rw [hevents hend]

/-- Calls do the same, to the session too, if their traces differ in the path only. -/
lemma events_congr
    (hhead : (c.signatureEvents call.signature : Except Fault (List (Event ω))) =
      c'.signatureEvents other.signature)
    (h : (c.trace s call).seen Act.offPath = (c'.trace t other).seen Act.offPath)
    (session : Session) : c.events s call session = c'.events t other session := by
  obtain ⟨hacts, hhalt⟩ := Prod.mk.inj h
  have hevents : (c.trace s call).events = (c'.trace t other).events := by
    rw [Trace.events, Trace.events, ← Act.filterMap_event?_offPath (c.trace s call).acts, hacts,
      Act.filterMap_event?_offPath]
  have hsession : c.sessionAfter s call session = c'.sessionAfter t other session := by
    unfold sessionAfter
    rw [hhead, hhalt, ← Act.foldl_onSession_filterMap_offPath (c.trace s call).acts, hacts,
      Act.foldl_onSession_filterMap_offPath]
  rw [events_eq, events_eq, report_congr hhead hhalt fun _ => hevents, hsession]

end Config

end MemoKey
