import MemoKey.Generator
import MemoKey.Proofs.Sight

/-!
# Walks as traces

A walk is a computation with state, but nothing that it reports, counts or caches ever decides
what it does next.  So a walk amounts to a list of acts that the argument graph and the guard
determine beforehand: its trace.

## Traces

`Act` is one thing that a walk does and `Trace` a list of them, with the reason for stopping short
if there is one.  `Trace.leads` is what becomes of the state.  `Walk.trace` is the trace of a walk,
written without state: it goes by the recursion of `Walk.value` and by `Store.sight`.
`Cell.halt_trace` says what halts a composite, and `Walk.boundInduction` is induction over what a
walk meets, with a case for each of the ways in which it goes on.

## The walk follows its trace

`Walk.Follows` says that a walk does what a trace says, from any state with a given guard, and
leaves the guard as it found it.  Each building block of a walk has one lemma, and
`Walk.value_follows` puts them together.  `Config.events_eq` carries the result to calls: the events
of a call do not depend on the session, and `Config.report` names them, as `Config.sessionAfter`
names what becomes of the session.
-/

namespace MemoKey

variable {ω : Type}

namespace Guard

/-- Whether a guard cuts a composite. -/
def cuts (g : Guard) (id : Identity) : Bool :=
  g.enabled && g.contains id

/-- The guard inside a composite that is not cut. -/
def below (g : Guard) (id : Identity) : Guard :=
  (g.enter id).2

lemma below_enabled {path : List Identity} {id : Identity} (h : id ∉ path) :
    below ⟨path, true⟩ id = ⟨id :: path, true⟩ := by
  simp [below, enter, contains, h]

@[simp] lemma cuts_enabled (path : List Identity) (id : Identity) :
    cuts ⟨path, true⟩ id = decide (id ∈ path) := by
  simp [cuts, contains, List.contains_eq_mem]

end Guard

/-- A search through lists one after the other. -/
lemma findSome?_flatMap {α β γ : Type} (f : α → List β) (g : β → Option γ) (xs : List α) :
    (xs.flatMap f).findSome? g = xs.findSome? fun x => (f x).findSome? g := by
  induction xs with
  | nil => rfl
  | cons x rest ih =>
    rw [List.flatMap_cons, List.findSome?_append, ih, List.findSome?_cons]
    cases (f x).findSome? g <;> rfl

/-! ## Traces -/

/-- One act of a walk. -/
inductive Act (ω : Type) where
  /-- An event is reported, and counted if its kind is. -/
  | report (event : Event ω)
  /-- A layout is asked for. -/
  | request (info : TypeInfo)
  /-- A composite is put on the path. -/
  | enter (id : Identity)
  /-- A composite is taken off the path. -/
  | exit (id : Identity)

/-- How an event is counted: cuts, values kept whole and objects taken apart are. -/
def Event.tally : Event ω → Counters → Counters
  | .cycle => .recordCycle
  | .whole _ => .recordWhole
  | .opens (.object _ _) => .recordObject
  | _ => id

namespace Act

/-- The event of an act. -/
def event? : Act ω → Option (Event ω)
  | report event => some event
  | _ => none

/-- What an act does to the guard. -/
def onGuard (g : Guard) : Act ω → Guard
  | enter id => { g with path := id :: g.path }
  | exit id => g.exit id
  | _ => g

/-- What an act does to the session. -/
def onSession (s : Session) : Act ω → Session
  | report event => s.record event.tally
  | request info => (s.layout info).2
  | _ => s

end Act

/-- The acts of a walk, in order, and why the walk halts after them if it does. -/
structure Trace (ω : Type) where
  acts : List (Act ω)
  halt : Option Halt := none

namespace Trace

/-- No act. -/
def nil : Trace ω :=
  ⟨[], none⟩

/-- A single act. -/
def act (a : Act ω) : Trace ω :=
  ⟨[a], none⟩

/-- A single event. -/
def report (event : Event ω) : Trace ω :=
  act (.report event)

/-- Halting at once. -/
def halting (halt : Halt) : Trace ω :=
  ⟨[], some halt⟩

/-- One trace after another.  After a halt there is nothing. -/
def append (t u : Trace ω) : Trace ω :=
  match t.halt with
  | none => ⟨t.acts ++ u.acts, u.halt⟩
  | some _ => t

instance : Append (Trace ω) := ⟨append⟩

/-- The traces of several things, one after the other. -/
def all {α : Type} (f : α → Trace ω) : List α → Trace ω
  | [] => nil
  | x :: rest => f x ++ all f rest

/-- A trace with a composite on the path.  The composite leaves the path also after a halt. -/
def inside (id : Identity) (t : Trace ω) : Trace ω :=
  ⟨.enter id :: (t.acts ++ [.exit id]), t.halt⟩

/-- Entering a composite through a guard: the trace of its contents, or a cut. -/
def descend (g : Guard) (id : Identity) (body : Guard → Trace ω) : Trace ω :=
  match g.enter id with
  | (.cycle, _) => report .cycle
  | (.first, g') => inside id (body g')
  | (.untracked, _) => body g

/-- The events of a trace. -/
def events (t : Trace ω) : List (Event ω) :=
  t.acts.filterMap Act.event?

/-- How a trace ends. -/
def result (t : Trace ω) : Except Halt Unit :=
  match t.halt with
  | none => .ok ()
  | some halt => .error halt

/-- What becomes of the state of a walk. -/
def leads (t : Trace ω) (p : Progress ω) : Progress ω where
  guard := t.acts.foldl Act.onGuard p.guard
  session := t.acts.foldl Act.onSession p.session
  events := p.events ++ t.events

@[simp] lemma halt_append (t u : Trace ω) : (t ++ u).halt = t.halt.or u.halt := by
  change (append t u).halt = _
  unfold append
  cases h : t.halt <;> simp [h]

lemma append_of_halt_eq_none {t : Trace ω} (h : t.halt = none) (u : Trace ω) :
    t ++ u = ⟨t.acts ++ u.acts, u.halt⟩ := by
  change append t u = _
  simp [append, h]

lemma append_of_halt_eq_some {t : Trace ω} {halt : Halt} (h : t.halt = some halt) (u : Trace ω) :
    t ++ u = t := by
  change append t u = _
  simp [append, h]

lemma events_append {t : Trace ω} (h : t.halt = none) (u : Trace ω) :
    (t ++ u).events = t.events ++ u.events := by
  simp [append_of_halt_eq_none h, events]

@[simp] lemma events_report (event : Event ω) : (report event).events = [event] := by
  simp [report, act, events, Act.event?]

@[simp] lemma events_inside (id : Identity) (t : Trace ω) : (inside id t).events = t.events := by
  simp [inside, events, Act.event?, List.filterMap_cons]

lemma descend_of_cuts {g : Guard} {id : Identity} (h : g.cuts id = true)
    (body : Guard → Trace ω) : descend g id body = report .cycle := by
  obtain ⟨henabled, hcontains⟩ : g.enabled = true ∧ g.contains id = true := by
    simpa [Guard.cuts] using h
  simp [descend, Guard.enter, henabled, hcontains]

/-- A composite that is not cut is put on the path, if there is one, while its contents are
walked. -/
lemma descend_of_not_cuts {g : Guard} {id : Identity} (h : g.cuts id = false)
    (body : Guard → Trace ω) :
    descend g id body = body (g.below id) ∨ descend g id body = inside id (body (g.below id)) := by
  unfold Guard.cuts at h
  unfold descend Guard.below Guard.enter
  cases henabled : g.enabled <;> cases hcontains : g.contains id <;> simp_all

/-- Only the guard inside the composite matters, and only if there is no cut. -/
lemma descend_congr {g : Guard} {id : Identity} {body body' : Guard → Trace ω}
    (h : g.cuts id = false → body (g.below id) = body' (g.below id)) :
    descend g id body = descend g id body' := by
  unfold Guard.below Guard.enter Guard.cuts at h
  unfold descend Guard.enter
  cases henabled : g.enabled <;> cases hcontains : g.contains id <;>
    simp_all

/-- A composite that is cut is one event, any other is what is inside. -/
lemma halt_descend (g : Guard) (id : Identity) (body : Guard → Trace ω) :
    (descend g id body).halt = if g.cuts id then none else (body (g.below id)).halt := by
  unfold descend Guard.below Guard.enter Guard.cuts
  cases g.enabled <;> cases g.contains id <;> rfl

lemma events_descend (g : Guard) (id : Identity) (body : Guard → Trace ω) :
    (descend g id body).events = if g.cuts id then [.cycle] else (body (g.below id)).events := by
  unfold descend Guard.below Guard.enter Guard.cuts
  cases g.enabled <;> cases g.contains id <;> simp

section All

variable {α : Type} {f f' : α → Trace ω} {xs : List α}

lemma all_congr (h : ∀ x ∈ xs, f x = f' x) : all f xs = all f' xs := by
  induction xs with
  | nil => rfl
  | cons x rest ih =>
    obtain ⟨hx, hrest⟩ := List.forall_mem_cons.mp h
    rw [all, all, hx, ih hrest]

/-- Several traces halt as the first of them that halts. -/
lemma halt_all (f : α → Trace ω) (xs : List α) :
    (all f xs).halt = xs.findSome? fun x => (f x).halt := by
  induction xs with
  | nil => rfl
  | cons x rest ih =>
    rw [all, halt_append, ih, List.findSome?_cons]
    cases (f x).halt <;> rfl

lemma halt_all_eq_none : (all f xs).halt = none ↔ ∀ x ∈ xs, (f x).halt = none := by
  rw [halt_all, List.findSome?_eq_none_iff]

/-- What halts a trace of several things halts one of them. -/
lemma exists_of_halt_all {halt : Halt} (h : (all f xs).halt = some halt) :
    ∃ x ∈ xs, (f x).halt = some halt := by
  rw [halt_all] at h
  exact List.exists_of_findSome?_eq_some h

/-- An event, several things and a closing event halt as the several things do. -/
lemma halt_bracket (event : Event ω) :
    (report event ++ (all f xs ++ report .closes)).halt = (all f xs).halt := by
  simp [report, act]

end All

lemma leads_append_of_halt_eq_none {t : Trace ω} (h : t.halt = none) (u : Trace ω)
    (p : Progress ω) : (t ++ u).leads p = u.leads (t.leads p) := by
  simp only [append_of_halt_eq_none h, leads, events, List.foldl_append, List.filterMap_append,
    Progress.mk.injEq, true_and]
  exact Array.toList_inj.mp (by simp)

lemma leads_act (a : Act ω) (p : Progress ω) :
    (act a).leads p = ⟨a.onGuard p.guard, a.onSession p.session, p.events ++ a.event?.toList⟩ := by
  cases h : a.event? <;> simp [act, leads, events, h]

/-- A composite is on the path while its contents are walked, and off it again afterwards. -/
lemma leads_inside (id : Identity) (t : Trace ω) (p : Progress ω) :
    (inside id t).leads p =
      let q := t.leads { p with guard := { p.guard with path := id :: p.guard.path } }
      { q with guard := q.guard.exit id } := by
  simp [inside, leads, events, Act.event?, Act.onGuard, Act.onSession, List.filterMap_cons]

@[simp] lemma leads_nil (p : Progress ω) : (nil : Trace ω).leads p = p := by
  simp [nil, leads, events]

@[simp] lemma leads_halting (halt : Halt) (p : Progress ω) :
    (halting halt : Trace ω).leads p = p := by
  simp [halting, leads, events]

end Trace

/-- The trace of what is inside a composite, its parts traced in the given way. -/
def Cell.trace (visit : Value ω → Trace ω) : Cell ω → Trace ω
  | .seq sequence items =>
    .report (.opens (.seq sequence)) ++ (.all visit items ++ .report .closes)
  | .map entries =>
    let entry (e : Value ω × Value ω) : Trace ω :=
      .report (.opens .entry) ++ (visit e.1 ++ (visit e.2 ++ .report .closes))
    .report (.opens .map) ++ (.all entry entries ++ .report .closes)
  | .object o =>
    .act (.request o.type) ++
      match o.readAll o.type.layout with
      | .error fault => .halting (.fault fault)
      | .ok values =>
        .report (.opens (.object o.type.name (o.type.layout.map (·.name)))) ++
          (.all visit values ++ .report .closes)

/-- The fault that a slot cannot be read. -/
def Slot.accessFault (slot : Slot) : Fault :=
  .fieldAccess slot.owner.name.text slot.name

namespace Object

/-- Reading several slots fails at the first one that cannot be read. -/
lemma readAll_eq (o : Object ω) (slots : List Slot) :
    o.readAll slots =
      match slots.find? fun slot => (o.read slot).isNone with
      | some slot => .error slot.accessFault
      | none => .ok (slots.map fun slot => (o.read slot).getD .null) := by
  unfold readAll
  induction slots with
  | nil => rfl
  | cons slot rest ih =>
    rw [List.mapM_cons, ih, List.find?_cons]
    cases hread : o.read slot with
    | none => simp [readOrFault, hread, Slot.accessFault, bind, Except.bind]
    | some v =>
      simp only [readOrFault, hread, Option.isNone_some, bind, Except.bind]
      cases rest.find? fun slot => (o.read slot).isNone with
      | none => simp [pure, Except.pure, hread]
      | some other => rfl

/-- Slots that are read with success give what they hold. -/
lemma eq_of_readAll_eq_ok {o : Object ω} {slots : List Slot} {values : List (Value ω)}
    (h : o.readAll slots = .ok values) :
    values = slots.map fun slot => (o.read slot).getD .null := by
  rw [readAll_eq] at h
  cases hslot : slots.find? fun slot => (o.read slot).isNone with
  | some slot => simp [hslot] at h
  | none =>
    rw [hslot] at h
    cases h
    rfl

end Object

namespace Cell

variable {cell : Cell ω} {t t' : Value ω → Trace ω}

/-- The trace of a composite depends on those of its parts. -/
lemma trace_congr (h : ∀ v ∈ cell.parts, t v = t' v) : cell.trace t = cell.trace t' := by
  cases cell with
  | seq sequence items =>
    change ∀ v ∈ items, _ at h
    rw [trace, trace, Trace.all_congr h]
  | map entries =>
    rw [trace, trace, Trace.all_congr fun e he => by
      rw [h e.1 (fst_mem_parts he), h e.2 (snd_mem_parts he)]]
  | object o =>
    rw [trace, trace]
    cases hread : o.readAll o.type.layout with
    | error fault => rfl
    | ok values =>
      have hvalues : ∀ v ∈ values, t v = t' v := by
        rwa [Object.eq_of_readAll_eq_ok hread]
      simp only [Trace.all_congr hvalues]

/-- The first slot of an object, in the order of its layout, that cannot be read. -/
def unreadable? : Cell ω → Option Slot
  | .object o => o.type.layout.find? fun slot => (o.read slot).isNone
  | _ => none

lemma unreadable?_eq (cell : Cell ω) :
    cell.unreadable? =
      match cell.content with
      | .object o => (object o).unreadable?
      | _ => none := by
  match cell with
  | .seq (.array _) _ | .seq .list _ | .seq .set _ | .map _ | .object _ => rfl

/-- A composite halts at its first slot that cannot be read; otherwise as the first of its parts
that does. -/
lemma halt_trace (cell : Cell ω) (t : Value ω → Trace ω) :
    (cell.trace t).halt = (cell.unreadable?.map fun slot => .fault slot.accessFault).or
      (cell.parts.findSome? fun v => (t v).halt) := by
  cases cell with
  | seq sequence items =>
    rw [trace, Trace.halt_bracket, Trace.halt_all]
    rfl
  | map entries =>
    rw [trace, Trace.halt_bracket, Trace.halt_all, parts, findSome?_flatMap]
    simp only [unreadable?, Option.map_none, Option.none_or]
    refine congrArg (fun f => entries.findSome? f) (funext fun e => ?_)
    cases hkey : (t e.1).halt <;> cases hvalue : (t e.2).halt <;>
      simp [Trace.report, Trace.act, hkey, hvalue]
  | object o =>
    rw [trace, Trace.halt_append, Object.readAll_eq, unreadable?]
    cases o.type.layout.find? fun slot => (o.read slot).isNone with
    | some slot => rfl
    | none =>
      simp only [Trace.halt_bracket, Trace.halt_all]
      rfl

/-- A composite whose trace goes to its end has parts whose traces go to theirs. -/
lemma halt_of_mem_parts (h : (cell.trace t).halt = none) {v : Value ω} (hv : v ∈ cell.parts) :
    (t v).halt = none := by
  rw [halt_trace, Option.or_eq_none_iff, List.findSome?_eq_none_iff] at h
  exact h.2 v hv

/-- A composite is endless only through one of its parts. -/
lemma exists_endless_part (h : (cell.trace t).halt = some .endless) :
    ∃ v ∈ cell.parts, (t v).halt = some .endless := by
  rw [halt_trace, Option.or_eq_some_iff] at h
  rcases h with hslot | ⟨_, hpart⟩
  · simp at hslot
  · exact List.exists_of_findSome?_eq_some hpart

end Cell

namespace Walk

/-- The trace of a walk over a value. -/
def trace (store : Store ω) (reflect : Bool) (limit : Nat) (g : Guard) (v : Value ω) : Trace ω :=
  match store.sight reflect v with
  | .atom value => .report (.atom value)
  | .whole value => .report (.whole value)
  | .composite id cell =>
    .descend g id fun g =>
      match limit with
      | 0 => .halting .endless
      | limit + 1 => cell.trace (trace store reflect limit g)

section

variable {store : Store ω} {reflect : Bool} {limit : Nat} {g : Guard} {v : Value ω}

lemma trace_of_atom {value : Atom} (h : store.sight reflect v = .atom value) :
    trace store reflect limit g v = .report (.atom value) := by
  rw [trace, h]

lemma trace_of_whole {value : Whole ω} (h : store.sight reflect v = .whole value) :
    trace store reflect limit g v = .report (.whole value) := by
  rw [trace, h]

lemma trace_of_cuts {id : Identity} {cell : Cell ω}
    (h : store.sight reflect v = .composite id cell) (hcut : g.cuts id = true) :
    trace store reflect limit g v = .report .cycle := by
  rw [trace, h]
  exact Trace.descend_of_cuts hcut _

lemma trace_zero {id : Identity} {cell : Cell ω} (h : store.sight reflect v = .composite id cell) :
    trace store reflect 0 g v = .descend g id fun _ => .halting .endless := by
  rw [trace, h]

lemma trace_succ {id : Identity} {cell : Cell ω} (h : store.sight reflect v = .composite id cell) :
    trace store reflect (limit + 1) g v =
      .descend g id fun g => cell.trace (trace store reflect limit g) := by
  rw [trace, h]

/-- Induction over what a walk meets: atoms, values kept whole, composites that are cut, composites
that are out of bounds, and composites with what is inside them. -/
@[elab_as_elim]
theorem boundInduction (store : Store ω) (reflect : Bool)
    {motive : Nat → Guard → Value ω → Prop}
    (atom : ∀ limit g v a, store.sight reflect v = .atom a → motive limit g v)
    (whole : ∀ limit g v x, store.sight reflect v = .whole x → motive limit g v)
    (cut : ∀ limit g v id cell, store.sight reflect v = .composite id cell → g.cuts id = true →
      motive limit g v)
    (outside : ∀ g v id cell, store.sight reflect v = .composite id cell → g.cuts id = false →
      motive 0 g v)
    (inside : ∀ limit g v id cell, store.sight reflect v = .composite id cell →
      g.cuts id = false → (∀ part ∈ cell.parts, motive limit (g.below id) part) →
      motive (limit + 1) g v)
    (limit : Nat) (g : Guard) (v : Value ω) : motive limit g v := by
  induction limit using Nat.strongRecOn generalizing g v with
  | _ limit ih =>
    cases hsight : store.sight reflect v with
    | atom a => exact atom limit g v a hsight
    | whole x => exact whole limit g v x hsight
    | composite id cell =>
      cases hcut : g.cuts id with
      | true => exact cut limit g v id cell hsight hcut
      | false =>
        cases limit with
        | zero => exact outside g v id cell hsight hcut
        | succ limit =>
          refine inside limit g v id cell hsight hcut fun part _ => ?_
          exact ih limit (Nat.lt_succ_self limit) (g.below id) part

/-- A composite that is not cut halts at once if the bound is zero. -/
lemma halt_trace_zero {id : Identity} {cell : Cell ω}
    (hsight : store.sight reflect v = .composite id cell) (hcut : g.cuts id = false) :
    (trace store reflect 0 g v).halt = some .endless := by
  simp [trace_zero hsight, Trace.halt_descend, hcut, Trace.halting]

/-- Under any other bound it halts as its contents do. -/
lemma halt_trace_succ {id : Identity} {cell : Cell ω}
    (hsight : store.sight reflect v = .composite id cell) (hcut : g.cuts id = false) :
    (trace store reflect (limit + 1) g v).halt =
      (cell.unreadable?.map fun slot => .fault slot.accessFault).or
        (cell.parts.findSome? fun part => (trace store reflect limit (g.below id) part).halt) := by
  rw [trace_succ hsight, Trace.halt_descend, hcut]
  exact cell.halt_trace _

/-- It halts in the same way under all references to it. -/
lemma halt_trace_eq_of_sight {w : Value ω} {id : Identity} {cell cell' : Cell ω}
    (h : store.sight reflect v = .composite id cell)
    (h' : store.sight reflect w = .composite id cell') :
    (trace store reflect limit g v).halt = (trace store reflect limit g w).halt := by
  cases hcut : g.cuts id with
  | true => rw [trace_of_cuts h hcut, trace_of_cuts h' hcut]
  | false =>
    cases limit with
    | zero => rw [halt_trace_zero h hcut, halt_trace_zero h' hcut]
    | succ limit =>
      rw [halt_trace_succ h hcut, halt_trace_succ h' hcut, cell.unreadable?_eq,
        Store.content_eq_of_sight h h', ← cell'.unreadable?_eq, Store.parts_eq_of_sight h h']

end

/-! ## The walk follows its trace -/

section Running

variable {α β : Type}

lemma run_bind (w : Walk ω α) (f : α → Walk ω β) (p : Progress ω) :
    (w >>= f).run p = match w.run p with
      | (.ok a, q) => (f a).run q
      | (.error halt, q) => (.error halt, q) := by
  rw [ExceptT.run_bind]
  change StateT.bind w.run _ p = _
  unfold StateT.bind
  rcases w.run p with ⟨result, q⟩
  cases result <;> rfl

lemma run_extract (object : Object ω) (p : Progress ω) :
    (extract object).run p =
      (match object.readAll object.type.layout with
        | .ok values => .ok ⟨object.type.name, object.type.layout, values⟩
        | .error fault => .error (.fault fault),
      { p with session := (p.session.layout object.type).2 }) := by
  have hget : (get : Walk ω (Progress ω)).run p = (.ok p, p) := rfl
  have hset (q : Progress ω) : (set q : Walk ω Unit).run p = (.ok (), q) := rfl
  simp only [extract, run_bind, hget, hset, Session.extract, Session.layout_fst]
  cases object.readAll object.type.layout <;> rfl

end Running

/-- A walk follows a trace from a guard: from every state with this guard it does what the trace
says, ends as the trace ends, and leaves the guard as it was. -/
def Follows (w : Walk ω Unit) (g : Guard) (t : Trace ω) : Prop :=
  ∀ p, p.guard = g → w.run p = (t.result, t.leads p) ∧ (t.leads p).guard = g

section Follows

variable {w w' : Walk ω Unit} {g : Guard} {t u : Trace ω}

lemma follows_pure : (pure () : Walk ω Unit).Follows g .nil := by
  intro p hp
  exact ⟨by rw [Trace.leads_nil]; rfl, by rw [Trace.leads_nil, hp]⟩

lemma follows_throw (halt : Halt) : (throw halt : Walk ω Unit).Follows g (.halting halt) := by
  intro p hp
  exact ⟨by rw [Trace.leads_halting]; rfl, by rw [Trace.leads_halting, hp]⟩

/-- One walk after another follows one trace after the other. -/
lemma Follows.seq (hw : w.Follows g t) (hw' : w'.Follows g u) :
    (w >>= fun _ => w').Follows g (t ++ u) := by
  intro p hp
  obtain ⟨hrun, hguard⟩ := hw p hp
  rw [run_bind, hrun]
  cases h : t.halt with
  | none =>
    obtain ⟨hrun', hguard'⟩ := hw' (t.leads p) hguard
    rw [Trace.leads_append_of_halt_eq_none h]
    exact ⟨by simpa [Trace.result, h] using hrun', hguard'⟩
  | some halt =>
    rw [Trace.append_of_halt_eq_some h]
    exact ⟨by simp [Trace.result, h], hguard⟩

/-- An event together with its record follows the trace of the event. -/
lemma follows_report (event : Event ω) :
    (record event.tally >>= fun _ => emit event : Walk ω Unit).Follows g (.report event) := by
  intro p hp
  have hleads : (Trace.report event).leads p =
      { p with session := p.session.record event.tally, events := p.events.push event } := by
    simp [Trace.report, Trace.leads_act, Act.event?, Act.onGuard, Act.onSession]
  rw [hleads]
  exact ⟨rfl, hp⟩

/-- An event that is not counted needs no record. -/
lemma follows_emit {event : Event ω} (h : event.tally = id) :
    (emit event : Walk ω Unit).Follows g (.report event) := by
  have hreport := follows_report (g := g) event
  rwa [h] at hreport

/-- Taking an object apart asks for its layout; the values it gives are for what comes next. -/
lemma follows_extract {object : Object ω} {next : Extract ω → Walk ω Unit}
    {t : List (Value ω) → Trace ω}
    (hnext : ∀ values, (next ⟨object.type.name, object.type.layout, values⟩).Follows g (t values)) :
    (extract object >>= next).Follows g
      (.act (.request object.type) ++
        match object.readAll object.type.layout with
        | .error fault => .halting (.fault fault)
        | .ok values => t values) := by
  intro p hp
  rw [run_bind, run_extract, Trace.leads_append_of_halt_eq_none rfl]
  have hleads : (Trace.act (.request object.type)).leads p =
      { p with session := (p.session.layout object.type).2 } := by
    simp [Trace.leads_act, Act.event?, Act.onGuard, Act.onSession]
  rw [hleads]
  cases object.readAll object.type.layout with
  | error fault => exact follows_throw (.fault fault) _ hp
  | ok values => exact hnext values _ hp

lemma follows_forM {α : Type} {visit : α → Walk ω Unit} {t : α → Trace ω} (xs : List α)
    (h : ∀ x, (visit x).Follows g (t x)) : (xs.forM visit).Follows g (.all t xs) := by
  induction xs with
  | nil => exact follows_pure
  | cons x rest ih => exact (h x).seq ih

/-- Entering a composite puts it on the path, and leaving takes it off again. -/
lemma run_inside {id : Identity} {p : Progress ω} (hp : p.guard = g)
    (h : w.Follows { g with path := id :: g.path } t) :
    (do set { p with guard := { g with path := id :: g.path } }; leaving id w : Walk ω Unit).run p =
        ((Trace.inside id t).result, (Trace.inside id t).leads p) ∧
      ((Trace.inside id t).leads p).guard = g := by
  set q : Progress ω := { p with guard := { g with path := id :: g.path } } with hq
  obtain ⟨hrun, hguard⟩ := h q rfl
  have hleaving : (do set q; leaving id w : Walk ω Unit).run p =
      ((w.run q).1, { (w.run q).2 with guard := (w.run q).2.guard.exit id }) := rfl
  have hleads : (Trace.inside id t).leads p = { t.leads q with guard := g } := by
    simp [Trace.leads_inside, hp, ← hq, hguard]
  rw [hleaving, hrun, hleads]
  simp only [hguard, Guard.exit_cons]
  exact ⟨rfl, trivial⟩

/-- Entering a composite follows a trace as soon as what is inside does, whatever the guard. -/
lemma follows_descend {id : Identity} {t : Guard → Trace ω} (h : ∀ g, w.Follows g (t g)) :
    (descend id w).Follows g (.descend g id t) := by
  intro p hp
  have hget : (get : Walk ω (Progress ω)).run p = (.ok p, p) := rfl
  simp only [descend, run_bind, hget, Trace.descend, hp]
  by_cases henabled : g.enabled = true
  · by_cases hid : id ∈ g.path
    · rw [Guard.enter_of_mem henabled hid]
      exact follows_report .cycle p hp
    · rw [Guard.enter_of_notMem henabled hid]
      exact run_inside hp (h _)
  · rw [Guard.enter_of_disabled (by simpa using henabled)]
    exact h g p hp

/-- What is inside a composite is walked as it is traced, part by part. -/
lemma follows_contents {visit : Value ω → Walk ω Unit} {t : Value ω → Trace ω}
    (h : ∀ v, (visit v).Follows g (t v)) (cell : Cell ω) :
    (contents visit cell).Follows g (cell.trace t) := by
  have hcloses : (emit .closes : Walk ω Unit).Follows g (.report .closes) := follows_emit rfl
  cases cell with
  | seq sequence items =>
    exact (follows_emit rfl).seq ((follows_forM items h).seq hcloses)
  | map entries =>
    refine (follows_emit rfl).seq (Follows.seq (follows_forM entries ?_) hcloses)
    rintro ⟨key, value⟩
    exact (follows_emit rfl).seq ((h key).seq ((h value).seq hcloses))
  | object o =>
    refine follows_extract fun values => ?_
    have hopens := follows_report (g := g)
      (.opens (.object o.type.name (o.type.layout.map (·.name))) : Event ω)
    have hall := hopens.seq ((follows_forM values h).seq hcloses)
    rwa [bind_assoc] at hall

end Follows

/-- A walk does at a value what it finds there. -/
lemma value_eq (store : Store ω) (reflect : Bool) (limit : Nat) (v : Value ω) :
    value store reflect limit v =
      match store.sight reflect v with
      | .atom value => emit (.atom value)
      | .whole value => keep value
      | .composite id cell =>
        descend id <|
          match limit with
          | 0 => throw .endless
          | limit + 1 => contents (value store reflect limit) cell := by
  cases v with
  | atom a => rw [value, Store.sight]
  | whole x => rw [value, Store.sight]
  | ref shape id =>
    rw [value, Store.sight]
    cases store.deref? (.ref shape id) with
    | none => rfl
    | some cell =>
      simp only
      split
      · rfl
      · cases limit <;> rfl

/-- A walk over a value follows the trace of the value. -/
theorem value_follows (store : Store ω) (reflect : Bool) (limit : Nat) (g : Guard) (v : Value ω) :
    (value store reflect limit v).Follows g (trace store reflect limit g v) := by
  induction limit generalizing g v with
  | zero =>
    rw [value_eq, trace]
    cases store.sight reflect v with
    | atom value => exact follows_emit rfl
    | whole value => exact follows_report (.whole value)
    | composite id cell => exact follows_descend fun _ => follows_throw .endless
  | succ limit ih =>
    rw [value_eq, trace]
    cases store.sight reflect v with
    | atom value => exact follows_emit rfl
    | whole value => exact follows_report (.whole value)
    | composite id cell => exact follows_descend fun g => follows_contents (ih g) cell

/-- The trace of a walk over several values, within the bound that the store sets. -/
def traceAll (store : Store ω) (reflect : Bool) (g : Guard) (vs : List (Value ω)) : Trace ω :=
  .all (trace store reflect store.size g) vs

theorem values_follows (store : Store ω) (reflect : Bool) (g : Guard) (vs : List (Value ω)) :
    (values store reflect vs).Follows g (traceAll store reflect g vs) :=
  follows_forM vs (value_follows store reflect store.size g)

end Walk

/-! ## Calls -/

namespace Config

/-- The trace of the arguments of a call. -/
def trace (c : Config) (store : Store ω) (call : Invocation ω) : Trace ω :=
  Walk.traceAll store c.useReflection (Guard.empty c.checkForCycles) call.arguments

/-- The events of a call, or why there are none.  No session takes part. -/
def report (c : Config) (store : Store ω) (call : Invocation ω) : Except Halt (List (Event ω)) :=
  match c.signatureEvents call.signature with
  | .error fault => .error (.fault fault)
  | .ok head =>
    match (c.trace store call).halt with
    | some halt => .error halt
    | none => .ok (head ++ (c.trace store call).events)

/-- What a call leaves behind: nothing new without the signature that it needs, otherwise what its
trace does to the session, and the key is counted if the trace goes to its end. -/
def sessionAfter (c : Config) (store : Store ω) (call : Invocation ω) (session : Session) :
    Session :=
  match (c.signatureEvents call.signature : Except Fault (List (Event ω))) with
  | .error _ => session
  | .ok _ =>
    let walked := (c.trace store call).acts.foldl Act.onSession session
    match (c.trace store call).halt with
    | some _ => walked
    | none => walked.record .recordKey

/-- A call reports what its trace reports and does to the session what its trace does. -/
theorem events_eq (c : Config) (store : Store ω) (call : Invocation ω) (session : Session) :
    c.events store call session = (c.report store call, c.sessionAfter store call session) := by
  unfold events report sessionAfter
  cases (c.signatureEvents call.signature : Except Fault (List (Event ω))) with
  | error fault => rfl
  | ok head =>
    have hfollows : (Walk.values store c.useReflection call.arguments).Follows
        (Guard.empty c.checkForCycles) (c.trace store call) :=
      Walk.values_follows store c.useReflection (Guard.empty c.checkForCycles) call.arguments
    have hrun := (hfollows ⟨Guard.empty c.checkForCycles, session, head.toArray⟩ rfl).1
    simp only [hrun, Trace.result]
    cases (c.trace store call).halt with
    | none => simp [Trace.leads]
    | some halt => rfl

/-- The events of a call are the same in every session. -/
theorem events_fst (c : Config) (store : Store ω) (call : Invocation ω) (session : Session) :
    (c.events store call session).1 = c.report store call := by
  rw [events_eq]

lemma structuralKey_fst (c : Config) (store : Store ω) (call : Invocation ω) (session : Session) :
    (c.structuralKey store call session).1 = (c.report store call).map StructuralKey.ofEvents := by
  rw [← events_fst c store call session]
  rfl

variable [OpaqueValue ω]

lemma hashKey_fst (c : Config) (store : Store ω) (call : Invocation ω) (session : Session) :
    (c.hashKey store call session).1 = (c.report store call).map Hash.ofEvents := by
  rw [← events_fst c store call session]
  rfl

lemma cacheKey_fst (c : Config) (store : Store ω) (call : Invocation ω) (session : Session) :
    (c.cacheKey store call session).1 =
      (c.report store call).map (CacheKey.ofEvents c.derivation) := by
  rw [← events_fst c store call session]
  rfl

end Config

end MemoKey
