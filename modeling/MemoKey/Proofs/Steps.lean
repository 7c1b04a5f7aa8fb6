import Mathlib.Logic.Function.Iterate
import MemoKey.Proofs.Outcome

/-!
# A walk step by step

A walk that has come to its end tells what it leaves behind, but not what the guard looked like on
the way.  Its trace has that in it, but not which composites are open.  Here the walk is a machine
with an explicit list of what is still to be done, so that each moment is a state that says both,
also in a walk that fails or has no end.

* `Trace.moments` are the states that a walk goes through, act by act.
* `Task` is one thing that is still to be done, `Machine` a moment of a walk and `Machine.next` the
  next one.  `Machine.opened` are the composites that are open, innermost first.
* `Machine.act?` is the act that the next step does, if it does one, and `Machine.acts` are those of
  the first steps.  `Machine.progress_next` says that a step does to the state what its act does.
* `Trace.Performs` says that the machine does the acts of a trace with some tasks, and no others.
  Each building block of a trace has one lemma, and `Walk.trace_performs` puts them together.
* `Machine.Moves` says what one step can do to the guard.  `Machine.Tracks` relates the path of the
  guard to the composites that are open; `Machine.Moves.tracks` says that a step preserves this, and
  `Machine.tracks_iterate` that it holds at every moment.

The main statement is `Walk.guard_restored`.
-/

namespace MemoKey

variable {ω : Type}

/-! ## The moments of a trace -/

/-- What an act does to the state of a walk. -/
def Act.onProgress (p : Progress ω) (a : Act ω) : Progress ω :=
  ⟨a.onGuard p.guard, a.onSession p.session, p.events ++ a.event?.toList⟩

namespace Trace

/-- What becomes of the state is what the acts make of it one after the other. -/
lemma leads_eq_foldl (t : Trace ω) (p : Progress ω) :
    t.leads p = t.acts.foldl Act.onProgress p := by
  obtain ⟨acts, halt⟩ := t
  induction acts generalizing p with
  | nil => exact leads_nil p
  | cons a rest ih =>
    calc
      leads ⟨a :: rest, halt⟩ p = leads ⟨rest, halt⟩ ((act a).leads p) :=
        leads_append_of_halt_eq_none (t := act a) rfl ⟨rest, halt⟩ p
      _ = rest.foldl Act.onProgress (a.onProgress p) := by rw [leads_act, ih]; rfl

/-- The states of a walk before and after each of its acts. -/
def moments (t : Trace ω) (p : Progress ω) : List (Progress ω) :=
  t.acts.scanl Act.onProgress p

lemma mem_moments_self (t : Trace ω) (p : Progress ω) : p ∈ t.moments p := by
  obtain ⟨acts, halt⟩ := t
  cases acts <;> simp [moments]

end Trace

/-! ## The machine -/

/-- What a walk has still to do. -/
inductive Task (ω : Type) where
  /-- To walk a value. -/
  | visit (v : Value ω)
  /-- To report a composite that has been entered, with its parts. -/
  | contents (cell : Cell ω)
  /-- To report an event. -/
  | report (event : Event ω)
  /-- To leave a composite, and take it off the path if entering put it there. -/
  | leave (id : Identity) (onPath : Bool)

namespace Task

/-- The composite that a task leaves, and whether entering put it on the path. -/
@[simp] def leaves? : Task ω → Option (Identity × Bool)
  | leave id onPath => some (id, onPath)
  | _ => none

/-- To report a composite with something to do in between. -/
def within (composite : Composite) (tasks : List (Task ω)) : List (Task ω) :=
  .report (.opens composite) :: (tasks ++ [.report .closes])

@[simp] lemma leaves_within (composite : Composite) (tasks : List (Task ω)) :
    (within composite tasks).filterMap leaves? = tasks.filterMap leaves? := by
  simp [within, List.filterMap_cons]

end Task

/-- A moment of a walk. -/
structure Machine (ω : Type) where
  /-- What has become of the guard, the session and the events. -/
  progress : Progress ω
  /-- What is still to be done, next first. -/
  tasks : List (Task ω)
  /-- The fault that the walk has failed with, while composites are left. -/
  fault : Option Fault := none

namespace Machine

/-- The first moment of a walk over some values. -/
def start (p : Progress ω) (vs : List (Value ω)) : Machine ω :=
  ⟨p, vs.map .visit, none⟩

/-- The composites that are still to be left, innermost first, each with whether entering put it on
the path. -/
def pending (m : Machine ω) : List (Identity × Bool) :=
  m.tasks.filterMap Task.leaves?

/-- The composites that are open, innermost first. -/
def opened (m : Machine ω) : List Identity :=
  m.pending.map (·.1)

/-- Walks a value, or the outside of it: a composite is entered or cut. -/
def visit (store : Store ω) (reflect : Bool) (p : Progress ω) (rest : List (Task ω))
    (v : Value ω) : Machine ω :=
  match store.sight reflect v with
  | .atom a => ⟨p, .report (.atom a) :: rest, none⟩
  | .whole x => ⟨p, .report (.whole x) :: rest, none⟩
  | .composite id cell =>
    match p.guard.enter id with
    | (.cycle, _) => ⟨p, .report .cycle :: rest, none⟩
    | (.first, guard) => ⟨{ p with guard }, .contents cell :: .leave id true :: rest, none⟩
    | (.untracked, _) => ⟨p, .contents cell :: .leave id false :: rest, none⟩

/-- Lists what is to be done inside a composite.  An object is read first, and that may fail. -/
def contents (p : Progress ω) (rest : List (Task ω)) : Cell ω → Machine ω
  | .seq sequence items => ⟨p, Task.within (.seq sequence) (items.map .visit) ++ rest, none⟩
  | .map entries =>
    let entry (e : Value ω × Value ω) : List (Task ω) := Task.within .entry [.visit e.1, .visit e.2]
    ⟨p, Task.within .map (entries.flatMap entry) ++ rest, none⟩
  | .object o =>
    match p.session.extract o with
    | (.error fault, session) => ⟨{ p with session }, rest, some fault⟩
    | (.ok fields, session) =>
      let tasks := Task.within (.object fields.type fields.names) (fields.values.map .visit)
      ⟨{ p with session }, tasks ++ rest, none⟩

/-- The next moment of a walk.  A walk that has failed does nothing but leave what is open. -/
def next (store : Store ω) (reflect : Bool) : Machine ω → Machine ω
  | ⟨p, [], fault⟩ => ⟨p, [], fault⟩
  | ⟨p, .leave id true :: rest, fault⟩ => ⟨{ p with guard := p.guard.exit id }, rest, fault⟩
  | ⟨p, .leave _ false :: rest, fault⟩ => ⟨p, rest, fault⟩
  | ⟨p, _ :: rest, some fault⟩ => ⟨p, rest, some fault⟩
  | ⟨p, .visit v :: rest, none⟩ => visit store reflect p rest v
  | ⟨p, .contents cell :: rest, none⟩ => contents p rest cell
  | ⟨p, .report event :: rest, none⟩ =>
    ⟨{ p with session := p.session.record event.tally, events := p.events.push event }, rest, none⟩

/-- The act that the next step does, if it does one. -/
def act? (store : Store ω) (reflect : Bool) : Machine ω → Option (Act ω)
  | ⟨_, .leave id true :: _, _⟩ => some (.exit id)
  | ⟨p, .visit v :: _, none⟩ =>
    match store.sight reflect v with
    | .composite id _ => if (p.guard.enter id).1 = .first then some (.enter id) else none
    | _ => none
  | ⟨_, .contents cell :: _, none⟩ =>
    match cell with
    | .object o => some (.request o.type)
    | _ => none
  | ⟨_, .report event :: _, none⟩ => some (.report event)
  | _ => none

/-- The acts of the first steps. -/
def acts (store : Store ω) (reflect : Bool) : Nat → Machine ω → List (Act ω)
  | 0, _ => []
  | n + 1, m => (act? store reflect m).toList ++ acts store reflect n (next store reflect m)

/-- One moment comes after another one, with some acts in between. -/
def Leads (store : Store ω) (reflect : Bool) (m : Machine ω) (done : List (Act ω))
    (m' : Machine ω) : Prop :=
  ∃ n, (next store reflect)^[n] m = m' ∧ acts store reflect n m = done

section

variable {store : Store ω} {reflect : Bool} {m m' m'' : Machine ω} {done done' : List (Act ω)}

lemma acts_add (n k : Nat) (m : Machine ω) :
    acts store reflect (n + k) m =
      acts store reflect n m ++ acts store reflect k ((next store reflect)^[n] m) := by
  induction n generalizing m with
  | zero => simp [acts]
  | succ n ih =>
    rw [Nat.succ_add, acts, ih, acts, List.append_assoc, Function.iterate_succ_apply]

lemma leads_rfl : Leads store reflect m [] m :=
  ⟨0, rfl, rfl⟩

lemma Leads.trans (h : Leads store reflect m done m') (h' : Leads store reflect m' done' m'') :
    Leads store reflect m (done ++ done') m'' := by
  obtain ⟨n, rfl, rfl⟩ := h
  obtain ⟨k, rfl, rfl⟩ := h'
  refine ⟨n + k, ?_, acts_add n k m⟩
  rw [Nat.add_comm, Function.iterate_add_apply]

lemma leads_of_act {a : Act ω} (hact : act? store reflect m = some a)
    (h : Leads store reflect (next store reflect m) done m') :
    Leads store reflect m (a :: done) m' := by
  have hfirst : Leads store reflect m [a] (next store reflect m) := ⟨1, rfl, by simp [acts, hact]⟩
  exact hfirst.trans h

lemma leads_of_next (hact : act? store reflect m = none)
    (h : Leads store reflect (next store reflect m) done m') : Leads store reflect m done m' := by
  have hfirst : Leads store reflect m [] (next store reflect m) := ⟨1, rfl, by simp [acts, hact]⟩
  exact hfirst.trans h

/-- A walk that has failed drops what it was to do within the innermost open composite. -/
lemma leads_of_fault {tasks rest : List (Task ω)} {p : Progress ω} {fault : Fault}
    (h : tasks.filterMap Task.leaves? = []) :
    Leads store reflect ⟨p, tasks ++ rest, some fault⟩ [] ⟨p, rest, some fault⟩ := by
  induction tasks with
  | nil => exact leads_rfl
  | cons task tasks ih =>
    cases task with
    | leave id onPath => simp [Task.leaves?] at h
    | visit | contents | report =>
      exact leads_of_next rfl (ih (by simpa [Task.leaves?] using h))

/-! ### What a step does to the state -/

/-- Reading an object asks for its layout, whether or not all of its slots can be read. -/
lemma contents_object (p : Progress ω) (rest : List (Task ω)) (o : Object ω) :
    contents p rest (.object o) =
      match o.readAll o.type.layout with
      | .error fault => ⟨Act.onProgress p (.request o.type), rest, some fault⟩
      | .ok values =>
        let tasks := Task.within (.object o.type.name (o.type.layout.map (·.name)))
          (values.map .visit)
        ⟨Act.onProgress p (.request o.type), tasks ++ rest, none⟩ := by
  have hprogress : Act.onProgress p (.request o.type) =
      { p with session := (p.session.layout o.type).2 } := by
    simp [Act.onProgress, Act.onGuard, Act.onSession, Act.event?]
  rw [hprogress, contents, Session.extract]
  simp only [Session.layout_fst]
  cases o.readAll o.type.layout <;> rfl

lemma progress_visit (p : Progress ω) (rest : List (Task ω)) (v : Value ω) :
    (visit store reflect p rest v).progress =
      (act? store reflect ⟨p, .visit v :: rest, none⟩).elim p (Act.onProgress p) := by
  cases hsight : store.sight reflect v with
  | atom | whole => simp [visit, act?, hsight]
  | composite id cell =>
    by_cases henabled : p.guard.enabled = true
    · by_cases hid : id ∈ p.guard.path
      · simp [visit, act?, hsight, Guard.enter_of_mem henabled hid]
      · simp [visit, act?, hsight, Guard.enter_of_notMem henabled hid, Act.onProgress, Act.onGuard,
          Act.onSession, Act.event?]
    · simp [visit, act?, hsight, Guard.enter_of_disabled (by simpa using henabled)]

lemma progress_contents (p : Progress ω) (rest : List (Task ω)) (cell : Cell ω) :
    (contents p rest cell).progress =
      (act? store reflect ⟨p, .contents cell :: rest, none⟩).elim p (Act.onProgress p) := by
  cases cell with
  | seq sequence items => rfl
  | map entries => rfl
  | object o =>
    rw [contents_object]
    cases o.readAll o.type.layout <;> rfl

/-- A step does to the state what its act does, and nothing if it does no act. -/
theorem progress_next (m : Machine ω) :
    (next store reflect m).progress =
      (act? store reflect m).elim m.progress (Act.onProgress m.progress) := by
  obtain ⟨p, tasks, fault⟩ := m
  match tasks, fault with
  | [], _ => rfl
  | .leave id true :: rest, _ =>
    simp [next, act?, Act.onProgress, Act.onGuard, Act.onSession, Act.event?]
  | .leave id false :: rest, _ => rfl
  | .visit _ :: rest, some _ | .contents _ :: rest, some _ | .report _ :: rest, some _ => rfl
  | .report event :: rest, none =>
    simp [next, act?, Act.onProgress, Act.onGuard, Act.onSession, Act.event?]
  | .visit v :: rest, none => exact progress_visit p rest v
  | .contents cell :: rest, none => exact progress_contents p rest cell

/-- So the moments of a trace are the states of the machine that does its acts. -/
theorem mem_moments_iff {n : Nat} {t : Trace ω} (h : acts store reflect n m = t.acts)
    (q : Progress ω) :
    q ∈ t.moments m.progress ↔ ∃ k < n + 1, ((next store reflect)^[k] m).progress = q := by
  induction n generalizing m t with
  | zero =>
    simp only [acts] at h
    simp [Trace.moments, ← h, eq_comm]
  | succ n ih =>
    rw [Nat.exists_lt_succ_left]
    simp only [Function.iterate_succ_apply, Function.iterate_zero, id_eq]
    rw [acts] at h
    rw [← ih (t := ⟨acts store reflect n (next store reflect m), t.halt⟩) rfl, progress_next]
    cases hact : act? store reflect m with
    | none =>
      -- The step leaves the state as it is, so the first two moments have it in common.
      rw [hact, Option.toList_none, List.nil_append] at h
      rw [h, Option.elim_none]
      exact (or_iff_right_of_imp fun hq => hq ▸ t.mem_moments_self m.progress).symm
    | some a =>
      rw [hact, Option.toList_some, List.singleton_append] at h
      rw [Trace.moments, ← h, List.scanl_cons, List.mem_cons, eq_comm, Option.elim_some]
      rfl

end

end Machine

/-! ## The acts of a walk are what the machine does -/

namespace Walk

/-- The fault that a walk ends with, if any. -/
def faultOf : Except Halt Unit → Option Fault
  | .error (.fault fault) => some fault
  | _ => none

end Walk

namespace Trace

/-- The machine does a trace with some tasks: begun with a given guard, it does the acts of the
trace and is then done with the tasks, with the state that the trace leads to and the same fault.
None of the tasks leaves a composite that was not entered by them, and in the end the guard is as it
was. -/
structure Performs (store : Store ω) (reflect : Bool) (g : Guard) (t : Trace ω)
    (tasks : List (Task ω)) : Prop where
  leaves : tasks.filterMap Task.leaves? = []
  guard : t.acts.foldl Act.onGuard g = g
  does : ∀ p rest, p.guard = g → t.halt ≠ some .endless →
    Machine.Leads store reflect ⟨p, tasks ++ rest, none⟩ t.acts
      ⟨t.leads p, rest, Walk.faultOf t.result⟩

section Performs

variable {store : Store ω} {reflect : Bool} {g : Guard} {t u : Trace ω}
  {tasks tasks' : List (Task ω)}

lemma performs_nil : (nil : Trace ω).Performs store reflect g [] where
  leaves := rfl
  guard := rfl
  does p rest _ _ := by
    rw [leads_nil]
    exact Machine.leads_rfl

lemma performs_report (event : Event ω) :
    (report event).Performs store reflect g [.report event] where
  leaves := rfl
  guard := rfl
  does p rest _ _ := by
    refine Machine.leads_of_act rfl ?_
    have hleads : (report event).leads p =
        { p with session := p.session.record event.tally, events := p.events.push event } := by
      simp [report, leads_act, Act.event?, Act.onGuard, Act.onSession]
    rw [hleads]
    exact Machine.leads_rfl

lemma Performs.append (ht : t.Performs store reflect g tasks)
    (hu : u.Performs store reflect g tasks') :
    (t ++ u).Performs store reflect g (tasks ++ tasks') := by
  have hleaves : (tasks ++ tasks').filterMap Task.leaves? = [] := by
    rw [List.filterMap_append, ht.leaves, hu.leaves, List.append_nil]
  cases hhalt : t.halt with
  | none =>
    refine ⟨hleaves, ?_, fun p rest hp hends => ?_⟩
    · rw [append_of_halt_eq_none hhalt, List.foldl_append, ht.guard, hu.guard]
    · have hfirst := ht.does p (tasks' ++ rest) hp (by simp [hhalt])
      have hsecond := hu.does (t.leads p) rest (by rw [leads, hp, ht.guard])
        (by simpa [hhalt] using hends)
      rw [leads_append_of_halt_eq_none hhalt, append_of_halt_eq_none hhalt, List.append_assoc]
      simp only [result, hhalt] at hfirst
      exact hfirst.trans hsecond
  | some halt =>
    rw [append_of_halt_eq_some hhalt]
    refine ⟨hleaves, ht.guard, fun p rest hp hends => ?_⟩
    have hfirst := ht.does p (tasks' ++ rest) hp hends
    -- Nothing more is done, while the machine still drops the tasks of the second part.
    obtain ⟨fault, hfault⟩ : ∃ fault, Walk.faultOf t.result = some fault := by
      cases halt with
      | fault fault => exact ⟨fault, by simp [result, hhalt, Walk.faultOf]⟩
      | endless => exact absurd hhalt hends
    rw [hfault] at hfirst ⊢
    rw [List.append_assoc, ← List.append_nil t.acts]
    exact hfirst.trans (Machine.leads_of_fault hu.leaves)

lemma performs_all {α : Type} {t : α → Trace ω} {tasks : α → List (Task ω)}
    (h : ∀ x, (t x).Performs store reflect g (tasks x)) (xs : List α) :
    (all t xs).Performs store reflect g (xs.flatMap tasks) := by
  induction xs with
  | nil => exact performs_nil
  | cons x rest ih => exact (h x).append ih

lemma performs_visits {t : Value ω → Trace ω}
    (h : ∀ v, (t v).Performs store reflect g [.visit v]) (vs : List (Value ω)) :
    (all t vs).Performs store reflect g (vs.map .visit) := by
  rw [List.map_eq_flatMap]
  exact performs_all h vs

lemma Performs.within (composite : Composite) (h : t.Performs store reflect g tasks) :
    (report (.opens composite) ++ (t ++ report .closes)).Performs store reflect g
      (Task.within composite tasks) :=
  (performs_report _).append (h.append (performs_report _))

/-- A task that is no more than a list of others does what they do. -/
lemma Performs.of_next {task : Task ω} (h : t.Performs store reflect g tasks)
    (hleaves : task.leaves? = none)
    (hact : ∀ p rest, p.guard = g →
      Machine.act? store reflect ⟨p, task :: rest, none⟩ = none)
    (hnext : ∀ p rest, p.guard = g →
      Machine.next store reflect ⟨p, task :: rest, none⟩ = ⟨p, tasks ++ rest, none⟩) :
    t.Performs store reflect g [task] := by
  refine ⟨List.filterMap_cons_none hleaves, h.guard, fun p rest hp hends => ?_⟩
  refine Machine.leads_of_next (hact p rest hp) ?_
  rw [List.singleton_append, hnext p rest hp]
  exact h.does p rest hp hends

/-- An object is read first, whatever comes of it. -/
lemma performs_object {t : Value ω → Trace ω}
    (h : ∀ v, (t v).Performs store reflect g [.visit v]) (o : Object ω) :
    ((Cell.object o).trace t).Performs store reflect g [.contents (.object o)] := by
  have hnext (p : Progress ω) (rest : List (Task ω)) :
      Machine.next store reflect ⟨p, [.contents (.object o)] ++ rest, none⟩ = _ :=
    Machine.contents_object p rest o
  rw [Cell.trace]
  cases hread : o.readAll o.type.layout with
  | error fault =>
    refine ⟨rfl, rfl, fun p rest _ _ => Machine.leads_of_act rfl ?_⟩
    rw [hnext, hread, leads_eq_foldl]
    exact Machine.leads_rfl
  | ok values =>
    obtain ⟨-, hguard, hdoes⟩ := (performs_visits h values).within
      (.object o.type.name (o.type.layout.map (·.name)))
    refine ⟨rfl, hguard, fun p rest hp hends => Machine.leads_of_act rfl ?_⟩
    rw [hnext, hread, leads_append_of_halt_eq_none rfl, leads_act]
    exact hdoes (Act.onProgress p (.request o.type)) rest hp hends

lemma performs_contents {t : Value ω → Trace ω}
    (h : ∀ v, (t v).Performs store reflect g [.visit v]) (cell : Cell ω) :
    (cell.trace t).Performs store reflect g [.contents cell] := by
  cases cell with
  | seq sequence items =>
    have hall := (performs_visits h items).within (.seq sequence)
    exact hall.of_next rfl (fun _ _ _ => rfl) fun _ _ _ => rfl
  | map entries =>
    have hentry (e : Value ω × Value ω) :
        (report (.opens .entry) ++ (t e.1 ++ (t e.2 ++ report .closes))).Performs store reflect g
          (Task.within .entry [.visit e.1, .visit e.2]) :=
      (performs_report _).append ((h e.1).append ((h e.2).append (performs_report _)))
    have hall := (performs_all hentry entries).within .map
    exact hall.of_next rfl (fun _ _ _ => rfl) fun _ _ _ => rfl
  | object o => exact performs_object h o

/-- Entering a composite, doing what is inside and leaving it is one task. -/
lemma performs_inside {id : Identity} {task : Task ω}
    (h : t.Performs store reflect { g with path := id :: g.path } tasks)
    (hleaves : task.leaves? = none)
    (hact : ∀ p rest, p.guard = g →
      Machine.act? store reflect ⟨p, task :: rest, none⟩ = some (.enter id))
    (hnext : ∀ p rest, p.guard = g →
      Machine.next store reflect ⟨p, task :: rest, none⟩ =
        ⟨{ p with guard := { g with path := id :: g.path } },
          tasks ++ .leave id true :: rest, none⟩) :
    (inside id t).Performs store reflect g [task] := by
  refine ⟨List.filterMap_cons_none hleaves, ?_, fun p rest hp hends => ?_⟩
  · simp [inside, Act.onGuard, h.guard]
  · refine Machine.leads_of_act (hact p rest hp) ?_
    rw [List.singleton_append, hnext p rest hp, leads_inside]
    refine (h.does _ _ rfl hends).trans (Machine.leads_of_act rfl ?_)
    rw [hp]
    exact Machine.leads_rfl

/-- A composite is entered or cut as its trace has it. -/
lemma performs_descend {v : Value ω} {id : Identity} {cell : Cell ω} {body : Guard → Trace ω}
    (hsight : store.sight reflect v = .composite id cell)
    (h : ∀ g, (body g).Performs store reflect g [.contents cell]) :
    (descend g id body).Performs store reflect g [.visit v] := by
  unfold descend
  by_cases henabled : g.enabled = true
  · by_cases hid : id ∈ g.path
    · have henter := Guard.enter_of_mem henabled hid
      rw [henter]
      refine (performs_report .cycle).of_next rfl ?_ ?_ <;> intro p rest hp
      · simp [Machine.act?, hsight, hp, henter]
      · simp [Machine.next, Machine.visit, hsight, hp, henter]
    · have henter := Guard.enter_of_notMem henabled hid
      rw [henter]
      refine performs_inside (h _) rfl ?_ ?_ <;> intro p rest hp
      · simp [Machine.act?, hsight, hp, henter]
      · simp [Machine.next, Machine.visit, hsight, hp, henter]
  · have henter : g.enter id = (.untracked, g) := Guard.enter_of_disabled (by simpa using henabled)
    rw [henter]
    obtain ⟨-, hguard, hdoes⟩ := h g
    refine ⟨rfl, hguard, fun p rest hp hends => Machine.leads_of_next ?_ ?_⟩
    · simp [Machine.act?, hsight, hp, henter]
    · have hleave := (hdoes p (.leave id false :: rest) hp hends).trans
        (Machine.leads_of_next rfl Machine.leads_rfl)
      simpa [Machine.next, Machine.visit, hsight, hp, henter] using hleave

end Performs

end Trace

namespace Walk

/-- The machine does the trace of a value on a visit. -/
theorem trace_performs (store : Store ω) (reflect : Bool) (limit : Nat) (g : Guard) (v : Value ω) :
    (trace store reflect limit g v).Performs store reflect g [.visit v] := by
  induction limit using Nat.strongRecOn generalizing g v with
  | _ limit ih =>
    rw [trace]
    cases hsight : store.sight reflect v with
    | atom a =>
      refine (Trace.performs_report (.atom a)).of_next rfl ?_ ?_ <;>
        simp [Machine.act?, Machine.next, Machine.visit, hsight]
    | whole x =>
      refine (Trace.performs_report (.whole x)).of_next rfl ?_ ?_ <;>
        simp [Machine.act?, Machine.next, Machine.visit, hsight]
    | composite id cell =>
      refine Trace.performs_descend hsight fun g => ?_
      cases limit with
      | zero => exact ⟨rfl, rfl, fun _ _ _ hends => absurd rfl hends⟩
      | succ limit => exact Trace.performs_contents (ih limit (Nat.lt_succ_self limit) g) cell

end Walk

/-! ## What the guard knows at each moment -/

namespace Machine

/-- What one step does to the guard and to the composites that are to be left. -/
inductive Moves : Guard → List (Identity × Bool) → Guard → List (Identity × Bool) → Prop
  /-- No composite is entered or left. -/
  | stays (g : Guard) (pending : List (Identity × Bool)) : Moves g pending g pending
  /-- A composite that is not on the path is put there. -/
  | enters (path : List Identity) (id : Identity) (pending : List (Identity × Bool))
      (fresh : id ∉ path) : Moves ⟨path, true⟩ pending ⟨id :: path, true⟩ ((id, true) :: pending)
  /-- A composite is entered without the check for cycles. -/
  | passes (path : List Identity) (id : Identity) (pending : List (Identity × Bool)) :
      Moves ⟨path, false⟩ pending ⟨path, false⟩ ((id, false) :: pending)
  /-- The innermost composite is taken off the path. -/
  | leaves (g : Guard) (id : Identity) (pending : List (Identity × Bool)) :
      Moves g ((id, true) :: pending) (g.exit id) pending
  /-- The innermost composite is left that was not on the path. -/
  | quits (g : Guard) (id : Identity) (pending : List (Identity × Bool)) :
      Moves g ((id, false) :: pending) g pending

section

variable {store : Store ω} {reflect : Bool} {g : Guard} {m : Machine ω}

lemma moves_visit (store : Store ω) (reflect : Bool) (p : Progress ω) (rest : List (Task ω))
    (v : Value ω) :
    let m := visit store reflect p rest v
    Moves p.guard (rest.filterMap Task.leaves?) m.progress.guard m.pending := by
  obtain ⟨⟨path, enabled⟩, session, events⟩ := p
  cases hsight : store.sight reflect v with
  | atom | whole =>
    simp only [visit, hsight]
    exact .stays _ _
  | composite id cell =>
    cases enabled with
    | false =>
      simp only [visit, hsight, Guard.enter_of_disabled]
      exact .passes path id _
    | true =>
      by_cases hid : id ∈ path
      · have henter := Guard.enter_of_mem (g := ⟨path, true⟩) rfl hid
        simp only [visit, hsight, henter]
        exact .stays _ _
      · have henter := Guard.enter_of_notMem (g := ⟨path, true⟩) rfl hid
        simp only [visit, hsight, henter]
        exact .enters path id _ hid

lemma moves_contents (p : Progress ω) (rest : List (Task ω)) (cell : Cell ω) :
    let m := contents p rest cell
    m.progress.guard = p.guard ∧ m.pending = rest.filterMap Task.leaves? := by
  cases cell with
  | seq sequence items => exact ⟨rfl, by simp [contents, pending]⟩
  | map entries =>
    exact ⟨rfl, by simp [contents, pending, List.filterMap_flatMap, List.filterMap_cons]⟩
  | object o =>
    rw [contents_object]
    cases o.readAll o.type.layout with
    | error fault => exact ⟨rfl, rfl⟩
    | ok values => exact ⟨rfl, by simp [pending]⟩

lemma moves_next (store : Store ω) (reflect : Bool) (m : Machine ω) :
    let m' := next store reflect m
    Moves m.progress.guard m.pending m'.progress.guard m'.pending := by
  obtain ⟨p, tasks, fault⟩ := m
  match tasks, fault with
  | [], _ => exact .stays _ _
  | .leave id true :: rest, _ => exact .leaves _ id _
  | .leave id false :: rest, _ => exact .quits _ id _
  | .visit _ :: rest, some _ | .contents _ :: rest, some _ | .report _ :: rest, some _ =>
    exact .stays _ _
  | .report event :: rest, none => exact .stays _ _
  | .visit v :: rest, none => exact moves_visit store reflect p rest v
  | .contents cell :: rest, none =>
    obtain ⟨hguard, hpending⟩ := moves_contents p rest cell
    change Moves _ _ (contents p rest cell).progress.guard (contents p rest cell).pending
    rw [hguard, hpending]
    exact .stays _ _

end

/-- How the guard belongs to the composites that are to be left, in a walk that was begun with the
guard `g`.  With the check for cycles the path is what is open on top of what was on it at first,
without repetition; without the check it stays as it is. -/
structure Tracks (g now : Guard) (pending : List (Identity × Bool)) : Prop where
  enabled : now.enabled = g.enabled
  onPath : ∀ e ∈ pending, e.2 = g.enabled
  path : now.path = if g.enabled then pending.map (·.1) ++ g.path else g.path
  fresh : g.enabled = true → (pending.map (·.1)).Nodup ∧ (pending.map (·.1)).Disjoint g.path

/-- A step keeps the path and what is open together. -/
lemma Moves.tracks {g now now' : Guard} {pending pending' : List (Identity × Bool)}
    (hmoves : Moves now pending now' pending') (h : Tracks g now pending) :
    Tracks g now' pending' := by
  obtain ⟨henabled, honPath, hpath, hfresh⟩ := h
  cases hmoves with
  | stays => exact ⟨henabled, honPath, hpath, hfresh⟩
  | enters path id _ hid =>
    have hcheck : g.enabled = true := henabled.symm
    simp only [hcheck, if_true] at hpath
    obtain ⟨hnodup, hdisjoint⟩ := hfresh hcheck
    rw [hpath, List.mem_append, not_or] at hid
    refine ⟨henabled, ?_, ?_, fun _ => ⟨?_, ?_⟩⟩
    · exact List.forall_mem_cons.mpr ⟨henabled, honPath⟩
    · simp [hcheck, hpath]
    · exact List.nodup_cons.mpr ⟨hid.1, hnodup⟩
    · exact List.disjoint_cons_left.mpr ⟨hid.2, hdisjoint⟩
  | passes path id =>
    have hcheck : g.enabled = false := henabled.symm
    exact ⟨henabled, List.forall_mem_cons.mpr ⟨henabled, honPath⟩, by simpa [hcheck] using hpath,
      fun htrue => by simp [hcheck] at htrue⟩
  | leaves _ id =>
    obtain ⟨hid, hrest⟩ := List.forall_mem_cons.mp honPath
    have hcheck : g.enabled = true := hid.symm
    simp only [hcheck, if_true, List.map_cons, List.cons_append] at hpath
    obtain ⟨hnodup, hdisjoint⟩ := hfresh hcheck
    refine ⟨henabled, hrest, ?_, fun _ => ⟨hnodup.of_cons, ?_⟩⟩
    · simp [Guard.exit, hpath, hcheck]
    · exact (List.disjoint_cons_left.mp hdisjoint).2
  | quits _ id =>
    obtain ⟨hid, hrest⟩ := List.forall_mem_cons.mp honPath
    have hcheck : g.enabled = false := hid.symm
    exact ⟨henabled, hrest, by simpa [hcheck] using hpath, fun htrue => by simp [hcheck] at htrue⟩

lemma tracks_iterate (store : Store ω) (reflect : Bool) (p : Progress ω) (vs : List (Value ω))
    (n : Nat) :
    let m := (next store reflect)^[n] (start p vs)
    Tracks p.guard m.progress.guard m.pending := by
  induction n with
  | zero =>
    have hpending : (start p vs).pending = [] := by simp [start, pending]
    change Tracks p.guard p.guard (start p vs).pending
    rw [hpending]
    exact ⟨rfl, nofun, by simp, fun _ => by simp⟩
  | succ n ih =>
    rw [Function.iterate_succ_apply']
    exact (moves_next store reflect _).tracks ih

end Machine

namespace Walk

/-- **A walk restores the guard, and knows at each moment what is open.**

Whatever the guard is, a walk over a value or over several leaves it as it was, however it ends.
If it ends, with success or with a fault, the machine comes to the same end, and its moments are
those of the walk: it does the acts of the trace that the walk follows, in their order and no
others, and the states that it goes through are those before and after each of these acts.  At each
moment of a walk with a guard that is enabled the path consists of the composites that are open and
of what was on it at first, and no composite is there twice; that of a disabled guard stays as it
is, which is empty for an empty one. -/
theorem guard_restored (store : Store ω) (reflect : Bool) (limit : Nat) (p : Progress ω)
    (vs : List (Value ω)) :
    let run := (vs.forM (value store reflect limit)).run p
    let t := Trace.all (trace store reflect limit p.guard) vs
    let moment (n : Nat) := (Machine.next store reflect)^[n] (Machine.start p vs)
    (∀ v, ((value store reflect limit v).run p).2.guard = p.guard) ∧
    run.2.guard = p.guard ∧
    run = (t.result, t.leads p) ∧
    (run.1 ≠ .error .endless → ∃ n,
      moment n = ⟨run.2, [], faultOf run.1⟩ ∧
      Machine.acts store reflect n (Machine.start p vs) = t.acts ∧
      ∀ q, q ∈ t.moments p ↔ ∃ k < n + 1, (moment k).progress = q) ∧
    ∀ n,
      let m := moment n
      m.progress.guard.enabled = p.guard.enabled ∧
      (p.guard.enabled = true →
        m.progress.guard.path = m.opened ++ p.guard.path ∧
          (p.guard.path.Nodup → m.progress.guard.path.Nodup)) ∧
      (p.guard.enabled = false → m.progress.guard.path = p.guard.path) := by
  intro run t moment
  obtain ⟨hrun, hguard⟩ : run = (t.result, t.leads p) ∧ (t.leads p).guard = p.guard :=
    follows_forM vs (value_follows store reflect limit p.guard) p rfl
  refine ⟨?value, ?list, hrun, ?ends, ?moments⟩
  case value =>
    intro v
    obtain ⟨hrun, hguard⟩ := value_follows store reflect limit p.guard v p rfl
    rw [hrun, hguard]
  case list => rw [hrun, hguard]
  case ends =>
    intro hends
    have hhalt : t.halt ≠ some .endless := by
      intro hhalt
      exact hends (by rw [hrun, Trace.result, hhalt])
    have hperforms := Trace.performs_visits (trace_performs store reflect limit p.guard) vs
    obtain ⟨n, hlast, hacts⟩ := hperforms.does p [] rfl hhalt
    rw [List.append_nil] at hlast hacts
    refine ⟨n, ?_, hacts, Machine.mem_moments_iff hacts⟩
    rw [hrun]
    exact hlast
  case moments =>
    intro n m
    obtain ⟨henabled, -, hpath, hfresh⟩ := Machine.tracks_iterate store reflect p vs n
    refine ⟨henabled, fun hcheck => ?_, fun hcheck => by simpa [hcheck] using hpath⟩
    obtain ⟨hnodup, hdisjoint⟩ := hfresh hcheck
    have hpath' : m.progress.guard.path = m.opened ++ p.guard.path := by
      rwa [if_pos hcheck] at hpath
    refine ⟨hpath', fun hinitial => ?_⟩
    rw [hpath']
    exact List.nodup_append'.mpr ⟨hnodup, hinitial, hdisjoint⟩

/-- The guard knows another composite at first.  When the cabinet in the list has been entered, all
three are on the path; after its lock has failed the first one is there alone. -/
theorem guard_restored_cabinet :
    let p : Progress Datum := ⟨⟨[⟨9⟩], true⟩, {}, #[]⟩
    let run := ([.ref .list ⟨0⟩].forM (value Store.cabinet true 3)).run p
    let t := Trace.all (trace Store.cabinet true 3 p.guard) [.ref .list ⟨0⟩]
    let m := (Machine.next Store.cabinet true)^[6] (Machine.start p [.ref .list ⟨0⟩])
    run.1 = .error (.fault (.fieldAccess "Cabinet" "lock")) ∧ run.2.guard = ⟨[⟨9⟩], true⟩ ∧
      run = (t.result, t.leads p) ∧
      (∃ n, (Machine.next Store.cabinet true)^[n] (Machine.start p [.ref .list ⟨0⟩]) =
          ⟨run.2, [], some (.fieldAccess "Cabinet" "lock")⟩ ∧
        Machine.acts Store.cabinet true n (Machine.start p [.ref .list ⟨0⟩]) = t.acts) ∧
      m.opened = [⟨1⟩, ⟨0⟩] ∧ m.progress.guard.path = [⟨1⟩, ⟨0⟩, ⟨9⟩] ∧
      m.progress.guard.path.Nodup := by
  intro p run t m
  obtain ⟨_, hguard, hrun, hends, hmoments⟩ :=
    guard_restored Store.cabinet true 3 p [.ref .list ⟨0⟩]
  have hfault : run.1 = .error (.fault (.fieldAccess "Cabinet" "lock")) := rfl
  have hopened : m.opened = [⟨1⟩, ⟨0⟩] := rfl
  obtain ⟨n, hlast, hacts, _⟩ := hends nofun
  obtain ⟨_, hpath, _⟩ := hmoments 6
  obtain ⟨hpath, hnodup⟩ := hpath rfl
  exact ⟨hfault, hguard, hrun, ⟨n, hlast, hacts⟩, hopened, hpath, hnodup (by decide)⟩

end Walk

end MemoKey
