import MemoKey.Proofs.History

/-!
# Counters tell the truth

The counters of a generator go up at different points of a walk, some before a step that may fail
and some after it, and walks are left half-way.  Still they say what keys have been made, and what
these keys consist of.

## What is counted

`Counted` are the three kinds of nodes that are counted, and `StructuralKey.count` counts them in a
key: at any depth, since `Node.subnodes` are all the nodes that a node holds (`mem_subnodes_iff`).
A walk reports an event of the kind for each of them (`Node.countP_events`), and every event of the
kind moves its counter (`Act.moves_count`).

## Layouts

A layout is asked for before an object is read, and the object is counted after it has been.  So the
two differ by the objects that could not be read, and a walk halts at the first of these:
`Trace.Balanced` says this of a trace, and `Walk.balanced_trace` proves it of every walk.

## Generators

`Counters.GrowBy` is what a key adds to the counters, and `Counters.Account` what they say about all
the answers so far.  The main statement is `Pool.counters_tell_truth`.
-/

namespace MemoKey

variable {ω : Type}

/-! ## Nodes -/

/-- The nodes that are counted. -/
inductive Counted where
  /-- A value that was cut because it contains itself. -/
  | cycle
  /-- A value that is kept whole. -/
  | whole
  /-- An object that is taken apart. -/
  | object
  deriving DecidableEq

/-- What an event is counted as. -/
def Event.counted? : Event ω → Option Counted
  | .cycle => some .cycle
  | .whole _ => some .whole
  | .opens (.object _ _) => some .object
  | _ => none

namespace Node

/-- What a node is counted as. -/
def counted? : Node ω → Option Counted
  | cycle => some .cycle
  | whole _ => some .whole
  | object _ _ => some .object
  | _ => none

lemma counted?_announcement (node : Node ω) : node.announcement.counted? = node.counted? := by
  cases node <;> rfl

mutual

/-- A node and all that is inside it, each node before its parts. -/
def subnodes : Node ω → List (Node ω)
  | seq sequence items => seq sequence items :: itemSubnodes items
  | map entries => map entries :: entrySubnodes entries
  | object type fields => object type fields :: fieldSubnodes fields
  | node => [node]

/-- The nodes of a list and all that is inside them. -/
def itemSubnodes : List (Node ω) → List (Node ω)
  | [] => []
  | node :: rest => subnodes node ++ itemSubnodes rest

/-- The keys and values of a list of entries and all that is inside them. -/
def entrySubnodes : List (Node ω × Node ω) → List (Node ω)
  | [] => []
  | (key, value) :: rest => subnodes key ++ subnodes value ++ entrySubnodes rest

/-- The values of a list of fields and all that is inside them. -/
def fieldSubnodes : List (String × Node ω) → List (Node ω)
  | [] => []
  | (_, value) :: rest => subnodes value ++ fieldSubnodes rest

end

lemma itemSubnodes_eq (nodes : List (Node ω)) : itemSubnodes nodes = nodes.flatMap subnodes := by
  induction nodes with
  | nil => simp [itemSubnodes]
  | cons node rest ih => simp [itemSubnodes, ih]

lemma entrySubnodes_eq (entries : List (Node ω × Node ω)) :
    entrySubnodes entries = (entries.flatMap fun e => [e.1, e.2]).flatMap subnodes := by
  induction entries with
  | nil => simp [entrySubnodes]
  | cons e rest ih => simp [entrySubnodes, ih]

lemma fieldSubnodes_eq (fields : List (String × Node ω)) :
    fieldSubnodes fields = (fields.map (·.2)).flatMap subnodes := by
  induction fields with
  | nil => simp [fieldSubnodes]
  | cons f rest ih => simp [fieldSubnodes, ih]

lemma subnodes_eq (node : Node ω) : node.subnodes = node :: node.parts.flatMap subnodes := by
  cases node with
  | atom | whole | cycle => simp [subnodes, parts]
  | seq sequence items => rw [subnodes, itemSubnodes_eq, parts]
  | map entries => rw [subnodes, entrySubnodes_eq, parts]
  | object type fields => rw [subnodes, fieldSubnodes_eq, parts]

lemma mem_subnodes_iff {node inner : Node ω} : inner ∈ node.subnodes ↔ node.Holds inner := by
  induction node using partsInduction with
  | step node ih =>
    rw [subnodes_eq, holds_iff, List.mem_cons, List.mem_flatMap, eq_comm]
    refine or_congr_right (exists_congr fun part => and_congr_right fun hpart => ?_)
    exact ih part hpart

section

variable {q : Event ω → Bool}

/-- Among the events of a node are the one that announces it and those of its parts; all others mark
entries and ends. -/
lemma countP_events_eq (hcloses : q .closes = false) (hentry : q (.opens .entry) = false)
    (node : Node ω) :
    node.events.countP q = [node.announcement].countP q + (node.parts.flatMap events).countP q := by
  have hbracket (event : Event ω) (inner : List (Event ω)) :
      (event :: (inner ++ [.closes])).countP q = [event].countP q + inner.countP q := by
    rw [← List.singleton_append, List.countP_append, List.countP_append]
    simp [hcloses]
  cases node with
  | atom | whole | cycle => simp [events, parts, announcement]
  | seq sequence items => rw [events, hbracket, itemEvents_eq, parts, announcement]
  | map entries =>
    have hentries : (entryEvents entries).countP q =
        ((entries.flatMap fun e => [e.1, e.2]).flatMap events).countP q := by
      rw [entryEvents_eq, List.flatMap_assoc, List.countP_flatMap, List.countP_flatMap]
      refine congrArg List.sum (List.map_congr_left fun e _ => ?_)
      simp [hcloses, hentry]
    rw [events, hbracket, hentries, parts, announcement]
  | object type fields => rw [events, hbracket, fieldEvents_eq, parts, announcement]

/-- Among the events of a node is one for each node inside it. -/
lemma countP_events (hcloses : q .closes = false) (hentry : q (.opens .entry) = false)
    (node : Node ω) :
    node.events.countP q = node.subnodes.countP fun inner => q inner.announcement := by
  induction node using partsInduction with
  | step node ih =>
    have hparts : (node.parts.flatMap events).countP q =
        (node.parts.flatMap subnodes).countP fun inner => q inner.announcement := by
      rw [List.countP_flatMap, List.countP_flatMap]
      exact congrArg List.sum (List.map_congr_left ih)
    rw [countP_events_eq hcloses hentry, hparts, subnodes_eq node, List.countP_singleton,
      List.countP_cons, Nat.add_comm]

end

end Node

/-- How many nodes of a kind there are in a key, at any depth. -/
def StructuralKey.count (key : StructuralKey ω) (kind : Counted) : Nat :=
  (key.nodes.flatMap Node.subnodes).countP fun node => node.counted? = some kind

/-- The events of the nodes of a key are counted as the nodes are. -/
lemma StructuralKey.countP_itemEvents (nodes : List (Node ω)) (kind : Counted) :
    (Node.itemEvents nodes).countP (fun event => event.counted? = some kind) =
      (StructuralKey.mk nodes).count kind := by
  rw [Node.itemEvents_eq, List.countP_flatMap, count, List.countP_flatMap]
  refine congrArg List.sum (List.map_congr_left fun node _ => ?_)
  simp only [Function.comp_apply]
  rw [Node.countP_events (by rfl) (by rfl)]
  simp only [Node.counted?_announcement]

/-! ## Counters and acts -/

namespace Counters

/-- The counter of a kind of nodes. -/
def count (c : Counters) : Counted → UInt64
  | .cycle => c.cycles
  | .whole => c.wholes
  | .object => c.objects

/-- The layouts that have been asked for, found or not. -/
def layouts (c : Counters) : UInt64 :=
  c.hits + c.misses

@[simp] lemma count_recordKey (c : Counters) (kind : Counted) :
    c.recordKey.count kind = c.count kind := by
  cases kind <;> rfl

@[simp] lemma count_recordHit (c : Counters) (kind : Counted) :
    c.recordHit.count kind = c.count kind := by
  cases kind <;> rfl

@[simp] lemma count_recordMiss (c : Counters) (kind : Counted) :
    c.recordMiss.count kind = c.count kind := by
  cases kind <;> rfl

@[simp] lemma layouts_recordKey (c : Counters) : c.recordKey.layouts = c.layouts := rfl

@[simp] lemma layouts_recordHit (c : Counters) : c.recordHit.layouts = c.layouts + 1 := by
  change c.hits + 1 + c.misses = c.hits + c.misses + 1
  rw [UInt64.add_assoc, UInt64.add_comm 1, UInt64.add_assoc]

@[simp] lemma layouts_recordMiss (c : Counters) : c.recordMiss.layouts = c.layouts + 1 :=
  (UInt64.add_assoc c.hits c.misses 1).symm

/-- An event moves the counter of its own kind only. -/
lemma count_tally (c : Counters) (event : Event ω) (kind : Counted) :
    (event.tally c).count kind =
      c.count kind + if event.counted? = some kind then 1 else 0 := by
  cases event with
  | opens composite =>
    cases composite <;> cases kind <;> simp [Event.tally, Event.counted?, count, recordObject]
  | cycle => cases kind <;> simp [Event.tally, Event.counted?, count, recordCycle]
  | whole x => cases kind <;> simp [Event.tally, Event.counted?, count, recordWhole]
  | _ => simp [Event.tally, Event.counted?]

lemma layouts_tally (c : Counters) (event : Event ω) : (event.tally c).layouts = c.layouts := by
  cases event with
  | opens composite => cases composite <;> rfl
  | _ => rfl

end Counters

/-- A request for a layout is a hit or a miss. -/
lemma Session.counters_layout (s : Session) (info : TypeInfo) :
    (s.layout info).2.counters = s.counters.recordHit ∨
      (s.layout info).2.counters = s.counters.recordMiss := by
  unfold layout
  cases s.layouts.find? info with
  | some slots => exact .inl rfl
  | none => exact .inr rfl

namespace Act

/-- Whether an act reports an event of a kind. -/
def reports (kind : Counted) (a : Act ω) : Bool :=
  a.event?.any fun event => event.counted? = some kind

/-- Whether an act asks for a layout. -/
def isRequest : Act ω → Bool
  | request _ => true
  | _ => false

/-- Acts of one sort move a reading of the counters by one, and no other act moves it. -/
def Moves (reading : Counters → UInt64) (q : Act ω → Bool) : Prop :=
  ∀ (s : Session) (a : Act ω),
    reading (a.onSession s).counters = reading s.counters + if q a then 1 else 0

lemma Moves.foldl {reading : Counters → UInt64} {q : Act ω → Bool} (h : Moves reading q)
    (acts : List (Act ω)) (s : Session) :
    reading (acts.foldl onSession s).counters =
      reading s.counters + .ofNat (acts.countP q) := by
  induction acts generalizing s with
  | nil => simp
  | cons a rest ih =>
    rw [List.foldl_cons, ih, h, List.countP_cons, UInt64.ofNat_add, UInt64.add_assoc,
      UInt64.add_comm (UInt64.ofNat (rest.countP q))]
    cases q a <;> rfl

lemma moves_count (kind : Counted) :
    Moves (fun c => c.count kind) (reports kind : Act ω → Bool) := by
  intro s a
  cases a with
  | report event =>
    simpa [onSession, Session.record, reports, event?] using s.counters.count_tally event kind
  | request info =>
    obtain hhit | hmiss := s.counters_layout info
    · simp only [onSession, hhit, Counters.count_recordHit, reports, event?]
      simp
    · simp only [onSession, hmiss, Counters.count_recordMiss, reports, event?]
      simp
  | enter id => simp [onSession, reports, event?]
  | exit id => simp [onSession, reports, event?]

lemma moves_layouts : Moves Counters.layouts (isRequest : Act ω → Bool) := by
  intro s a
  cases a with
  | report event =>
    simpa [onSession, Session.record, isRequest] using s.counters.layouts_tally event
  | request info =>
    obtain hhit | hmiss := s.counters_layout info
    · simp only [onSession, hhit, isRequest, Counters.layouts_recordHit, if_true]
    · simp only [onSession, hmiss, isRequest, Counters.layouts_recordMiss, if_true]
  | enter id => simp [onSession, isRequest]
  | exit id => simp [onSession, isRequest]

end Act

/-! ## Layouts and objects -/

/-- Whether a walk halts because a slot cannot be read. -/
def Halt.isFieldAccess : Halt → Bool
  | .fault (.fieldAccess _ _) => true
  | _ => false

/-- Whether there is no result because a slot cannot be read. -/
def failsAtSlot {α : Type} : Except Halt α → Bool
  | .error halt => halt.isFieldAccess
  | .ok _ => false

namespace Trace

variable {t u : Trace ω}

/-- In a trace every request for a layout is followed by a report of the object, but for the one at
which the trace halts because the object cannot be read. -/
def Balanced (t : Trace ω) : Prop :=
  t.acts.countP Act.isRequest =
    t.acts.countP (Act.reports .object) + t.halt.toList.countP Halt.isFieldAccess

lemma balanced_nil : (nil : Trace ω).Balanced := rfl

lemma balanced_halting {halt : Halt} (h : halt.isFieldAccess = false) :
    (halting halt : Trace ω).Balanced := by
  simp [Balanced, halting, h]

lemma balanced_report {event : Event ω} (h : event.counted? ≠ some .object) :
    (report event).Balanced := by
  simp [Balanced, report, act, Act.isRequest, Act.reports, Act.event?, h]

lemma Balanced.append (ht : t.Balanced) (hu : u.Balanced) : (t ++ u).Balanced := by
  cases hhalt : t.halt with
  | none =>
    rw [append_of_halt_eq_none hhalt]
    simp only [Balanced, hhalt, Option.toList_none, List.countP_nil] at ht hu ⊢
    rw [List.countP_append, List.countP_append, ht, hu]
    omega
  | some halt => rwa [append_of_halt_eq_some hhalt]

lemma balanced_all {α : Type} {f : α → Trace ω} {xs : List α} (h : ∀ x ∈ xs, (f x).Balanced) :
    (all f xs).Balanced := by
  induction xs with
  | nil => exact balanced_nil
  | cons x rest ih =>
    obtain ⟨hx, hrest⟩ := List.forall_mem_cons.mp h
    exact hx.append (ih hrest)

lemma Balanced.inside (ht : t.Balanced) (id : Identity) : (inside id t).Balanced := by
  simpa [Balanced, Trace.inside, Act.isRequest, Act.reports, Act.event?, List.countP_cons] using ht

/-- A request and the object that has been read together keep the balance. -/
lemma Balanced.object (ht : t.Balanced) (info : TypeInfo) (type : TypeName) (names : List String) :
    (act (.request info) ++ (report (.opens (.object type names)) ++ t)).Balanced := by
  rw [append_of_halt_eq_none rfl, append_of_halt_eq_none rfl]
  simp only [Balanced] at ht ⊢
  simp only [act, report, List.countP_append, ht]
  simp [Act.isRequest, Act.reports, Act.event?, Event.counted?]
  omega

lemma balanced_descend {g : Guard} {id : Identity} {body : Guard → Trace ω}
    (h : g.cuts id = false → (body (g.below id)).Balanced) : (descend g id body).Balanced := by
  cases hcut : g.cuts id with
  | true =>
    rw [descend_of_cuts hcut]
    exact balanced_report nofun
  | false =>
    have hbody := h hcut
    obtain hopen | hinside := descend_of_not_cuts hcut body
    · rwa [hopen]
    · rw [hinside]
      exact hbody.inside id

end Trace

/-- An object is counted as soon as it has been read; until then its layout is one ahead. -/
lemma Cell.balanced_trace {cell : Cell ω} {t : Value ω → Trace ω}
    (h : ∀ v ∈ cell.parts, (t v).Balanced) : (cell.trace t).Balanced := by
  have hcloses : (Trace.report .closes : Trace ω).Balanced :=
    Trace.balanced_report (by simp [Event.counted?])
  have hbracket {α : Type} (event : Event ω) (hevent : event.counted? ≠ some .object)
      {f : α → Trace ω} {xs : List α} (hall : ∀ x ∈ xs, (f x).Balanced) :
      (Trace.report event ++ (.all f xs ++ .report .closes)).Balanced :=
    (Trace.balanced_report hevent).append ((Trace.balanced_all hall).append hcloses)
  cases cell with
  | seq sequence items => exact hbracket (.opens (.seq sequence)) (by simp [Event.counted?]) h
  | map entries =>
    rw [trace]
    refine hbracket (.opens .map) (by simp [Event.counted?]) fun e he => ?_
    have hkey : (t e.1).Balanced := h e.1 (fst_mem_parts he)
    have hvalue : (t e.2).Balanced := h e.2 (snd_mem_parts he)
    have hopens : (Trace.report (.opens .entry) : Trace ω).Balanced :=
      Trace.balanced_report (by simp [Event.counted?])
    exact hopens.append (hkey.append (hvalue.append hcloses))
  | object o =>
    rw [trace, Object.readAll_eq]
    cases hslot : o.type.layout.find? fun slot => (o.read slot).isNone with
    | some slot => rfl
    | none =>
      have hrest : (Trace.all t (o.type.layout.map fun slot => (o.read slot).getD .null) ++
          .report .closes).Balanced := (Trace.balanced_all h).append hcloses
      dsimp only
      exact hrest.object _ _ _

/-- The trace of every walk is balanced. -/
theorem Walk.balanced_trace (store : Store ω) (reflect : Bool) (limit : Nat) (g : Guard)
    (v : Value ω) : (trace store reflect limit g v).Balanced := by
  induction limit, g, v using boundInduction store reflect with
  | atom limit g v a hsight =>
    rw [trace_of_atom hsight]
    exact Trace.balanced_report nofun
  | whole limit g v x hsight =>
    rw [trace_of_whole hsight]
    exact Trace.balanced_report nofun
  | cut limit g v id cell hsight hcut =>
    rw [trace_of_cuts hsight hcut]
    exact Trace.balanced_report nofun
  | outside g v id cell hsight hcut =>
    rw [trace_zero hsight]
    exact Trace.balanced_descend fun _ => Trace.balanced_halting rfl
  | inside limit g v id cell hsight hcut ih =>
    rw [trace_succ hsight]
    exact Trace.balanced_descend fun _ => Cell.balanced_trace ih

/-! ## Calls -/

/-- Counting acts that report a kind of events is counting these events. -/
lemma Trace.countP_reports (t : Trace ω) (kind : Counted) :
    t.acts.countP (Act.reports kind) =
      t.events.countP fun event => event.counted? = some kind := by
  rw [events, List.countP_filterMap]
  refine congrArg (fun q => t.acts.countP q) (funext fun a => ?_)
  unfold Act.reports
  cases a.event? <;> rfl

namespace Config

variable {c : Config} {store : Store ω} {call : Invocation ω}

lemma counted?_of_mem_prefixEvents (c : Config) (s : Signature) :
    ∀ event ∈ (c.prefixEvents s : List (Event ω)), event.counted? = none := by
  unfold prefixEvents
  cases c.includeSignatureTypes <;> cases c.includeMethodName <;>
    simp [Event.counted?, or_imp, forall_and]

/-- Nothing of a signature is counted. -/
lemma countP_signatureEvents {signature : Option Signature} {head : List (Event ω)}
    (h : c.signatureEvents signature = .ok head) (kind : Counted) :
    head.countP (fun event => event.counted? = some kind) = 0 := by
  rw [List.countP_eq_zero]
  intro event hevent
  unfold signatureEvents at h
  split at h
  · cases signature with
    | none => cases h
    | some s =>
      cases h
      simp [counted?_of_mem_prefixEvents c s event hevent]
  · cases h
    cases hevent

/-- The trace of a call.  Without the signature that it needs the call halts at once. -/
def callTrace (c : Config) (store : Store ω) (call : Invocation ω) : Trace ω :=
  match (c.signatureEvents call.signature : Except Fault (List (Event ω))) with
  | .error fault => .halting (.fault fault)
  | .ok _ => c.trace store call

lemma balanced_callTrace (c : Config) (store : Store ω) (call : Invocation ω) :
    (c.callTrace store call).Balanced := by
  unfold callTrace
  cases hhead : (c.signatureEvents call.signature : Except Fault (List (Event ω))) with
  | error fault =>
    unfold signatureEvents at hhead
    split at hhead
    · cases hsignature : call.signature with
      | none =>
        rw [hsignature] at hhead
        cases hhead
        exact Trace.balanced_halting rfl
      | some s => simp [hsignature] at hhead
    · cases hhead
  | ok head => exact Trace.balanced_all fun v _ => Walk.balanced_trace store _ _ _ v

/-- A call has no key for the reason for which its trace halts. -/
lemma halt_callTrace (c : Config) (store : Store ω) (call : Invocation ω) :
    (c.callTrace store call).halt =
      match c.report store call with
      | .error halt => some halt
      | .ok _ => none := by
  unfold callTrace report
  cases (c.signatureEvents call.signature : Except Fault (List (Event ω))) with
  | error fault => rfl
  | ok head => cases (c.trace store call).halt <;> rfl

lemma sessionAfter_eq (c : Config) (store : Store ω) (call : Invocation ω) (session : Session) :
    c.sessionAfter store call session =
      let walked := (c.callTrace store call).acts.foldl Act.onSession session
      match c.report store call with
      | .error _ => walked
      | .ok _ => walked.record .recordKey := by
  unfold sessionAfter callTrace report
  cases (c.signatureEvents call.signature : Except Fault (List (Event ω))) with
  | error fault => rfl
  | ok head => cases (c.trace store call).halt <;> rfl

/-- What acts of one sort move goes up by the number of these acts. -/
lemma reading_sessionAfter {reading : Counters → UInt64} {q : Act ω → Bool}
    (h : Act.Moves reading q) (hkey : ∀ counters, reading counters.recordKey = reading counters)
    (session : Session) :
    reading (c.sessionAfter store call session).counters =
      reading session.counters + .ofNat ((c.callTrace store call).acts.countP q) := by
  rw [← h.foldl, sessionAfter_eq]
  cases c.report store call with
  | error halt => rfl
  | ok events => exact hkey _

/-- Among the acts of a call that has a key is one for each counted node of the structural key. -/
lemma countP_callTrace {events : List (Event ω)} (h : c.report store call = .ok events)
    (kind : Counted) :
    (c.callTrace store call).acts.countP (Act.reports kind) =
      (StructuralKey.ofEvents events).count kind := by
  have hnodes : events = Node.itemEvents (c.nodes store call) := (report_eq_ok h).2
  unfold report at h
  cases hhead : (c.signatureEvents call.signature : Except Fault (List (Event ω))) with
  | error fault => simp [hhead] at h
  | ok head =>
    have hwalked : events = head ++ (c.trace store call).events := by
      cases hhalt : (c.trace store call).halt <;> simp_all
    have htrace : c.callTrace store call = c.trace store call := by rw [callTrace, hhead]
    calc
      (c.callTrace store call).acts.countP (Act.reports kind)
          = (c.trace store call).events.countP (fun event => event.counted? = some kind) := by
        rw [htrace, Trace.countP_reports]
      _ = events.countP (fun event => event.counted? = some kind) := by
        rw [hwalked, List.countP_append, countP_signatureEvents hhead, Nat.zero_add]
      _ = (StructuralKey.ofEvents events).count kind := by
        rw [hnodes, StructuralKey.countP_itemEvents, StructuralKey.ofEvents_itemEvents]

end Config

/-! ## Keys and counters -/

namespace Counters

/-- What a key that is made adds to the counters: itself, a cycle, whole value or object for every
node of that kind in the structural key, and a layout for every object. -/
structure GrowBy (key : StructuralKey ω) (before after : Counters) : Prop where
  keys : after.keys = before.keys + 1
  cycles : after.cycles = before.cycles + .ofNat (key.count .cycle)
  wholes : after.wholes = before.wholes + .ofNat (key.count .whole)
  objects : after.objects = before.objects + .ofNat (key.count .object)
  layouts : after.hits + after.misses = before.hits + before.misses + .ofNat (key.count .object)

/-- What counters say about answers: the number of keys among them, and the number of those that
failed at a slot as the difference between the layouts asked for and the objects taken apart. -/
structure Account (answers : List (Except Halt (CacheKey ω))) (c : Counters) : Prop where
  keys : c.keys = .ofNat (answers.countP Except.isOk)
  layouts : c.hits + c.misses =
    c.objects + .ofNat (answers.countP failsAtSlot)

end Counters

namespace Config

variable {c : Config} {store : Store ω} {call : Invocation ω}

lemma keys_sessionAfter (c : Config) (store : Store ω) (call : Invocation ω) (session : Session) :
    (c.sessionAfter store call session).counters.keys =
      session.counters.keys + if (c.report store call).isOk then 1 else 0 := by
  rw [sessionAfter_eq]
  cases c.report store call with
  | error halt =>
    have hkeys := Act.keys_foldl_onSession session (c.callTrace store call).acts
    simpa [Except.isOk, Except.toBool] using hkeys
  | ok events => exact congrArg (· + 1) (Act.keys_foldl_onSession session _)

/-- A call asks for a layout for every object that it takes apart, and for one more if it fails at a
slot. -/
lemma layouts_sessionAfter (c : Config) (store : Store ω) (call : Invocation ω)
    (session : Session) :
    (c.sessionAfter store call session).counters.layouts =
      session.counters.layouts +
        .ofNat ((c.callTrace store call).acts.countP (Act.reports .object)) +
        if failsAtSlot (c.report store call) then 1 else 0 := by
  have hbalanced : (c.callTrace store call).Balanced := c.balanced_callTrace store call
  rw [reading_sessionAfter Act.moves_layouts Counters.layouts_recordKey, hbalanced, halt_callTrace,
    UInt64.ofNat_add, UInt64.add_assoc]
  cases c.report store call with
  | error halt => cases hslot : halt.isFieldAccess <;> simp [failsAtSlot, hslot]
  | ok events => rfl

/-- A call that has a key counts the key and its nodes. -/
lemma growBy_sessionAfter {events : List (Event ω)} (h : c.report store call = .ok events)
    (session : Session) :
    Counters.GrowBy (StructuralKey.ofEvents events) session.counters
      (c.sessionAfter store call session).counters := by
  have hcount (kind : Counted) :
      (c.sessionAfter store call session).counters.count kind =
        session.counters.count kind + .ofNat ((StructuralKey.ofEvents events).count kind) := by
    rw [← countP_callTrace h]
    exact reading_sessionAfter (Act.moves_count kind) (fun _ => Counters.count_recordKey _ kind) _
  have hlayouts := c.layouts_sessionAfter store call session
  rw [countP_callTrace h, h, failsAtSlot, if_neg Bool.false_ne_true, UInt64.add_zero] at hlayouts
  have hkeys := c.keys_sessionAfter store call session
  rw [h] at hkeys
  exact ⟨hkeys, hcount .cycle, hcount .whole, hcount .object, hlayouts⟩

end Config

/-- One answer more is accounted for once it has been given. -/
lemma Counters.Account.answer [OpaqueValue ω] {g : Generator}
    {answers : List (Except Halt (CacheKey ω))} (h : g.counters.Account answers)
    (store : Store ω) (layouts : LayoutCache) (call : Invocation ω) :
    (g.answer store layouts call).2.counters.Account
      (answers ++ [(g.answer store layouts call).1]) := by
  obtain ⟨hkeys, hlayouts⟩ := h
  rw [Generator.answer_eq]
  set after := (g.config.sessionAfter store call ⟨layouts, g.counters⟩).counters
  constructor
  · have hafter : after.keys = g.counters.keys + _ := Config.keys_sessionAfter g.config store call _
    rw [hafter, hkeys, List.countP_append, UInt64.ofNat_add]
    cases g.config.report store call <;> rfl
  · have hafter : after.hits + after.misses = g.counters.hits + g.counters.misses + _ + _ :=
      Config.layouts_sessionAfter g.config store call _
    have hobjects : after.objects = g.counters.objects + _ :=
      Config.reading_sessionAfter (Act.moves_count .object)
        (fun _ => Counters.count_recordKey _ .object) _
    have hlast : UInt64.ofNat ([(g.config.report store call).map (CacheKey.ofEvents g.kind)].countP
        failsAtSlot) = if failsAtSlot (g.config.report store call) then 1 else 0 := by
      cases g.config.report store call with
      | error halt => cases hslot : halt.isFieldAccess <;> simp [Except.map, failsAtSlot, hslot]
      | ok events => rfl
    rw [hafter, hlayouts, hobjects, List.countP_append, UInt64.ofNat_add, hlast]
    ac_rfl

namespace Pool

/-- The answers of one generator, in order. -/
def answersOf (who : Nat) (log : List (Answer ω)) : List (Except Halt (CacheKey ω)) :=
  (log.filter fun answer => answer.who = who).map (·.result)

lemma answersOf_concat (who : Nat) (log : List (Answer ω)) (answer : Answer ω) :
    answersOf who (log ++ [answer]) =
      answersOf who log ++ if answer.who = who then [answer.result] else [] := by
  by_cases hwho : answer.who = who <;> simp [answersOf, hwho]

/-- The counters of all generators account for all answers. -/
structure Accounts (log : List (Answer ω)) (p : Pool ω) : Prop where
  known : ∀ answer ∈ log, answer.who < p.generators.length
  account : ∀ (who : Nat) (g : Generator), p.generators[who]? = some g →
    g.counters.Account (answersOf who log)

variable {log : List (Answer ω)} {p : Pool ω}

lemma Accounts.build (h : Accounts log p) (kind : Derivation) (config : Config) :
    Accounts log (p.build kind config) := by
  constructor
  · intro answer hanswer
    have hlt := h.known answer hanswer
    simp only [Pool.build, List.length_append, List.length_singleton]
    omega
  · intro who g hg
    rw [Pool.build, List.getElem?_append] at hg
    split at hg
    · exact h.account who g hg
    · -- Nobody has asked the new generator yet.
      have hnone : answersOf who log = [] := by
        rw [answersOf, List.map_eq_nil_iff, List.filter_eq_nil_iff]
        intro answer hanswer
        have hlt := h.known answer hanswer
        simp only [decide_eq_true_eq]
        omega
      obtain rfl := List.mem_singleton.mp (List.mem_of_getElem? hg)
      rw [hnone]
      exact ⟨rfl, rfl⟩

lemma Accounts.share (h : Accounts log p) (who other : Nat) : Accounts log (p.share who other) := by
  unfold Pool.share
  cases p.generators[other]? with
  | none => exact h
  | some source =>
    refine ⟨by simpa using h.known, fun n g hg => ?_⟩
    rw [List.getElem?_modify] at hg
    obtain ⟨old, hold, rfl⟩ := Option.map_eq_some_iff.mp hg
    have haccount := h.account n old hold
    split <;> exact haccount

variable [OpaqueValue ω]

lemma Accounts.ask (h : Accounts log p) (who : Nat) (call : Invocation ω) :
    Accounts (log ++ (p.ask who call).1.toList) (p.ask who call).2 := by
  unfold Pool.ask
  cases hg : p.generators[who]? with
  | none => simpa using h
  | some g =>
    obtain ⟨hlt, _⟩ := List.getElem?_eq_some_iff.mp hg
    constructor
    · simpa [or_imp, forall_and, hlt] using h.known
    · intro n g' hg'
      simp only [List.getElem?_set] at hg'
      rw [Option.toList_some, answersOf_concat]
      by_cases hn : who = n
      · subst hn
        obtain rfl : _ = g' := by simpa [hlt] using hg'
        have hone := (h.account who g hg).answer p.store (p.caches g.cache) call
        simpa using hone
      · rw [if_neg hn] at hg'
        simpa [hn] using h.account n g' hg'

/-- One step keeps the accounts. -/
lemma Accounts.apply (h : Accounts log p) (op : Operation ω) :
    Accounts (log ++ (p.apply op).1.toList) (p.apply op).2 := by
  cases op with
  | build kind config => simpa [Pool.apply] using h.build kind config
  | share who other => simpa [Pool.apply] using h.share who other
  | change store =>
    have hknown := h.known
    have haccount := h.account
    exact ⟨by simpa [Pool.apply] using hknown, by simpa [Pool.apply] using haccount⟩
  | ask who call => exact h.ask who call

/-- A run keeps the accounts. -/
lemma Accounts.run (h : Accounts log p) (ops : List (Operation ω)) :
    Accounts (log ++ (p.run ops).1) (p.run ops).2 := by
  induction ops generalizing p log with
  | nil => simpa [Pool.run] using h
  | cons op rest ih =>
    have hrest := ih (h.apply op)
    rwa [List.append_assoc] at hrest

/-- **Counters tell the truth.**  After any history the counters of every generator say how many
keys it has made, and as the difference between the layouts that it asked for and the objects that
it took apart how many of its calls failed at a slot.  Whenever it makes one more key, of either
kind, they grow by what there is in the structural key of the call. -/
theorem counters_tell_truth {past : List (Operation ω)} {log : List (Answer ω)} {now : Pool ω}
    (hrun : ({} : Pool ω).run past = (log, now)) {who : Nat} {g : Generator}
    (h : now.generators[who]? = some g) :
    g.counters.Account (answersOf who log) ∧
      ∀ call key, (now.ask who call).1 = some ⟨who, .ok key⟩ →
        ∃ (structural : StructuralKey ω) (after : Generator),
          (g.config.structuralKey now.store call {}).1 = .ok structural ∧
          key = (match g.kind with
            | .structural => .structural structural
            | .hashCode => .hashCode structural.hash) ∧
          (now.ask who call).2.generators[who]? = some after ∧
          Counters.GrowBy structural g.counters after.counters := by
  have hempty : Accounts [] ({} : Pool ω) := ⟨List.forall_mem_nil _, fun _ _ hg => by simp at hg⟩
  have haccounts : Accounts log now := by
    have hrest := hempty.run past
    rwa [hrun] at hrest
  refine ⟨haccounts.account who g h, fun call key hkey => ?_⟩
  obtain ⟨hanswer, hafter⟩ := ask_of_getElem? h call
  rw [hanswer] at hkey
  cases hreport : g.config.report now.store call with
  | error halt => simp [hreport, Except.map] at hkey
  | ok events =>
    rw [hreport] at hkey
    cases hkey
    have hhash : Hash.ofEvents events = (StructuralKey.ofEvents events).hash := by
      have hagree := g.config.map_hash_report now.store call
      rw [hreport] at hagree
      exact Except.ok.inj hagree
    refine ⟨StructuralKey.ofEvents events, _, ?_, ?_, hafter, ?_⟩
    · rw [Config.structuralKey_fst, hreport]
      rfl
    · cases g.kind <;> simp [CacheKey.ofEvents, hhash]
    · exact Config.growBy_sessionAfter hreport ⟨now.caches g.cache, g.counters⟩

/-- A list holds itself, an opaque value, and a drawer twice.  As long as the handle of the drawer
cannot be read a call is left there, with a cycle, a value and a layout counted; afterwards a hash
key adds what the structural key shows. -/
theorem counters_tell_truth_drawer :
    let inside : Config := { Config.argumentsOnly with useReflection := true }
    let call : Invocation Datum := { arguments := [.ref .list ⟨1⟩] }
    let list : Cell Datum :=
      .seq .list [.ref .list ⟨1⟩, .whole default, .ref .object ⟨0⟩, .ref .object ⟨0⟩]
    let past : List (Operation Datum) :=
      [.change ((Store.drawer none).place list).2, .build .hashCode inside, .ask 0 call,
        .change ((Store.drawer (some .null)).place list).2]
    let log : List (Answer Datum) := [⟨0, .error (.fault (.fieldAccess "Drawer" "handle"))⟩]
    let now := (({} : Pool Datum).run past).2
    let g : Generator := ⟨.hashCode, inside, 0, { cycles := 1, wholes := 1, misses := 1 }⟩
    let drawer : Node Datum := .object ⟨"Drawer"⟩ [("handle", .atom .null)]
    let key : StructuralKey Datum :=
      ⟨[.seq .list [.cycle, .whole (.value default), drawer, drawer]]⟩
    ({} : Pool Datum).run past = (log, now) ∧
      now.generators[0]? = some g ∧
      g.counters.Account (answersOf 0 log) ∧
      (key.count .cycle = 1 ∧ key.count .whole = 1 ∧ key.count .object = 2) ∧
      ∃ after, (now.ask 0 call).1 = some ⟨0, .ok (.hashCode key.hash)⟩ ∧
        (now.ask 0 call).2.generators[0]? = some after ∧
        Counters.GrowBy key g.counters after.counters := by
  intro inside call list past log now g drawer key
  have hrun : ({} : Pool Datum).run past = (log, now) := rfl
  have hg : now.generators[0]? = some g := rfl
  obtain ⟨haccount, hcalls⟩ := counters_tell_truth hrun hg
  have hcount : key.count .cycle = 1 ∧ key.count .whole = 1 ∧ key.count .object = 2 := by decide
  have hmade : (inside.structuralKey now.store call {}).1 = .ok key := rfl
  obtain ⟨events, hreport⟩ : ∃ events, inside.report now.store call = .ok events := ⟨_, rfl⟩
  have hanswer := (ask_of_getElem? hg call).1
  rw [hreport] at hanswer
  obtain ⟨found, after, hfound, hkey, hafter, hgrow⟩ := hcalls call _ hanswer
  obtain rfl : key = found := Except.ok.inj (hmade.symm.trans hfound)
  refine ⟨hrun, hg, haccount, hcount, after, ?_, hafter, hgrow⟩
  rw [hanswer]
  exact congrArg (fun k => some (Answer.mk 0 (.ok k))) hkey

end Pool

end MemoKey
