import MemoKey.Proofs.Frames
import MemoKey.Proofs.Outcome

/-!
# Walks nest their events well

An assembly has an answer to any event, and for some the answer is to leave something out: a node
that meets an open map, an entry outside of one, values without a field name.  No walk reports such
an event, whatever the configuration, the argument graph, the guard and the bound are, and whether
it goes to its end or not.

* `Assembly.Safe` lists what an event may not do to an assembly.
* `Assembly.Fit` asks that an event is in place and closes nothing at the top level.  That is
  enough, by `Assembly.safe_of_fit`, while every open composite is where it belongs.
* `Assembly.always_fit_events` says that the events of a node fit.  What a walk reports are the
  events of nodes, or the first of them (`Walk.reports_all`).

The main statement is `Config.builders_driven_safely`.
-/

namespace MemoKey

variable {ω : Type}

namespace Assembly

/-! ## Conditions on lists of events -/

section Always

variable {P Q : Assembly ω → Event ω → Prop} {a : Assembly ω} {xs ys : List (Event ω)}

lemma always_append :
    a.Always P (xs ++ ys) ↔ a.Always P xs ∧ (xs.foldl feed a).Always P ys := by
  induction xs generalizing a with
  | nil => simp [Always]
  | cons event rest ih => simp only [List.cons_append, Always, ih, List.foldl_cons, and_assoc]

lemma Always.of_isPrefix (h : a.Always P ys) (hfirst : xs <+: ys) : a.Always P xs := by
  obtain ⟨rest, rfl⟩ := hfirst
  exact (always_append.mp h).1

/-- A condition gives another one at every event if some invariant does so and is kept. -/
lemma Always.imp {I : Assembly ω → Prop}
    (hstep : ∀ a event, I a → P a event → Q a event ∧ I (a.feed event)) (hI : I a)
    (h : a.Always P xs) : a.Always Q xs := by
  induction xs generalizing a with
  | nil => trivial
  | cons event rest ih =>
    obtain ⟨hQ, hI'⟩ := hstep a event hI h.1
    exact ⟨hQ, ih hI' h.2⟩

end Always

/-! ## Safe events -/

/-- The open composites that an event puts a node onto, if it does so.  A leaf is a node; what is
closed becomes one, unless it is an entry. -/
def receiver? (a : Assembly ω) : Event ω → Option (List (Frame ω))
  | .opens _ => none
  | .closes =>
    match a.frames with
    | [] => none
    | frame :: rest => if frame.isEntry then none else some rest
  | _ => some a.frames

/-- What an event may not do to an assembly. -/
structure Safe (a : Assembly ω) (event : Event ω) : Prop where
  /-- A node that is put onto open composites is added there, and never directly onto a map. -/
  node_placed : ∀ frames ∈ a.receiver? event,
    (∃ node, a.feed event = add ⟨a.root, frames⟩ node) ∧ frames.head?.any Frame.isMap = false
  /-- An entry is opened directly in a map. -/
  entry_placed : event = .opens .entry → a.inMap = true
  /-- An entry is closed with two parts, and goes into a map. -/
  entry_complete : ∀ parts rest, event = .closes → a.frames = .entry parts :: rest →
    parts.size = 2 ∧ rest.head?.any Frame.isMap = true
  /-- An object is closed with one value for each field name, and none is dropped. -/
  object_complete : ∀ type fieldNames values rest, event = .closes →
    a.frames = .object type fieldNames values :: rest →
      values.size = fieldNames.length ∧
        (fieldNames.zip values.toList).unzip = (fieldNames, values.toList)
  /-- Nothing is closed at the top level. -/
  root_kept : event = .closes → a.frames ≠ []

/-- An event fits: it is in place, and closes something if it closes. -/
def Fit (a : Assembly ω) (event : Event ω) : Prop :=
  a.Admits event ∧ (event = .closes → a.frames ≠ [])

variable {a : Assembly ω} {event : Event ω}

lemma Fit.of_admits (h : a.Admits event) (hne : event ≠ .closes) : a.Fit event :=
  ⟨h, fun hcloses => absurd hcloses hne⟩

lemma feed_eq_add {frames : List (Frame ω)} (h : frames ∈ a.receiver? event) :
    ∃ node, a.feed event = add ⟨a.root, frames⟩ node := by
  obtain ⟨root, open'⟩ := a
  cases event with
  | atom | whole | cycle =>
    obtain rfl : open' = frames := by simpa [receiver?] using h
    exact ⟨_, rfl⟩
  | opens composite => simp [receiver?] at h
  | closes =>
    cases open' with
    | nil => simp [receiver?] at h
    | cons frame rest =>
      cases frame with
      | entry parts => simp [receiver?, Frame.isEntry, Frame.opening] at h
      | seq | map | object =>
        obtain rfl : rest = frames := by
          simpa [receiver?, Frame.isEntry, Frame.opening] using h
        exact ⟨_, rfl⟩

/-- An event that fits is safe while every open composite is where it belongs. -/
lemma safe_of_fit (hplaced : Frame.Placed a.frames) (hfit : a.Fit event) : a.Safe event := by
  obtain ⟨hadmits, hopen⟩ := hfit
  refine ⟨?node, ?entry, ?entryClosed, ?objectClosed, hopen⟩
  case node =>
    intro frames hframes
    refine ⟨feed_eq_add hframes, ?_⟩
    cases event with
    | atom | whole | cycle =>
      obtain rfl : a.frames = frames := by simpa [receiver?] using hframes
      exact hadmits
    | opens composite => simp [receiver?] at hframes
    | closes =>
      obtain ⟨root, open'⟩ := a
      cases open' with
      | nil => simp [receiver?] at hframes
      | cons frame rest =>
        obtain ⟨hentry, rfl⟩ : frame.isEntry = false ∧ rest = frames := by
          simpa [receiver?] using hframes
        rw [← hplaced.1, hentry]
  case entry =>
    rintro rfl
    exact hadmits
  case entryClosed =>
    intro parts rest hcloses hframes
    subst hcloses
    rw [hframes] at hplaced
    exact ⟨hadmits (.entry parts) (by rw [hframes]; rfl), hplaced.1.symm⟩
  case objectClosed =>
    intro type fieldNames values rest hcloses hframes
    subst hcloses
    have hsize : values.size = fieldNames.length :=
      hadmits (.object type fieldNames values) (by rw [hframes]; rfl)
    exact ⟨hsize, List.unzip_zip hsize.symm⟩

lemma always_safe {events : List (Event ω)} (h : start.Always Fit events) :
    start.Always Safe events := by
  refine Always.imp (I := fun a => Frame.Placed a.frames) ?_ trivial h
  intro a event hplaced hfit
  exact ⟨safe_of_fit hplaced hfit, placed_feed hplaced hfit.1⟩

/-! ## The events of nodes fit -/

@[simp] lemma inMap_add (a : Assembly ω) (node : Node ω) : (a.add node).inMap = a.inMap := by
  obtain ⟨root, frames⟩ := a
  cases frames <;> simp [add, inMap, Frame.isMap]

@[simp] lemma inMap_addEntry (a : Assembly ω) (key value : Node ω) :
    (a.addEntry key value).inMap = a.inMap := by
  obtain ⟨root, frames⟩ := a
  cases frames <;> simp [addEntry, inMap, Frame.isMap]

lemma always_fit_flatMap {nodes : List (Node ω)}
    (h : ∀ node ∈ nodes, ∀ a : Assembly ω, a.inMap = false → a.Always Fit node.events)
    (ha : a.inMap = false) : a.Always Fit (nodes.flatMap Node.events) := by
  induction nodes generalizing a with
  | nil => trivial
  | cons node rest ih =>
    obtain ⟨hnode, hrest⟩ := List.forall_mem_cons.mp h
    rw [List.flatMap_cons, always_append, foldl_feed_events]
    exact ⟨hnode a ha, ih hrest (by rwa [inMap_add])⟩

/-- Events between the opening and the closing of a composite fit if the composite is in place and
has all of its parts in the end. -/
lemma always_fit_bracket {composite : Composite} {events : List (Event ω)}
    {root : Array (Node ω)} {frame : Frame ω} {rest : List (Frame ω)}
    (hopens : a.Admits (.opens composite)) (hevents : (a.enter composite).Always Fit events)
    (hstate : events.foldl feed (a.enter composite) = ⟨root, frame :: rest⟩)
    (hcomplete : frame.IsComplete) :
    a.Always Fit (.opens composite :: (events ++ [.closes])) := by
  have hcloses : (events.foldl feed (a.enter composite)).Fit .closes := by
    rw [hstate]
    exact ⟨fun other hother => by cases hother; exact hcomplete, fun _ => List.cons_ne_nil _ _⟩
  exact ⟨.of_admits hopens (by simp), always_append.mpr ⟨hevents, hcloses, trivial⟩⟩

lemma always_fit_entryEvents {entries : List (Node ω × Node ω)}
    (h : ∀ e ∈ entries, ∀ a : Assembly ω, a.inMap = false →
      a.Always Fit e.1.events ∧ a.Always Fit e.2.events)
    (ha : a.inMap = true) : a.Always Fit (Node.entryEvents entries) := by
  induction entries generalizing a with
  | nil => simp [Node.entryEvents, Always]
  | cons e rest ih =>
    -- Inside of the entry the key and the value are added to its frame, so the map is out of sight.
    obtain ⟨key, value⟩ := e
    obtain ⟨hentry, hrest⟩ := List.forall_mem_cons.mp h
    have hstate : (key.events ++ value.events).foldl feed (a.enter .entry) =
        ⟨a.root, .entry #[key, value] :: a.frames⟩ := by
      rw [List.foldl_append, foldl_feed_events, foldl_feed_events]
      rfl
    have hparts : (a.enter .entry).Always Fit (key.events ++ value.events) := by
      rw [always_append, foldl_feed_events]
      exact ⟨(hentry (a.enter .entry) rfl).1, (hentry ((a.enter .entry).add key) rfl).2⟩
    have hafter : (Event.opens .entry :: (key.events ++ value.events ++ [.closes])).foldl feed a =
        a.addEntry key value := by
      rw [List.foldl_cons, List.foldl_append]
      exact congrArg (fun b : Assembly ω => b.leave) hstate
    rw [Node.entryEvents, always_append, hafter]
    exact ⟨always_fit_bracket ha hparts hstate rfl, ih hrest (by rwa [inMap_addEntry])⟩

/-- Outside of maps the events of a node fit. -/
theorem always_fit_events (node : Node ω) (ha : a.inMap = false) : a.Always Fit node.events := by
  induction node using Node.partsInduction generalizing a with
  | step node ih =>
    -- Nodes are added one after the other to a frame that takes them.
    have hnodes {nodes : List (Node ω)} (hparts : ∀ part ∈ nodes, part ∈ node.parts)
        (composite : Composite) (hcomposite : (a.enter composite).inMap = false) :
        (a.enter composite).Always Fit (nodes.flatMap Node.events) ∧
          (nodes.flatMap Node.events).foldl feed (a.enter composite) =
            nodes.foldl add (a.enter composite) :=
      ⟨always_fit_flatMap (fun part hpart _ => ih part (hparts part hpart)) hcomposite,
        foldl_feed_flatMap_events nodes (fun part _ => foldl_feed_events part) _⟩
    cases node with
    | atom | whole | cycle =>
      rw [Node.events]
      exact ⟨.of_admits ha (by simp), trivial⟩
    | seq sequence items =>
      obtain ⟨hitems, hstate⟩ := hnodes (fun _ h => h) (.seq sequence) rfl
      rw [Node.events, Node.itemEvents_eq]
      exact always_fit_bracket ha hitems (hstate.trans (foldl_add_seq sequence #[] items)) trivial
    | map entries =>
      have hentries : (a.enter .map).Always Fit (Node.entryEvents entries) :=
        always_fit_entryEvents (fun e he _ hb =>
          ⟨ih e.1 (List.mem_flatMap.mpr ⟨e, he, by simp⟩) hb,
            ih e.2 (List.mem_flatMap.mpr ⟨e, he, by simp⟩) hb⟩) rfl
      have hstate : (Node.entryEvents entries).foldl feed (a.enter .map) =
          entries.foldl (fun b e => b.addEntry e.1 e.2) (a.enter .map) :=
        foldl_feed_entryEvents (fun e _ b => ⟨foldl_feed_events e.1 b, foldl_feed_events e.2 b⟩) _
      rw [Node.events]
      exact always_fit_bracket ha hentries (hstate.trans (foldl_addEntry_map #[] entries)) trivial
    | object type fields =>
      obtain ⟨hvalues, hstate⟩ := hnodes (fun _ h => h) (.object type (fields.map (·.1))) rfl
      rw [Node.events, Node.fieldEvents_eq]
      exact always_fit_bracket ha hvalues
        (hstate.trans (foldl_add_object type (fields.map (·.1)) #[] (fields.map (·.2))))
        (by simp [Frame.IsComplete])

lemma always_fit_itemEvents (nodes : List (Node ω)) :
    (start : Assembly ω).Always Fit (Node.itemEvents nodes) := by
  rw [Node.itemEvents_eq]
  exact always_fit_flatMap (fun node _ _ => always_fit_events node) rfl

/-- With all events of some nodes nothing is open, in either state. -/
lemma closed_itemEvents [OpaqueValue ω] (nodes : List (Node ω)) :
    (ofEvents (Node.itemEvents nodes)).frames = [] ∧
      (Combiner.ofEvents (Node.itemEvents nodes)).depth = 0 := by
  have hframes : (ofEvents (Node.itemEvents nodes)).frames = [] := by
    rw [ofEvents, Node.itemEvents_eq,
      foldl_feed_flatMap_events nodes fun node _ => foldl_feed_events node, start, foldl_add_root]
  refine ⟨hframes, ?_⟩
  rw [Combiner.depth_ofEvents, ← depth_ofEvents, depth, hframes, List.length_nil]

end Assembly

namespace Config

variable [OpaqueValue ω]

/-- **Walks drive both builders safely.**  The events of a call are those of its signature and then
those of the walk over its arguments.  Whatever the configuration, the argument graph, the guard
and the bound on open composites are, and also if the walk fails or has no end, none of them puts a
node directly onto a map or closes the top level, entries are opened in maps and closed with two
parts, and objects are closed with one value for each field.  If the walk goes to its end nothing
is open afterwards, in either builder. -/
theorem builders_driven_safely (c : Config) (store : Store ω) (call : Invocation ω)
    (g : Guard) (session : Session) (limit : Nat) {head : List (Event ω)}
    (hhead : c.signatureEvents call.signature = .ok head) :
    let run := (call.arguments.forM (Walk.value store c.useReflection limit)).run
      ⟨g, session, head.toArray⟩
    let events := run.2.events.toList
    Assembly.start.Always Assembly.Safe events ∧
    (run.1 = .ok () →
      (Assembly.ofEvents events).frames = [] ∧ (Combiner.ofEvents events).depth = 0) ∧
    (∀ made, (c.events store call session).1 = .ok made →
      Assembly.start.Always Assembly.Safe made ∧
        (Assembly.ofEvents made).frames = [] ∧ (Combiner.ofEvents made).depth = 0) := by
  intro run events
  set t := Trace.all (Walk.trace store c.useReflection limit g) call.arguments
  set nodes := c.prefixNodes call.signature ++
    call.arguments.map (Walk.tree store c.useReflection limit g) with hnodes
  have hrun : run = (t.result, t.leads ⟨g, session, head.toArray⟩) :=
    (Walk.follows_forM call.arguments (Walk.value_follows store c.useReflection limit g) _ rfl).1
  have hreports := Walk.reports_all store c.useReflection limit g call.arguments
  have hsplit : Node.itemEvents nodes = head ++
      Node.itemEvents (call.arguments.map (Walk.tree store c.useReflection limit g)) := by
    rw [eq_itemEvents_of_signatureEvents hhead, hnodes]
    simp only [Node.itemEvents_eq, List.flatMap_append]
  have hevents : events = head ++ t.events := by
    simp [events, hrun, Trace.leads]
  refine ⟨?safe, ?closed, ?made⟩
  case safe =>
    have hfirst : events <+: Node.itemEvents nodes := by
      rw [hevents, hsplit, List.prefix_append_right_inj]
      exact hreports.1
    exact Assembly.always_safe ((Assembly.always_fit_itemEvents nodes).of_isPrefix hfirst)
  case closed =>
    intro hok
    have hhalt : t.halt = none := by
      rw [hrun] at hok
      cases h : t.halt with
      | none => rfl
      | some halt => simp [Trace.result, h] at hok
    have hall : events = Node.itemEvents nodes := by rw [hevents, hsplit, hreports.2 hhalt]
    rw [hall]
    exact Assembly.closed_itemEvents nodes
  case made =>
    intro made hmade
    rw [events_fst] at hmade
    obtain ⟨-, rfl⟩ := report_eq_ok hmade
    exact ⟨Assembly.always_safe (Assembly.always_fit_itemEvents _), Assembly.closed_itemEvents _⟩

/-- The walk fails at the lock of the cabinet, with a list still open around it. -/
theorem builders_driven_safely_cabinet :
    let c : Config := { useReflection := true }
    let call : Invocation Datum :=
      { signature := some ⟨⟨"Shop"⟩, "price", [⟨"List"⟩]⟩
        arguments := [.atom .null, .ref .list ⟨0⟩] }
    let head : List (Event Datum) :=
      [.atom (.type ⟨"Shop"⟩), .atom (.text "price"), .opens (.seq .list),
        .atom (.type ⟨"List"⟩), .closes]
    let run := (call.arguments.forM (Walk.value Store.cabinet true 3)).run
      ⟨Guard.empty true, {}, head.toArray⟩
    c.signatureEvents call.signature = .ok head ∧
      run.1 = .error (.fault (.fieldAccess "Cabinet" "lock")) ∧
      run.2.events.toList =
        head ++ [.atom .null, .opens (.seq .list), .atom (.text "a")] ∧
      Assembly.start.Always Assembly.Safe run.2.events.toList := by
  intro c call head run
  have hhead : c.signatureEvents call.signature = .ok head := rfl
  have hsafe := (builders_driven_safely c Store.cabinet call (Guard.empty true) {} 3 hhead).1
  exact ⟨hhead, rfl, rfl, hsafe⟩

end Config

end MemoKey
