import Mathlib.Data.List.Basic
import Mathlib.Logic.Relation
import Mathlib.Tactic.Lemma
import MemoKey.Key.Cache

/-!
# Nodes as events

A node can be written as the list of events that a walk over such a value reports.  Both ways of
making a key read these events back: the assembly gets the node again, and the combiner gets the
words that the node puts into a hash.

## Main statements

* `Node.partsInduction` is induction over nodes by their parts, whatever kind of list holds them,
  and `Node.Holds` says that a node lies somewhere in another one.
* `Node.events` are the events of a node.
* `Assembly.foldl_feed_events` and `Combiner.foldl_feed_events` say what the two make of them, in
  any state.
* `StructuralKey.ofEvents_itemEvents` and `Hash.ofEvents_itemEvents` say what key comes out: the
  nodes themselves, and the hash of the structural key of these nodes.
-/

namespace MemoKey

variable {ω : Type}

namespace Node

/-! ## Parts -/

/-- The nodes directly inside a node, in order; the key of an entry stands before its value. -/
def parts : Node ω → List (Node ω)
  | seq _ items => items
  | map entries => entries.flatMap fun e => [e.1, e.2]
  | object _ fields => fields.map (·.2)
  | _ => []

lemma sizeOf_lt_of_mem_parts {node part : Node ω} (h : part ∈ node.parts) :
    sizeOf part < sizeOf node := by
  cases node with
  | atom | whole | cycle => simp [parts] at h
  | seq sequence items =>
    have hitem : sizeOf part < sizeOf items := List.sizeOf_lt_of_mem h
    simp only [seq.sizeOf_spec]
    omega
  | map entries =>
    obtain ⟨e, he, hpart⟩ := List.mem_flatMap.mp h
    have hentry : sizeOf e < sizeOf entries := List.sizeOf_lt_of_mem he
    have hside : sizeOf part < sizeOf e := by
      obtain ⟨key, value⟩ := e
      simp only [List.mem_cons, List.not_mem_nil, or_false] at hpart
      rcases hpart with rfl | rfl <;> simp only [Prod.mk.sizeOf_spec] <;> omega
    simp only [map.sizeOf_spec]
    omega
  | object type fields =>
    obtain ⟨⟨name, value⟩, hfield, rfl⟩ := List.mem_map.mp h
    have hlt : sizeOf (name, value) < sizeOf fields := List.sizeOf_lt_of_mem hfield
    simp only [Prod.mk.sizeOf_spec, object.sizeOf_spec] at hlt ⊢
    omega

/-- What holds of a node as soon as it holds of its parts holds of every node. -/
@[elab_as_elim]
theorem partsInduction {motive : Node ω → Prop}
    (step : ∀ node, (∀ part ∈ node.parts, motive part) → motive node) (node : Node ω) :
    motive node :=
  step node fun part _ => partsInduction step part
termination_by sizeOf node
decreasing_by exact sizeOf_lt_of_mem_parts ‹_›

/-- A node is another one or lies somewhere inside it. -/
def Holds : Node ω → Node ω → Prop :=
  Relation.ReflTransGen fun node part => part ∈ node.parts

lemma holds_iff {node inner : Node ω} :
    node.Holds inner ↔ node = inner ∨ ∃ part ∈ node.parts, part.Holds inner :=
  Relation.ReflTransGen.cases_head_iff

/-- A leaf holds itself only. -/
lemma holds_iff_of_parts_eq_nil {node inner : Node ω} (h : node.parts = []) :
    node.Holds inner ↔ node = inner := by
  rw [holds_iff, h]
  simp

@[simp] lemma holds_atom {a : Atom} {inner : Node ω} : (atom a).Holds inner ↔ atom a = inner :=
  holds_iff_of_parts_eq_nil rfl

@[simp] lemma holds_whole {x : Whole ω} {inner : Node ω} :
    (whole x).Holds inner ↔ whole x = inner :=
  holds_iff_of_parts_eq_nil rfl

/-! ## Events -/

mutual

/-- The events of a node. -/
def events : Node ω → List (Event ω)
  | atom value => [.atom value]
  | whole value => [.whole value]
  | cycle => [.cycle]
  | seq sequence items => .opens (.seq sequence) :: (itemEvents items ++ [.closes])
  | map entries => .opens .map :: (entryEvents entries ++ [.closes])
  | object type fields =>
    .opens (.object type (fields.map (·.1))) :: (fieldEvents fields ++ [.closes])

/-- The events of a list of nodes. -/
def itemEvents : List (Node ω) → List (Event ω)
  | [] => []
  | node :: rest => events node ++ itemEvents rest

/-- The events of a list of entries. -/
def entryEvents : List (Node ω × Node ω) → List (Event ω)
  | [] => []
  | (key, value) :: rest =>
    .opens .entry :: (events key ++ events value ++ [.closes]) ++ entryEvents rest

/-- The events of the values of a list of fields. -/
def fieldEvents : List (String × Node ω) → List (Event ω)
  | [] => []
  | (_, value) :: rest => events value ++ fieldEvents rest

end

/-- The event that announces a node: a leaf as a whole, or a composite without its parts. -/
def announcement : Node ω → Event ω
  | atom value => .atom value
  | whole value => .whole value
  | cycle => .cycle
  | seq sequence _ => .opens (.seq sequence)
  | map _ => .opens .map
  | object type fields => .opens (.object type (fields.map (·.1)))

lemma itemEvents_eq (nodes : List (Node ω)) : itemEvents nodes = nodes.flatMap events := by
  induction nodes with
  | nil => simp [itemEvents]
  | cons node rest ih => simp [itemEvents, ih]

lemma entryEvents_eq (entries : List (Node ω × Node ω)) :
    entryEvents entries =
      entries.flatMap fun e => .opens .entry :: (e.1.events ++ e.2.events ++ [.closes]) := by
  induction entries with
  | nil => simp [entryEvents]
  | cons e rest ih => simp [entryEvents, ih]

lemma fieldEvents_eq (fields : List (String × Node ω)) :
    fieldEvents fields = (fields.map (·.2)).flatMap events := by
  induction fields with
  | nil => simp [fieldEvents]
  | cons f rest ih => simp [fieldEvents, ih]

end Node

/-! ## What an assembly makes of the events of a node -/

namespace Assembly

variable {root : Array (Node ω)} {frames : List (Frame ω)}

lemma foldl_add_seq (sequence : Sequence) (items : Array (Node ω)) (nodes : List (Node ω)) :
    nodes.foldl add ⟨root, .seq sequence items :: frames⟩ =
      ⟨root, .seq sequence (items ++ nodes.toArray) :: frames⟩ := by
  induction nodes generalizing items with
  | nil => simp
  | cons node rest ih => simpa [add, Frame.add] using ih (items.push node)

lemma foldl_add_object (type : TypeName) (fieldNames : List String) (values : Array (Node ω))
    (nodes : List (Node ω)) :
    nodes.foldl add ⟨root, .object type fieldNames values :: frames⟩ =
      ⟨root, .object type fieldNames (values ++ nodes.toArray) :: frames⟩ := by
  induction nodes generalizing values with
  | nil => simp
  | cons node rest ih => simpa [add, Frame.add] using ih (values.push node)

lemma foldl_add_root (root : Array (Node ω)) (nodes : List (Node ω)) :
    nodes.foldl add ⟨root, []⟩ = ⟨root ++ nodes.toArray, []⟩ := by
  induction nodes generalizing root with
  | nil => simp
  | cons node rest ih => simpa [add] using ih (root.push node)

lemma foldl_addEntry_map (entries : Array (Node ω × Node ω)) (more : List (Node ω × Node ω)) :
    more.foldl (fun (a : Assembly ω) e => a.addEntry e.1 e.2) ⟨root, .map entries :: frames⟩ =
      ⟨root, .map (entries ++ more.toArray) :: frames⟩ := by
  induction more generalizing entries with
  | nil => simp
  | cons e rest ih => simpa [addEntry, Frame.addEntry] using ih (entries.push e)

/-- Nodes whose events each add the node are added one after the other. -/
lemma foldl_feed_flatMap_events (nodes : List (Node ω))
    (h : ∀ node ∈ nodes, ∀ a : Assembly ω, node.events.foldl feed a = a.add node)
    (a : Assembly ω) : (nodes.flatMap Node.events).foldl feed a = nodes.foldl add a := by
  induction nodes generalizing a with
  | nil => rfl
  | cons node rest ih =>
    rw [List.flatMap_cons, List.foldl_append, h node (by simp), List.foldl_cons]
    exact ih (fun other hother => h other (by simp [hother])) (a.add node)

lemma foldl_feed_entryEvents {entries : List (Node ω × Node ω)}
    (h : ∀ e ∈ entries, ∀ a : Assembly ω,
      e.1.events.foldl feed a = a.add e.1 ∧ e.2.events.foldl feed a = a.add e.2)
    (a : Assembly ω) :
    (Node.entryEvents entries).foldl feed a = entries.foldl (fun a e => a.addEntry e.1 e.2) a := by
  induction entries generalizing a with
  | nil => simp [Node.entryEvents]
  | cons e rest ih =>
    obtain ⟨key, value⟩ := e
    have hentry : (Event.opens .entry :: (key.events ++ value.events ++ [.closes])).foldl feed a =
        a.addEntry key value := by
      simp only [List.foldl_cons, List.foldl_append, List.foldl_nil]
      rw [(h (key, value) (by simp) _).1, (h (key, value) (by simp) _).2]
      simp [feed, enter, leave, add, Frame.opened, Frame.add, Frame.entryOf]
    rw [Node.entryEvents, List.foldl_append, hentry]
    exact ih (fun other hother => h other (by simp [hother])) (a.addEntry key value)

/-- The events of a node add the node, in any state. -/
theorem foldl_feed_events (node : Node ω) (a : Assembly ω) :
    node.events.foldl feed a = a.add node := by
  induction node using Node.partsInduction generalizing a with
  | step node ih =>
    cases node with
    | atom | whole | cycle => simp [Node.events, feed]
    | seq sequence items =>
      rw [Node.events, List.foldl_cons, List.foldl_append, Node.itemEvents_eq,
        foldl_feed_flatMap_events items ih]
      simp [feed, enter, Frame.opened, foldl_add_seq, leave]
    | map entries =>
      have hentries (e) (he : e ∈ entries) (a : Assembly ω) :
          e.1.events.foldl feed a = a.add e.1 ∧ e.2.events.foldl feed a = a.add e.2 :=
        ⟨ih e.1 (List.mem_flatMap.mpr ⟨e, he, by simp⟩) a,
          ih e.2 (List.mem_flatMap.mpr ⟨e, he, by simp⟩) a⟩
      rw [Node.events, List.foldl_cons, List.foldl_append, foldl_feed_entryEvents hentries]
      simp [feed, enter, Frame.opened, foldl_addEntry_map, leave]
    | object type fields =>
      have hzip : (fields.map (·.1)).zip (fields.map (·.2)) = fields :=
        (List.zip_of_prod rfl rfl).symm
      rw [Node.events, List.foldl_cons, List.foldl_append, Node.fieldEvents_eq,
        foldl_feed_flatMap_events (fields.map (·.2)) ih]
      simp [feed, enter, Frame.opened, foldl_add_object, leave, hzip]

end Assembly

/-- The structural key of the events of some nodes consists of these nodes. -/
theorem StructuralKey.ofEvents_itemEvents (nodes : List (Node ω)) :
    StructuralKey.ofEvents (Node.itemEvents nodes) = ⟨nodes⟩ := by
  have hnodes := Assembly.foldl_feed_flatMap_events nodes
    (fun node _ => Assembly.foldl_feed_events node) .start
  rw [ofEvents, Assembly.ofEvents, Node.itemEvents_eq, hnodes, Assembly.start,
    Assembly.foldl_add_root]
  simp [Assembly.finish]

/-! ## What a combiner makes of the events of a node -/

namespace Combiner

variable [OpaqueValue ω]

/-- Takes a list of words into the innermost accumulator. -/
def takeAll (c : Combiner) (words : List Hash) : Combiner :=
  { c with current := Hash.extend c.current words }

@[simp] lemma takeAll_nil (c : Combiner) : c.takeAll [] = c := rfl

lemma takeAll_append (c : Combiner) (first rest : List Hash) :
    c.takeAll (first ++ rest) = (c.takeAll first).takeAll rest := by
  simp [takeAll, Hash.extend_append]

/-- Opening a composite, taking words and closing it again takes the hash of these words. -/
lemma leave_takeAll_enter (c : Combiner) (composite : Composite) (words : List Hash) :
    ((c.enter composite).takeAll words).leave =
      c.takeAll (composite.tags ++ [Hash.ofList (composite.heading ++ words)]) := by
  simp [enter, takeAll, leave, Hash.ofList_append, Hash.extend_append]

lemma foldl_feed_flatMap_events (nodes : List (Node ω))
    (h : ∀ node ∈ nodes, ∀ c : Combiner, node.events.foldl feed c = c.takeAll node.words)
    (c : Combiner) :
    (nodes.flatMap Node.events).foldl feed c = c.takeAll (nodes.flatMap Node.words) := by
  induction nodes generalizing c with
  | nil => rfl
  | cons node rest ih =>
    rw [List.flatMap_cons, List.foldl_append, h node (by simp), List.flatMap_cons, takeAll_append]
    exact ih (fun other hother => h other (by simp [hother])) (c.takeAll node.words)

lemma foldl_feed_entryEvents {entries : List (Node ω × Node ω)}
    (h : ∀ e ∈ entries, ∀ c : Combiner,
      e.1.events.foldl feed c = c.takeAll e.1.words ∧ e.2.events.foldl feed c = c.takeAll e.2.words)
    (c : Combiner) :
    (Node.entryEvents entries).foldl feed c = c.takeAll (Node.entryHashes entries) := by
  induction entries generalizing c with
  | nil => simp [Node.entryEvents, Node.entryHashes]
  | cons e rest ih =>
    obtain ⟨key, value⟩ := e
    have hentry : (Event.opens .entry :: (key.events ++ value.events ++ [.closes])).foldl feed c =
        c.takeAll [Hash.ofList (key.words ++ value.words)] := by
      simp only [List.foldl_cons, List.foldl_append, List.foldl_nil]
      rw [(h (key, value) (by simp) _).1, (h (key, value) (by simp) _).2, ← takeAll_append]
      exact leave_takeAll_enter c .entry (key.words ++ value.words)
    rw [Node.entryEvents, List.foldl_append, hentry,
      ih fun other hother => h other (by simp [hother]), ← takeAll_append]
    simp [Node.entryHashes_eq]

/-- The events of a node take the words of the node, in any state. -/
theorem foldl_feed_events (node : Node ω) (c : Combiner) :
    node.events.foldl feed c = c.takeAll node.words := by
  induction node using Node.partsInduction generalizing c with
  | step node ih =>
    cases node with
    | atom | whole | cycle =>
      simp [Node.events, feed, Node.words, Node.tags, Node.contribution, takeAll, take]
    | seq sequence items =>
      rw [Node.events, List.foldl_cons, List.foldl_append, Node.itemEvents_eq,
        foldl_feed_flatMap_events items ih, Node.words, Node.contribution, Node.itemWords_eq]
      exact leave_takeAll_enter c (.seq sequence) (items.flatMap Node.words)
    | map entries =>
      have hentries (e) (he : e ∈ entries) (c : Combiner) :
          e.1.events.foldl feed c = c.takeAll e.1.words ∧
            e.2.events.foldl feed c = c.takeAll e.2.words :=
        ⟨ih e.1 (List.mem_flatMap.mpr ⟨e, he, by simp⟩) c,
          ih e.2 (List.mem_flatMap.mpr ⟨e, he, by simp⟩) c⟩
      rw [Node.events, List.foldl_cons, List.foldl_append, foldl_feed_entryEvents hentries,
        Node.words, Node.contribution]
      exact leave_takeAll_enter c .map (Node.entryHashes entries)
    | object type fields =>
      rw [Node.events, List.foldl_cons, List.foldl_append, Node.fieldEvents_eq,
        foldl_feed_flatMap_events (fields.map (·.2)) ih, Node.words, Node.contribution,
        Node.fieldWords_eq, List.flatMap_map]
      have hleave := leave_takeAll_enter c (.object type (fields.map (·.1)))
        (fields.flatMap fun f => f.2.words)
      rw [Composite.heading, List.singleton_append] at hleave
      exact hleave

end Combiner

/-- The hash key of the events of some nodes is the hash of the structural key of these nodes. -/
theorem Hash.ofEvents_itemEvents [OpaqueValue ω] (nodes : List (Node ω)) :
    Hash.ofEvents (Node.itemEvents nodes) = (StructuralKey.mk nodes).hash := by
  have hnodes := Combiner.foldl_feed_flatMap_events nodes
    (fun node _ => Combiner.foldl_feed_events node) .start
  rw [ofEvents, Combiner.ofEvents, Node.itemEvents_eq, hnodes, StructuralKey.hash,
    Node.itemWords_eq]
  rfl

end MemoKey
