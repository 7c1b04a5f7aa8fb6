import MemoKey.Opaque.Datum
import MemoKey.Proofs.NodeEvents

/-!
# Events in any order

An assembly keeps a partial node for every composite that is open, a combiner a single word.  What
the two make of the same events can be compared event by event, whatever the events are: they need
not come from a walk, and composites may be closed too often or not at all.

* `Event.depth` is the number of open composites after an event.  Both states have it:
  `Assembly.depth_ofEvents` and `Combiner.depth_ofEvents`.
* `Assembly.Admits` says that an event is in place: only entries stand directly in a map, entries
  stand nowhere else, and what is closed has all of its parts.  `Assembly.Always` extends a
  condition on one event to a list.
* `Assembly.combiner` is the combiner that belongs to an assembly.  `Assembly.combiner_feed` says
  that an event in place leads from one such pair to the next; `Frame.Placed` is the invariant of
  the open composites that this needs.

The main statement is `Assembly.agrees_with_combiner`.
-/

namespace MemoKey

variable {ω : Type}

/-! ## The number of open composites -/

/-- The number of open composites after an event, from the number before.  At the top level there
is nothing to close. -/
def Event.depth (before : Nat) : Event ω → Nat
  | opens _ => before + 1
  | closes => before - 1
  | _ => before

namespace Assembly

@[simp] lemma depth_add (a : Assembly ω) (node : Node ω) : (a.add node).depth = a.depth := by
  obtain ⟨root, frames⟩ := a
  cases frames <;> rfl

@[simp] lemma depth_addEntry (a : Assembly ω) (key value : Node ω) :
    (a.addEntry key value).depth = a.depth := by
  obtain ⟨root, frames⟩ := a
  cases frames <;> rfl

lemma depth_leave (a : Assembly ω) : a.leave.depth = a.depth - 1 := by
  obtain ⟨root, frames⟩ := a
  cases frames with
  | nil => rfl
  | cons frame rest => cases frame <;> simp [leave] <;> simp [depth]

lemma depth_feed (a : Assembly ω) (event : Event ω) :
    (a.feed event).depth = event.depth a.depth := by
  cases event with
  | atom | whole | cycle => exact a.depth_add _
  | opens composite => rfl
  | closes => exact a.depth_leave

lemma depth_ofEvents (events : List (Event ω)) :
    (ofEvents events).depth = events.foldl Event.depth 0 :=
  (List.foldl_hom depth fun a event => (a.depth_feed event).symm).symm

end Assembly

namespace Combiner

variable [OpaqueValue ω]

lemma depth_feed (c : Combiner) (event : Event ω) :
    (c.feed event).depth = event.depth c.depth := by
  cases event with
  | atom | whole | cycle | opens => rfl
  | closes =>
    obtain ⟨current, outer⟩ := c
    cases outer <;> rfl

lemma depth_ofEvents (events : List (Event ω)) :
    (ofEvents events).depth = events.foldl Event.depth 0 :=
  (List.foldl_hom depth fun c event => (c.depth_feed event).symm).symm

end Combiner

/-! ## The top level -/

namespace Assembly

lemma leave_of_depth_eq_zero {a : Assembly ω} (h : a.depth = 0) : a.leave = a := by
  obtain ⟨root, frames⟩ := a
  obtain rfl : frames = [] := List.eq_nil_of_length_eq_zero h
  rfl

lemma nodes_finish_add {a : Assembly ω} (h : a.depth = 0) (node : Node ω) :
    (a.add node).finish.nodes = a.finish.nodes ++ [node] := by
  obtain ⟨root, frames⟩ := a
  obtain rfl : frames = [] := List.eq_nil_of_length_eq_zero h
  exact Array.toList_push

lemma root_prefix_feed (a : Assembly ω) (event : Event ω) :
    a.root.toList <+: (a.feed event).root.toList := by
  have hadd (b : Assembly ω) (node : Node ω) : b.root.toList <+: (b.add node).root.toList := by
    obtain ⟨root, frames⟩ := b
    cases frames <;> simp [add]
  have haddEntry (b : Assembly ω) (key value : Node ω) : (b.addEntry key value).root = b.root := by
    obtain ⟨root, frames⟩ := b
    cases frames <;> rfl
  cases event with
  | atom | whole | cycle => exact hadd a _
  | opens composite => exact List.prefix_rfl
  | closes =>
    obtain ⟨root, frames⟩ := a
    cases frames with
    | nil => exact List.prefix_rfl
    | cons frame rest =>
      cases frame with
      | seq | map | object => exact hadd ⟨root, rest⟩ _
      | entry parts => simp [feed, leave, haddEntry]

/-- Events inside of a composite do not reach the top level. -/
lemma root_feed {a : Assembly ω} {event : Event ω} (h : a.depth ≠ 0)
    (hafter : (a.feed event).depth ≠ 0) : (a.feed event).root = a.root := by
  obtain ⟨root, frames⟩ := a
  cases frames with
  | nil => exact absurd rfl h
  | cons frame rest =>
    cases event with
    | atom | whole | cycle | opens => rfl
    | closes =>
      -- With one open composite this event would be the one that closes it.
      cases rest with
      | nil => exact absurd (by rw [depth_feed]; rfl) hafter
      | cons outer rest => cases frame <;> rfl

lemma root_prefix_foldl (a : Assembly ω) (events : List (Event ω)) :
    a.root.toList <+: (events.foldl feed a).root.toList := by
  induction events generalizing a with
  | nil => exact List.prefix_rfl
  | cons event rest ih => exact (a.root_prefix_feed event).trans (ih (a.feed event))

end Assembly

namespace Combiner

variable [OpaqueValue ω] {c : Combiner} {event : Event ω}

lemma leave_of_depth_eq_zero (h : c.depth = 0) : c.leave = c := by
  obtain ⟨current, outer⟩ := c
  obtain rfl : outer = [] := List.eq_nil_of_length_eq_zero h
  rfl

lemma finish_takeAll (h : c.depth = 0) (words : List Hash) :
    (c.takeAll words).finish = Hash.extend c.finish words := by
  obtain ⟨current, outer⟩ := c
  obtain rfl : outer = [] := List.eq_nil_of_length_eq_zero h
  rfl

lemma finish_feed (h : c.depth ≠ 0) (hafter : (c.feed event).depth ≠ 0) :
    (c.feed event).finish = c.finish := by
  obtain ⟨current, outer⟩ := c
  cases outer with
  | nil => exact absurd rfl h
  | cons parent rest =>
    cases event with
    | atom | whole | cycle => rfl
    | opens composite => cases rest <;> simp [feed, enter, finish, List.getLast?_cons]
    | closes =>
      cases rest with
      | nil => exact absurd rfl hafter
      | cons outer rest => simp [feed, leave, finish, List.getLast?_cons]

end Combiner

/-! ## Events in place -/

namespace Frame

/-- The composite that a frame was opened for. -/
def opening : Frame ω → Composite
  | seq sequence _ => .seq sequence
  | map _ => .map
  | entry _ => .entry
  | object type fieldNames _ => .object type fieldNames

@[simp] lemma opening_opened (composite : Composite) :
    (opened composite : Frame ω).opening = composite := by
  cases composite <;> rfl

@[simp] lemma opening_add (node : Node ω) (frame : Frame ω) :
    (frame.add node).opening = frame.opening := by
  cases frame <;> rfl

@[simp] lemma opening_addEntry (key value : Node ω) (frame : Frame ω) :
    (frame.addEntry key value).opening = frame.opening := by
  cases frame <;> rfl

/-- Whether a frame is that of a map, which holds entries only. -/
def isMap (frame : Frame ω) : Bool :=
  frame.opening == .map

/-- Whether a frame is that of an entry. -/
def isEntry (frame : Frame ω) : Bool :=
  frame.opening == .entry

/-- A frame has all of its parts: an entry two of them, an object one for each field. -/
def IsComplete : Frame ω → Prop
  | entry parts => parts.size = 2
  | object _ fieldNames values => values.size = fieldNames.length
  | _ => True

instance (frame : Frame ω) : Decidable frame.IsComplete :=
  match frame with
  | entry parts => inferInstanceAs (Decidable (parts.size = 2))
  | object _ fieldNames values => inferInstanceAs (Decidable (values.size = fieldNames.length))
  | seq _ _ | map _ => .isTrue trivial

/-- Every frame is where it belongs: those of entries directly in maps, and no others there. -/
def Placed : List (Frame ω) → Prop
  | [] => True
  | frame :: rest => frame.isEntry = rest.head?.any isMap ∧ Placed rest

lemma Placed.replace {frame frame' : Frame ω} {rest : List (Frame ω)}
    (h : Placed (frame :: rest)) (hopening : frame'.opening = frame.opening) :
    Placed (frame' :: rest) := by
  obtain ⟨hentry, hrest⟩ := h
  refine ⟨?_, hrest⟩
  rw [isEntry, hopening]
  exact hentry

end Frame

namespace Assembly

/-- Whether the innermost open composite is a map. -/
def inMap (a : Assembly ω) : Bool :=
  a.frames.head?.any Frame.isMap

/-- An event is in place.  Directly in a map only an entry is opened, and elsewhere everything but
an entry is reported.  A composite is closed with all of its parts; closing at the top level is
no concern. -/
def Admits (a : Assembly ω) : Event ω → Prop
  | .opens .entry => a.inMap = true
  | .closes => ∀ frame ∈ a.frames.head?, frame.IsComplete
  | _ => a.inMap = false

instance (a : Assembly ω) (event : Event ω) : Decidable (a.Admits event) :=
  match event with
  | .opens .entry => inferInstanceAs (Decidable (a.inMap = true))
  | .closes => inferInstanceAs (Decidable (∀ frame ∈ a.frames.head?, frame.IsComplete))
  | .atom _ | .whole _ | .cycle | .opens (.seq _) | .opens .map | .opens (.object _ _) =>
    inferInstanceAs (Decidable (a.inMap = false))

/-- A condition holds of each event of a list, in the state that the earlier ones lead to. -/
def Always (P : Assembly ω → Event ω → Prop) (a : Assembly ω) : List (Event ω) → Prop
  | [] => True
  | event :: rest => P a event ∧ Always P (a.feed event) rest

instance Always.decidable (P : Assembly ω → Event ω → Prop) [∀ a event, Decidable (P a event)]
    (a : Assembly ω) (events : List (Event ω)) : Decidable (a.Always P events) :=
  match events with
  | [] => .isTrue trivial
  | event :: rest =>
    have := Always.decidable P (a.feed event) rest
    inferInstanceAs (Decidable (P a event ∧ Always P (a.feed event) rest))

variable {a : Assembly ω} {event : Event ω}

lemma placed_add (h : Frame.Placed a.frames) (node : Node ω) :
    Frame.Placed (a.add node).frames := by
  obtain ⟨root, frames⟩ := a
  cases frames with
  | nil => trivial
  | cons frame rest => exact h.replace (frame.opening_add node)

lemma placed_addEntry (h : Frame.Placed a.frames) (key value : Node ω) :
    Frame.Placed (a.addEntry key value).frames := by
  obtain ⟨root, frames⟩ := a
  cases frames with
  | nil => trivial
  | cons frame rest => exact h.replace (frame.opening_addEntry key value)

/-- Events in place keep the open composites where they belong. -/
lemma placed_feed (hplaced : Frame.Placed a.frames) (hadmits : a.Admits event) :
    Frame.Placed (a.feed event).frames := by
  cases event with
  | atom | whole | cycle => exact placed_add hplaced _
  | opens composite =>
    cases composite with
    | entry => exact ⟨Eq.symm hadmits, hplaced⟩
    | seq | map | object => exact ⟨Eq.symm hadmits, hplaced⟩
  | closes =>
    obtain ⟨root, frames⟩ := a
    cases frames with
    | nil => trivial
    | cons frame rest =>
      have hrest : Frame.Placed (Assembly.mk root rest).frames := hplaced.2
      cases frame with
      | seq | map | object => exact placed_add hrest _
      | entry parts => exact placed_addEntry hrest _ _

end Assembly

/-! ## The combiner of an assembly -/

/-- The words that a frame has put into the hash around it when it was opened. -/
def Frame.tags (frame : Frame ω) : List Hash :=
  frame.opening.tags

section Words

variable [OpaqueValue ω]

/-- The words of the parts that a frame has so far, after what its own hash starts with. -/
def Frame.words : Frame ω → List Hash
  | seq _ items => items.toList.flatMap Node.words
  | map entries => Node.entryHashes entries.toList
  | entry parts => parts.toList.flatMap Node.words
  | object type _ values => type.hash :: values.toList.flatMap Node.words

/-- The combiner of open composites at a top level with the given words.  A frame puts its tags
`ahead` of itself into the hash around it. -/
def Combiner.ofFrames (top : List Hash) : List (Frame ω) → (ahead : List Hash) → Combiner
  | [], ahead => ⟨Hash.ofList (top ++ ahead), []⟩
  | frame :: rest, ahead =>
    let outside := ofFrames top rest frame.tags
    ⟨Hash.ofList (frame.words ++ ahead), outside.current :: outside.outer⟩

/-- The combiner that has met the same events as an assembly. -/
def Assembly.combiner (a : Assembly ω) : Combiner :=
  Combiner.ofFrames (a.root.toList.flatMap Node.words) a.frames []

lemma Frame.words_add {frame : Frame ω} (h : frame.isMap = false) (node : Node ω) :
    (frame.add node).words = frame.words ++ node.words := by
  cases frame with
  | seq | entry | object => simp [add, words]
  | map entries => simp [isMap, opening] at h

lemma Frame.words_addEntry {frame : Frame ω} (h : frame.isMap = true) (key value : Node ω) :
    (frame.addEntry key value).words = frame.words ++ [Hash.ofList (key.words ++ value.words)] := by
  cases frame with
  | seq | entry | object => simp [isMap, opening] at h
  | map entries => simp [addEntry, words, Node.entryHashes_eq]

namespace Combiner

lemma ofFrames_eq_takeAll (top : List Hash) (frames : List (Frame ω)) (ahead : List Hash) :
    ofFrames top frames ahead = (ofFrames top frames []).takeAll ahead := by
  cases frames <;> simp [ofFrames, takeAll, Hash.ofList_append]

/-- Closing a frame takes its hash into the one around it, after its tags. -/
lemma leave_ofFrames (top : List Hash) (frame : Frame ω) (rest : List (Frame ω)) :
    (ofFrames top (frame :: rest) []).leave =
      (ofFrames top rest []).takeAll (frame.tags ++ [Hash.ofList frame.words]) := by
  rw [takeAll_append, ← ofFrames_eq_takeAll]
  simp [ofFrames, leave, takeAll]

/-- The hash at the top level takes no part in what is open there, apart from its tags. -/
lemma finish_ofFrames (top : List Hash) (frames : List (Frame ω)) (ahead : List Hash) :
    (ofFrames top frames ahead).finish =
      Hash.extend (Hash.ofList top) (frames.getLast?.elim ahead Frame.tags) := by
  induction frames generalizing ahead with
  | nil => simp [ofFrames, finish, Hash.ofList_append]
  | cons frame rest ih =>
    have houtside : (ofFrames top (frame :: rest) ahead).finish =
        (ofFrames top rest frame.tags).finish := by
      simp [ofFrames, finish, List.getLast?_cons]
    rw [houtside, ih]
    cases rest <;> simp [List.getLast?_cons]

end Combiner

namespace Assembly

variable {a : Assembly ω} {event : Event ω}

lemma combiner_add (h : a.inMap = false) (node : Node ω) :
    (a.add node).combiner = a.combiner.takeAll node.words := by
  obtain ⟨root, frames⟩ := a
  cases frames with
  | nil => simp [add, combiner, Combiner.ofFrames, Combiner.takeAll, Hash.ofList_append]
  | cons frame rest =>
    have hframe : frame.isMap = false := h
    simp [add, combiner, Combiner.ofFrames, Combiner.takeAll, Frame.words_add hframe,
      Frame.tags, Hash.ofList_append]

lemma combiner_addEntry (h : a.inMap = true) (key value : Node ω) :
    (a.addEntry key value).combiner =
      a.combiner.takeAll [Hash.ofList (key.words ++ value.words)] := by
  obtain ⟨root, frames⟩ := a
  cases frames with
  | nil => simp [inMap] at h
  | cons frame rest =>
    have hframe : frame.isMap = true := h
    simp [addEntry, combiner, Combiner.ofFrames, Combiner.takeAll, Frame.words_addEntry hframe,
      Frame.tags, Hash.ofList_append]

lemma combiner_enter (a : Assembly ω) (composite : Composite) :
    (a.enter composite).combiner = a.combiner.enter composite := by
  have hwords : (Frame.opened composite : Frame ω).words = composite.heading := by
    cases composite <;> simp [Frame.opened, Frame.words, Composite.heading, Node.entryHashes]
  have htags := Combiner.ofFrames_eq_takeAll (a.root.toList.flatMap Node.words) a.frames
    composite.tags
  simp [enter, combiner, Combiner.ofFrames, Combiner.enter, hwords, Frame.tags, htags,
    Combiner.takeAll]

/-- A frame with all of its parts closes to a node with the words of the frame. -/
lemma combiner_leave (hplaced : Frame.Placed a.frames) (hadmits : a.Admits .closes) :
    a.leave.combiner = a.combiner.leave := by
  obtain ⟨root, frames⟩ := a
  cases frames with
  | nil => rfl
  | cons frame rest =>
    -- The frame stood where its node goes, since it was placed when it was opened.
    have hcomplete : frame.IsComplete := hadmits frame rfl
    have hinMap : (Assembly.mk root rest).inMap = frame.isEntry := hplaced.1.symm
    have hleave : (Assembly.mk root (frame :: rest)).combiner.leave =
        (Assembly.mk root rest).combiner.takeAll (frame.tags ++ [Hash.ofList frame.words]) :=
      Combiner.leave_ofFrames _ frame rest
    rw [hleave]
    cases frame with
    | seq sequence items =>
      have hwords : (Node.seq sequence items.toList).words =
          sequence.tags ++ [Hash.ofList (items.toList.flatMap Node.words)] := by
        rw [Node.words, Node.contribution, Node.itemWords_eq, Node.tags]
      exact (combiner_add hinMap _).trans (by rw [hwords]; rfl)
    | map entries => exact combiner_add hinMap _
    | entry parts =>
      have hlength : parts.toList.length = 2 := hcomplete
      obtain ⟨key, value, hparts⟩ := List.length_eq_two.mp hlength
      obtain rfl : parts = #[key, value] := Array.toList_inj.mp hparts
      have hframe : (Frame.entry #[key, value]).tags = [] ∧
          (Frame.entry #[key, value]).words = key.words ++ value.words :=
        ⟨rfl, by simp [Frame.words]⟩
      rw [hframe.1, hframe.2]
      exact combiner_addEntry hinMap key value
    | object type fieldNames values =>
      have hvalues : (fieldNames.zip values.toList).map (·.2) = values.toList :=
        List.map_snd_zip (by simpa using Nat.le_of_eq hcomplete)
      have hwords : Node.fieldWords (fieldNames.zip values.toList) =
          values.toList.flatMap Node.words := by
        rw [Node.fieldWords_eq, ← List.flatMap_map, hvalues]
      exact (combiner_add hinMap _).trans (by rw [Node.words, Node.contribution, hwords]; rfl)

/-- **One event in place leads from an assembly and its combiner to an assembly and its
combiner.** -/
theorem combiner_feed (hplaced : Frame.Placed a.frames) (hadmits : a.Admits event) :
    (a.feed event).combiner = a.combiner.feed event := by
  have hleaf {node : Node ω} {word : Hash} (hinMap : a.inMap = false)
      (hwords : node.words = [word]) : (a.add node).combiner = a.combiner.take word := by
    rw [combiner_add hinMap, hwords]
    rfl
  cases event with
  | atom value => exact hleaf hadmits (by simp [Node.words, Node.tags, Node.contribution])
  | whole value => exact hleaf hadmits (by simp [Node.words, Node.tags, Node.contribution])
  | cycle => exact hleaf hadmits (by simp [Node.words, Node.tags, Node.contribution])
  | opens composite => exact a.combiner_enter composite
  | closes => exact combiner_leave hplaced hadmits

lemma combiner_foldl {events : List (Event ω)} (hplaced : Frame.Placed a.frames)
    (h : a.Always Admits events) :
    (events.foldl feed a).combiner = events.foldl Combiner.feed a.combiner := by
  induction events generalizing a with
  | nil => rfl
  | cons event rest ih =>
    obtain ⟨hevent, hrest⟩ := h
    rw [List.foldl_cons, List.foldl_cons, ← combiner_feed hplaced hevent]
    exact ih (placed_feed hplaced hevent) hrest

lemma finish_ofEvents {events : List (Event ω)} (h : start.Always Admits events) :
    (Combiner.ofEvents events).finish = Hash.extend (ofEvents events).finish.hash
      ((ofEvents events).frames.getLast?.elim [] Frame.tags) := by
  have hcombiner : (ofEvents events).combiner = Combiner.ofEvents events :=
    combiner_foldl (a := start) trivial h
  rw [← hcombiner, combiner, Combiner.finish_ofFrames, StructuralKey.hash, Node.itemWords_eq]
  rfl

/-- **The two builders agree on lists of events as such.**

After any events, also such as no walk reports, the same number of composites is open in both, and
closing at the top level does nothing in either.  Both keep their top level: what stands there in a
key stays there whatever follows, one more event inside of an open composite does not touch it, and
a node that is reported there is added to it.

If only entries are put directly into maps, entries stand nowhere else, and entries and objects are
closed with all of their parts, then the hash is at any moment that of the structural key so far,
up to the tag of the array that is open at the top level.  With everything closed it is the hash of
the structural key. -/
theorem agrees_with_combiner (events : List (Event ω)) :
    let a := ofEvents events
    let c := Combiner.ofEvents events
    a.depth = c.depth ∧
    (a.depth = 0 → a.feed .closes = a ∧ c.feed (.closes : Event ω) = c) ∧
    (∀ more : List (Event ω), a.finish.nodes <+: (more.foldl feed a).finish.nodes) ∧
    (∀ event, a.depth ≠ 0 → (a.feed event).depth ≠ 0 →
      (a.feed event).finish = a.finish ∧ (c.feed event).finish = c.finish) ∧
    (∀ node : Node ω, a.depth = 0 →
      (node.events.foldl feed a).finish.nodes = a.finish.nodes ++ [node] ∧
        (node.events.foldl Combiner.feed c).finish = node.foldInto c.finish) ∧
    (start.Always Admits events →
      c.finish = Hash.extend a.finish.hash (a.frames.getLast?.elim [] Frame.tags) ∧
        (a.depth = 0 → Hash.ofEvents events = (StructuralKey.ofEvents events).hash)) := by
  intro a c
  have hdepth : a.depth = c.depth := by rw [depth_ofEvents, Combiner.depth_ofEvents]
  refine ⟨hdepth, ?surplus, fun more => root_prefix_foldl a more, ?inside, ?added, ?hash⟩
  case surplus =>
    intro htop
    exact ⟨leave_of_depth_eq_zero htop, Combiner.leave_of_depth_eq_zero (hdepth ▸ htop)⟩
  case inside =>
    intro event hopen hafter
    have hafter' : (c.feed event).depth ≠ 0 := by
      rwa [Combiner.depth_feed, ← hdepth, ← depth_feed]
    refine ⟨?_, Combiner.finish_feed (hdepth ▸ hopen) hafter'⟩
    rw [finish, finish, root_feed hopen hafter]
  case added =>
    intro node htop
    rw [foldl_feed_events, Combiner.foldl_feed_events]
    exact ⟨nodes_finish_add htop node, Combiner.finish_takeAll (hdepth ▸ htop) node.words⟩
  case hash =>
    intro hplace
    have hhash : c.finish = Hash.extend a.finish.hash (a.frames.getLast?.elim [] Frame.tags) :=
      finish_ofEvents hplace
    refine ⟨hhash, fun htop => ?_⟩
    have hframes : a.frames = [] := List.eq_nil_of_length_eq_zero htop
    rw [hframes] at hhash
    exact hhash

end Assembly

end Words

/-- Ends with nothing to close stand around an array, a map and an object. -/
theorem Assembly.agrees_with_combiner_surplus :
    let one : Event Datum := .atom (.primitive (.int32 1))
    let events : List (Event Datum) :=
      [.closes, .opens (.seq (.array (.primitive .int32))), one, .closes, .closes,
        .opens .map, .opens .entry, .atom (.text "A"), .cycle, .closes, .closes,
        .opens (.object ⟨"Point"⟩ ["x"]), one, .closes, .closes]
    let key : StructuralKey Datum :=
      ⟨[.seq (.array (.primitive .int32)) [.atom (.primitive (.int32 1))],
        .map [(.atom (.text "A"), .cycle)],
        .object ⟨"Point"⟩ [("x", .atom (.primitive (.int32 1)))]]⟩
    Assembly.start.Always Admits events ∧ (ofEvents events).depth = 0 ∧
      StructuralKey.ofEvents events = key ∧ Hash.ofEvents events = key.hash := by
  intro one events key
  have hplace : Assembly.start.Always Admits events := by decide
  have hdepth : (ofEvents events).depth = 0 := by decide
  have hkey : StructuralKey.ofEvents events = key := rfl
  obtain ⟨_, _, _, _, _, hhash⟩ := agrees_with_combiner events
  exact ⟨hplace, hdepth, hkey, hkey ▸ (hhash hplace).2 hdepth⟩

end MemoKey
