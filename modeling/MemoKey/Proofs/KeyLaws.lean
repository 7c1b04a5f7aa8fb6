import MemoKey.Key.Feed
import MemoKey.Opaque.Lawful
import MemoKey.Proofs.Agreement
import MemoKey.Proofs.Separation

/-!
# Keys are lawful keys of hash tables

A hash table relies on two laws of its keys: equality is an equivalence, and equal keys have equal
hashes.  Equality of keys is a comparison of trees and their hash a number computed from the trees
in another way, so that the second law has to be proved as well as the first.

## Equality in one step

`Node.same_iff` says that two nodes are equal if the events that announce them are and their parts
are equal pairwise.  With this every law of nodes is a law of announcements, where only opaque
values matter (`Event.Same`), carried from the parts of a node to the node.

## Hashes

`Node.words_congr` says that the words of a composite depend on its announcement and on the words of
its parts, and `Node.Same.words_eq` that equal nodes have equal words.

The main statement is `CacheKey.lawful_of_lawful_values`.  It is about opaque values of several
types, and asks for nothing but laws of each type by itself.
-/

namespace MemoKey

variable {ω : Type}

/-! ## Lists under a relation -/

section Forall₂

variable {α β : Type} {R : α → α → Prop}

/-- A relation that is transitive from each member of a list is transitive from the list. -/
lemma forall₂_trans_of_mem {xs ys zs : List α} (h : ∀ x ∈ xs, ∀ y z, R x y → R y z → R x z)
    (hxy : List.Forall₂ R xs ys) (hyz : List.Forall₂ R ys zs) : List.Forall₂ R xs zs := by
  induction hxy generalizing zs with
  | nil => exact hyz
  | cons hhead _ ih =>
    cases hyz with
    | cons hhead' htail' =>
      obtain ⟨hx, hrest⟩ := List.forall_mem_cons.mp h
      exact .cons (hx _ _ hhead hhead') (ih hrest htail')

/-- What is the same for related things is the same for related lists. -/
lemma map_eq_of_forall₂ {f : α → β} {xs ys : List α} (h : ∀ x ∈ xs, ∀ y, R x y → f x = f y)
    (hxy : List.Forall₂ R xs ys) : xs.map f = ys.map f := by
  induction hxy with
  | nil => rfl
  | cons hhead _ ih =>
    obtain ⟨hx, hrest⟩ := List.forall_mem_cons.mp h
    rw [List.map_cons, List.map_cons, hx _ hhead, ih hrest]

/-- Pairs that are listed one side after the other can be told from the list. -/
lemma map_pairs_eq_of_flatMap {f : α → β} {xs ys : List (α × α)}
    (h : (xs.flatMap fun e => [e.1, e.2]).map f = (ys.flatMap fun e => [e.1, e.2]).map f) :
    xs.map (fun e => (f e.1, f e.2)) = ys.map fun e => (f e.1, f e.2) := by
  induction xs generalizing ys with
  | nil => cases ys <;> simp_all
  | cons e rest ih =>
    cases ys with
    | nil => simp at h
    | cons e' rest' =>
      simp only [List.flatMap_cons, List.cons_append, List.nil_append, List.map_cons,
        List.cons.injEq] at h
      obtain ⟨hfirst, hsecond, hrest⟩ := h
      rw [List.map_cons, List.map_cons, hfirst, hsecond, ih hrest]

end Forall₂

/-! ## Whole values and announcements -/

section Announcements

variable [OpaqueValue ω]

/-- Two events announce equal things: the same atom, equal whole values, or the same composite. -/
def Event.Same : Event ω → Event ω → Prop
  | .atom a, .atom b => a = b
  | .whole x, .whole y => x.same y = true
  | .cycle, .cycle => True
  | .opens composite, .opens other => composite = other
  | .closes, .closes => True
  | _, _ => False

/-- An announcement that is equal to that of a composite is the same. -/
lemma Event.Same.eq_opens {e : Event ω} {composite : Composite} (h : (opens composite).Same e) :
    e = .opens composite := by
  cases e <;> simp only [Same] at h
  rw [h]

/-- **Equality in one step.**  Nodes are equal if they are announced as equal and their parts are
equal pairwise. -/
theorem Node.same_iff {node other : Node ω} :
    node.Same other ↔
      node.announcement.Same other.announcement ∧
        List.Forall₂ Node.Same node.parts other.parts := by
  by_cases hheading : node.heading? = none
  · rw [Node.Same]
    cases node with
    | seq | map | object => simp [heading?] at hheading
    | atom a => cases other <;> simp [same, announcement, Event.Same, parts]
    | whole x => cases other <;> simp [same, announcement, Event.Same, parts]
    | cycle => cases other <;> simp [same, announcement, Event.Same, parts]
  · rw [same_iff_of_heading hheading]
    cases node with
    | atom | whole | cycle => exact absurd rfl hheading
    | seq => cases other <;> simp [heading?, announcement, Event.Same]
    | map => cases other <;> simp [heading?, announcement, Event.Same]
    | object => cases other <;> simp [heading?, announcement, Event.Same]

variable [LawfulOpaqueValue ω]

namespace Whole

variable {x y z : Whole ω}

lemma same_self (x : Whole ω) : x.same x = true := by
  cases x with
  | value v => exact LawfulOpaqueValue.same_refl v
  | object id => exact beq_self_eq_true id

lemma same_symm (h : x.same y = true) : y.same x = true := by
  cases x <;> cases y <;> simp only [same, Bool.false_eq_true] at h ⊢
  case value.value v w => exact LawfulOpaqueValue.same_symm h
  case object.object id other => exact beq_iff_eq.mpr (beq_iff_eq.mp h).symm

lemma same_trans (h : x.same y = true) (h' : y.same z = true) : x.same z = true := by
  cases x <;> cases y <;> simp only [same, Bool.false_eq_true] at h <;>
    cases z <;> simp only [same, Bool.false_eq_true] at h' ⊢
  case value.value.value u v w => exact LawfulOpaqueValue.same_trans h h'
  case object.object.object id other third =>
    exact beq_iff_eq.mpr ((beq_iff_eq.mp h).trans (beq_iff_eq.mp h'))

lemma contribution_eq_of_same (h : x.same y = true) : x.contribution = y.contribution := by
  cases x <;> cases y <;> simp only [same, Bool.false_eq_true] at h
  case value.value v w => exact LawfulOpaqueValue.hash_eq_of_same h
  case object.object id other => rw [beq_iff_eq.mp h]

end Whole

namespace Event

variable {e f g : Event ω}

lemma Same.symm (h : e.Same f) : f.Same e := by
  cases e <;> cases f <;> simp only [Same] at h ⊢
  case atom.atom a b => exact h.symm
  case whole.whole x y => exact Whole.same_symm h
  case opens.opens composite other => exact h.symm

lemma Same.trans (h : e.Same f) (h' : f.Same g) : e.Same g := by
  cases e <;> cases f <;> simp only [Same] at h <;> cases g <;> simp only [Same] at h' ⊢
  case atom.atom.atom a b c => exact Eq.trans h h'
  case whole.whole.whole x y z => exact Whole.same_trans h h'
  case opens.opens.opens composite other third => exact Eq.trans h h'

end Event

end Announcements

/-! ## Nodes -/

namespace Node

variable [OpaqueValue ω]

/-- The words of a composite depend on its announcement and on the words of its parts. -/
lemma words_congr {node other : Node ω} {composite : Composite}
    (hnode : node.announcement = .opens composite) (hother : other.announcement = .opens composite)
    (hparts : node.parts.map words = other.parts.map words) : node.words = other.words := by
  have hflat : node.parts.flatMap words = other.parts.flatMap words := by
    rw [List.flatMap_def, hparts, List.flatMap_def]
  cases node <;> simp only [announcement, Event.opens.injEq, reduceCtorEq] at hnode <;>
    subst hnode <;>
    cases other <;>
      simp only [announcement, Event.opens.injEq, reduceCtorEq, Composite.seq.injEq,
        Composite.object.injEq] at hother
  case seq.seq sequence items _ others =>
    subst hother
    have hitems : itemWords items = itemWords others := by
      rw [itemWords_eq, itemWords_eq]
      exact hflat
    rw [words, words, contribution, contribution, hitems]
    rfl
  case map.map entries others =>
    have hpairs := map_pairs_eq_of_flatMap hparts
    have hentries : entryHashes entries = entryHashes others := by
      rw [entryHashes_eq, entryHashes_eq]
      simpa [Function.comp_def] using
        congrArg (List.map fun w => Hash.ofList (w.1 ++ w.2)) hpairs
    rw [words, words, contribution, contribution, hentries]
    rfl
  case object.object type fields _ others =>
    obtain ⟨rfl, _⟩ := hother
    have hfields : fieldWords fields = fieldWords others := by
      rw [fieldWords_eq, fieldWords_eq]
      simpa [parts, List.flatMap_map] using hflat
    rw [words, words, contribution, contribution, hfields]
    rfl

variable [LawfulOpaqueValue ω] {node other third : Node ω}

lemma Same.refl (node : Node ω) : node.Same node :=
  same_self LawfulOpaqueValue.same_refl node

lemma Same.symm (h : node.Same other) : other.Same node := by
  induction node using partsInduction generalizing other with
  | step node ih =>
    rw [same_iff] at h ⊢
    obtain ⟨hannounced, hparts⟩ := h
    refine ⟨hannounced.symm, ?_⟩
    have hturned : List.Forall₂ (fun x y => Same x y ∧ Same y x) node.parts other.parts := by
      refine (List.forall₂_iff_zip.mpr ⟨hparts.length_eq, fun {x y} hxy => ?_⟩)
      have hsame : Same x y := (List.forall₂_iff_zip.mp hparts).2 hxy
      exact ⟨hsame, ih x (List.of_mem_zip hxy).1 hsame⟩
    exact (hturned.imp fun _ _ h => h.2).flip

lemma Same.trans (h : node.Same other) (h' : other.Same third) : node.Same third := by
  induction node using partsInduction generalizing other third with
  | step node ih =>
    rw [same_iff] at h h' ⊢
    refine ⟨h.1.trans h'.1, ?_⟩
    exact forall₂_trans_of_mem (fun part hpart _ _ hxy hyz => ih part hpart hxy hyz) h.2 h'.2

/-- Equal nodes put the same words into a hash. -/
theorem Same.words_eq (h : node.Same other) : node.words = other.words := by
  induction node using partsInduction generalizing other with
  | step node ih =>
    obtain ⟨hannounced, hparts⟩ := same_iff.mp h
    have hwords : node.parts.map words = other.parts.map words :=
      map_eq_of_forall₂ (fun part hpart _ hsame => ih part hpart hsame) hparts
    cases node with
    | atom a =>
      cases other <;> simp only [announcement, Event.Same] at hannounced
      rw [hannounced]
    | whole x =>
      cases other <;> simp only [announcement, Event.Same] at hannounced
      rw [words, words, contribution, contribution, Whole.contribution_eq_of_same hannounced]
      rfl
    | cycle =>
      cases other <;> simp only [announcement, Event.Same] at hannounced
      rfl
    | seq | map | object => exact words_congr rfl hannounced.eq_opens hwords

lemma Same.contribution_eq (h : node.Same other) : node.contribution = other.contribution := by
  have hwords : node.tags ++ [node.contribution] = other.tags ++ [other.contribution] :=
    h.words_eq
  exact List.singleton_inj.mp (List.append_inj' hwords rfl).2

instance : EquivBEq (Node ω) where
  rfl := Same.refl _
  symm := Same.symm
  trans := Same.trans

end Node

/-! ## Keys -/

namespace StructuralKey

variable [OpaqueValue ω]

lemma beq_iff {key other : StructuralKey ω} :
    (key == other) = true ↔ List.Forall₂ Node.Same key.nodes other.nodes :=
  Node.sameItems_iff

variable [LawfulOpaqueValue ω]

instance : EquivBEq (StructuralKey ω) where
  rfl := beq_iff.mpr (List.forall₂_same.mpr fun node _ => Node.Same.refl node)
  symm h := beq_iff.mpr ((beq_iff.mp h).flip.imp fun _ _ => Node.Same.symm)
  trans h h' := beq_iff.mpr (forall₂_trans_of_mem (fun _ _ _ _ => Node.Same.trans)
    (beq_iff.mp h) (beq_iff.mp h'))

/-- Equal structural keys have equal hashes. -/
lemma hash_eq_of_beq {key other : StructuralKey ω} (h : (key == other) = true) :
    key.hash = other.hash := by
  have hwords : key.nodes.map Node.words = other.nodes.map Node.words :=
    map_eq_of_forall₂ (fun _ _ _ => Node.Same.words_eq) (beq_iff.mp h)
  rw [hash, hash, Node.itemWords_eq, Node.itemWords_eq, List.flatMap_def, hwords,
    List.flatMap_def]

end StructuralKey

namespace CacheKey

variable [OpaqueValue ω]

@[simp] lemma structural_beq_structural (key other : StructuralKey ω) :
    (structural key == structural other) = (key == other) := rfl

@[simp] lemma structural_beq_hashCode (key : StructuralKey ω) (hash : Hash) :
    (structural key == hashCode hash) = false := rfl

@[simp] lemma hashCode_beq_structural (hash : Hash) (key : StructuralKey ω) :
    (hashCode hash == structural key) = false := rfl

@[simp] lemma hashCode_beq_hashCode (hash other : Hash) :
    ((hashCode hash : CacheKey ω) == hashCode other) = (hash == other) := rfl

variable [LawfulOpaqueValue ω]

instance : EquivBEq (CacheKey ω) where
  rfl {key} := by
    cases key <;> simp
  symm {key other} h := by
    cases key <;> cases other <;> simp only [structural_beq_structural, structural_beq_hashCode,
      hashCode_beq_structural, hashCode_beq_hashCode, Bool.false_eq_true] at h ⊢
    case structural.structural key other => exact BEq.symm h
    case hashCode.hashCode hash other => exact BEq.symm h
  trans {key other third} h h' := by
    cases key <;> cases other <;> simp only [structural_beq_structural, structural_beq_hashCode,
      hashCode_beq_structural, hashCode_beq_hashCode, Bool.false_eq_true] at h <;>
      cases third <;> simp only [structural_beq_structural, structural_beq_hashCode,
        hashCode_beq_structural, hashCode_beq_hashCode, Bool.false_eq_true] at h' ⊢
    case structural.structural.structural key other third => exact BEq.trans h h'
    case hashCode.hashCode.hashCode hash other third => exact BEq.trans h h'

/-- Equal keys have equal hashes. -/
lemma hash_eq_of_beq {key other : CacheKey ω} (h : (key == other) = true) :
    key.hash = other.hash := by
  cases key <;> cases other <;> simp only [structural_beq_structural, structural_beq_hashCode,
    hashCode_beq_structural, hashCode_beq_hashCode, Bool.false_eq_true] at h
  case structural.structural key other => exact StructuralKey.hash_eq_of_beq h
  case hashCode.hashCode hash other => exact beq_iff_eq.mp h

/-- Equal keys feed the same words to a hash table. -/
lemma feeds_eq_of_beq {key other : CacheKey ω} (h : (key == other) = true) :
    key.feeds = other.feeds := by
  have hhash := hash_eq_of_beq h
  cases key with
  | structural key =>
    cases other with
    | structural other => exact congrArg (fun hash => [Feed.alternative 0, Feed.signed hash]) hhash
    | hashCode hash => simp at h
  | hashCode hash =>
    cases other with
    | structural other => simp at h
    | hashCode other => exact congrArg (fun hash => [Feed.alternative 1, Feed.signed hash]) hhash

/-- **Keys are lawful keys of hash tables.**  Let opaque values be of several types, each with a
lawful equality.  Then equality of nodes and of keys of every kind is an equivalence, under which
primitives are compared by kind and bits and values of different types are never equal.  Equal nodes
contribute the same, take the same into every hash, and feed the same to a hash table; equal keys
have the same hash and feed the same.  So two calls with equal structural keys, under whatever
configurations, have the same hash key. -/
theorem lawful_of_lawful_values {ι : Type} [DecidableEq ι] {T : ι → Type} [∀ i, OpaqueValue (T i)]
    [∀ i, LawfulOpaqueValue (T i)] :
    (EquivBEq (Node (Mixed T)) ∧ EquivBEq (StructuralKey (Mixed T)) ∧
      EquivBEq (CacheKey (Mixed T))) ∧
    (∀ p q : Primitive,
      ((.atom (.primitive p) : Node (Mixed T)) == .atom (.primitive q)) = true ↔
        p.kind = q.kind ∧ p.bits = q.bits) ∧
    (∀ x y : Mixed T, ((.whole (.value x) : Node (Mixed T)) == .whole (.value y)) = true →
      x.type = y.type) ∧
    (∀ node other : Node (Mixed T), (node == other) = true →
      node.contribution = other.contribution ∧
        (∀ acc, node.foldInto acc = other.foldInto acc) ∧ node.feeds = other.feeds) ∧
    (∀ key other : StructuralKey (Mixed T), (key == other) = true →
      key.hash = other.hash ∧ key.feeds = other.feeds) ∧
    (∀ key other : CacheKey (Mixed T), (key == other) = true →
      key.hash = other.hash ∧ key.feeds = other.feeds) ∧
    (∀ (c d : Config) (s t : Store (Mixed T)) (call other : Invocation (Mixed T))
      (session session' : Session) (key key' : StructuralKey (Mixed T)),
      (c.structuralKey s call session).1 = .ok key →
      (d.structuralKey t other session').1 = .ok key' → (key == key') = true →
      ∃ hash, (c.hashKey s call session).1 = .ok hash ∧
        (d.hashKey t other session').1 = .ok hash) := by
  refine ⟨⟨inferInstance, inferInstance, inferInstance⟩, ?_, ?_, ?_, ?_, ?_, ?_⟩
  · intro p q
    rw [← Primitive.eq_iff]
    change Node.same _ _ = true ↔ _
    simp [Node.same]
  · intro x y h
    have hannounced := (Node.same_iff.mp h).1
    exact Mixed.type_eq_of_same hannounced
  · intro node other h
    have hsame : node.Same other := h
    refine ⟨hsame.contribution_eq, fun acc => ?_, ?_⟩
    · rw [Node.foldInto, Node.foldInto, hsame.words_eq]
    · rw [Node.feeds, Node.feeds, hsame.contribution_eq]
  · intro key other h
    have hhash := StructuralKey.hash_eq_of_beq h
    exact ⟨hhash, by rw [StructuralKey.feeds, StructuralKey.feeds, hhash]⟩
  · intro key other h
    exact ⟨hash_eq_of_beq h, feeds_eq_of_beq h⟩
  · intro c d s t call other session session' key key' hkey hkey' hsame
    have hhash := StructuralKey.hash_eq_of_beq hsame
    refine ⟨key.hash, Config.hashKey_of_structuralKey hkey, ?_⟩
    rw [hhash]
    exact Config.hashKey_of_structuralKey hkey'

/-- A NaN beside an opaque text, in a key that is equal to itself: the texts of one type are equal,
and the hashes agree.  The same text of another type is not equal to it. -/
theorem lawful_of_lawful_values_nan :
    let T : Bool → Type := fun _ => Datum
    let text (type : Bool) : Value (Mixed T) := .whole ⟨type, .text "a"⟩
    let call (type : Bool) : Invocation (Mixed T) :=
      { arguments := [.atom (.primitive (.float64 0x7ff8000000000001)), text type] }
    let key : StructuralKey (Mixed T) :=
      ⟨[.atom (.primitive (.float64 0x7ff8000000000001)), .whole (.value ⟨true, .text "a"⟩)]⟩
    (∀ type, LawfulOpaqueValue (T type)) ∧
      (Config.argumentsOnly.structuralKey {} (call true) {}).1 = .ok key ∧
      (key == key) = true ∧
      (∃ hash, (Config.argumentsOnly.hashKey {} (call true) {}).1 = .ok hash) ∧
      ¬ ((.whole (.value ⟨true, .text "a"⟩) : Node (Mixed T)) ==
        .whole (.value ⟨false, .text "a"⟩)) = true := by
  intro T text call key
  have hlawful (type : Bool) : LawfulOpaqueValue (T type) :=
    inferInstanceAs (LawfulOpaqueValue Datum)
  have hkey : (Config.argumentsOnly.structuralKey {} (call true) {}).1 = .ok key := rfl
  obtain ⟨⟨_, hequiv, _⟩, _, htypes, _, _, _, hcalls⟩ := lawful_of_lawful_values (T := T)
  have hself : (key == key) = true := hequiv.rfl
  obtain ⟨hash, hhash, _⟩ := hcalls Config.argumentsOnly Config.argumentsOnly {} {} (call true)
    (call true) {} {} key key hkey hkey hself
  refine ⟨hlawful, hkey, hself, ⟨hash, hhash⟩, fun h => ?_⟩
  have htype : true = false := htypes ⟨true, .text "a"⟩ ⟨false, .text "a"⟩ h
  exact Bool.noConfusion htype

end CacheKey

end MemoKey
