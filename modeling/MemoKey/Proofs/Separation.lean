import MemoKey.Opaque.Datum
import MemoKey.Proofs.NodeEquality
import MemoKey.Proofs.Unfolding

/-!
# Structural keys tell calls apart

Two calls with one structural key share a result, so a key must not be equal for calls that differ.
Over acyclic graphs it never is: nothing is cut, and a key is all that there is to know of a call.

The parts of the signature and the arguments stand in one list of nodes with nothing between them.
They cannot be taken for each other all the same, because the configuration alone decides how many
nodes the signature has, and its parameter types, however many, are the items of a single node.

## Main statements

* `Primitive.eq_iff` says that primitives are told apart by their kinds and bits.
* `Store.Alike` is equality of values as trees, and `Store.same_unfold_iff` says that it is equality
  of their unfoldings.
* `Config.SameSignature` is equality of the parts that a configuration includes.
* `Config.same_structuralKey_iff` puts both together for the keys of two calls.
-/

namespace MemoKey

variable {ω : Type}

/-! ## Atoms -/

/-- A primitive is determined by its kind and its bits. -/
theorem Primitive.eq_iff {p q : Primitive} : p = q ↔ p.kind = q.kind ∧ p.bits = q.bits := by
  have hsigned {x y : Int64} (h : x.toUInt64 = y.toUInt64) : x = y := congrArg Int64.ofUInt64 h
  constructor
  · rintro rfl
    exact ⟨rfl, rfl⟩
  · rintro ⟨hkind, hbits⟩
    cases p <;> cases q <;> simp only [kind, reduceCtorEq] at hkind <;> simp only [bits] at hbits
    case int8.int8 x y =>
      have hint : x.toInt = y.toInt := by simpa using congrArg Int64.toInt (hsigned hbits)
      rw [Int8.toInt_inj.mp hint]
    case int16.int16 x y =>
      have hint : x.toInt = y.toInt := by simpa using congrArg Int64.toInt (hsigned hbits)
      rw [Int16.toInt_inj.mp hint]
    case int32.int32 x y =>
      have hint : x.toInt = y.toInt := by simpa using congrArg Int64.toInt (hsigned hbits)
      rw [Int32.toInt_inj.mp hint]
    case int64.int64 x y => rw [hsigned hbits]
    case char.char x y => rw [Char.ext (UInt32.toUInt64_inj.mp hbits)]
    case float32.float32 x y => rw [UInt32.toUInt64_inj.mp hbits]
    case float64.float64 x y => rw [hbits]
    case bool.bool x y => cases x <;> cases y <;> simp [Bool.toUInt64] at hbits ⊢

/-- Atoms of the same variant with the same content; primitives are compared by kind and bits. -/
def Atom.Alike : Atom → Atom → Prop
  | .null, .null => True
  | .primitive p, .primitive q => p.kind = q.kind ∧ p.bits = q.bits
  | .text x, .text y => x = y
  | .constant x, .constant y => x.type = y.type ∧ x.member = y.member
  | .type x, .type y => x = y
  | _, _ => False

lemma Atom.alike_iff {a b : Atom} : a.Alike b ↔ a = b := by
  cases a <;> cases b <;> simp [Alike, Primitive.eq_iff]
  case constant.constant x y =>
    cases x
    cases y
    simp

/-! ## Values as trees -/

lemma Cell.heading?_toNode (cell : Cell ω) (f : Value ω → Node ω) :
    (cell.toNode f).heading? = some cell.heading := by
  cases cell with
  | seq sequence items => rfl
  | map entries => rfl
  | object o => simp [toNode, heading, Node.heading?, Function.comp_def]

/-- Lists match pairwise under relations that agree on their members. -/
lemma forall₂_congr_of_mem {α β : Type} {R S : α → β → Prop} {xs : List α} {ys : List β}
    (h : ∀ x ∈ xs, ∀ y ∈ ys, (R x y ↔ S x y)) : List.Forall₂ R xs ys ↔ List.Forall₂ S xs ys := by
  rw [List.forall₂_iff_zip, List.forall₂_iff_zip]
  refine and_congr_right fun _ => forall₂_congr fun x y => ?_
  exact imp_congr_right fun hxy => h x (List.of_mem_zip hxy).1 y (List.of_mem_zip hxy).2

namespace Store

variable [OpaqueValue ω]

/-- Equality of values as trees, each in its own store.  Identities take no part, except those of
objects that are kept whole. -/
inductive Alike (s t : Store ω) (reflect : Bool) : Value ω → Value ω → Prop where
  /-- Both are atoms, and the atoms are the same. -/
  | atom {v w : Value ω} {a b : Atom} (hv : s.sight reflect v = .atom a)
      (hw : t.sight reflect w = .atom b) (h : a.Alike b) : Alike s t reflect v w
  /-- Both are opaque, and equal by their own equality. -/
  | value {v w : Value ω} {x y : ω} (hv : s.sight reflect v = .whole (.value x))
      (hw : t.sight reflect w = .whole (.value y)) (h : OpaqueValue.same x y = true) :
      Alike s t reflect v w
  /-- Both are one object that is kept whole. -/
  | object {v w : Value ω} {id : Identity} (hv : s.sight reflect v = .whole (.object id))
      (hw : t.sight reflect w = .whole (.object id)) : Alike s t reflect v w
  /-- Both are composites of one variant, with the same array kind or with the same type and field
  names, and their parts are alike pairwise and in order. -/
  | composite {v w : Value ω} {id other : Identity} {cell cell' : Cell ω}
      (hv : s.sight reflect v = .composite id cell)
      (hw : t.sight reflect w = .composite other cell')
      (hheading : cell.heading = cell'.heading)
      (hparts : List.Forall₂ (Alike s t reflect) cell.parts cell'.parts) : Alike s t reflect v w

variable {s t : Store ω} {reflect : Bool} {v w : Value ω}

lemma alike_iff_of_atom {a : Atom} (hv : s.sight reflect v = .atom a) :
    s.Alike t reflect v w ↔ t.sight reflect w = .atom a := by
  constructor
  · intro h
    cases h with
    | atom hv' hw h =>
      rw [hv] at hv'
      cases hv'
      rw [hw, Atom.alike_iff.mp h]
    | value hv' | object hv' | composite hv' => simp [hv] at hv'
  · intro hw
    exact .atom hv hw (Atom.alike_iff.mpr rfl)

lemma alike_iff_of_whole {x : Whole ω} (hv : s.sight reflect v = .whole x) :
    s.Alike t reflect v w ↔ ∃ y, t.sight reflect w = .whole y ∧ x.same y = true := by
  constructor
  · intro h
    cases h with
    | value hv' hw h =>
      rw [hv] at hv'
      cases hv'
      exact ⟨_, hw, h⟩
    | object hv' hw =>
      rw [hv] at hv'
      cases hv'
      exact ⟨_, hw, by simp [Whole.same]⟩
    | atom hv' | composite hv' => simp [hv] at hv'
  · rintro ⟨y, hw, h⟩
    cases x <;> cases y <;> simp only [Whole.same, Bool.false_eq_true, beq_iff_eq] at h
    case value.value x y => exact .value hv hw h
    case object.object id other =>
      subst h
      exact .object hv hw

lemma alike_iff_of_composite {id : Identity} {cell : Cell ω}
    (hv : s.sight reflect v = .composite id cell) :
    s.Alike t reflect v w ↔ ∃ other cell', t.sight reflect w = .composite other cell' ∧
      cell.heading = cell'.heading ∧ List.Forall₂ (s.Alike t reflect) cell.parts cell'.parts := by
  constructor
  · intro h
    cases h with
    | composite hv' hw hheading hparts =>
      rw [hv] at hv'
      cases hv'
      exact ⟨_, _, hw, hheading, hparts⟩
    | atom hv' | value hv' | object hv' => simp [hv] at hv'
  · rintro ⟨other, cell', hw, hheading, hparts⟩
    exact .composite hv hw hheading hparts

/-- **Unfoldings are equal exactly if the values are alike.**  The values must be acyclic and clear
of the paths, for where something is cut its content is lost. -/
theorem same_unfold_iff {path path' : List Identity} (hv : s.Acyclic reflect v)
    (hw : t.Acyclic reflect w) (hclear : s.Clear reflect path v)
    (hclear' : t.Clear reflect path' w) :
    (s.unfold reflect path v).Same (t.unfold reflect path' w) ↔ s.Alike t reflect v w := by
  induction hn : (s.composites reflect v).ncard using Nat.strongRecOn
    generalizing v w path path' with
  | _ n ih =>
    cases hsight : s.sight reflect v with
    | atom a =>
      rw [unfold_of_atom hsight, alike_iff_of_atom hsight]
      cases hsight' : t.sight reflect w with
      | atom b => simpa [unfold_of_atom hsight', Node.Same, Node.same] using eq_comm
      | whole y => simp [unfold_of_whole hsight', Node.Same, Node.same]
      | composite other cell' =>
        rw [unfold_of_composite hsight', if_neg (hclear'.notMem hsight')]
        cases cell' <;> simp [Cell.toNode, Node.Same, Node.same]
    | whole x =>
      rw [unfold_of_whole hsight, alike_iff_of_whole hsight]
      cases hsight' : t.sight reflect w with
      | atom b => simp [unfold_of_atom hsight', Node.Same, Node.same]
      | whole y => simp [unfold_of_whole hsight', Node.Same, Node.same]
      | composite other cell' =>
        rw [unfold_of_composite hsight', if_neg (hclear'.notMem hsight')]
        cases cell' <;> simp [Cell.toNode, Node.Same, Node.same]
    | composite id cell =>
      rw [unfold_of_composite hsight, if_neg (hclear.notMem hsight),
        Node.same_iff_of_heading (by simp [Cell.heading?_toNode]), alike_iff_of_composite hsight,
        Cell.heading?_toNode, Cell.parts_toNode]
      cases hsight' : t.sight reflect w with
      | atom b => simp [unfold_of_atom hsight', Node.heading?]
      | whole y => simp [unfold_of_whole hsight', Node.heading?]
      | composite other cell' =>
        have hpart {part part' : Value ω} (hmem : part ∈ cell.parts) (hmem' : part' ∈ cell'.parts) :
            (s.unfold reflect (id :: path) part).Same (t.unfold reflect (other :: path') part') ↔
              s.Alike t reflect part part' :=
          ih _ (hn ▸ hv.ncard_composites_lt hsight hmem) (hv.of_contains ⟨id, cell, hsight, hmem⟩)
            (hw.of_contains ⟨other, cell', hsight', hmem'⟩) (hclear.cons hv hsight hmem)
            (hclear'.cons hw hsight' hmem') rfl
        rw [unfold_of_composite hsight', if_neg (hclear'.notMem hsight'), Cell.heading?_toNode,
          Cell.parts_toNode, List.forall₂_map_left_iff, List.forall₂_map_right_iff,
          forall₂_congr_of_mem fun _ hmem _ hmem' => hpart hmem hmem']
        simp

end Store

/-! ## Keys of calls -/

namespace Config

/-- Equality of the parts of two signatures that a configuration includes. -/
def SameSignature (c : Config) (s t : Option Signature) : Prop :=
  (c.includeSignatureTypes = true → s.map (·.declaringType) = t.map (·.declaringType) ∧
    s.map (·.parameterTypes) = t.map (·.parameterTypes)) ∧
  (c.includeMethodName = true → s.map (·.name) = t.map (·.name))

/-- A configuration that includes parts of a signature makes keys only of calls that have one. -/
lemma signature_ne_none {c : Config} {store : Store ω} {call : Invocation ω} {session : Session}
    {key : StructuralKey ω} (hkey : (c.structuralKey store call session).1 = .ok key)
    (h : c.includesSignature = true) : call.signature ≠ none := by
  intro hnone
  have hreport : c.report store call = .error (.fault (.missingSignature c.missingPart)) := by
    simp [report, signatureEvents, h, hnone]
  rw [structuralKey_fst, hreport] at hkey
  cases hkey

variable [OpaqueValue ω]

/-- The nodes of the signature and those of the arguments cannot be taken for each other. -/
lemma forall₂_same_prefixNodes {c : Config} {s t : Option Signature} {nodes others : List (Node ω)}
    (hs : c.includesSignature = true → s ≠ none) (ht : c.includesSignature = true → t ≠ none) :
    List.Forall₂ Node.Same (c.prefixNodes s ++ nodes) (c.prefixNodes t ++ others) ↔
      c.SameSignature s t ∧ List.Forall₂ Node.Same nodes others := by
  by_cases hincludes : c.includesSignature = true
  · obtain ⟨x, rfl⟩ := Option.ne_none_iff_exists'.mp (hs hincludes)
    obtain ⟨y, rfl⟩ := Option.ne_none_iff_exists'.mp (ht hincludes)
    -- Which nodes there are is the same on both sides, so they are compared place by place.
    cases hname : c.includeMethodName <;> cases htypes : c.includeSignatureTypes <;>
      simp only [SameSignature, prefixNodes, hname, htypes, if_true, if_false, Bool.false_eq_true,
        List.nil_append, List.cons_append, List.append_nil, List.forall₂_cons, Node.Same, Node.same,
        Node.sameItems_iff, List.forall₂_map_left_iff, List.forall₂_map_right_iff, beq_iff_eq,
        Bool.and_eq_true, Atom.type.injEq, Atom.text.injEq, List.forall₂_eq_eq_eq, Option.map_some,
        Option.some.injEq, false_implies, true_implies, true_and, and_true] <;>
      tauto
  · obtain ⟨hname, htypes⟩ : c.includeMethodName = false ∧ c.includeSignatureTypes = false := by
      simpa [includesSignature] using hincludes
    cases s <;> cases t <;> simp [SameSignature, prefixNodes, hname, htypes]

/-- **Structural keys tell calls apart.**  The keys of two calls over acyclic graphs are equal
exactly if the parts of the signatures that the configuration includes are equal and the arguments
are alike, one by one and none left over. -/
theorem same_structuralKey_iff {c : Config} {s t : Store ω} {call other : Invocation ω}
    {session session' : Session} {key key' : StructuralKey ω}
    (hcall : ∀ v ∈ call.arguments, s.Acyclic c.useReflection v)
    (hother : ∀ v ∈ other.arguments, t.Acyclic c.useReflection v)
    (hkey : (c.structuralKey s call session).1 = .ok key)
    (hkey' : (c.structuralKey t other session').1 = .ok key') :
    key.same key' = true ↔ c.SameSignature call.signature other.signature ∧
      List.Forall₂ (s.Alike t c.useReflection) call.arguments other.arguments := by
  have harguments : List.Forall₂ Node.Same (call.arguments.map (s.unfold c.useReflection []))
        (other.arguments.map (t.unfold c.useReflection [])) ↔
      List.Forall₂ (s.Alike t c.useReflection) call.arguments other.arguments := by
    rw [List.forall₂_map_left_iff, List.forall₂_map_right_iff]
    exact forall₂_congr_of_mem fun v hv w hw =>
      Store.same_unfold_iff (hcall v hv) (hother w hw) Store.clear_nil Store.clear_nil
  rw [StructuralKey.same, Node.sameItems_iff, (structuralKey_eq_ok hkey).2,
    (structuralKey_eq_ok hkey').2, nodes_eq_unfold_of_acyclic hcall,
    nodes_eq_unfold_of_acyclic hother,
    forall₂_same_prefixNodes (signature_ne_none hkey) (signature_ne_none hkey'), harguments]

/-- A list that is shared and two equal lists give equal keys. -/
theorem same_structuralKey_iff_shelf :
    let signature : Option Signature := some ⟨⟨"Shop"⟩, "price", [⟨"Map"⟩]⟩
    let call : Invocation Datum := { signature, arguments := [.ref .map ⟨2⟩] }
    let other : Invocation Datum := { signature, arguments := [.ref .map ⟨3⟩] }
    let leaf : Node Datum := .seq .list [.atom (.text "a")]
    let key : StructuralKey Datum :=
      ⟨({} : Config).prefixNodes signature ++ [.map [(leaf, leaf)]]⟩
    (∀ v ∈ call.arguments, Store.shelf.Acyclic false v) ∧
      (∀ v ∈ other.arguments, Store.shelf.Acyclic false v) ∧
      (({} : Config).structuralKey Store.shelf call {}).1 = .ok key ∧
      (({} : Config).structuralKey Store.shelf other {}).1 = .ok key ∧
      ({} : Config).SameSignature call.signature other.signature ∧
      List.Forall₂ (Store.shelf.Alike Store.shelf false) call.arguments other.arguments := by
  intro signature call other leaf key
  have hacyclic (v : Value Datum) : Store.shelf.Acyclic false v :=
    Store.descending_shelf.acyclic v
  have hkey : (({} : Config).structuralKey Store.shelf call {}).1 = .ok key := rfl
  have hkey' : (({} : Config).structuralKey Store.shelf other {}).1 = .ok key := rfl
  have hsame : key.same key = true := by
    simp [key, leaf, prefixNodes, signature, StructuralKey.same, Node.sameItems, Node.same,
      Node.sameEntries]
  exact ⟨fun v _ => hacyclic v, fun v _ => hacyclic v, hkey, hkey',
    (same_structuralKey_iff (fun v _ => hacyclic v) (fun v _ => hacyclic v) hkey hkey').mp hsame⟩

end Config

end MemoKey
