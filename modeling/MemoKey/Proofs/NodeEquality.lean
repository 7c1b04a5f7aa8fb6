import Mathlib.Data.List.Forall2
import MemoKey.Proofs.NodeEvents

/-!
# Equality of nodes by heading and parts

Keys compare nodes by a recursion with one function for each kind of list.  Seen from outside there
are two cases only: leaves, and composites, which are equal if they have the same heading and parts
that are equal pairwise.

* `Node.heading?` is what a composite is apart from its parts.
* `Node.same_iff_of_heading` is the case of composites.
-/

namespace MemoKey

namespace Node

variable {ω : Type}

/-- A composite without its parts.  Leaves have no heading. -/
def heading? : Node ω → Option Composite
  | seq sequence _ => some (.seq sequence)
  | map _ => some .map
  | object type fields => some (.object type (fields.map (·.1)))
  | _ => none

variable [OpaqueValue ω]

/-- Two nodes are equal for a key. -/
def Same (node other : Node ω) : Prop :=
  node.same other = true

lemma sameItems_iff {nodes others : List (Node ω)} :
    sameItems nodes others = true ↔ List.Forall₂ Same nodes others := by
  induction nodes generalizing others with
  | nil => cases others <;> simp [sameItems]
  | cons node rest ih =>
    cases others with
    | nil => simp [sameItems]
    | cons other others => simp [sameItems, ih, Same]

lemma sameEntries_iff {entries others : List (Node ω × Node ω)} :
    sameEntries entries others = true ↔
      List.Forall₂ Same (entries.flatMap fun e => [e.1, e.2])
        (others.flatMap fun e => [e.1, e.2]) := by
  induction entries generalizing others with
  | nil => cases others <;> simp [sameEntries]
  | cons e rest ih =>
    obtain ⟨key, value⟩ := e
    cases others with
    | nil => simp [sameEntries]
    | cons other others =>
      obtain ⟨key', value'⟩ := other
      simp [sameEntries, ih, Same, and_assoc]

lemma sameFields_iff {fields others : List (String × Node ω)} :
    sameFields fields others = true ↔
      fields.map (·.1) = others.map (·.1) ∧
        List.Forall₂ Same (fields.map (·.2)) (others.map (·.2)) := by
  induction fields generalizing others with
  | nil => cases others <;> simp [sameFields]
  | cons f rest ih =>
    obtain ⟨name, value⟩ := f
    cases others with
    | nil => simp [sameFields]
    | cons other others =>
      obtain ⟨name', value'⟩ := other
      simp only [sameFields, ih, Same, Bool.and_eq_true, beq_iff_eq, List.map_cons,
        List.cons.injEq, List.forall₂_cons]
      tauto

/-- Composites are equal if their headings are and their parts are equal pairwise. -/
theorem same_iff_of_heading {node other : Node ω} (h : node.heading? ≠ none) :
    node.Same other ↔
      node.heading? = other.heading? ∧ List.Forall₂ Same node.parts other.parts := by
  rw [Same]
  cases node with
  | atom | whole | cycle => exact absurd rfl h
  | seq sequence items => cases other <;> simp [same, heading?, parts, sameItems_iff]
  | map entries => cases other <;> simp [same, heading?, parts, sameEntries_iff]
  | object type fields => cases other <;> simp [same, heading?, parts, sameFields_iff, and_assoc]

/-- A node is equal to itself if opaque values are. -/
lemma same_self (h : ∀ x : ω, OpaqueValue.same x x = true) (node : Node ω) : node.Same node := by
  induction node using partsInduction with
  | step node ih =>
    by_cases hheading : node.heading? = none
    · cases node with
      | atom a => simp [Same, same]
      | whole x => cases x <;> simp [Same, same, Whole.same, h]
      | cycle => simp [Same, same]
      | seq | map | object => simp [heading?] at hheading
    · rw [same_iff_of_heading hheading]
      exact ⟨rfl, List.forall₂_same.mpr ih⟩

end Node

end MemoKey
