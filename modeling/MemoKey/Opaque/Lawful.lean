import MemoKey.Opaque.Basic

/-!
# Lawful opaque values

Keys take the equality and the hash of opaque values as they are, so a key is only as lawful as the
opaque values in it.

Arguments may hold opaque values of many types at once.  Such a value carries its type, and another
one is looked at only if it has the same type: values of different types are never equal.

* `LawfulOpaqueValue` asks for an equality that is an equivalence, and for equal hashes of equal
  values.
* `Mixed` are the values of several types.  They are lawful if the values of each type are.
-/

namespace MemoKey

/-- A type of opaque values with a lawful equality. -/
class LawfulOpaqueValue (ω : Type) [OpaqueValue ω] : Prop where
  /-- A value is equal to itself. -/
  same_refl (x : ω) : OpaqueValue.same x x = true
  /-- Equality can be turned round. -/
  same_symm {x y : ω} (h : OpaqueValue.same x y = true) : OpaqueValue.same y x = true
  /-- What is equal to one of two equal values is equal to the other. -/
  same_trans {x y z : ω} (h : OpaqueValue.same x y = true) (h' : OpaqueValue.same y z = true) :
    OpaqueValue.same x z = true
  /-- Equal values add the same to a hash. -/
  hash_eq_of_same {x y : ω} (h : OpaqueValue.same x y = true) :
    OpaqueValue.hash x = OpaqueValue.hash y

/-- A value of one of several types, together with its type. -/
structure Mixed {ι : Type} (T : ι → Type) where
  /-- The type of the value. -/
  type : ι
  /-- The value itself. -/
  value : T type

namespace Mixed

variable {ι : Type} [DecidableEq ι] {T : ι → Type} [∀ i, OpaqueValue (T i)]

/-- Values are compared within the type of the first one. -/
instance : OpaqueValue (Mixed T) where
  same x y := if h : y.type = x.type then OpaqueValue.same x.value (h ▸ y.value) else false
  hash x := OpaqueValue.hash x.value
  inspect x := OpaqueValue.inspect x.value

@[simp] theorem same_mk {i : ι} (x y : T i) :
    OpaqueValue.same (⟨i, x⟩ : Mixed T) ⟨i, y⟩ = OpaqueValue.same x y := by
  simp [OpaqueValue.same]

/-- Only values of one type are equal. -/
theorem type_eq_of_same {x y : Mixed T} (h : OpaqueValue.same x y = true) : x.type = y.type := by
  by_cases htype : y.type = x.type
  · exact htype.symm
  · simp [OpaqueValue.same, htype] at h

instance [∀ i, LawfulOpaqueValue (T i)] : LawfulOpaqueValue (Mixed T) where
  same_refl x := by
    rw [same_mk]
    exact LawfulOpaqueValue.same_refl x.value
  same_symm {x y} h := by
    obtain ⟨i, x⟩ := x
    obtain ⟨j, y⟩ := y
    obtain rfl : i = j := type_eq_of_same h
    rw [same_mk] at h ⊢
    exact LawfulOpaqueValue.same_symm h
  same_trans {x y z} h h' := by
    obtain ⟨i, x⟩ := x
    obtain ⟨j, y⟩ := y
    obtain ⟨k, z⟩ := z
    obtain rfl : i = j := type_eq_of_same h
    obtain rfl : i = k := type_eq_of_same h'
    rw [same_mk] at h h' ⊢
    exact LawfulOpaqueValue.same_trans h h'
  hash_eq_of_same {x y} h := by
    obtain ⟨i, x⟩ := x
    obtain ⟨j, y⟩ := y
    obtain rfl : i = j := type_eq_of_same h
    rw [same_mk] at h
    exact LawfulOpaqueValue.hash_eq_of_same (ω := T i) h

end Mixed

end MemoKey
