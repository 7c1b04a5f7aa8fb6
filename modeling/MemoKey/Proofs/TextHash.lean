import MemoKey.Proofs.CodeUnits
import MemoKey.Proofs.Horner

/-!
# Hashes of texts

The hash of a text is the value at 31 of the polynomial whose coefficients are its UTF-16 code
units, as far as a signed word of 32 bits can hold it: the accumulator wraps around at every step,
and what is left in the end is extended to 64 bits by its sign.  Wrapping early or late makes no
difference, so that one reduction of the whole sum says the same (`Text.hash_eq_narrow`).

For the same reason the hash of two texts in a row is known from the hashes of the two, although
these are reduced already.  The first counts 31 times as much for each code unit of the second
(`Text.hash_append`), and this is a number of code units and not of characters.

* `Hash.narrow` reduces a whole number to 32 bits.

The main statement is `Text.hash_is_polynomial`.
-/

namespace MemoKey

namespace Hash

/-- A whole number reduced to a signed word of 32 bits, which is then extended by its sign. -/
def narrow (number : ℤ) : Hash :=
  (Int32.ofInt number).toInt64

lemma toInt_narrow (number : ℤ) : (narrow number).toInt = number.bmod (2 ^ 32) := by
  rw [narrow, Int32.toInt_toInt64]
  exact Int32.toInt_ofInt

/-- Numbers that are congruent modulo `2 ^ 32` are reduced to one word. -/
lemma toInt64_eq_narrow {word : Int32} {number : ℤ} (h : word.toInt ≡ number [ZMOD 2 ^ 32]) :
    word.toInt64 = narrow number := by
  have hmod : word.toInt % 2 ^ 32 = number % 2 ^ 32 := h
  refine Int64.toInt_inj.mp ?_
  rw [Int32.toInt_toInt64, toInt_narrow]
  calc
    word.toInt = word.toInt.bmod (2 ^ 32) := word.toInt_bmod.symm
    _ = (word.toInt % 2 ^ 32).bmod (2 ^ 32) := (Int.emod_bmod word.toInt _).symm
    _ = (number % 2 ^ 32).bmod (2 ^ 32) := by rw [hmod]
    _ = number.bmod (2 ^ 32) := Int.emod_bmod number _

end Hash

namespace Text

/-! ## Horner's rule in 32 bits -/

/-- A code unit has no sign, also where it is taken as a signed word. -/
lemma toInt_unit (unit : UInt16) : unit.toUInt32.toInt32.toInt = unit.toNat := by
  have hlt := unit.toNat_lt
  have hnat : unit.toUInt32.toBitVec.toNat = unit.toNat := unit.toNat_toUInt32
  rw [Int32.toInt, UInt32.toBitVec_toInt32, BitVec.toInt_eq_toNat_of_lt (by omega), hnat]

/-- One step of Horner's rule with an accumulator of 32 bits, in integers. -/
lemma toInt_stepUnit (acc : Int32) (unit : UInt16) :
    (stepUnit acc unit).toInt ≡ acc.toInt * 31 + unit.toNat [ZMOD 2 ^ 32] := by
  rw [stepUnit, Int32.toInt_add, Int32.toInt_mul, toInt_unit]
  exact Hash.bmod_mul_add_modEq (2 ^ 32) acc.toInt unit.toNat

/-- Horner's rule for a list of code units. -/
lemma toInt_foldl_stepUnit (acc : Int32) (us : List UInt16) :
    (us.foldl stepUnit acc).toInt ≡
      acc.toInt * 31 ^ us.length + Hash.polynomial (us.map fun unit => (unit.toNat : ℤ))
        [ZMOD 2 ^ 32] :=
  Hash.foldl_modEq toInt_stepUnit acc us

/-! ## Texts -/

/-- The accumulator of 32 bits after a whole text. -/
lemma toInt_hash (text : String) : (hash text).toInt = ((units text).foldl stepUnit 0).toInt :=
  Int32.toInt_toInt64 _

/-- Up to multiples of `2 ^ 32` the hash of a text is its polynomial. -/
lemma toInt_hash_modEq (text : String) :
    (hash text).toInt ≡ Hash.polynomial ((units text).map fun unit => (unit.toNat : ℤ))
      [ZMOD 2 ^ 32] := by
  have hrule := toInt_foldl_stepUnit 0 (units text)
  have hzero : (0 : Int32).toInt = 0 := rfl
  rwa [hzero, zero_mul, zero_add, ← toInt_hash] at hrule

/-- **The hash of a text** is the polynomial of its code units, reduced once. -/
theorem hash_eq_narrow (text : String) :
    hash text =
      Hash.narrow (Hash.polynomial ((units text).map fun unit => (unit.toNat : ℤ))) := by
  have hmod := toInt_hash_modEq text
  rw [toInt_hash] at hmod
  exact Hash.toInt64_eq_narrow hmod

/-- A character above the basic plane counts by its two surrogates. -/
example : hash "😀" = 0xD83D * 31 + 0xDE00 := by decide

/-- **The hash of two texts in a row** is known from the hashes of the two and from how many code
units the second has. -/
theorem hash_append (s t : String) :
    hash (s ++ t) =
      Hash.narrow ((hash s).toInt * 31 ^ (units t).length + (hash t).toInt) := by
  refine Hash.toInt64_eq_narrow ?_
  calc
    ((units (s ++ t)).foldl stepUnit 0).toInt
        = ((units t).foldl stepUnit ((units s).foldl stepUnit 0)).toInt := by
      rw [units_append, List.foldl_append]
    _ ≡ ((units s).foldl stepUnit 0).toInt * 31 ^ (units t).length +
          Hash.polynomial ((units t).map fun unit => (unit.toNat : ℤ)) [ZMOD 2 ^ 32] :=
      toInt_foldl_stepUnit _ _
    _ ≡ (hash s).toInt * 31 ^ (units t).length + (hash t).toInt [ZMOD 2 ^ 32] := by
      rw [← toInt_hash]
      exact (toInt_hash_modEq t).symm.add_left _

/-- **A text hash is a polynomial in 32 bits.**  For all texts the code units are what a reader of
UTF-16 takes for the text, the hash is the sum of the code units with descending powers of 31,
reduced to a signed word of 32 bits and extended by its sign, and the hash of two texts in a row
comes of the two hashes in the same way, with one power for each code unit of the second text:
a character above the basic plane has two. -/
theorem hash_is_polynomial (s t : String) :
    (∀ us, ofUnits? us = some s ↔ us = units s) ∧
      hash s = Hash.narrow (Hash.polynomial ((units s).map fun unit => (unit.toNat : ℤ))) ∧
      hash (s ++ t) = Hash.narrow ((hash s).toInt * 31 ^ (units t).length + (hash t).toInt) ∧
      (units t).length = t.length + t.toList.countP (0xFFFF < ·.toNat) :=
  ⟨fun _ => ofUnits?_eq_some_iff, hash_eq_narrow s, hash_append s t, length_units t⟩

end Text

end MemoKey
