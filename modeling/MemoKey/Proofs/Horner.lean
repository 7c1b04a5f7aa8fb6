import Mathlib.Algebra.BigOperators.Fin
import Mathlib.Data.Int.ModEq
import Mathlib.Tactic.Ring
import MemoKey.Hash

/-!
# Hashes as polynomials

Horner's rule takes one word at a time and never a power.  What it comes to is the value of a
polynomial at 31, whose coefficients are the words: the first word stands with the highest power,
and what the accumulator held before stands with one power more.

An accumulator of fixed width does all of this up to multiples of a modulus, which for hashes is
`2 ^ 64`.  A hash is a signed word, so it is compared through the integer that it is read as, and
two hashes are equal as soon as these integers are congruent.

* `Hash.polynomial` is the value of a polynomial, as a sum of powers.
* `Hash.foldl_modEq` is Horner's rule in wrapping arithmetic, for an accumulator of any width.
* `Hash.toInt_extend` is Horner's rule for a list of words.
-/

namespace MemoKey.Hash

/-- The value at 31 of the polynomial with the given coefficients, that of the highest power
first. -/
def polynomial (coefficients : List ℤ) : ℤ :=
  ∑ i : Fin coefficients.length, coefficients[i] * 31 ^ (coefficients.length - 1 - i)

@[simp] lemma polynomial_nil : polynomial [] = 0 := rfl

/-- The first coefficient stands with as many powers as there are coefficients after it. -/
lemma polynomial_cons (a : ℤ) (rest : List ℤ) :
    polynomial (a :: rest) = a * 31 ^ rest.length + polynomial rest := by
  unfold polynomial
  refine (Fin.sum_univ_succ (n := rest.length) _).trans ?_
  congr 1
  refine Finset.sum_congr rfl fun i _ => ?_
  have hpower : (a :: rest).length - 1 - (i.succ : ℕ) = rest.length - 1 - i := by
    simp only [List.length_cons, Fin.val_succ]
    omega
  rw [hpower]
  rfl

/-- A step that wraps around after the product and again after the sum is off by multiples of the
modulus only. -/
lemma bmod_mul_add_modEq (modulus : ℕ) (acc word : ℤ) :
    ((acc * 31).bmod modulus + word).bmod modulus ≡ acc * 31 + word [ZMOD modulus] := by
  have hwrap (z : ℤ) : z.bmod modulus ≡ z [ZMOD modulus] := Int.bmod_emod
  exact (hwrap _).trans ((hwrap _).add_right word)

/-- **Horner's rule, in wrapping arithmetic.**  Let every step multiply an accumulator by 31 and add
one coefficient, up to multiples of a modulus.  Then many steps multiply it by 31 for each of them
and add the value of the polynomial, up to multiples of the same modulus. -/
lemma foldl_modEq {Acc Word : Type} {value : Acc → ℤ} {coefficient : Word → ℤ}
    {step : Acc → Word → Acc} {modulus : ℤ}
    (hstep : ∀ acc word, value (step acc word) ≡ value acc * 31 + coefficient word [ZMOD modulus])
    (acc : Acc) (words : List Word) :
    value (words.foldl step acc) ≡
      value acc * 31 ^ words.length + polynomial (words.map coefficient) [ZMOD modulus] := by
  -- The first word changes the accumulator, so the rest is for any accumulator.
  induction words generalizing acc with
  | nil => simp
  | cons word rest ih =>
    have hpowers := ((hstep acc word).mul_right (31 ^ rest.length)).add_right
      (polynomial (rest.map coefficient))
    calc
      value ((word :: rest).foldl step acc)
          ≡ value (step acc word) * 31 ^ rest.length + polynomial (rest.map coefficient)
            [ZMOD modulus] := ih (step acc word)
      _ ≡ (value acc * 31 + coefficient word) * 31 ^ rest.length +
            polynomial (rest.map coefficient) [ZMOD modulus] := hpowers
      _ = value acc * 31 ^ (word :: rest).length + polynomial ((word :: rest).map coefficient) := by
        rw [List.map_cons, polynomial_cons, List.length_map, List.length_cons]
        ring

/-- Hashes are equal if they are congruent as integers. -/
lemma eq_iff_toInt_modEq {x y : Hash} : x = y ↔ x.toInt ≡ y.toInt [ZMOD 2 ^ 64] := by
  constructor
  · rintro rfl
    rfl
  · intro h
    have hx := And.intro x.le_toInt x.toInt_lt
    have hy := And.intro y.le_toInt y.toInt_lt
    have hmod : x.toInt % 2 ^ 64 = y.toInt % 2 ^ 64 := h
    exact Int64.toInt_inj.mp (by omega)

/-- One step of Horner's rule, in integers. -/
lemma toInt_step (acc word : Hash) :
    (step acc word).toInt ≡ acc.toInt * 31 + word.toInt [ZMOD 2 ^ 64] := by
  rw [step, Int64.toInt_add, Int64.toInt_mul]
  exact bmod_mul_add_modEq (2 ^ 64) acc.toInt word.toInt

/-- **Horner's rule for hashes.**  Taking words into an accumulator multiplies it by 31 for each of
them and adds the value of the polynomial that they are the coefficients of. -/
theorem toInt_extend (acc : Hash) (words : List Hash) :
    (extend acc words).toInt ≡
      acc.toInt * 31 ^ words.length + polynomial (words.map Int64.toInt) [ZMOD 2 ^ 64] :=
  foldl_modEq toInt_step acc words

end MemoKey.Hash
