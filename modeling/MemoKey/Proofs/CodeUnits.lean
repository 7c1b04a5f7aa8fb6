import Mathlib
import MemoKey.Text.Decode

/-!
# Texts and their code units

Listing the UTF-16 code units of a text and reading code units are inverse to each other.  Both go
character by character: a character is one code unit that is no surrogate (`Text.IsSingle`), or a
high surrogate with a low one after it (`Text.IsPair`), and no character is both.

* `Text.ofUnits?_eq_some_iff` says that a list of code units is read as a text exactly if it lists
  the code units of that text.  A list with a surrogate that stands alone is therefore no text.
* `Text.length_units` counts: characters above the basic plane take two code units, all others one.
-/

namespace MemoKey.Text

/-! ## One character -/

lemma isHighSurrogate_iff {unit : UInt16} :
    isHighSurrogate unit ↔ 0xD800 ≤ unit.toNat ∧ unit.toNat < 0xDC00 := by
  simp [isHighSurrogate, UInt16.le_iff_toNat_le, UInt16.lt_iff_toNat_lt]

lemma isLowSurrogate_iff {unit : UInt16} :
    isLowSurrogate unit ↔ 0xDC00 ≤ unit.toNat ∧ unit.toNat < 0xE000 := by
  simp [isLowSurrogate, UInt16.le_iff_toNat_le, UInt16.lt_iff_toNat_lt]

/-- A code unit that is a character by itself. -/
def IsSingle (unit : UInt16) : Prop :=
  ¬ isHighSurrogate unit ∧ ¬ isLowSurrogate unit

/-- Two code units that are a character together. -/
def IsPair (high low : UInt16) : Prop :=
  isHighSurrogate high ∧ isLowSurrogate low

lemma isSingle_iff {unit : UInt16} :
    IsSingle unit ↔ unit.toNat < 0xD800 ∨ 0xE000 ≤ unit.toNat := by
  rw [IsSingle, isHighSurrogate_iff, isLowSurrogate_iff]
  omega

lemma isPair_iff {high low : UInt16} :
    IsPair high low ↔ (0xD800 ≤ high.toNat ∧ high.toNat < 0xDC00) ∧
      0xDC00 ≤ low.toNat ∧ low.toNat < 0xE000 := by
  rw [IsPair, isHighSurrogate_iff, isLowSurrogate_iff]

lemma IsSingle.toNat_char {unit : UInt16} (h : IsSingle unit) :
    (Char.ofNat unit.toNat).toNat = unit.toNat := by
  have hvalid : unit.toNat.isValidChar := by
    have hbounds := isSingle_iff.mp h
    have hlt := unit.toNat_lt
    unfold Nat.isValidChar
    omega
  rw [Char.toNat_ofNat, if_pos hvalid]

lemma IsPair.toNat_char {high low : UInt16} (h : IsPair high low) :
    (joinPair high low).toNat =
      0x10000 + (high.toNat - 0xD800) * 0x400 + (low.toNat - 0xDC00) := by
  have hvalid :
      (0x10000 + (high.toNat - 0xD800) * 0x400 + (low.toNat - 0xDC00)).isValidChar := by
    have hbounds := isPair_iff.mp h
    unfold Nat.isValidChar
    omega
  rw [joinPair, Char.toNat_ofNat, if_pos hvalid]

lemma IsSingle.units_char {unit : UInt16} (h : IsSingle unit) :
    unitsOfChar (Char.ofNat unit.toNat) = [unit] := by
  rw [unitsOfChar, h.toNat_char, if_pos unit.toNat_lt, UInt16.ofNat_toNat]

lemma IsPair.units_char {high low : UInt16} (h : IsPair high low) :
    unitsOfChar (joinPair high low) = [high, low] := by
  have hbounds := isPair_iff.mp h
  have hcode := h.toNat_char
  have hhigh : 0xD800 + ((joinPair high low).toNat - 0x10000) / 0x400 = high.toNat := by omega
  have hlow : 0xDC00 + ((joinPair high low).toNat - 0x10000) % 0x400 = low.toNat := by omega
  rw [unitsOfChar, if_neg (by omega)]
  simp only [hhigh, hlow, UInt16.ofNat_toNat]

/-- Every character is one code unit or two. -/
lemma exists_single_or_pair (c : Char) :
    (∃ unit, IsSingle unit ∧ c = Char.ofNat unit.toNat) ∨
      ∃ high low, IsPair high low ∧ c = joinPair high low := by
  have hvalid : c.toNat < 0xD800 ∨ 0xDFFF < c.toNat ∧ c.toNat < 0x110000 := c.valid
  by_cases hbasic : c.toNat < 0x10000
  · left
    have hunit : (UInt16.ofNat c.toNat).toNat = c.toNat := UInt16.toNat_ofNat_of_lt hbasic
    refine ⟨UInt16.ofNat c.toNat, isSingle_iff.mpr (by omega), ?_⟩
    rw [hunit, Char.ofNat_toNat]
  · right
    obtain ⟨high, hhigh⟩ : ∃ high : UInt16, high.toNat = 0xD800 + (c.toNat - 0x10000) / 0x400 :=
      ⟨.ofNat _, UInt16.toNat_ofNat_of_lt (by simp only [UInt16.size]; omega)⟩
    obtain ⟨low, hlow⟩ : ∃ low : UInt16, low.toNat = 0xDC00 + (c.toNat - 0x10000) % 0x400 :=
      ⟨.ofNat _, UInt16.toNat_ofNat_of_lt (by simp only [UInt16.size]; omega)⟩
    have hpair : IsPair high low := isPair_iff.mpr (by omega)
    refine ⟨high, low, hpair, Char.toNat_inj.mp ?_⟩
    rw [hpair.toNat_char]
    omega

/-! ## Reading -/

lemma IsSingle.charsOfUnits?_cons {unit : UInt16} (h : IsSingle unit) (rest : List UInt16) :
    charsOfUnits? (unit :: rest) = (charsOfUnits? rest).map (Char.ofNat unit.toNat :: ·) := by
  obtain ⟨hhigh, hlow⟩ := h
  cases rest with
  | nil => simp [charsOfUnits?, hhigh, hlow]
  | cons next rest => rw [charsOfUnits?, if_neg hlow, if_neg hhigh]

lemma IsPair.charsOfUnits?_cons {high low : UInt16} (h : IsPair high low) (rest : List UInt16) :
    charsOfUnits? (high :: low :: rest) = (charsOfUnits? rest).map (joinPair high low :: ·) := by
  have hother : ¬ isLowSurrogate high := by
    have hbounds := isPair_iff.mp h
    rw [isLowSurrogate_iff]
    omega
  rw [charsOfUnits?, if_neg hother, if_pos h.1, if_pos h.2]

/-- The code units of characters are read as these characters. -/
lemma charsOfUnits?_flatMap (chars : List Char) :
    charsOfUnits? (chars.flatMap unitsOfChar) = some chars := by
  induction chars with
  | nil => rfl
  | cons c rest ih =>
    obtain ⟨unit, hsingle, hc⟩ | ⟨high, low, hpair, hc⟩ := exists_single_or_pair c
    · rw [hc, List.flatMap_cons, hsingle.units_char, List.singleton_append,
        hsingle.charsOfUnits?_cons, ih, Option.map_some]
    · rw [hc, List.flatMap_cons, hpair.units_char, List.cons_append, List.singleton_append,
        hpair.charsOfUnits?_cons, ih, Option.map_some]

/-- Code units that are read as characters are the code units of these characters. -/
lemma eq_flatMap_of_charsOfUnits? {us : List UInt16} {chars : List Char}
    (h : charsOfUnits? us = some chars) : us = chars.flatMap unitsOfChar := by
  -- In the cases 2, 4 and 6 a surrogate stands alone, and nothing is read.
  fun_induction charsOfUnits? us generalizing chars with
  | case1 =>
    obtain rfl := Option.some.inj h
    rfl
  | case2 unit hsurrogate => contradiction
  | case3 unit hsurrogate =>
    obtain rfl := Option.some.inj h
    have hsingle : IsSingle unit := by simpa [IsSingle] using hsurrogate
    rw [List.flatMap_singleton, hsingle.units_char]
  | case4 unit next rest hlow => contradiction
  | case5 unit next rest hlow hhigh hnext ih =>
    obtain ⟨tail, htail, rfl⟩ := Option.map_eq_some_iff.mp h
    have hpair : IsPair unit next := ⟨hhigh, hnext⟩
    rw [List.flatMap_cons, hpair.units_char, ← ih htail, List.cons_append, List.singleton_append]
  | case6 unit next rest hlow hhigh hnext => contradiction
  | case7 unit next rest hlow hhigh ih =>
    obtain ⟨tail, htail, rfl⟩ := Option.map_eq_some_iff.mp h
    have hsingle : IsSingle unit := ⟨hhigh, hlow⟩
    rw [List.flatMap_cons, hsingle.units_char, ← ih htail, List.singleton_append]

/-- **A list of code units is read as a text** exactly if it lists the code units of the text. -/
theorem ofUnits?_eq_some_iff {us : List UInt16} {text : String} :
    ofUnits? us = some text ↔ us = units text := by
  constructor
  · intro h
    obtain ⟨chars, hchars, rfl⟩ := Option.map_eq_some_iff.mp h
    rw [units, String.toList_ofList]
    exact eq_flatMap_of_charsOfUnits? hchars
  · rintro rfl
    rw [ofUnits?, units, charsOfUnits?_flatMap, Option.map_some, String.ofList_toList]

/-! ## Counting -/

lemma length_unitsOfChar (c : Char) :
    (unitsOfChar c).length = if 0xFFFF < c.toNat then 2 else 1 := by
  unfold unitsOfChar
  by_cases h : c.toNat < 0x10000
  · rw [if_pos h, if_neg (by omega)]
    rfl
  · rw [if_neg h, if_pos (by omega)]
    rfl

/-- A text has one code unit for each of its characters, and a second one for each above the basic
plane. -/
theorem length_units (text : String) :
    (units text).length = text.length + text.toList.countP (0xFFFF < ·.toNat) := by
  rw [units, ← String.length_toList]
  induction text.toList with
  | nil => rfl
  | cons c rest ih =>
    rw [List.flatMap_cons, List.length_append, ih, length_unitsOfChar, List.length_cons,
      List.countP_cons]
    simp only [decide_eq_true_eq]
    split <;> omega

end MemoKey.Text
