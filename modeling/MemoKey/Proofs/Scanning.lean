import Mathlib
import MemoKey.Derive.Tree

/-!
# Declarations that are read back

A declaration is read in two steps: its text is taken apart into lexemes, and the brackets among
them are paired.  Both steps undo writing.

## Scanning

Lexemes can be read back from the way they are written if they can be told apart there.
`Lexeme.IsLegible` says so for words, numbers, most signs and brackets: no word follows a word, and
a sign remembers whether a sign follows.  Each kind of lexeme has one lemma about `Lexeme.first`,
and `Lexeme.scan_chars` puts them together.

## Pairing

`Tree.lexemesOf` writes trees as lexemes.  `Tree.Open.lexemes` are the lexemes that have led to some
open brackets; `Tree.Open.lexemes_feed` says that a lexeme is added to them with each step, and
`Tree.ofLexemes?_eq_some_iff` that pairing is the inverse of writing: trees are found exactly where
they were written.  `Tree.ofText?_textOfList` joins the two parts.
-/

namespace MemoKey.Derive

namespace Lexeme

/-! ## Lexemes that can be told apart -/

/-- The characters that a lexeme is written with. -/
def chars : Lexeme → List Char
  | token t => t.text.toList
  | opening d => [d.opener]
  | closing d => [d.closer]

/-- The signs that mean the same wherever they stand.  The others may start a comment, a character
or a raw name, or go on with a number. -/
def plainSigns : List Char :=
  "~!@$%^&*-=+|;:,<>?".toList

/-- Lexemes that are told by the characters they are written with: words, numbers without a point,
plain signs and brackets. -/
inductive IsPlain : Lexeme → Prop
  | word {c : Char} {cs : List Char} (hc : isWordStart c = true)
    (hcs : ∀ d ∈ cs, isWordChar d = true) : IsPlain (token (.word (String.ofList (c :: cs))))
  | numeral {c : Char} {cs : List Char} (hc : c.isDigit = true)
    (hcs : ∀ d ∈ cs, d.isDigit = true) : IsPlain (token (.literal (String.ofList (c :: cs))))
  | sign {c : Char} (hc : c ∈ plainSigns) (isJoined : Bool) : IsPlain (token (.sign c isJoined))
  | opening (d : Delimiter) : IsPlain (opening d)
  | closing (d : Delimiter) : IsPlain (closing d)

/-- Whether lexemes start with a sign. -/
def startsSign : List Lexeme → Bool
  | token (.sign _ _) :: _ => true
  | _ => false

/-- Whether lexemes start with a word or a number. -/
def startsWord : List Lexeme → Bool
  | token (.word _) :: _ => true
  | token (.literal _) :: _ => true
  | _ => false

/-- Whether a lexeme may be followed by others. -/
def fits : Lexeme → List Lexeme → Bool
  | token (.sign _ isJoined), rest => isJoined == startsSign rest
  | token _, rest => !startsWord rest
  | _, _ => true

/-- Lexemes that can be told apart when they are written one after the other. -/
def IsLegible : List Lexeme → Prop
  | [] => True
  | l :: rest => l.IsPlain ∧ l.fits rest = true ∧ IsLegible rest

section

variable {rest : List Lexeme}

lemma isLegible_word {w : String} (hw : (token (.word w)).IsPlain) :
    IsLegible (token (.word w) :: rest) ↔ startsWord rest = false ∧ IsLegible rest := by
  simp [IsLegible, hw, fits]

lemma isLegible_literal {l : String} (hl : (token (.literal l)).IsPlain) :
    IsLegible (token (.literal l) :: rest) ↔ startsWord rest = false ∧ IsLegible rest := by
  simp [IsLegible, hl, fits]

lemma isLegible_sign {c : Char} (hc : c ∈ plainSigns) {isJoined : Bool} :
    IsLegible (token (.sign c isJoined) :: rest) ↔ isJoined = startsSign rest ∧ IsLegible rest := by
  simp [IsLegible, IsPlain.sign hc, fits]

@[simp] lemma isLegible_opening (d : Delimiter) :
    IsLegible (opening d :: rest) ↔ IsLegible rest := by
  simp [IsLegible, IsPlain.opening, fits]

@[simp] lemma isLegible_closing (d : Delimiter) :
    IsLegible (closing d :: rest) ↔ IsLegible rest := by
  simp [IsLegible, IsPlain.closing, fits]

end

/-! ## Characters -/

section

variable {c : Char} {cs tail : List Char}

lemma isBlank_eq_false (h : isWordChar c = true) : isBlank c = false := by
  by_contra hblank
  rw [Bool.not_eq_false] at hblank
  have hascii : c.isAlphanum = true ∨ c = '_' := by
    simpa [isWordChar, hblank] using h
  have hvalue : 0x30 ≤ c.toNat ∧ c.toNat ≤ 0x7A := by
    rcases hascii with halphanum | rfl
    · simp only [Char.isAlphanum, Char.isAlpha, Char.isUpper, Char.isLower, Char.isDigit,
        Bool.or_eq_true, Bool.and_eq_true, decide_eq_true_eq, ge_iff_le,
        UInt32.le_iff_toNat_le] at halphanum
      change 0x30 ≤ c.val.toNat ∧ c.val.toNat ≤ 0x7A
      change ((65 ≤ c.val.toNat ∧ c.val.toNat ≤ 90) ∨ 97 ≤ c.val.toNat ∧ c.val.toNat ≤ 122) ∨
        48 ≤ c.val.toNat ∧ c.val.toNat ≤ 57 at halphanum
      omega
    · decide
  have hspace : c ≠ ' ' := by
    rintro rfl
    exact absurd hvalue (by decide)
  simp [isBlank, wideBlanks, hspace] at hblank
  omega

/-- The characters of plain signs and of brackets. -/
def wordEnds : List Char :=
  plainSigns ++ "()[]\x7b\x7d".toList

/-- What a word ends with: nothing, or a plain sign or bracket. -/
def EndsWord (tail : List Char) : Prop :=
  ∀ c ∈ tail.head?, c ∈ wordEnds

-- These are checked by way of `List.all`: a statement about the members of a list of characters is
-- otherwise decided as one about all characters.
lemma isWordChar_of_mem (h : c ∈ wordEnds) : isWordChar c = false := by
  have hall : ∀ d ∈ wordEnds, (!isWordChar d) = true := List.all_eq_true.mp (by decide)
  simpa using hall c h

lemma ne_quote_of_mem (h : c ∈ wordEnds) : c ≠ '"' ∧ c ≠ '\'' ∧ c ≠ '#' := by
  have hall : ∀ d ∈ wordEnds, (d != '"' && d != '\'' && d != '#') = true :=
    List.all_eq_true.mp (by decide)
  simpa [and_assoc] using hall c h

lemma ne_exponent_of_mem (h : c ∈ wordEnds) : c ≠ '.' ∧ c ≠ 'e' ∧ c ≠ 'E' := by
  have hall : ∀ d ∈ wordEnds, (d != '.' && d != 'e' && d != 'E') = true :=
    List.all_eq_true.mp (by decide)
  simpa [and_assoc] using hall c h

lemma takeWhile_word (p : Char → Bool) (hp : ∀ c, p c = true → isWordChar c = true)
    (hcs : ∀ c ∈ cs, p c = true) (htail : EndsWord tail) : (cs ++ tail).takeWhile p = cs := by
  rw [List.takeWhile_append_of_pos hcs]
  cases tail with
  | nil => simp
  | cons d rest =>
    have hd : p d = false := by
      by_contra hpd
      rw [Bool.not_eq_false] at hpd
      simpa [isWordChar_of_mem (htail d rfl)] using hp d hpd
    simp [hd]

/-- Whether no quotation can go on here. -/
def IsUnquoted (cs : List Char) : Prop :=
  ∀ c ∈ cs.head?, c ≠ '"' ∧ c ≠ '\'' ∧ c ≠ '#'

lemma isUnquoted_append (hcs : ∀ c ∈ cs, isWordChar c = true) (htail : EndsWord tail) :
    IsUnquoted (cs ++ tail) := by
  have hword (c : Char) (hc : isWordChar c = true) : c ≠ '"' ∧ c ≠ '\'' ∧ c ≠ '#' := by
    refine ⟨?_, ?_, ?_⟩ <;> (rintro rfl; exact absurd hc (by decide))
  intro c hc
  cases cs with
  | nil => exact ne_quote_of_mem (htail c hc)
  | cons d rest =>
    obtain rfl : d = c := by simpa using hc
    exact hword d (hcs d List.mem_cons_self)

lemma rawQuotationLength?_eq_none (h : IsUnquoted cs) : rawQuotationLength? cs = none := by
  cases cs with
  | nil => rfl
  | cons c rest =>
    obtain ⟨hquote, -, hhash⟩ := h c rfl
    simp [rawQuotationLength?, hquote, hhash]

/-- No literal starts with the first letter of a word. -/
lemma letteredLength?_eq_none (hcs : ∀ c ∈ cs, isWordChar c = true) (htail : EndsWord tail) :
    letteredLength? c (cs ++ tail) = none := by
  have hunquoted := isUnquoted_append hcs htail
  -- A second letter is one of the word, so that the word still goes on or ends after it.
  have hsecond {more : List Char} (hmore : cs ++ tail = 'r' :: more) :
      (rawQuotationLength? more).map (· + 1) = none := by
    rcases List.append_eq_cons_iff.mp hmore with ⟨-, rfl⟩ | ⟨rest, rfl, rfl⟩
    · exact absurd (isWordChar_of_mem (htail 'r' rfl)) (by decide)
    · rw [rawQuotationLength?_eq_none (isUnquoted_append (fun d hd => hcs d (by simp [hd])) htail)]
      rfl
  unfold letteredLength?
  split
  case h_1 => exact rawQuotationLength?_eq_none hunquoted
  case h_2 _ more heq | h_3 _ more heq => exact absurd rfl (hunquoted '"' (by simp [heq])).1
  case h_4 _ more heq => exact absurd rfl (hunquoted '\'' (by simp [heq])).2.1
  case h_5 _ more heq | h_6 _ more heq => exact hsecond heq
  case h_7 => rfl

/-! ## The first lexeme of a text -/

lemma ne_of_isWordChar {d : Char} (h : isWordChar c = true) (hd : isWordChar d = false) :
    (c == d) = false := by
  rw [beq_eq_false_iff_ne]
  rintro rfl
  simp [hd] at h

lemma first_word (hc : isWordStart c = true) (hcs : ∀ d ∈ cs, isWordChar d = true)
    (htail : EndsWord tail) :
    first c (cs ++ tail) = ([token (.word (String.ofList (c :: cs)))], cs.length) := by
  obtain ⟨hword, hdigit⟩ : isWordChar c = true ∧ c.isDigit = false := by
    simpa [isWordStart] using hc
  have hlength : wordLength (cs ++ tail) = cs.length := by
    rw [wordLength, takeWhile_word isWordChar (fun _ h => h) hcs htail]
  have hlettered : lettered c (cs ++ tail) = made .word c (cs ++ tail) cs.length := by
    rw [lettered, letteredLength?_eq_none hcs htail, hlength]
    exact fun more _ hmore => (isUnquoted_append hcs htail '#' (by simp [hmore])).2.2 rfl
  rw [first, isBlank_eq_false hword, ne_of_isWordChar hword (by decide : isWordChar '/' = false),
    ne_of_isWordChar hword (by decide : isWordChar '(' = false),
    ne_of_isWordChar hword (by decide : isWordChar '"' = false),
    ne_of_isWordChar hword (by decide : isWordChar '\'' = false), hdigit, hword, hlettered]
  simp [made]

lemma isWordChar_of_isDigit (h : c.isDigit = true) : isWordChar c = true := by
  simp [isWordChar, Char.isAlphanum, h]

/-- A number of digits alone has no fraction and no exponent. -/
lemma numberLength_eq (hcs : ∀ d ∈ cs, d.isDigit = true) (htail : EndsWord tail) :
    numberLength (cs ++ tail) = cs.length := by
  have hdigits : (cs ++ tail).takeWhile isDigitLike = cs := by
    refine takeWhile_word isDigitLike (fun d hd => ?_) (fun d hd => ?_) htail
    · rcases (by simpa [isDigitLike] using hd : d.isDigit = true ∨ d = '_') with hdigit | rfl
      · exact isWordChar_of_isDigit hdigit
      · decide
    · simp [isDigitLike, hcs d hd]
  have hword : wordLength tail = 0 := by
    rw [wordLength, ← List.nil_append tail,
      takeWhile_word isWordChar (fun _ h => h) (by simp) htail]
    rfl
  have hfraction : fractionLength tail = 0 := by
    unfold fractionLength
    split
    · exact absurd rfl (ne_exponent_of_mem (htail '.' rfl)).1
    · rfl
  have hexponent : exponentLength tail = 0 := by
    cases tail with
    | nil => rfl
    | cons d rest =>
      obtain ⟨-, hlower, hupper⟩ := ne_exponent_of_mem (htail d rfl)
      simp only [exponentLength, beq_eq_false_iff_ne.mpr hlower, beq_eq_false_iff_ne.mpr hupper,
        Bool.or_false, Bool.false_and, Bool.false_eq_true, if_false]
      split <;> rfl
  simp [numberLength, hdigits, hfraction, hexponent, hword]

lemma first_numeral (hc : c.isDigit = true) (hcs : ∀ d ∈ cs, d.isDigit = true)
    (htail : EndsWord tail) :
    first c (cs ++ tail) = ([token (.literal (String.ofList (c :: cs)))], cs.length) := by
  have hword := isWordChar_of_isDigit hc
  rw [first, isBlank_eq_false hword, ne_of_isWordChar hword (by decide : isWordChar '/' = false),
    ne_of_isWordChar hword (by decide : isWordChar '(' = false), hc, numberLength_eq hcs htail]
  simp [made]

lemma first_sign (hc : c ∈ plainSigns) :
    first c tail = ([token (.sign c (startsWithSign tail))], 0) := by
  have hall : ∀ d ∈ plainSigns, decide (isBlank d = false ∧ (d == '/') = false ∧
      (d == '(') = false ∧ d.isDigit = false ∧ (d == '"') = false ∧ (d == '\'') = false ∧
      isWordChar d = false ∧ Delimiter.all.find? (·.opener == d) = none ∧
      Delimiter.all.find? (·.closer == d) = none) = true := List.all_eq_true.mp (by decide)
  simp [first, of_decide_eq_true (hall c hc)]

/-- A bracket is one wherever no slash follows it. -/
lemma first_opening (d : Delimiter) (h : ∀ c ∈ tail.head?, c ≠ '/') :
    first d.opener tail = ([opening d], 0) := by
  have hmark : failureMark.isPrefixOf tail = false := by
    have hslash : failureMark = '/' :: "*ERROR*/)".toList := by decide
    cases tail with
    | nil => rfl
    | cons c rest =>
      rw [hslash, List.isPrefixOf, beq_eq_false_iff_ne.mpr (h c rfl).symm, Bool.false_and]
  have hplain : isBlank d.opener = false ∧ (d.opener == '/') = false ∧ d.opener.isDigit = false ∧
      (d.opener == '"') = false ∧ (d.opener == '\'') = false ∧ isWordChar d.opener = false ∧
      Delimiter.all.find? (·.opener == d.opener) = some d := by
    cases d <;> decide
  simp [first, hplain, hmark]

lemma first_closing (d : Delimiter) : first d.closer tail = ([closing d], 0) := by
  cases d <;> rfl

end

/-! ## Texts -/

section

variable {l : Lexeme} {ls : List Lexeme}

/-- Before what is no word, a word ends. -/
lemma IsLegible.endsWord (h : IsLegible ls) (hword : startsWord ls = false) :
    EndsWord (ls.flatMap chars) := by
  cases ls with
  | nil => simp [EndsWord]
  | cons l rest =>
    rcases h.1 with ⟨_, _⟩ | ⟨_, _⟩ | ⟨hc, _⟩ | d | d
    case word | numeral => simp [startsWord] at hword
    case sign => simpa [EndsWord, wordEnds, chars, Token.text] using Or.inl hc
    case opening => cases d <;> simp [EndsWord, wordEnds, chars, Delimiter.opener]
    case closing => cases d <;> simp [EndsWord, wordEnds, chars, Delimiter.closer]

/-- The first character of a lexeme tells whether the lexeme is a sign. -/
lemma IsPlain.exists_chars (h : l.IsPlain) :
    ∃ c cs, l.chars = c :: cs ∧ c ≠ '/' ∧ signs.contains c = startsSign [l] := by
  have hword (c : Char) (hc : isWordChar c = true) : c ≠ '/' ∧ signs.contains c = false := by
    refine ⟨by rintro rfl; exact absurd hc (by decide), ?_⟩
    by_contra hsign
    have hsigns : ∀ d ∈ signs, (!isWordChar d) = true := List.all_eq_true.mp (by decide)
    rw [Bool.not_eq_false, List.contains_iff_mem] at hsign
    simpa [hc] using hsigns c hsign
  have hplain : ∀ d ∈ plainSigns, (d != '/' && signs.contains d) = true :=
    List.all_eq_true.mp (by decide)
  cases h with
  | @word c cs hc _ =>
    obtain ⟨hslash, hsigns⟩ := hword c (Bool.and_eq_true_iff.mp hc).1
    exact ⟨c, cs, by simp [chars, Token.text], hslash, hsigns⟩
  | @numeral c cs hc _ =>
    obtain ⟨hslash, hsigns⟩ := hword c (isWordChar_of_isDigit hc)
    exact ⟨c, cs, by simp [chars, Token.text], hslash, hsigns⟩
  | @sign c hc _ =>
    obtain ⟨hslash, hsigns⟩ := Bool.and_eq_true_iff.mp (hplain c hc)
    exact ⟨c, [], by simp [chars, Token.text], bne_iff_ne.mp hslash, hsigns⟩
  | opening d => exact ⟨d.opener, [], rfl, by cases d <;> decide, by cases d <;> decide⟩
  | closing d => exact ⟨d.closer, [], rfl, by cases d <;> decide, by cases d <;> decide⟩

lemma IsLegible.head_ne_slash (h : IsLegible ls) : ∀ c ∈ (ls.flatMap chars).head?, c ≠ '/' := by
  cases ls with
  | nil => simp
  | cons l rest =>
    obtain ⟨c, cs, hchars, hslash, -⟩ := h.1.exists_chars
    simpa [hchars] using hslash

lemma IsLegible.startsWithSign (h : IsLegible ls) :
    startsWithSign (ls.flatMap chars) = startsSign ls := by
  cases ls with
  | nil => rfl
  | cons l rest =>
    obtain ⟨c, cs, hchars, hslash, hsign⟩ := h.1.exists_chars
    have hfirst : startsSign (l :: rest) = startsSign [l] := by
      cases l with
      | token t => cases t <;> rfl
      | opening | closing => rfl
    rw [List.flatMap_cons, hchars, hfirst, ← hsign, List.cons_append]
    unfold Lexeme.startsWithSign
    split
    case h_1 heq | h_2 heq => exact absurd (List.cons.inj heq).1 hslash
    case h_3 heq => rw [(List.cons.inj heq).1]
    case h_4 heq => exact absurd heq nofun

lemma IsPlain.ne_space (h : l.IsPlain) : ∀ c ∈ l.chars, c ≠ ' ' := by
  have hword (c : Char) (hc : isWordChar c = true) : c ≠ ' ' := by
    rintro rfl
    exact absurd hc (by decide)
  have hplain : ∀ d ∈ plainSigns, (d != ' ') = true := List.all_eq_true.mp (by decide)
  cases h with
  | @word c cs hc hcs =>
    simpa [chars, Token.text] using
      ⟨hword c (Bool.and_eq_true_iff.mp hc).1, fun d hd => hword d (hcs d hd)⟩
  | @numeral c cs hc hcs =>
    simpa [chars, Token.text] using ⟨hword c (isWordChar_of_isDigit hc),
      fun d hd => hword d (isWordChar_of_isDigit (hcs d hd))⟩
  | @sign c hc => simpa [chars, Token.text] using bne_iff_ne.mp (hplain c hc)
  | opening d | closing d => cases d <;> simp [chars, Delimiter.opener, Delimiter.closer]

/-- No blank separates lexemes that can be told apart. -/
lemma IsLegible.ne_space (h : IsLegible ls) : ∀ c ∈ ls.flatMap chars, c ≠ ' ' := by
  induction ls with
  | nil => simp
  | cons l rest ih =>
    rw [List.flatMap_cons, List.forall_mem_append]
    exact ⟨h.1.ne_space, ih h.2.2⟩

/-- Lexemes that can be told apart are read back from the way they are written. -/
theorem scan_chars (h : IsLegible ls) : scan (ls.flatMap chars) = ls := by
  induction ls with
  | nil => simp [scan]
  | cons l rest ih =>
    obtain ⟨hplain, hfits, hrest⟩ := h
    rw [List.flatMap_cons]
    cases hplain with
    | word hc hcs =>
      have hends := hrest.endsWord (by simpa [fits] using hfits)
      simp [chars, Token.text, scan, first_word hc hcs hends, ih hrest]
    | numeral hc hcs =>
      have hends := hrest.endsWord (by simpa [fits] using hfits)
      simp [chars, Token.text, scan, first_numeral hc hcs hends, ih hrest]
    | sign hc isJoined =>
      obtain rfl : isJoined = startsSign rest := by simpa [fits] using hfits
      simp [chars, Token.text, scan, first_sign hc, hrest.startsWithSign, ih hrest]
    | opening d => simp [chars, scan, first_opening d hrest.head_ne_slash, ih hrest]
    | closing d => simp [chars, scan, first_closing d, ih hrest]

end

end Lexeme

/-! ## Pairing -/

namespace Tree

mutual

/-- The lexemes that a tree is written with. -/
def lexemes : Tree → List Lexeme
  | leaf token => [.token token]
  | group d inside => .opening d :: (lexemesOf inside ++ [.closing d])

/-- The lexemes that trees are written with, one after the other. -/
def lexemesOf : List Tree → List Lexeme
  | [] => []
  | t :: ts => t.lexemes ++ lexemesOf ts

end

lemma lexemesOf_eq_flatMap (ts : List Tree) : lexemesOf ts = ts.flatMap lexemes := by
  induction ts with
  | nil => rfl
  | cons t ts ih => rw [lexemesOf, ih, List.flatMap_cons]

lemma lexemesOf_append (ts us : List Tree) :
    lexemesOf (ts ++ us) = lexemesOf ts ++ lexemesOf us := by
  simp only [lexemesOf_eq_flatMap, List.flatMap_append]

lemma textOfList_append (ts us : List Tree) :
    textOfList (ts ++ us) = textOfList ts ++ textOfList us := by
  induction ts with
  | nil => simp [textOfList]
  | cons t ts ih => simp [textOfList, ih, String.append_assoc]

mutual

/-- The text of a tree is that of its lexemes. -/
lemma toList_text : ∀ t : Tree, t.text.toList = t.lexemes.flatMap Lexeme.chars
  | leaf token => by simp [text, lexemes, Lexeme.chars]
  | group d inside => by
    simp [text, lexemes, Lexeme.chars, Delimiter.enclose, toList_textOfList inside]

lemma toList_textOfList :
    ∀ ts : List Tree, (textOfList ts).toList = (lexemesOf ts).flatMap Lexeme.chars
  | [] => rfl
  | t :: ts => by simp [textOfList, lexemesOf, toList_text t, toList_textOfList ts]

end

/-! ### What was written is found -/

mutual

lemma foldlM_feed_lexemes : ∀ (t : Tree) (o : Open),
    t.lexemes.foldlM Open.feed o = some { o with inside := t :: o.inside }
  | leaf token, o => rfl
  | group d inside, o => by
    rw [lexemes, List.foldlM_cons]
    change (lexemesOf inside ++ [Lexeme.closing d]).foldlM Open.feed
      ⟨[], (d, o.inside) :: o.outer⟩ = _
    rw [List.foldlM_append, foldlM_feed_lexemesOf inside]
    simp [Open.feed]

lemma foldlM_feed_lexemesOf : ∀ (ts : List Tree) (o : Open),
    (lexemesOf ts).foldlM Open.feed o = some { o with inside := ts.reverse ++ o.inside }
  | [], o => rfl
  | t :: ts, o => by
    rw [lexemesOf, List.foldlM_append, foldlM_feed_lexemes t o]
    simp [foldlM_feed_lexemesOf ts]

end

/-! ### What is found was written -/

namespace Open

/-- The lexemes in front of what stands in the innermost of some open brackets. -/
def outerLexemes : List (Delimiter × List Tree) → List Lexeme
  | [] => []
  | (d, before) :: outer => outerLexemes outer ++ lexemesOf before.reverse ++ [.opening d]

/-- The lexemes that have been taken. -/
def lexemes (o : Open) : List Lexeme :=
  outerLexemes o.outer ++ lexemesOf o.inside.reverse

/-- Each step takes one lexeme and forgets none. -/
lemma lexemes_feed {o o' : Open} {l : Lexeme} (h : o.feed l = some o') :
    o'.lexemes = o.lexemes ++ [l] := by
  obtain ⟨inside, outer⟩ := o
  cases l with
  | token token =>
    obtain rfl : (⟨leaf token :: inside, outer⟩ : Open) = o' := by simpa [feed] using h
    simp [lexemes, lexemesOf_append, lexemesOf, Tree.lexemes]
  | opening d =>
    obtain rfl : (⟨[], (d, inside) :: outer⟩ : Open) = o' := by simpa [feed] using h
    simp [lexemes, outerLexemes, lexemesOf]
  | closing d =>
    match outer with
    | [] => simp [feed] at h
    | (e, before) :: outer =>
      obtain ⟨rfl, rfl⟩ : d = e ∧ (⟨group d inside.reverse :: before, outer⟩ : Open) = o' := by
        simpa [feed] using h
      simp [lexemes, outerLexemes, lexemesOf_append, lexemesOf, Tree.lexemes]

lemma lexemes_foldlM {ls : List Lexeme} {o o' : Open} (h : ls.foldlM feed o = some o') :
    o'.lexemes = o.lexemes ++ ls := by
  induction ls generalizing o with
  | nil =>
    obtain rfl : o = o' := by simpa using h
    rw [List.append_nil]
  | cons l rest ih =>
    rw [List.foldlM_cons] at h
    obtain ⟨next, hnext, hrest⟩ := Option.bind_eq_some_iff.mp h
    rw [ih hrest, lexemes_feed hnext, List.append_assoc, List.singleton_append]

end Open

/-- **Pairing brackets is the inverse of writing trees.**

Lexemes are paired to given trees exactly if the trees are written with these lexemes.  So there is
one way to pair brackets at most, and none is found where they cannot be paired. -/
theorem ofLexemes?_eq_some_iff {ls : List Lexeme} {ts : List Tree} :
    ofLexemes? ls = some ts ↔ lexemesOf ts = ls := by
  constructor
  · intro h
    obtain ⟨o, hfold, hend⟩ := Option.bind_eq_some_iff.mp h
    obtain ⟨houter, rfl⟩ : o.outer = [] ∧ o.inside.reverse = ts := by
      simpa [guard, Option.bind_eq_some_iff] using hend
    have hlexemes := Open.lexemes_foldlM hfold
    simpa [Open.lexemes, Open.outerLexemes, houter, lexemesOf] using hlexemes
  · rintro rfl
    simp [ofLexemes?, foldlM_feed_lexemesOf, guard]

/-- Trees of lexemes that can be told apart are read back from their text. -/
theorem ofText?_textOfList {ts : List Tree} (h : Lexeme.IsLegible (lexemesOf ts)) :
    ofText? (textOfList ts) = some ts := by
  rw [ofText?, toList_textOfList, Lexeme.scan_chars h, ofLexemes?_eq_some_iff]

end Tree

end MemoKey.Derive
