import MemoKey.Derive.Grammar.Rule
import MemoKey.Proofs.Scanning

/-!
# Types in writing

Deriving gets the type of a field in writing.  `PlainType` are the types that are written with
names, generic arguments, slices, arrays and tuples, at any depth.

* `PlainName` is a name that means nothing else in the grammar.
* `PlainType.text` is how a type is written, `PlainType.trees` are the trees of its text.
* `PlainType.ofLexemes?_scan_text` says that scanning and pairing lead from the text to the trees.
* `PlainType.depth` is how deep a type is nested.
-/

namespace MemoKey.Derive

open Derive.Tree

/-! ## Types in writing -/

/-- The words that do not stand for a type or a segment by themselves. -/
def reservedWords : List String :=
  "dyn" :: "try" :: keywords

/-- A name that means nothing else in the grammar. -/
structure PlainName where
  /-- How the name is written. -/
  text : String
  /-- The name is a word. -/
  isWord : (Lexeme.token (.word text)).IsPlain
  /-- The grammar has no other use for it. -/
  isFree : text ∉ reservedWords

/-- A type that is written with names, brackets and commas. -/
inductive PlainType where
  /-- A path, whose last segment may have arguments. -/
  | path (first : PlainName) (further : List PlainName) (arguments : List PlainType)
  /-- A slice. -/
  | slice (item : PlainType)
  /-- An array of a length that is written as a number. -/
  | array (item : PlainType) (length : Nat)
  /-- A tuple of one component at least. -/
  | tuple (first : PlainType) (rest : List PlainType)

namespace PlainType

/-- How generic arguments are written. -/
def angled (texts : List String) : String :=
  if texts.isEmpty then "" else "<" ++ ",".intercalate texts ++ ">"

mutual

/-- How a type is written. -/
def text : PlainType → String
  | path first further arguments =>
    "::".intercalate ((first :: further).map (·.text)) ++ angled (textsOf arguments)
  | slice item => Delimiter.brackets.enclose item.text
  | array item length => Delimiter.brackets.enclose (item.text ++ ";" ++ toString length)
  | tuple first rest =>
    Delimiter.parentheses.enclose (first.text ++ "," ++ ",".intercalate (textsOf rest))

/-- How types are written. -/
def textsOf : List PlainType → List String
  | [] => []
  | t :: ts => t.text :: textsOf ts

end

/-- The last name of a path. -/
def lastName? : PlainType → Option String
  | path first further _ => some (((first :: further).getLast nofun).text)
  | _ => none

/-! ## The trees of a type -/

/-- The double colon between two names. -/
def colons : List Tree :=
  [leaf (.sign ':' true), leaf (.sign ':' false)]

/-- The trees of names with double colons between them. -/
def nameTrees (first : PlainName) (further : List PlainName) : List Tree :=
  leaf (.word first.text) :: further.flatMap fun n => colons ++ [leaf (.word n.text)]

/-- The comma behind a type, if another one follows. -/
def commaBefore (rest : List PlainType) : List Tree :=
  if rest.isEmpty then [] else [leaf (.sign ',' false)]

mutual

/-- The trees of a type in writing, for whether a sign follows. -/
def trees (follows : Bool) : PlainType → List Tree
  | path first further arguments =>
    nameTrees first further ++
      if arguments.isEmpty then []
      else leaf (.sign '<' false) :: (treesOf true arguments ++ [leaf (.sign '>' follows)])
  | slice item => [group .brackets (item.trees false)]
  | array item length =>
    [group .brackets
      (item.trees true ++ [leaf (.sign ';' false), leaf (.literal (toString length))])]
  | tuple first rest =>
    [group .parentheses (first.trees true ++ leaf (.sign ',' false) :: treesOf false rest)]

/-- The trees of types with commas between them, for whether a sign follows. -/
def treesOf (follows : Bool) : List PlainType → List Tree
  | [] => []
  | t :: ts => t.trees (follows || !ts.isEmpty) ++ commaBefore ts ++ treesOf follows ts

end

/-! ### The trees are those of the text -/

lemma textOfList_nameTrees (first : PlainName) (further : List PlainName) :
    textOfList (nameTrees first further) = "::".intercalate ((first :: further).map (·.text)) := by
  induction further generalizing first with
  | nil => simp [nameTrees, textOfList, Tree.text, Token.text]
  | cons n ns ih =>
    have htail : textOfList (nameTrees first (n :: ns)) =
        first.text ++ "::" ++ textOfList (nameTrees n ns) := by
      have hcolons : textOfList colons = "::" := by decide
      simp [nameTrees, textOfList, textOfList_append, Tree.text, Token.text, hcolons,
        String.append_assoc]
    rw [htail, ih]
    exact String.intercalate_cons_cons.symm

mutual

lemma textOfList_trees : ∀ (t : PlainType) (follows : Bool), textOfList (t.trees follows) = t.text
  | path first further arguments, follows => by
    rw [trees, textOfList_append, textOfList_nameTrees, text]
    cases arguments with
    | nil => rfl
    | cons t ts =>
      have harguments : textOfList (treesOf true (t :: ts)) = _ := textOfList_treesOf (t :: ts) true
      simp [angled, textsOf, textOfList, textOfList_append, Tree.text, Token.text, harguments,
        String.append_assoc]
  | slice item, follows => by
    simp [trees, text, textOfList, Tree.text, textOfList_trees item]
  | array item length, follows => by
    simp [trees, text, textOfList, Tree.text, Token.text, textOfList_append, textOfList_trees item,
      String.append_assoc]
  | tuple first rest, follows => by
    simp [trees, text, textOfList, Tree.text, Token.text, textOfList_append,
      textOfList_trees first, textOfList_treesOf rest, String.append_assoc]

lemma textOfList_treesOf : ∀ (ts : List PlainType) (follows : Bool),
    textOfList (treesOf follows ts) = ",".intercalate (textsOf ts)
  | [], follows => by simp [treesOf, textsOf, textOfList]
  | t :: ts, follows => by
    rw [treesOf, textOfList_append, textOfList_append, textOfList_trees t, textOfList_treesOf ts]
    cases ts with
    | nil => simp [commaBefore, textsOf, textOfList]
    | cons u ts =>
      simp [commaBefore, textsOf, textOfList, Tree.text, Token.text]

end

/-! ### The trees can be told apart in the text -/

open Lexeme

/-- A number is written with digits. -/
lemma exists_digits (n : Nat) : ∃ c cs, toString n = String.ofList (c :: cs) ∧
    c.isDigit = true ∧ ∀ d ∈ cs, d.isDigit = true := by
  have hdigits (c : Char) (hc : c ∈ Nat.toDigits 10 n) : c.isDigit = true :=
    Nat.isDigit_of_mem_toDigits (by decide) (by decide) hc
  obtain ⟨c, cs, hn⟩ := List.exists_cons_of_ne_nil (Nat.toDigits_ne_nil (n := n) (b := 10))
  rw [hn] at hdigits
  refine ⟨c, cs, ?_, hdigits c List.mem_cons_self,
    fun d hd => hdigits d (List.mem_cons_of_mem c hd)⟩
  rw [← hn]
  exact Nat.repr_eq_ofList_toDigits

lemma isKnownLiteral_toString (n : Nat) : isKnownLiteral (toString n) = true := by
  obtain ⟨c, cs, htext, hc, -⟩ := exists_digits n
  have hne : c ≠ 'c' := by
    rintro rfl
    exact absurd hc (by decide)
  simpa [isKnownLiteral, htext] using hne

lemma isPlain_toString (n : Nat) : (token (.literal (toString n))).IsPlain := by
  obtain ⟨c, cs, htext, hc, hcs⟩ := exists_digits n
  rw [htext]
  exact .numeral hc hcs

section

variable {rest : List Lexeme}

/-- A type starts with a name or a bracket. -/
lemma startsSign_trees (t : PlainType) (follows : Bool) (rest : List Lexeme) :
    startsSign (lexemesOf (t.trees follows) ++ rest) = false := by
  cases t <;> rfl

lemma startsSign_treesOf (ts : List PlainType) (follows : Bool)
    (h : ts = [] → startsSign rest = false) :
    startsSign (lexemesOf (treesOf follows ts) ++ rest) = false := by
  cases ts with
  | nil => exact h rfl
  | cons t ts =>
    rw [treesOf, lexemesOf_append, lexemesOf_append, List.append_assoc, List.append_assoc]
    exact startsSign_trees t _ _

lemma lexemesOf_group (d : Delimiter) (inside : List Tree) :
    lexemesOf [group d inside] ++ rest =
      opening d :: (lexemesOf inside ++ closing d :: rest) := by
  simp [lexemesOf, Tree.lexemes]

lemma isLegible_nameTrees (first : PlainName) (further : List PlainName) (h : IsLegible rest)
    (hword : startsWord rest = false) :
    IsLegible (lexemesOf (nameTrees first further) ++ rest) := by
  induction further generalizing first with
  | nil =>
    change IsLegible (token (.word first.text) :: rest)
    exact (isLegible_word first.isWord).mpr ⟨hword, h⟩
  | cons n ns ih =>
    change IsLegible (token (.word first.text) :: token (.sign ':' true) ::
      token (.sign ':' false) :: (lexemesOf (nameTrees n ns) ++ rest))
    have hcolon : ':' ∈ plainSigns := by decide
    exact (isLegible_word first.isWord).mpr ⟨rfl,
      (isLegible_sign hcolon).mpr ⟨rfl, (isLegible_sign hcolon).mpr ⟨rfl, ih n⟩⟩⟩

mutual

lemma isLegible_trees : ∀ (t : PlainType) (follows : Bool) {rest : List Lexeme}, IsLegible rest →
    startsSign rest = follows → startsWord rest = false →
    IsLegible (lexemesOf (t.trees follows) ++ rest)
  | path first further [], follows, rest, h, _, hword => by
    rw [trees, List.isEmpty_nil, if_pos rfl, List.append_nil]
    exact isLegible_nameTrees first further h hword
  | path first further (t :: ts), follows, rest, h, hsign, _ => by
    have hcloser : IsLegible (token (.sign '>' follows) :: rest) :=
      (isLegible_sign (by decide)).mpr ⟨hsign.symm, h⟩
    have harguments := isLegible_treesOf (t :: ts) true hcloser rfl rfl
    have hopener : IsLegible (token (.sign '<' false) ::
        (lexemesOf (treesOf true (t :: ts)) ++ token (.sign '>' follows) :: rest)) :=
      (isLegible_sign (by decide)).mpr ⟨(startsSign_treesOf (t :: ts) true nofun).symm, harguments⟩
    have hall := isLegible_nameTrees first further hopener rfl
    simpa [trees, lexemesOf_append, lexemesOf, Tree.lexemes] using hall
  | slice item, follows, rest, h, _, _ => by
    rw [trees, lexemesOf_group, isLegible_opening]
    exact isLegible_trees item false ((isLegible_closing _).mpr h) rfl rfl
  | array item length, follows, rest, h, _, _ => by
    have hlength : IsLegible (token (.sign ';' false) :: token (.literal (toString length)) ::
        closing .brackets :: rest) :=
      (isLegible_sign (by decide)).mpr ⟨rfl, (isLegible_literal (isPlain_toString length)).mpr
        ⟨rfl, (isLegible_closing _).mpr h⟩⟩
    have hitem := isLegible_trees item true hlength rfl rfl
    rw [trees, lexemesOf_group, isLegible_opening]
    simpa [lexemesOf_append, lexemesOf, Tree.lexemes] using hitem
  | tuple first others, follows, rest, h, _, _ => by
    have hothers := isLegible_treesOf others false ((isLegible_closing .parentheses).mpr h) rfl rfl
    have hcomma : IsLegible (token (.sign ',' false) ::
        (lexemesOf (treesOf false others) ++ closing .parentheses :: rest)) :=
      (isLegible_sign (by decide)).mpr
        ⟨(startsSign_treesOf others false fun _ => rfl).symm, hothers⟩
    have hfirst := isLegible_trees first true hcomma rfl rfl
    rw [trees, lexemesOf_group, isLegible_opening]
    simpa [lexemesOf_append, lexemesOf, Tree.lexemes] using hfirst

lemma isLegible_treesOf : ∀ (ts : List PlainType) (follows : Bool) {rest : List Lexeme},
    IsLegible rest → startsSign rest = follows → startsWord rest = false →
    IsLegible (lexemesOf (treesOf follows ts) ++ rest)
  | [], follows, rest, h, _, _ => h
  | [t], follows, rest, h, hsign, hword => by
    have ht := isLegible_trees t follows h hsign hword
    simpa [treesOf, commaBefore, lexemesOf_append, lexemesOf] using ht
  | t :: u :: ts, follows, rest, h, hsign, hword => by
    have hrest := isLegible_treesOf (u :: ts) follows h hsign hword
    have hcomma : IsLegible (token (.sign ',' false) ::
        (lexemesOf (treesOf follows (u :: ts)) ++ rest)) :=
      (isLegible_sign (by decide)).mpr
        ⟨(startsSign_treesOf (u :: ts) follows nofun).symm, hrest⟩
    have ht := isLegible_trees t true hcomma rfl rfl
    rw [treesOf, lexemesOf_append, lexemesOf_append]
    simpa [commaBefore, lexemesOf, Tree.lexemes] using ht

end

lemma isLegible_lexemes (t : PlainType) : IsLegible (lexemesOf (t.trees false)) := by
  have h : IsLegible (lexemesOf (t.trees false) ++ []) := isLegible_trees t false trivial rfl rfl
  rwa [List.append_nil] at h

lemma toList_text (t : PlainType) :
    t.text.toList = (lexemesOf (t.trees false)).flatMap Lexeme.chars := by
  rw [← textOfList_trees t false, toList_textOfList]

lemma ne_space (t : PlainType) : ∀ c ∈ t.text.toList, c ≠ ' ' := by
  rw [toList_text]
  exact t.isLegible_lexemes.ne_space

/-- The text of a type is scanned and paired to the trees of the type. -/
lemma ofLexemes?_scan_text (t : PlainType) :
    Lexeme.scan t.text.toList = lexemesOf (t.trees false) ∧
      Tree.ofLexemes? (Lexeme.scan t.text.toList) = some (t.trees false) := by
  have hscan : Lexeme.scan t.text.toList = lexemesOf (t.trees false) := by
    rw [toList_text, scan_chars t.isLegible_lexemes]
  exact ⟨hscan, by rw [hscan, ofLexemes?_eq_some_iff]⟩

end

/-! ### Depth -/

mutual

/-- How deep types are nested. -/
def depth : PlainType → Nat
  | path _ _ arguments => depthOf arguments + 1
  | slice item => item.depth + 1
  | array item _ => item.depth + 1
  | tuple first rest => max first.depth (depthOf rest) + 1

/-- How deep the deepest of some types is. -/
def depthOf : List PlainType → Nat
  | [] => 0
  | t :: ts => max t.depth (depthOf ts)

end

lemma one_le_depth (t : PlainType) : 1 ≤ t.depth := by
  cases t <;> simp [depth]

mutual

/-- A type takes a lexeme for each level of nesting. -/
lemma depth_le : ∀ (t : PlainType) (follows : Bool), t.depth ≤ (lexemesOf (t.trees follows)).length
  | path first further arguments, follows => by
    have hfirst : 1 ≤ (lexemesOf (nameTrees first further)).length := by
      simp [nameTrees, lexemesOf, Tree.lexemes]
    rw [depth, trees, lexemesOf_append, List.length_append]
    cases arguments with
    | nil => simpa [depthOf] using Nat.le_trans hfirst (Nat.le_add_right _ _)
    | cons t ts =>
      have hts := depthOf_le (t :: ts) true
      rw [List.isEmpty_cons, if_neg nofun, lexemesOf, lexemesOf_append, List.length_append,
        List.length_append]
      omega
  | slice item, follows => by
    have hitem := depth_le item false
    simp only [depth, trees, lexemesOf, Tree.lexemes, List.length_append, List.length_cons]
    omega
  | array item length, follows => by
    have hitem := depth_le item true
    simp only [depth, trees, lexemesOf, Tree.lexemes, lexemesOf_append, List.length_append,
      List.length_cons]
    omega
  | tuple first rest, follows => by
    have hfirst := depth_le first true
    have hrest := depthOf_le rest false
    simp only [depth, trees, lexemesOf, Tree.lexemes, lexemesOf_append, List.length_append,
      List.length_cons]
    omega

lemma depthOf_le : ∀ (ts : List PlainType) (follows : Bool),
    depthOf ts ≤ (lexemesOf (treesOf follows ts)).length
  | [], _ => Nat.zero_le _
  | t :: ts, follows => by
    have ht := depth_le t (follows || !ts.isEmpty)
    have hts := depthOf_le ts follows
    rw [depthOf, treesOf, lexemesOf_append, lexemesOf_append, List.length_append,
      List.length_append]
    omega

end

end PlainType

end MemoKey.Derive
