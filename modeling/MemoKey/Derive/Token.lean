import MemoKey.Text.Quoted

/-!
# Tokens of written declarations

A declaration is written with words, lifetimes, literals and signs, and with brackets around some
of them. Blanks and comments stand between them and mean nothing, with one exception: a comment
that documents what follows, or what it stands in, is another way to write an attribute.

A sign is a single character. It remembers whether another one follows it at once, because several
signs are longer than one character.

The rules for deriving do not take texts apart: they are given tokens by the compiler. The scanner
stands for this part of the compiler, since declarations come as texts here.

* `Token` is a token, `Token.text` the way it is written.
* `Lexeme` is a token or a bracket.
* `Lexeme.scan` takes a text apart. It goes on with what `Lexeme.first` leaves of the text, and
  that is less than there was.
-/

namespace MemoKey.Derive

/-- The smallest part of a declaration that means something. -/
inductive Token where
  /-- A name or a keyword. -/
  | word (text : String)
  /-- The name of a lifetime, with its mark. -/
  | lifetime (text : String)
  /-- A number, a character or a text. -/
  | literal (text : String)
  /-- A sign, and whether it is joined to the next one. -/
  | sign (char : Char) (isJoined : Bool)
  deriving DecidableEq, Inhabited

/-- How a token is written. -/
def Token.text : Token → String
  | .word text => text
  | .lifetime text => text
  | .literal text => text
  | .sign char _ => String.singleton char

/-- A pair of brackets. -/
inductive Delimiter where
  | parentheses
  | brackets
  | braces
  deriving DecidableEq, Inhabited

namespace Delimiter

/-- The opening bracket. -/
def opener : Delimiter → Char
  | parentheses => '('
  | brackets => '['
  | braces => '\x7b'

/-- The closing bracket. -/
def closer : Delimiter → Char
  | parentheses => ')'
  | brackets => ']'
  | braces => '\x7d'

/-- All pairs of brackets. -/
def all : List Delimiter :=
  [parentheses, brackets, braces]

/-- A text in brackets. -/
def enclose (d : Delimiter) (inside : String) : String :=
  String.singleton d.opener ++ inside ++ String.singleton d.closer

end Delimiter

/-- A token or a bracket. -/
inductive Lexeme where
  | token (token : Token)
  | opening (delimiter : Delimiter)
  | closing (delimiter : Delimiter)
  deriving DecidableEq, Inhabited

namespace Lexeme

/-! ## Characters -/

/-- The code points of blanks beyond the ASCII ones, the two direction marks among them. -/
def wideBlanks : List Nat :=
  [0x85, 0xA0, 0x1680, 0x2028, 0x2029, 0x202F, 0x205F, 0x3000, 0x200E, 0x200F]

/-- Whether a character separates tokens. -/
def isBlank (c : Char) : Bool :=
  c == ' ' || (9 ≤ c.toNat && c.toNat ≤ 13) || (0x2000 ≤ c.toNat && c.toNat ≤ 0x200A) ||
    wideBlanks.contains c.toNat

/-- Whether a character may stand in a word. Beyond ASCII all but the blanks may. -/
def isWordChar (c : Char) : Bool :=
  c.isAlphanum || c == '_' || (0x80 ≤ c.toNat && !isBlank c)

/-- Whether a character may start a word. -/
def isWordStart (c : Char) : Bool :=
  isWordChar c && !c.isDigit

/-- Whether a character may stand among the digits of a number. -/
def isDigitLike (c : Char) : Bool :=
  c.isDigit || c == '_'

/-- The characters that are signs. -/
def signs : List Char :=
  "~!@#$%^&*-=+|;:,<.>/?'".toList

/-- Whether a text starts with a sign that belongs to no comment. -/
def startsWithSign : List Char → Bool
  | '/' :: '/' :: _ => false
  | '/' :: '*' :: _ => false
  | c :: _ => signs.contains c
  | [] => false

/-! ## Lengths

How many characters a lexeme takes after the ones that it is told by. -/

/-- The rest of a word. -/
def wordLength (cs : List Char) : Nat :=
  (cs.takeWhile isWordChar).length

/-- The rest of a comment that is open `depth` times over, its end included. Comments nest. -/
def commentLength : Nat → List Char → Nat
  | 0, _ => 0
  | _ + 1, [] => 0
  | depth + 1, '*' :: '/' :: rest => commentLength depth rest + 2
  | depth + 1, '/' :: '*' :: rest => commentLength (depth + 2) rest + 2
  | depth + 1, _ :: rest => commentLength (depth + 1) rest + 1

/-- The rest of a quotation, its closing mark included. A backslash keeps the next character from
closing. -/
def quotationLength (mark : Char) : List Char → Nat
  | [] => 0
  | '\\' :: _ :: rest => quotationLength mark rest + 2
  | c :: rest => if c == mark then 1 else quotationLength mark rest + 1

/-- The rest of a raw quotation, which ends with a mark and a number of hashes. -/
def rawLength (hashes : Nat) : List Char → Nat
  | [] => 0
  | '"' :: rest =>
    if (rest.take hashes).length == hashes && (rest.take hashes).all (· == '#') then hashes + 1
    else rawLength hashes rest + 1
  | _ :: rest => rawLength hashes rest + 1

/-- The opening of a raw quotation and the quotation, if there is one. -/
def rawQuotationLength? (cs : List Char) : Option Nat :=
  let hashes := (cs.takeWhile (· == '#')).length
  match cs.drop hashes with
  | '"' :: rest => some (hashes + 1 + rawLength hashes rest)
  | _ => none

/-- The exponent of a number, if it has a sign. -/
def exponentLength : List Char → Nat
  | e :: rest =>
    let marks := (rest.takeWhile (· == '_')).length
    match rest.drop marks with
    | s :: more =>
      let digits := more.takeWhile isDigitLike
      if (e == 'e' || e == 'E') && (s == '+' || s == '-') && digits.any Char.isDigit then
        marks + 2 + digits.length
      else 0
    | [] => 0
  | [] => 0

/-- The point of a number and the digits after it. A point is one of a number only if neither
another point nor a word follows. -/
def fractionLength : List Char → Nat
  | '.' :: rest =>
    match rest with
    | c :: _ =>
      if c == '.' || isWordStart c then 0 else (rest.takeWhile isDigitLike).length + 1
    | [] => 1
  | _ => 0

/-- The rest of a number, with the word that may be appended to it. -/
def numberLength (cs : List Char) : Nat :=
  let whole := (cs.takeWhile isDigitLike).length
  let fraction := fractionLength (cs.drop whole)
  let exponent := exponentLength (cs.drop (whole + fraction))
  whole + fraction + exponent + wordLength (cs.drop (whole + fraction + exponent))

/-- The length of a literal that starts with a letter, if there is one: a raw text, or a text or a
character whose mark follows the letter. -/
def letteredLength? (c : Char) (rest : List Char) : Option Nat :=
  match c, rest with
  | 'r', _ => rawQuotationLength? rest
  | 'b', '"' :: more => some (quotationLength '"' more + 1)
  | 'c', '"' :: more => some (quotationLength '"' more + 1)
  | 'b', '\'' :: more => some (quotationLength '\'' more + 1)
  | 'b', 'r' :: more => (rawQuotationLength? more).map (· + 1)
  | 'c', 'r' :: more => (rawQuotationLength? more).map (· + 1)
  | _, _ => none

/-! ## Documentation -/

/-- Text between double quotes. The shortest escape of the null character is spelled out where the
digit after it would be read with it. -/
def quotedBody : List Char → List Char
  | '\x00' :: c :: rest =>
    (if '0' ≤ c && c ≤ '7' then ['\\', 'x', '0', '0'] else ['\\', '0']) ++ quotedBody (c :: rest)
  | c :: rest => Text.escape '"' c ++ quotedBody rest
  | [] => []

/-- The attribute that a documenting comment stands for. An inner one documents what it stands in.
-/
def documentation (isInner : Bool) (text : List Char) : List Lexeme :=
  [.token (.sign '#' false)] ++ (if isInner then [.token (.sign '!' false)] else []) ++
    [.opening .brackets, .token (.word "doc"), .token (.sign '=' false),
      .token (.literal (String.ofList ('"' :: quotedBody text ++ ['"']))), .closing .brackets]

/-- A line without the carriage return at its end. -/
def trimReturn (line : List Char) : List Char :=
  if line.getLast? == some '\r' then line.dropLast else line

/-- The attribute of a line and the length of the line. -/
def lineDocumentation (isInner : Bool) (rest : List Char) : List Lexeme × Nat :=
  let line := rest.takeWhile (· != '\n')
  (documentation isInner (trimReturn line), line.length)

/-- The attribute of a comment and its length, end included. -/
def blockDocumentation (isInner : Bool) (rest : List Char) : List Lexeme × Nat :=
  let length := commentLength 1 rest
  (documentation isInner (rest.take (length - 2)), length)

/-- What a comment stands for and how long it is, if one starts with a slash and the given
characters. Four slashes and three asterisks are plain comments again. -/
def comment? : List Char → Option (List Lexeme × Nat)
  | '/' :: '/' :: '/' :: rest => some ([], (rest.takeWhile (· != '\n')).length + 3)
  | '/' :: '/' :: rest => some ((lineDocumentation false rest).map id (· + 2))
  | '/' :: '!' :: rest => some ((lineDocumentation true rest).map id (· + 2))
  | '/' :: rest => some ([], (rest.takeWhile (· != '\n')).length + 1)
  | '*' :: '*' :: '/' :: _ => some ([], 3)
  | '*' :: '*' :: '*' :: rest => some ([], commentLength 1 ('*' :: '*' :: rest) + 1)
  | '*' :: '*' :: rest => some ((blockDocumentation false rest).map id (· + 2))
  | '*' :: '!' :: rest => some ((blockDocumentation true rest).map id (· + 2))
  | '*' :: rest => some ([], commentLength 1 rest + 1)
  | _ => none

/-! ## Scanning -/

/-- How a failure of an earlier expansion is written. It is read as a literal. -/
def failureMark : List Char :=
  "/*ERROR*/)".toList

/-- The lexeme of a token that goes on with a number of characters. -/
def made (make : String → Token) (c : Char) (rest : List Char) (length : Nat) :
    List Lexeme × Nat :=
  ([.token (make (String.ofList (c :: rest.take length)))], length)

/-- The lexeme of a literal that goes on with a number of characters and the word after them. -/
def literal (c : Char) (rest : List Char) (length : Nat) : List Lexeme × Nat :=
  made .literal c rest (length + wordLength (rest.drop length))

/-- What a mark of a character or a lifetime starts. -/
def marked (c : Char) (rest : List Char) : List Lexeme × Nat :=
  match rest with
  | '\\' :: _ => literal c rest (quotationLength '\'' rest)
  | _ :: '\'' :: _ => literal c rest 2
  | 'r' :: '#' :: more => made .lifetime c rest (wordLength more + 2)
  | _ => made .lifetime c rest (wordLength rest)

/-- What a letter starts. A raw name has two characters in front. -/
def lettered (c : Char) (rest : List Char) : List Lexeme × Nat :=
  match letteredLength? c rest with
  | some length => literal c rest length
  | none =>
    match c, rest with
    | 'r', '#' :: more => made .word c rest (wordLength more + 1)
    | _, _ => made .word c rest (wordLength rest)

/-- The lexemes that a text starts with, none for a blank or a comment, and how many characters
they take after the first. The text is given by its first character and the others. -/
def first (c : Char) (rest : List Char) : List Lexeme × Nat :=
  if isBlank c then ([], 0)
  else if c == '/' && (comment? rest).isSome then (comment? rest).getD ([], 0)
  else if c == '(' && failureMark.isPrefixOf rest then literal c rest failureMark.length
  else if c.isDigit then made .literal c rest (numberLength rest)
  else if c == '"' then literal c rest (quotationLength '"' rest)
  else if c == '\'' then marked c rest
  else if isWordChar c then lettered c rest
  else
    match Delimiter.all.find? (·.opener == c), Delimiter.all.find? (·.closer == c) with
    | some d, _ => ([.opening d], 0)
    | none, some d => ([.closing d], 0)
    | none, none => ([.token (.sign c (startsWithSign rest))], 0)

/-- The lexemes of a text. -/
def scan : List Char → List Lexeme
  | [] => []
  | c :: rest => (first c rest).1 ++ scan (rest.drop (first c rest).2)
termination_by cs => cs.length
decreasing_by
  simp only [List.length_drop, List.length_cons]
  omega

end Lexeme

end MemoKey.Derive
