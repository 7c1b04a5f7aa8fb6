import MemoKey.Text.Units

/-!
# Documents

Configurations are read from documents in JSON. The grammar is the strict one: blanks are spaces,
tabs and line ends, numbers have no needless zeros and no lone point, control characters in strings
are escaped, and no comma follows a last item.

Strings are kept as UTF-16 code units, since an escape may stand for half a character; whether a
string is a text is asked only where it matters. What a number is does not matter at all.

* `Document` is the tree of a document.
* `Document.parse?` reads a text to its end.
-/

namespace MemoKey

/-- The tree of a document. -/
inductive Document where
  | null
  | bool (value : Bool)
  | number
  | string (units : List UInt16)
  | array (items : List Document)
  | object (members : List (List UInt16 × Document))
  deriving Inhabited

namespace Document

/-! ## Blanks and numbers -/

/-- Whether a character may stand between tokens. -/
def isBlank (c : Char) : Bool :=
  c == ' ' || c == '\t' || c == '\n' || c == '\r'

/-- What is left after blanks. -/
def skipBlanks (cs : List Char) : List Char :=
  cs.dropWhile isBlank

/-- What is left after one digit or more. -/
def skipDigits? : List Char → Option (List Char)
  | c :: rest => if c.isDigit then some (rest.dropWhile Char.isDigit) else none
  | [] => none

/-- What is left after the whole part of a number: a zero alone, or digits that start with
another one. -/
def skipWhole? : List Char → Option (List Char)
  | '0' :: c :: rest => if c.isDigit then none else some (c :: rest)
  | cs => skipDigits? cs

/-- What is left after the fraction of a number, if there is one. -/
def skipFraction? : List Char → Option (List Char)
  | '.' :: rest => skipDigits? rest
  | cs => some cs

/-- What is left after the sign of an exponent, if there is one. -/
def skipSign : List Char → List Char
  | '+' :: rest => rest
  | '-' :: rest => rest
  | cs => cs

/-- What is left after the exponent of a number, if there is one. -/
def skipExponent? : List Char → Option (List Char)
  | 'e' :: rest => skipDigits? (skipSign rest)
  | 'E' :: rest => skipDigits? (skipSign rest)
  | cs => some cs

/-- What is left after a number. -/
def skipNumber? (cs : List Char) : Option (List Char) :=
  let unsigned :=
    match cs with
    | '-' :: rest => rest
    | cs => cs
  skipWhole? unsigned >>= skipFraction? >>= skipExponent?

/-! ## Strings -/

/-- The value of a hexadecimal digit. -/
def hexValue? (c : Char) : Option Nat :=
  if c.isDigit then some (c.toNat - '0'.toNat)
  else if 'a' ≤ c && c ≤ 'f' then some (c.toNat - 'a'.toNat + 10)
  else if 'A' ≤ c && c ≤ 'F' then some (c.toNat - 'A'.toNat + 10)
  else none

/-- The code unit of four hexadecimal digits. -/
def hexUnit? (a b c d : Char) : Option UInt16 := do
  return UInt16.ofNat
    ((((← hexValue? a) * 16 + (← hexValue? b)) * 16 + (← hexValue? c)) * 16 + (← hexValue? d))

/-- The character of a short escape. -/
def shortEscape? (c : Char) : Option Char :=
  [('"', '"'), ('\\', '\\'), ('/', '/'), ('b', '\x08'), ('f', '\x0c'), ('n', '\n'), ('r', '\r'),
    ('t', '\t')].lookup c

/-- The code units of a string up to its closing quote, and what is left after it. -/
def string? : List Char → Option (List UInt16 × List Char)
  | [] => none
  | '"' :: rest => some ([], rest)
  | '\\' :: 'u' :: a :: b :: c :: d :: rest => do
    let unit ← hexUnit? a b c d
    let (units, rest) ← string? rest
    return (unit :: units, rest)
  | '\\' :: c :: rest => do
    let escaped ← shortEscape? c
    let (units, rest) ← string? rest
    return (Text.unitsOfChar escaped ++ units, rest)
  | c :: rest =>
    if c.toNat < 0x20 || c == '\\' then none
    else do
      let (units, rest) ← string? rest
      return (Text.unitsOfChar c ++ units, rest)

/-! ## Values -/

mutual

/-- A value and what is left after it. Each step takes at least one character, so `fuel` may be the
number of characters. -/
def value? (fuel : Nat) (cs : List Char) : Option (Document × List Char) :=
  match fuel with
  | 0 => none
  | fuel + 1 =>
    match skipBlanks cs with
    | 'n' :: 'u' :: 'l' :: 'l' :: rest => some (null, rest)
    | 't' :: 'r' :: 'u' :: 'e' :: rest => some (bool true, rest)
    | 'f' :: 'a' :: 'l' :: 's' :: 'e' :: rest => some (bool false, rest)
    | '"' :: rest => (string? rest).map fun (units, rest) => (string units, rest)
    | '[' :: rest =>
      match skipBlanks rest with
      | ']' :: rest => some (array [], rest)
      | rest => (items? fuel rest).map fun (items, rest) => (array items, rest)
    | '\x7b' :: rest =>
      match skipBlanks rest with
      | '\x7d' :: rest => some (object [], rest)
      | rest => (members? fuel rest).map fun (members, rest) => (object members, rest)
    | cs => (skipNumber? cs).map fun rest => (number, rest)

/-- One item or more up to a closing bracket, and what is left after it. -/
def items? (fuel : Nat) (cs : List Char) : Option (List Document × List Char) :=
  match fuel with
  | 0 => none
  | fuel + 1 => do
    let (item, rest) ← value? fuel cs
    match skipBlanks rest with
    | ',' :: rest =>
      let (items, rest) ← items? fuel rest
      return (item :: items, rest)
    | ']' :: rest => return ([item], rest)
    | _ => none

/-- One member or more up to a closing brace, and what is left after it. -/
def members? (fuel : Nat) (cs : List Char) : Option (List (List UInt16 × Document) × List Char) :=
  match fuel with
  | 0 => none
  | fuel + 1 =>
    match skipBlanks cs with
    | '"' :: rest => do
      let (key, rest) ← string? rest
      match skipBlanks rest with
      | ':' :: rest =>
        let (value, rest) ← value? fuel rest
        match skipBlanks rest with
        | ',' :: rest =>
          let (members, rest) ← members? fuel rest
          return ((key, value) :: members, rest)
        | '\x7d' :: rest => return ([(key, value)], rest)
        | _ => none
      | _ => none
    | _ => none

end

/-- The document that a text is, with nothing but blanks after it. -/
def parse? (text : String) : Option Document :=
  let cs := text.toList
  match value? (cs.length + 1) cs with
  | some (document, rest) => if (skipBlanks rest).isEmpty then some document else none
  | none => none

end Document

end MemoKey
