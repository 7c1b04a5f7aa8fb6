import MemoKey.Text.Unprinted

/-!
# Quoted text

Inspection shows characters and texts between quotes, with everything escaped that would not be
seen or would end the quotation. The quote that encloses is escaped and the other one is not.

* `Text.escape` is the escape of one character within given quotes.
* `Text.quote` and `Text.quoteChar` show a text between double and a character between single
  quotes.
-/

namespace MemoKey.Text

/-- The hexadecimal digits of a number, in lower case and without leading zeros. -/
def hexDigits (n : Nat) : List Char :=
  Nat.toDigits 16 n

/-- How a character is shown between a pair of quotes: the usual short escapes first, then the
code point in braces for a character without a shape of its own. -/
def escape (quotes c : Char) : List Char :=
  if c == '\x00' then ['\\', '0']
  else if c == '\t' then ['\\', 't']
  else if c == '\n' then ['\\', 'n']
  else if c == '\r' then ['\\', 'r']
  else if c == quotes || c == '\\' then ['\\', c]
  else if isUnprinted c then ['\\', 'u', '\x7b'] ++ hexDigits c.toNat ++ ['\x7d']
  else [c]

/-- A text between double quotes. -/
def quote (text : String) : String :=
  String.ofList ('"' :: text.toList.flatMap (escape '"') ++ ['"'])

/-- A character between single quotes. -/
def quoteChar (c : Char) : String :=
  String.ofList ('\'' :: escape '\'' c ++ ['\''])

end MemoKey.Text
