import MemoKey.Text.Units

/-!
# Reading UTF-16 code units

A list of code units is a text if every high surrogate is followed by a low one and no low
surrogate stands elsewhere.

* `Text.charsOfUnits?` and `Text.ofUnits?` read code units.
-/

namespace MemoKey.Text

/-- Whether a code unit is the first half of a pair. -/
def isHighSurrogate (unit : UInt16) : Bool :=
  0xD800 ≤ unit && unit < 0xDC00

/-- Whether a code unit is the second half of a pair. -/
def isLowSurrogate (unit : UInt16) : Bool :=
  0xDC00 ≤ unit && unit < 0xE000

/-- The character of a pair of surrogates. -/
def joinPair (high low : UInt16) : Char :=
  Char.ofNat (0x10000 + (high.toNat - 0xD800) * 0x400 + (low.toNat - 0xDC00))

/-- The characters of a list of code units, unless a surrogate stands alone. -/
def charsOfUnits? : List UInt16 → Option (List Char)
  | [] => some []
  | [unit] =>
    if isHighSurrogate unit || isLowSurrogate unit then none else some [Char.ofNat unit.toNat]
  | unit :: next :: rest =>
    if isLowSurrogate unit then none
    else if isHighSurrogate unit then
      if isLowSurrogate next then (charsOfUnits? rest).map (joinPair unit next :: ·) else none
    else (charsOfUnits? (next :: rest)).map (Char.ofNat unit.toNat :: ·)

/-- The text of a list of code units, unless a surrogate stands alone. -/
def ofUnits? (units : List UInt16) : Option String :=
  (charsOfUnits? units).map String.ofList

end MemoKey.Text
