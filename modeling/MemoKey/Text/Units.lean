import MemoKey.Hash

/-!
# UTF-16 code units

Text is hashed by its UTF-16 code units: a character of the basic plane is one unit, any other
character two. The polynomial is that of `Hash.step`, but its accumulator is 32 bits wide and is
sign-extended only at the end, so a text hash always fits in 32 bits.

* `Text.units` lists the code units of a text.
* `Text.hash` is the hash of a text.
-/

namespace MemoKey.Text

/-- The UTF-16 code units of one character: the character itself in the basic plane, and a high
and a low surrogate, ten bits each, above it. -/
def unitsOfChar (c : Char) : List UInt16 :=
  if c.toNat < 0x10000 then [UInt16.ofNat c.toNat]
  else
    let offset := c.toNat - 0x10000
    [UInt16.ofNat (0xD800 + offset / 0x400), UInt16.ofNat (0xDC00 + offset % 0x400)]

/-- The UTF-16 code units of a text, in order. -/
def units (text : String) : List UInt16 :=
  text.toList.flatMap unitsOfChar

@[simp] theorem units_empty : units "" = [] := rfl

@[simp] theorem units_append (s t : String) : units (s ++ t) = units s ++ units t := by
  simp [units]

/-- Takes one code unit into a 32-bit accumulator. -/
def stepUnit (acc : Int32) (unit : UInt16) : Int32 :=
  acc * 31 + unit.toUInt32.toInt32

/-- The hash of a text: a 32-bit polynomial over its code units, starting at zero. -/
def hash (text : String) : Hash :=
  ((units text).foldl stepUnit 0).toInt64

end MemoKey.Text
