import MemoKey.Opaque.Lawful
import MemoKey.Opaque.SipHash
import MemoKey.Text.Quoted

/-!
# Plain data as opaque values

A `Datum` is a value of one of the plain types that are compared as a whole: integers, truth
values, characters, texts, byte strings, lists of texts, pairs and options. Data of different
types are never equal. The hash is the SipHash digest of a byte encoding in which every part of
variable length is delimited, so parts cannot run into each other.

* `Datum.encode` is the byte encoding.
* `Datum.inspect` shows a datum.
-/

namespace MemoKey

/-- A value of a plain type. -/
inductive Datum where
  | int64 (value : Int64)
  | int32 (value : Int32)
  | uint32 (value : UInt32)
  | uint8 (value : UInt8)
  | bool (value : Bool)
  | char (value : Char)
  | text (value : String)
  | unit
  | bytes (value : List UInt8)
  | texts (value : List String)
  | pair (first : Int64) (second : String)
  | option (value : Option Int64)
  deriving DecidableEq, Inhabited

namespace Datum

/-- The bytes of a word, lowest byte first. -/
def littleEndian (count : Nat) (word : UInt64) : List UInt8 :=
  (List.range count).map fun i => (word >>> UInt64.ofNat (8 * i)).toUInt8

/-- A text as its UTF-8 bytes and a byte that occurs in no UTF-8. -/
def encodeText (text : String) : List UInt8 :=
  text.toUTF8.toList ++ [0xff]

/-- The byte encoding of a datum. A list is preceded by its length. -/
def encode : Datum → List UInt8
  | int64 value => littleEndian 8 value.toUInt64
  | int32 value => littleEndian 4 value.toUInt32.toUInt64
  | uint32 value => littleEndian 4 value.toUInt64
  | uint8 value => [value]
  | bool value => [value.toUInt8]
  | char value => littleEndian 4 value.val.toUInt64
  | text value => encodeText value
  | unit => []
  | bytes value => littleEndian 8 (UInt64.ofNat value.length) ++ value
  | texts value => littleEndian 8 (UInt64.ofNat value.length) ++ value.flatMap encodeText
  | pair first second => littleEndian 8 first.toUInt64 ++ encodeText second
  | option none => littleEndian 8 0
  | option (some value) => littleEndian 8 1 ++ littleEndian 8 value.toUInt64

/-- The hash of a datum: its digest under the zero key. -/
def hash (datum : Datum) : Hash :=
  (SipHash.digest 0 0 datum.encode).toInt64

/-- Shown parts in brackets. -/
def inspectList (parts : List String) : String :=
  "[" ++ ", ".intercalate parts ++ "]"

/-- How a datum is shown. -/
def inspect : Datum → String
  | int64 value => toString value
  | int32 value => toString value
  | uint32 value => toString value
  | uint8 value => toString value
  | bool value => toString value
  | char value => Text.quoteChar value
  | text value => Text.quote value
  | unit => "()"
  | bytes value => inspectList (value.map toString)
  | texts value => inspectList (value.map Text.quote)
  | pair first second => "(" ++ toString first ++ ", " ++ Text.quote second ++ ")"
  | option none => "None"
  | option (some value) => "Some(" ++ toString value ++ ")"

instance : OpaqueValue Datum where
  same a b := a == b
  hash := hash
  inspect := inspect

instance : LawfulOpaqueValue Datum where
  same_refl a := beq_self_eq_true a
  same_symm h := beq_iff_eq.mpr (beq_iff_eq.mp h).symm
  same_trans h h' := beq_iff_eq.mpr ((beq_iff_eq.mp h).trans (beq_iff_eq.mp h'))
  hash_eq_of_same h := congrArg hash (beq_iff_eq.mp h)

end Datum

end MemoKey
