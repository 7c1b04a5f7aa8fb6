/-!
# SipHash with one compression and three finalization rounds

SipHash digests a list of bytes under a 128-bit key. The bytes are taken eight at a time as
little-endian words; the last word is filled up with zeros and carries the length of the input in
its highest byte.

* `SipHash.digest` is the digest under a given key, with one round for each word and three at the
  end.
-/

namespace MemoKey.SipHash

/-- The four words of the state. -/
structure State where
  v0 : UInt64
  v1 : UInt64
  v2 : UInt64
  v3 : UInt64

/-- A word rotated to the left. -/
def rotateLeft (word : UInt64) (amount : UInt64) : UInt64 :=
  word <<< amount ||| word >>> (64 - amount)

/-- One round: two half rounds on pairs of words, crossed over. -/
def round (s : State) : State :=
  let v0 := s.v0 + s.v1
  let v1 := rotateLeft s.v1 13 ^^^ v0
  let v0 := rotateLeft v0 32
  let v2 := s.v2 + s.v3
  let v3 := rotateLeft s.v3 16 ^^^ v2
  let v0 := v0 + v3
  let v3 := rotateLeft v3 21 ^^^ v0
  let v2 := v2 + v1
  let v1 := rotateLeft v1 17 ^^^ v2
  let v2 := rotateLeft v2 32
  ⟨v0, v1, v2, v3⟩

/-- The state before any input: the key, masked with the letters of `somepseudorandomlygeneratedbytes`
in groups of eight. -/
def start (key0 key1 : UInt64) : State :=
  ⟨key0 ^^^ 0x736f6d6570736575, key1 ^^^ 0x646f72616e646f6d,
    key0 ^^^ 0x6c7967656e657261, key1 ^^^ 0x7465646279746573⟩

/-- Takes one word of input into the state. -/
def compress (s : State) (word : UInt64) : State :=
  let s := round { s with v3 := s.v3 ^^^ word }
  { s with v0 := s.v0 ^^^ word }

/-- The digest that a state ends in. -/
def finish (s : State) : UInt64 :=
  let s := round (round (round { s with v2 := s.v2 ^^^ 0xff }))
  s.v0 ^^^ s.v1 ^^^ s.v2 ^^^ s.v3

/-- The eight bytes from a position on as a little-endian word, with zeros past the end. -/
def wordAt (bytes : Array UInt8) (position : Nat) : UInt64 :=
  (List.range 8).foldr (fun i word => word <<< 8 ||| (bytes.getD (position + i) 0).toUInt64) 0

/-- The words of an input: its full groups of eight bytes, then what is left with the length of
the input on top. -/
def words (bytes : Array UInt8) : List UInt64 :=
  let full := bytes.size / 8
  (List.range full).map (fun i => wordAt bytes (8 * i)) ++
    [wordAt bytes (8 * full) ||| UInt64.ofNat bytes.size <<< 56]

/-- The digest of a list of bytes under a key. -/
def digest (key0 key1 : UInt64) (bytes : List UInt8) : UInt64 :=
  finish ((words bytes.toArray).foldl compress (start key0 key1))

end MemoKey.SipHash
