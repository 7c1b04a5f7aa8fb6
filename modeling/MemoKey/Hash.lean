/-!
# Polynomial hashes

A hash is the value at 31 of a polynomial whose coefficients are 64-bit words, computed by
Horner's rule with wrapping arithmetic. Every composite starts its own accumulator at one, so
that an empty composite is told apart from an absent value.

* `Hash.step` takes one word into an accumulator, `Hash.extend` a list of words.
* `Hash.ofList` is the hash of a list of words on its own.
-/

namespace MemoKey

/-- A hash: a 64-bit word read as a signed integer. -/
abbrev Hash := Int64

namespace Hash

/-- The accumulator of an empty composite. -/
def seed : Hash := 1

/-- The contribution of an absent value, and of a value that was cut because it contains itself. -/
def absent : Hash := 0

/-- The contribution of a truth value. -/
def ofBool : Bool → Hash
  | true => 1231
  | false => 1237

/-- Takes one word into an accumulator: Horner's rule at 31. -/
def step (acc word : Hash) : Hash :=
  acc * 31 + word

/-- Takes a list of words into an accumulator, first word first. -/
def extend (acc : Hash) (words : List Hash) : Hash :=
  words.foldl step acc

/-- The hash of a list of words. -/
def ofList (words : List Hash) : Hash :=
  extend seed words

@[simp] theorem extend_nil (acc : Hash) : extend acc [] = acc := rfl

@[simp] theorem extend_cons (acc word : Hash) (words : List Hash) :
    extend acc (word :: words) = extend (step acc word) words := rfl

/-- Words that follow are taken into the accumulator that the earlier ones leave. -/
theorem extend_append (acc : Hash) (first rest : List Hash) :
    extend acc (first ++ rest) = extend (extend acc first) rest :=
  List.foldl_append

@[simp] theorem ofList_nil : ofList [] = seed := rfl

theorem ofList_append (first rest : List Hash) :
    ofList (first ++ rest) = extend (ofList first) rest :=
  extend_append seed first rest

end Hash

end MemoKey
