import MemoKey.Decimal.Fixed
import MemoKey.Derive.Instance
import MemoKey.Generator
import MemoKey.Opaque.Datum
import MemoKey.Primitive.Text
import MemoKey.Store.Collections

/-!
# A demonstration

Four small programs in one: a memo table with structural keys, the agreement of the two kinds of
keys, keys of objects that are taken apart, and keys of arrays that contain each other.

* `Demo.lines` is everything the demonstration has to say.
-/

namespace MemoKey.Demo

/-- A currency. -/
inductive Currency where
  | eur
  | usd
  deriving DecidableEq

namespace Currency

/-- The name of a currency. -/
def name : Currency → String
  | eur => "Eur"
  | usd => "Usd"

/-- The name of the type of currencies. -/
def typeName : TypeName :=
  ⟨"key_generation::Currency"⟩

/-- A currency as an argument. -/
def toValue (c : Currency) : Value Datum :=
  .atom (.constant ⟨typeName, c.name⟩)

end Currency

/-- Converts an amount of one currency into another. -/
def convert (amount : Float) (source target : Currency) : Float :=
  match source, target with
  | .eur, .usd => amount * 1.08
  | .usd, .eur => amount / 1.08
  | _, _ => amount

/-- An amount as an argument. -/
def amountValue (amount : Float) : Value Datum :=
  .atom (.primitive (.float64 amount.toBits))

/-- An amount by its shortest digits. -/
def amountText (amount : Float) : String :=
  BinaryFormat.double.positional amount.toBits.toNat

/-- A price with two places. -/
def priceText (amount : Float) : String :=
  BinaryFormat.double.write (·.fixed 2) amount.toBits.toNat

/-- The method that converts. -/
def signature : Signature where
  declaringType := ⟨"demo::Rates"⟩
  name := "convert"
  parameterTypes := [⟨"f64"⟩, Currency.typeName, Currency.typeName]

/-- A call of the method that converts. -/
def call (amount : Float) (source target : Currency) : Invocation Datum where
  signature := some signature
  arguments := [amountValue amount, source.toValue, target.toValue]

/-! ## Structural keys -/

/-- The results of earlier calls, by key. -/
abbrev Memo := List (StructuralKey Datum × Float)

/-- Converts through the memo table and says whether the result was there. -/
def convertMemo (memo : Memo) (amount : Float) (source target : Currency) :
    Except Halt (String × Memo) := do
  let key ← (({} : Config).structuralKey {} (call amount source target) {}).1
  let (result, hit, memo) :=
    match memo.lookup key with
    | some result => (result, "hit", memo)
    | none =>
      let result := convert amount source target
      (result, "miss", (key, result) :: memo)
  let line := "convert(" ++ amountText amount ++ ", " ++ source.name ++ ", " ++ target.name ++
    ") = " ++ priceText result ++ " (" ++ hit ++ ")"
  return (line, memo)

/-- The calls of the demonstration. -/
def calls : List (Float × Currency × Currency) :=
  [(10.0, .eur, .usd), (10.0, .eur, .usd), (10.5, .eur, .usd), (10.0, .usd, .eur)]

/-- One line for each call. -/
def structuralLines : List (Float × Currency × Currency) → Memo → Except Halt (List String)
  | [], _ => return []
  | (amount, source, target) :: rest, memo => do
    let (line, memo) ← convertMemo memo amount source target
    return line :: (← structuralLines rest memo)

/-! ## Hash keys -/

/-- The hash of one call under both kinds of keys. -/
def hashLines : Except Halt (List String) := do
  let c : Config := {}
  let hash ← (c.hashKey {} (call 1.5 .eur .usd) {}).1
  let key ← (c.structuralKey {} (call 1.5 .eur .usd) {}).1
  return ["hash key:            " ++ toString hash, "structural hash:     " ++ toString key.hash]

/-! ## Objects -/

/-- The struct of prices. -/
def priceItem : Derive.Item where
  name := "Price"
  isGeneric := false
  body := .struct
    [⟨some "amount", .ofPath ["f64"] "", []⟩, ⟨some "currency", .ofPath ["Currency"] "", []⟩]

/-- A price in the first currency, as an object in an empty store. -/
def price (e : Derive.StructExpansion) (amount : Float) : Value Datum × Store Datum :=
  let content (m : Derive.Member) : Value Datum :=
    if m.label == "amount" then amountValue amount else Currency.eur.toValue
  let level := e.level 0 "key_generation" content
  Store.place {} (.object (Derive.Instance.root level).object)

/-- The hash key of a price that is taken apart. -/
def priceHash (e : Derive.StructExpansion) (amount : Float) : Except Halt Hash :=
  let c : Config := { Config.argumentsOnly with useReflection := true, derivation := .hashCode }
  let (value, store) := price e amount
  (c.cacheKey store { arguments := [value] } {}).1.map CacheKey.hash

/-- Which prices share a key. -/
def reflectionLines : Except Halt (List String) :=
  match Derive.StructExpansion.ofItem priceItem with
  | .error _ => return []
  | .ok e => do
    let a ← priceHash e 9.99
    let b ← priceHash e 9.99
    let c ← priceHash e 9.98
    return ["equal prices share a key: " ++ toString (a == b),
      "different prices differ:  " ++ toString (a != c)]

/-! ## Circular arguments -/

/-- Two arrays, each of which contains the other one. -/
def circle : Except Fault (Identity × Store Datum) := do
  let (arg, store) := Store.alloc {} (Cell.blankArray 2).content
  let (child, store) := store.alloc (Cell.blankArray 2).content
  let store ← store.setSlot arg 0 (.ref .array child)
  let store ← store.setSlot arg 1 (.atom (.text "argString"))
  let store ← store.setSlot child 0 (.ref .array arg)
  let store ← store.setSlot child 1 (.atom (.text "childArgString"))
  return (arg, store)

/-- The key of an array that contains itself, and how often the walk was cut. -/
def circularLines : Except Halt (List String) := do
  let (arg, store) ← circle.mapError .fault
  let (result, session) := Config.argumentsOnly.hashKey store { arguments := [.ref .array arg] } {}
  return ["key: " ++ toString (← result), "cycles cut: " ++ toString session.counters.cycles]

/-! ## All lines -/

/-- Everything the demonstration has to say. -/
def lines : Except Halt (List String) := do
  return ["Key Generation Example", "======================", "", "--- Structural keys ---"] ++
    (← structuralLines calls []) ++ ["", "--- Hash keys ---"] ++ (← hashLines) ++
    ["", "--- Reflection ---"] ++ (← reflectionLines) ++ ["", "--- Circular arguments ---"] ++
    (← circularLines)

end MemoKey.Demo
