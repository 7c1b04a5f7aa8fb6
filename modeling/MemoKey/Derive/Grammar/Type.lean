import MemoKey.Derive.Grammar.Bound

/-!
# The grammar of types

* `Grammar.readType` reads a type. Its cases are told apart by what the type starts with.
* `Grammar.functionType` reads the type of a function. If an input is the receiver of a method that
  may change it, the type stays as it is written, and one more input may follow.
-/

namespace MemoKey.Derive.Grammar

open Derive.Tree Rule

/-- A type about which nothing is remembered. -/
def plainType (text : String) : TypeText :=
  ⟨text, .other⟩

/-- Reads further bounds, each after a plus sign. -/
def furtherBounds (g : Grammar) : Rule String := do
  let one := inOrder [sign "+", g.readBound]
  return String.join (← manyUpTo (!isSign "+" ·) one (← get).length)

/-! ## Parentheses -/

/-- What stands between the parentheses at the front. -/
def between : List Tree → List Tree
  | .group _ inside :: _ => inside
  | _ => []

/-- Reads what follows the first type of several in parentheses. -/
def tupleRest (g : Grammar) : Rule String :=
  inOrder [sign ",", commaList g.anyType]

/-- The bound that a type is, if it can be one. -/
def boundOf? (type : TypeText) : Option String :=
  match type.form with
  | .path path => if path.qualifier?.isNone then some path.text else none
  | .bound text => some text
  | _ => none

/-- Reads a type in parentheses. -/
def parenthesizedType (g : Grammar) (allowsSum : Bool) : Rule TypeText := do
  let inner := between (← get)
  if isLifetime inner then
    return ⟨← enclosed .parentheses (g.bounds true), .parenthesized⟩
  else if isSign "?" inner then
    let bound ← inside .parentheses g.traitBound
    let more ← g.furtherBounds
    let text := Delimiter.parentheses.enclose bound ++ more
    return ⟨text, if more == "" then .bound bound else .other⟩
  else if inner.isEmpty then
    return plainType (← enclosed .parentheses (return ""))
  else
    let (first, more) ← inside .parentheses do
      let first ← g.type true
      return (first, ← optionally (isSign ",") g.tupleRest)
    let text := Delimiter.parentheses.enclose (first.text ++ more)
    if more != "" then return plainType text
    else
      match boundOf? first, allowsSum && isSign "+" (← get) with
      | some bound, true =>
        return plainType (Delimiter.parentheses.enclose bound ++ (← g.furtherBounds))
      | _, _ => return ⟨text, .parenthesized⟩

/-! ## Functions -/

/-- Reads the way a function is called, if it is stated. -/
def callForm : Rule String :=
  optionally (isWord "extern") (inOrder [word "extern", optionally isLiteral literal])

/-- Reads the type of an input. In a list of open length three points stand for it. -/
def inputType (g : Grammar) : Rule String := do
  if isSign "..." (← get) then sign "..." else g.anyType

/-- Reads an input. Says too whether it is a receiver that may be changed. -/
def functionInput (g : Grammar) : Rule (String × Bool) := do
  let attributes ← attributes
  let trees ← get
  let second := trees.drop 1
  if (isName trees || isAnyWordOf ["_", "self"] trees) && isColon second then
    return (attributes ++ (← anyWord) ++ (← sign ":") ++ (← g.inputType), false)
  else if isWord "mut" trees && isWord "self" second then
    let _ ← take 2
    if isColon (trees.drop 2) then
      let _ ← sign ":"
      let _ ← g.anyType
    return (attributes, true)
  else return (attributes ++ (← g.inputType), false)

/-- How many inputs that are no receivers follow the first receiver, for inputs that are given by
whether they are receivers. -/
def inputsAfterReceiver (inputs : List Bool) : Nat :=
  (inputs.dropWhile (!·)).count false

/-- Reads the type of a function. It is given what was to come before its lifetimes were read, and
the lifetimes. After a receiver that may be changed two further inputs have no meaning. -/
def functionType (g : Grammar) (start : List Tree) (lifetimes : String) : Rule TypeText := do
  let head := (← word? "unsafe") ++ (← callForm) ++ (← word "fn")
  let inputs ← inside .parentheses (separated "," List.isEmpty g.functionInput)
  if 1 < inputsAfterReceiver (inputs.map (·.1.2)) then throw .unreadable
  let result ← g.result false
  if inputs.any (·.1.2) then return plainType (← writtenSince start)
  else
    let text := String.join (inputs.map fun (i, isClosed) => i.1 ++ if isClosed then "," else "")
    return plainType (lifetimes ++ head ++ Delimiter.parentheses.enclose text ++ result)

/-! ## Paths and bounds -/

/-- Reads a type that starts with a path: the path, the call of a macro or a sum of bounds. The
input of a macro stays as it is written. Lifetimes make a bound of the path. -/
def namedType (g : Grammar) (lifetimes : String) (allowsSum : Bool) : Rule TypeText := do
  let path ← g.typePath
  let next ← get
  if path.qualifier?.isSome then return ⟨path.text, .path path⟩
  else if isSign "!" next && !isSign "!=" next && !path.hasArguments then
    return plainType (path.text ++ (← sign "!") ++ (← anyGroup))
  else
    let first := lifetimes ++ path.text
    let more ←
      if allowsSum && isSign "+" next then
        inOrder [sign "+", list "+" (!startsBound ·) g.readBound]
      else pure ""
    if more != "" then return plainType (first ++ more)
    else if lifetimes != "" then return ⟨first, .bound first⟩
    else return ⟨first, .path path⟩

/-- Reads the type of objects of given bounds. With an asterisk in front of them it stays as it is
written. -/
def objectType (g : Grammar) (allowsSum : Bool) : Rule TypeText := do
  let start ← get
  let word ← word "dyn"
  if isSign "*" (← get) then
    let _ ← sign "*"
    let _ ← g.bounds allowsSum
    return plainType (← writtenSince start)
  else return plainType (word ++ (← g.bounds allowsSum))

/-! ## Types -/

/-- Reads the type of arrays or slices. The length of an array is an expression. -/
def arrayType (g : Grammar) : Rule String :=
  enclosed .brackets <|
    inOrder [g.anyType, optionally (isSign ";") (inOrder [sign ";", g.expression true])]

/-- Reads a reference. -/
def referenceType (g : Grammar) : Rule String :=
  inOrder [sign "&", optionally isLifetime lifetime, word? "mut", g.singleType]

/-- Reads a pointer. -/
def pointerType (g : Grammar) : Rule String :=
  inOrder [sign "*", takeIf (isAnyWordOf ["const", "mut"]) 1, g.singleType]

/-- Reads a type. -/
def readType (g : Grammar) (allowsSum : Bool) : Rule TypeText := do
  let start ← get
  let lifetimes ← binder
  let trees ← get
  if isGroup .parentheses trees then g.parenthesizedType allowsSum
  else if isAnyWordOf ["fn", "unsafe", "extern"] trees then g.functionType start lifetimes
  else if isWord "dyn" trees then g.objectType allowsSum
  else if isPath trees then g.namedType lifetimes allowsSum
  else if isGroup .brackets trees then return plainType (← g.arrayType)
  else if isSign "*" trees then return plainType (← g.pointerType)
  else if isSign "&" trees then return plainType (← g.referenceType)
  else if isSign "!" trees then return plainType (← sign "!")
  else if isWord "impl" trees then
    return plainType ((← word "impl") ++ (← g.bounds allowsSum))
  else if isWord "_" trees then return plainType (← anyWord)
  else return plainType (← g.bounds true)

end MemoKey.Derive.Grammar
