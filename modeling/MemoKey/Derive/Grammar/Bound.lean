import MemoKey.Derive.Grammar.Path

/-!
# The grammar of bounds and parameters

A bound is a lifetime or a trait. Generic parameters are put into normal form: lifetimes come
first, a colon without bounds is left out, and so are angle brackets and clauses of bounds in which
nothing stands.

* `Grammar.readBound` reads a bound, `Grammar.bounds` a sum of bounds.
* `Grammar.binder` reads the lifetimes that a type is general in.
* `Grammar.parameters` and `Grammar.whereClause` read what a declaration is general in.
-/

namespace MemoKey.Derive.Grammar

open Derive.Tree Rule

/-! ## Lifetimes -/

/-- Reads the declaration of a lifetime. -/
def lifetimeParameter : Rule String := do
  let attributes ← attributes
  let name ← lifetime
  let colon ← optionally (isSign ":") (sign ":")
  let bounds ← if colon == "" then pure "" else list "+" (isAnySign [",", ">"]) lifetime
  return attributes ++ name ++ if bounds == "" then "" else colon ++ bounds

/-- Reads the lifetimes that what follows is general in, if they are declared. -/
def binder : Rule String := do
  optionally (isWord "for") do
    let word ← word "for"
    let opener ← sign "<"
    let lifetimes ← list "," (isSign ">") lifetimeParameter
    return word ++ opener ++ lifetimes ++ (← sign ">")

/-! ## Bounds -/

/-- Reads the mark of a bound that has to hold at compile time, if it is there. -/
def constantMark : Rule String := do
  optionally (fun trees => isSign "~" trees && isWord "const" (trees.drop 1)) (take 2)

/-- Reads a trait as a bound. -/
def traitBound (g : Grammar) : Rule String := do
  let mark ← constantMark
  let modifier ← sign? "?"
  let lifetimes ← binder
  let path ← g.path true
  let path ←
    if path.isOpen && startsInputs (← get) then do
      let _ ← sign? "::"
      pure (path.withInputs (← g.inputs).1)
    else pure path
  return mark ++ modifier ++ lifetimes ++ path.text

/-- Reads a bound. -/
def readBound (g : Grammar) : Rule String := do
  let trees ← get
  if isLifetime trees then lifetime
  else if isGroup .parentheses trees then enclosed .parentheses g.traitBound
  else g.traitBound

/-- Whether a bound may follow a plus sign. -/
def startsBound (trees : List Tree) : Bool :=
  isAnyWord trees || isAnySign ["::", "?", "~"] trees || isLifetime trees ||
    isGroup .parentheses trees

/-- Reads a bound, or a sum of bounds where that is allowed. -/
def bounds (g : Grammar) (allowsSum : Bool) : Rule String := do
  if allowsSum then list "+" (!startsBound ·) g.readBound else g.readBound

/-! ## Parameters -/

/-- Reads a constant that is no operation: a literal, a name or a block. -/
def constant (g : Grammar) : Rule String := do
  let trees ← get
  if isLiteral trees then literal
  else if isName trees then name
  else g.constantBlock

/-- Reads the declaration of a constant. -/
def constantParameter (g : Grammar) : Rule String := do
  let head := (← word "const") ++ (← name) ++ (← sign ":") ++ (← g.anyType)
  let value ← optionally (isSign "=") (inOrder [sign "=", g.constant])
  return head ++ value

/-- Reads a bound. With a mark in front of it, it is kept as it is written. -/
def markedBound (g : Grammar) : Rule Fragment := do
  let mark ← constantMark
  return ⟨mark ++ (← g.readBound), mark != ""⟩

/-- Reads the declaration of a type. Where one of the bounds has to hold at compile time, all that
follows the colon stays as it is written. -/
def typeParameter (g : Grammar) : Rule String := do
  let name ← name
  let colon ← sign? ":"
  let start ← get
  let isEnd := isAnySign [",", ">", "="]
  let bounds ← if colon == "" then pure [] else separated "+" isEnd g.markedBound
  let equals ← sign? "="
  let value ← if equals == "" then pure "" else g.anyType
  if bounds.any (·.1.isWritten) then
    return name ++ colon ++ (← writtenSince start)
  else
    let sum := String.join (bounds.map fun (b, goesOn) => b.text ++ if goesOn then "+" else "")
    return name ++ (if sum == "" then "" else colon ++ sum) ++ equals ++ value

/-- Reads a parameter. -/
def parameter (g : Grammar) : Rule Argument := do
  let attributes ← attributes
  let trees ← get
  if isLifetime trees then return ⟨attributes ++ (← lifetimeParameter), true⟩
  else if isWord "const" trees then return ⟨attributes ++ (← g.constantParameter), false⟩
  else if isWord "_" trees then return ⟨attributes ++ (← anyWord), false⟩
  else return ⟨attributes ++ (← g.typeParameter), false⟩

/-- Reads parameters in angle brackets, if there are any. -/
def parameters (g : Grammar) : Rule String := do
  optionally (isSign "<") do
    let opener ← sign "<"
    let parameters ← separated "," (isSign ">") g.parameter
    let closer ← sign ">"
    return if parameters.isEmpty then "" else opener ++ Argument.list parameters ++ closer

/-! ## Clauses of bounds -/

/-- Whether a clause of bounds or a sum in it is at an end. -/
def endsClause (trees : List Tree) : Bool :=
  trees.isEmpty || isGroup .braces trees || isAnySign [",", ";", "="] trees || isColon trees

/-- Reads one requirement of a clause. -/
def requirement (g : Grammar) : Rule String := do
  let trees ← get
  if isLifetime trees && isSign ":" (trees.drop 1) then
    return (← lifetime) ++ (← sign ":") ++ (← list "+" endsClause lifetime)
  else
    return (← binder) ++ (← g.anyType) ++ (← sign ":") ++ (← list "+" endsClause g.readBound)

/-- Reads a clause of bounds, if there is one. -/
def whereClause (g : Grammar) : Rule String := do
  optionally (isWord "where") do
    let word ← word "where"
    let requirements ← list "," endsClause g.requirement
    return if requirements == "" then "" else word ++ requirements

end MemoKey.Derive.Grammar
