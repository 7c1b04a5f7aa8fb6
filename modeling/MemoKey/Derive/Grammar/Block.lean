import MemoKey.Derive.Grammar.Expression
import MemoKey.Derive.Grammar.Type

/-!
# The grammar of statements

* `Grammar.statement` reads a statement, `Grammar.readBlock` statements in braces.
* `startsItem` says which statements declare something.
-/

namespace MemoKey.Derive.Grammar

open Derive.Tree Rule

/-! ## Kinds of statements -/

/-- What follows the path of names that trees start with. -/
def afterPlainPath? (trees : List Tree) : Option (List Tree) :=
  plainPath.rest? trees

/-- Whether the call of a macro is to come that is a statement by itself: one whose input stands in
braces and which is not part of an expression, or one that declares a name. -/
def startsMacroStatement (trees : List Tree) : Bool :=
  match afterPlainPath? trees with
  | some next =>
    let input := next.drop 1
    let after := input.drop 1
    isSign "!" next &&
      ((isGroup .braces input && !isAnySign [".", "?"] after) || isName input)
  | none => false

/-- Whether a qualifier of a function is to come that is no closure. -/
def startsFunctionQualifier (trees : List Tree) : Bool :=
  isAnyWordOf ["unsafe", "extern", "fn"] trees

/-- Whether the declaration of a variable for the whole program is to come. -/
def startsStatic (trees : List Tree) : Bool :=
  let next := trees.drop 1
  let third := next.drop 1
  let isClosure := isWord "async" next && (isWord "move" third || isSign "|" third)
  isWord "static" trees && (isWord "mut" next || (isName next && !isClosure))

/-- Whether the declaration of a constant, or of a function that can be evaluated at compile time,
is to come. -/
def startsConstant (trees : List Tree) : Bool :=
  let next := trees.drop 1
  let isClosure := isWord "async" next && !startsFunctionQualifier (next.drop 1)
  isWord "const" trees &&
    !(isGroup .braces next || isAnyWordOf ["static", "move"] next || isClosure || isSign "|" next)

/-- The words that start a declaration wherever a statement may stand. -/
def itemWords : List String :=
  ["pub", "extern", "use", "fn", "mod", "type", "struct", "enum", "trait", "impl", "macro"]

/-- Whether a declaration is to come. -/
def startsItem (trees : List Tree) : Bool :=
  let next := trees.drop 1
  isAnyWordOf itemWords trees || startsStatic trees || startsConstant trees ||
    (isWord "crate" trees && !isSign "::" next) ||
    (isWord "unsafe" trees && !isGroup .braces next) ||
    (isWord "async" trees && startsFunctionQualifier next) ||
    (isWord "union" trees && isName next) || (isWord "existential" trees && isWord "type" next) ||
    (isWord "auto" trees && isWord "trait" next) ||
    (isWord "default" trees && isAnyWordOf ["unsafe", "impl"] next)

/-! ## Statements -/

/-- Reads the call of a macro as a statement. -/
def macroStatement : Rule String :=
  inOrder [plainPath, sign "!", optionally isName name, anyGroup, sign? ";"]

/-- Reads the declaration of a local variable. It is given what was to come before its attributes
were read, and these. With a block for the case that the pattern does not fit, all of it stays as
it is written. -/
def localVariable (g : Grammar) (start : List Tree) (attributes : String) : Rule String := do
  let head ← inOrder [
    word "let", g.alternatives, optionally (isSign ":") (inOrder [sign ":", g.anyType]),
    optionally (isSign "=") (inOrder [sign "=", g.expression true])]
  if isWord "else" (← get) then
    let _ ← take 2
    return (← writtenSince start) ++ (← sign ";")
  else return attributes ++ head ++ (← sign ";")

/-- Reads a statement. A semicolon alone is one. -/
def statement (g : Grammar) : Rule String := do
  let start ← get
  if isSign ";" start then sign ";"
  else
    let attributes ← attributes
    let trees ← get
    if startsMacroStatement trees then return attributes ++ (← macroStatement)
    else if isWord "let" trees then g.localVariable start attributes
    else if startsItem trees then return (← g.item).withAttributes attributes
    else return (← g.readEarly attributes) ++ (← sign? ";")

/-- Reads statements in braces. Attributes of the block may stand in front of them. -/
def readBlock (g : Grammar) : Rule String :=
  enclosed .braces (inOrder [innerAttributes, many g.statement])

end MemoKey.Derive.Grammar
