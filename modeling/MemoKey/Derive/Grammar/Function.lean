import MemoKey.Derive.Grammar.Pattern
import MemoKey.Derive.Grammar.Type

/-!
# The grammar of functions

* `Grammar.visibility` reads who may use an item.
* `Grammar.signature` reads how a function is declared, without its body.
-/

namespace MemoKey.Derive.Grammar

open Derive.Tree Rule

/-! ## Visibility -/

/-- Whether parentheses that restrict a visibility are to come. Others belong to what follows. -/
def startsRestriction (trees : List Tree) : Bool :=
  match trees with
  | .group .parentheses inner :: _ =>
    isWord "in" inner || (isAnyWordOf ["crate", "self", "super"] inner && inner.length == 1)
  | _ => false

/-- Reads who may use an item, if it is stated. -/
def visibility : Rule String := do
  let trees ← get
  if isWord "pub" trees then
    inOrder [word "pub", optionally startsRestriction anyGroup]
  else if isWord "crate" trees && !isSign "::" (trees.drop 1) then word "crate"
  else return ""

/-! ## Signatures -/

/-- Trees without a word at the front. -/
def withoutWord (word : String) (trees : List Tree) : List Tree :=
  if isWord word trees then trees.drop 1 else trees

/-- Whether a function is to come. Four kinds of qualifiers may stand in front, in a fixed order. -/
def startsFunction (trees : List Tree) : Bool :=
  let trees := withoutWord "unsafe" (withoutWord "async" (withoutWord "const" trees))
  let plain := withoutWord "extern" trees
  let hasForm := isWord "extern" trees && isLiteral plain
  isWord "fn" (if hasForm then plain.drop 1 else plain)

/-- Reads the receiver of a method without a type. -/
def plainReceiver : Rule String := do
  let mark ← optionally (isSign "&") (inOrder [sign "&", optionally isLifetime lifetime])
  return mark ++ (← word? "mut") ++ (← word "self")

/-- Whether the receiver of a method is to come without a type. -/
def startsPlainReceiver (trees : List Tree) : Bool :=
  match plainReceiver.rest? trees with
  | some next => !isSign ":" next
  | none => false

/-- Reads an input of a function: a receiver, three points, or a pattern with its type. A name with
angle brackets is the type of an input that is given no name. -/
def functionParameter (g : Grammar) : Rule String := do
  let attributes ← attributes
  let trees ← get
  if isSign "..." trees then return attributes ++ (← sign "...")
  else if startsPlainReceiver trees then return attributes ++ (← plainReceiver)
  else if isName trees && isSign "<" (trees.drop 1) then
    return attributes ++ "_:" ++ (← g.anyType)
  else return attributes ++ (← inOrder [g.alternatives, sign ":", g.inputType])

/-- Reads how a function is declared. -/
def signature (g : Grammar) : Rule String :=
  inOrder [
    word? "const", word? "async", word? "unsafe", callForm, word "fn", name, g.parameters,
    enclosed .parentheses (commaList g.functionParameter), g.result true, g.whereClause]

end MemoKey.Derive.Grammar
