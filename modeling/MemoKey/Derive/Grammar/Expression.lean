import MemoKey.Derive.Grammar.Pattern

/-!
# The grammar of expressions

An expression is a row of operands with operators between them. Which operator binds closer does
not matter for the text, so that operators are read from left to right. It matters in two places:
what a pattern is matched with ends before the first operator that binds less than a comparison,
and attributes in front of a statement belong to its leftmost operand, unless that is converted or
is the start of a range.

Some operands stay as they are written: a place without a name, a block of constants, a raw
reference, a closure that is general in lifetimes or can be evaluated at compile time, and a struct
whose path is qualified.

* `Grammar.readOperand` reads an operand, `Grammar.readExpression` an expression.
* `Grammar.early` reads an expression where a statement may stand: one that ends with a block is
  complete with it.
-/

namespace MemoKey.Derive.Grammar

open Derive.Tree Rule

/-- Reads expressions with commas between them, up to the end of the trees. -/
def expressions (g : Grammar) : Rule String :=
  commaList (g.expression true)

/-! ## Operators -/

/-- What an operator does to the operand at its left. -/
inductive Operator where
  /-- It gets a value. -/
  | assignment
  /-- It becomes the start of a range. -/
  | range
  /-- It is converted to a type, or stated to have it. -/
  | conversion
  /-- It is combined with another operand. -/
  | combination
  deriving DecidableEq, Inhabited

namespace Operator

/-- Signs that combine and assign. -/
def assigning : List String :=
  ["+=", "-=", "*=", "/=", "%=", "^=", "&=", "|=", "<<=", ">>="]

/-- Signs that combine and bind less than a comparison. -/
def loose : List String :=
  ["&&", "||"]

/-- Signs that combine and bind at least as close as a comparison. A sign stands after those that
it is the beginning of. -/
def tight : List String :=
  ["<<", ">>", "==", "<=", "!=", ">=", "+", "-", "*", "/", "%", "^", "&", "|", "<", ">"]

/-- The sign that trees start with, if it takes an operand on each side. -/
def sign? (trees : List Tree) : Option String :=
  (assigning ++ loose ++ tight).find? (isSign · trees)

/-- Whether the leftmost operand, for given operators in order, is part of a conversion or of the
start of a range. -/
def wrapsFirst (operators : List Operator) : Bool :=
  operators.head? == some conversion || (operators.takeWhile (· != assignment)).contains range

end Operator

/-- Whether a range has no end. -/
def endsOpenRange (allowsStruct : Bool) (trees : List Tree) : Bool :=
  trees.isEmpty || isAnySign [",", ";"] trees || isPoint trees ||
    (!allowsStruct && isGroup .braces trees)

/-- Reads the text of an operand. -/
def rightOperand (g : Grammar) (allowsStruct : Bool) : Rule String := do
  return (← g.operand allowsStruct).text

/-- Reads an operator with what stands at its right, if there is one. Where a pattern is matched,
only an operator that binds at least as close as a comparison is read. -/
def operation? (g : Grammar) (allowsStruct isTight : Bool) : Rule (Option (Operator × String)) := do
  let trees ← get
  match Operator.sign? trees with
  | some s =>
    if isTight && (Operator.assigning ++ Operator.loose).contains s then return none
    else
      let operator := if Operator.assigning.contains s then .assignment else .combination
      return some (operator, (← sign s) ++ (← g.rightOperand allowsStruct))
  | none =>
    if !isTight && isSign "=" trees && !isSign "=>" trees then
      return some (.assignment, (← sign "=") ++ (← g.rightOperand allowsStruct))
    else if !isTight && isSign ".." trees then
      let points ← rangePoints
      let isClosed (trees : List Tree) := !endsOpenRange allowsStruct trees
      return some (.range, points ++ (← optionally isClosed (g.rightOperand allowsStruct)))
    else if isWord "as" trees then
      return some (.conversion, (← word "as") ++ (← g.singleType))
    else if isColon trees then
      return some (.conversion, (← sign ":") ++ (← g.singleType))
    else return none

/-- Reads operators with what stands at their right, at most a number of them. -/
def operationsUpTo (g : Grammar) (allowsStruct isTight : Bool) :
    Nat → Rule (List (Operator × String))
  | 0 => return []
  | bound + 1 => do
    match ← g.operation? allowsStruct isTight with
    | some operation => return operation :: (← g.operationsUpTo allowsStruct isTight bound)
    | none => return []

/-- Reads operators with what stands at their right. -/
def operations (g : Grammar) (allowsStruct isTight : Bool) : Rule (List (Operator × String)) := do
  g.operationsUpTo allowsStruct isTight (← get).length

/-- How operators are written with what stands at their right. -/
def operationsText (operations : List (Operator × String)) : String :=
  String.join (operations.map (·.2))

/-! ## What follows an operand -/

/-- Reads what may stand between the angle brackets after the name of a method. -/
def methodArgument (g : Grammar) : Rule String := do
  let trees ← get
  if isLiteral trees then literal
  else if isGroup .braces trees then g.constantBlock
  else g.anyType

/-- Reads the name of a field or a method, or the index of a field. A method may have arguments,
which keep their order. -/
def selected (g : Grammar) : Rule String := do
  let isNamed := isFieldName (← get)
  let member ← member
  if isNamed && isSign "::" (← get) then
    let opener := (← sign "::") ++ (← sign "<")
    let arguments ← list "," (isSign ">") g.methodArgument
    return member ++ opener ++ arguments ++ (← sign ">")
  else return member

/-- Reads the indices that a number with a point stands for. If nothing follows the point in the
number, something does after it. -/
def indices (g : Grammar) : Rule String := do
  let numerals := (← literal).splitOn "."
  let text := ".".intercalate ((numerals.filter (· != "")).map Member.index)
  if numerals.getLast? == some "" then return text ++ "." ++ (← g.selected) else return text

/-- Whether a number with a point is to come. -/
def isPointedNumber : List Tree → Bool
  | .leaf (.literal l) :: _ => isNumeral l && l.toList.contains '.'
  | _ => false

/-- Reads what follows a point. -/
def afterPoint (g : Grammar) : Rule String := do
  let trees ← get
  if isWord "await" trees then word "await"
  else if isPointedNumber trees then g.indices
  else g.selected

/-- Whether a call, a point, an index or a question mark is to come. -/
def startsTrailer (trees : List Tree) : Bool :=
  isGroup .parentheses trees || isGroup .brackets trees || isPoint trees || isSign "?" trees

/-- Reads a call, the selection of a field, an index or a question mark. -/
def trailer (g : Grammar) : Rule String := do
  let trees ← get
  if isGroup .parentheses trees then enclosed .parentheses g.expressions
  else if isGroup .brackets trees then enclosed .brackets (g.expression true)
  else if isSign "?" trees then sign "?"
  else return (← sign ".") ++ (← g.afterPoint)

/-- Reads all that follows an operand. With something that follows it is in normal form. -/
def withTrailers (g : Grammar) (f : Fragment) : Rule Fragment := do
  let trailers ← manyUpTo (!startsTrailer ·) g.trailer (← get).length
  if trailers.isEmpty then return f else return { text := f.text ++ String.join trailers }

/-! ## Closures -/

/-- Reads an input of a closure. -/
def closureInput (g : Grammar) : Rule String := do
  let attributes ← attributes
  let pattern ← g.pattern
  if isSign ":" (← get) then
    return attributes ++ pattern.text ++ (← sign ":") ++ (← g.anyType)
  else return pattern.withAttributes attributes

/-- Reads a closure. If its result is stated, its body is a block. -/
def closure (g : Grammar) (allowsStruct : Bool) : Rule String := do
  let head := (← word? "static") ++ (← word? "async") ++ (← word? "move")
  let opener ← sign "|"
  let inputs ← list "," (isSign "|") g.closureInput
  let closer ← sign "|"
  let body ←
    if isSign "->" (← get) then pure ((← sign "->") ++ (← g.anyType) ++ (← g.block))
    else g.expression allowsStruct
  return head ++ opener ++ inputs ++ closer ++ body

/-- Whether a closure is to come. -/
def startsClosure (trees : List Tree) : Bool :=
  let next := trees.drop 1
  isSign "|" trees || isAnyWordOf ["static", "move"] trees ||
    (isWord "async" trees && (isSign "|" next || isWord "move" next))

/-- Whether a closure is to come that can be evaluated at compile time. -/
def startsConstantClosure (trees : List Tree) : Bool :=
  isWord "const" trees && startsClosure (trees.drop 1)

/-- Whether lifetimes that a closure is general in are to come. -/
def startsBinder (trees : List Tree) : Bool :=
  isWord "for" trees && isSign "<" (trees.drop 1) &&
    (isLifetime (trees.drop 2) || isSign ">" (trees.drop 2))

/-! ## Blocks -/

/-- Whether an asynchronous block is to come. -/
def startsAsyncBlock (trees : List Tree) : Bool :=
  isWord "async" trees && (isGroup .braces (trees.drop 1) ||
    (isWord "move" (trees.drop 1) && isGroup .braces (trees.drop 2)))

/-- Whether a block is to come after a word. -/
def startsWordBlock (word : String) (trees : List Tree) : Bool :=
  isWord word trees && isGroup .braces (trees.drop 1)

/-- Reads a choice between blocks with at most a number of conditions. -/
def choiceUpTo (g : Grammar) : Nat → Rule String
  | 0 => never
  | bound + 1 => do
    let head ← inOrder [word "if", g.expression false, g.block]
    if isWord "else" (← get) then
      let word ← word "else"
      return head ++ word ++ (← if isGroup .braces (← get) then g.block else g.choiceUpTo bound)
    else return head

/-- Reads a choice between blocks. -/
def choice (g : Grammar) : Rule String := do
  g.choiceUpTo (← get).length

/-- Reads a loop. -/
def repetition (g : Grammar) : Rule String := do
  let trees ← get
  if isWord "while" trees then inOrder [word "while", g.expression false, g.block]
  else if isWord "for" trees then
    inOrder [word "for", g.alternatives, word "in", g.expression false, g.block]
  else inOrder [word "loop", g.block]

/-- Reads an arm of a match. -/
def arm (g : Grammar) : Rule String :=
  inOrder [
    attributes, g.alternatives,
    optionally (isWord "if") (inOrder [word "if", g.expression true]),
    sign "=>", g.early, sign? ","]

/-- Reads a match. -/
def selection (g : Grammar) : Rule String :=
  inOrder [
    word "match", g.expression false,
    enclosed .braces (inOrder [innerAttributes, many g.arm])]

/-- Reads a block that may be a loop, with its label. -/
def labelled (g : Grammar) : Rule String := do
  let label ← inOrder [lifetime, sign ":"]
  return label ++ (← if isGroup .braces (← get) then g.block else g.repetition)

/-- Reads what ends with a block where a statement may stand, if such is to come. -/
def blockLike? (g : Grammar) : Rule (Option Fragment) := do
  let trees ← get
  if isWord "if" trees then return some { text := ← g.choice }
  else if isAnyWordOf ["while", "loop"] trees || (isWord "for" trees && !startsBinder trees) then
    return some { text := ← g.repetition }
  else if isWord "match" trees then return some { text := ← g.selection }
  else if startsWordBlock "try" trees || isWord "unsafe" trees then
    return some { text := ← inOrder [anyWord, g.block] }
  else if startsWordBlock "const" trees then return some ⟨← constantBraces, true⟩
  else if isGroup .braces trees then return some { text := ← g.block }
  else return none

/-! ## Operands -/

/-- Reads a field in the literal of a struct, or the points for the other fields with what they are
taken from. -/
def fieldValue (g : Grammar) : Rule String := do
  if isSign ".." (← get) then
    inOrder [sign "..", optionally (!·.isEmpty) (g.expression true)]
  else
    let value := inOrder [sign ":", g.expression true]
    inOrder [attributes, member, optionally (isSign ":") value]

/-- Reads an operand that starts with a path: the call of a macro, the literal of a struct where
that is allowed, or the path alone. -/
def pathOperand (g : Grammar) (allowsStruct : Bool) : Rule Fragment := do
  let start ← get
  let path ← g.qualifiedPath false
  let isQualified := path.qualifier?.isSome
  let next ← get
  if !isQualified && isSign "!" next && !isSign "!=" next && !path.hasArguments then
    return { text := path.text ++ (← sign "!") ++ (← anyGroup) }
  else if allowsStruct && isGroup .braces next then
    let fields ← enclosed .braces (commaList g.fieldValue)
    if isQualified then return ⟨← writtenSince start, true⟩
    else return { text := path.text ++ fields }
  else return { text := path.text }

/-- Reads an array: its elements, or one element and how often it is repeated. -/
def array (g : Grammar) : Rule String :=
  enclosed .brackets <|
    inOrder [g.expressions, optionally (isSign ";") (inOrder [sign ";", g.expression true])]

/-- Reads a pattern with what is matched with it. -/
def condition (g : Grammar) : Rule String := do
  let head ← inOrder [word "let", g.alternatives, sign "=", g.rightOperand false]
  return head ++ operationsText (← g.operations false true)

/-- Whether no value is to come after a word that may have one. -/
def endsValue (trees : List Tree) : Bool :=
  trees.isEmpty || isAnySign [",", ";"] trees

/-- Reads a word that leaves a block, with the value that it leaves with. -/
def departure (g : Grammar) (allowsStruct : Bool) : Rule String := do
  let trees ← get
  let isBreak := isWord "break" trees
  let head := (← anyWord) ++ (← if isBreak then optionally isLifetime lifetime else pure "")
  let next ← get
  if endsValue next || (isBreak && !allowsStruct && isGroup .braces next) then return head
  else return head ++ (← g.expression (allowsStruct || isWord "yield" trees))

/-- Reads a range without a start. -/
def rangeTo (g : Grammar) (allowsStruct : Bool) : Rule String :=
  inOrder [rangePoints, optionally (!endsOpenRange allowsStruct ·) (g.expression allowsStruct)]

/-- Reads an operand without what is in front of it and what follows it. -/
def atom (g : Grammar) (allowsStruct : Bool) : Rule Fragment := do
  let trees ← get
  if isLiteral trees then return { text := ← literal }
  else if startsAsyncBlock trees then
    return { text := ← inOrder [word "async", word? "move", g.block] }
  else if startsClosure trees then return { text := ← g.closure allowsStruct }
  else if startsBinder trees || startsConstantClosure trees then
    let _ ← binder
    let _ ← word? "const"
    let _ ← g.closure allowsStruct
    return ⟨← writtenSince trees, true⟩
  else if isWord "_" trees then return ⟨← anyWord, true⟩
  else if isGroup .parentheses trees then
    return { text := ← enclosed .parentheses g.expressions }
  else if isGroup .brackets trees then return { text := ← g.array }
  else if isAnyWordOf ["break", "return", "yield"] trees then
    return { text := ← g.departure allowsStruct }
  else if isWord "continue" trees then
    return { text := ← inOrder [anyWord, optionally isLifetime lifetime] }
  else if isWord "let" trees then return { text := ← g.condition }
  else if isSign ".." trees then return { text := ← g.rangeTo allowsStruct }
  else if isLifetime trees then return { text := ← g.labelled }
  else
    match ← g.blockLike? with
    | some block => return block
    | none => g.pathOperand allowsStruct

/-- Whether a raw reference is to come, of which the first sign has been read. -/
def startsRaw (trees : List Tree) : Bool :=
  isWord "raw" trees && isAnyWordOf ["mut", "const"] (trees.drop 1)

/-- Reads an operand. -/
def readOperand (g : Grammar) (allowsStruct : Bool) : Rule Fragment := do
  let start ← get
  let attributes ← attributes
  let trees ← get
  if isSign "&" trees then
    let mark ← sign "&"
    if startsRaw (← get) then
      let _ ← take 2
      let _ ← g.operand allowsStruct
      return ⟨← writtenSince start, true⟩
    else
      return { text := attributes ++ mark ++ (← word? "mut") ++ (← g.rightOperand allowsStruct) }
  else if isWord "box" trees || isAnySign ["*", "!", "-"] trees then
    return { text := attributes ++ (← take 1) ++ (← g.rightOperand allowsStruct) }
  else
    let f ← g.withTrailers (← g.atom allowsStruct)
    if f.isWritten then return ⟨← writtenSince start, true⟩
    else return { text := attributes ++ f.text }

/-! ## Expressions -/

/-- Reads an expression. -/
def readExpression (g : Grammar) (allowsStruct : Bool) : Rule String := do
  let first ← g.readOperand allowsStruct
  return first.text ++ operationsText (← g.operations allowsStruct false)

/-- Reads an expression where a statement may stand. Attributes in front of the statement are given.

What ends with a block is complete, unless a point or a question mark follows. Attributes are lost
with an operand that stays as it is written: those in front of the expression always, those in
front of a statement unless the leftmost operand is converted or is the start of a range. -/
def readEarly (g : Grammar) (outer : String) : Rule String := do
  let attributes ← attributes
  let block? ← g.blockLike?
  let next ← get
  let goesOn := block?.isNone || isPoint next || isSign "?" next
  let first ←
    match block? with
    | none => g.readOperand true
    | some block => if goesOn then g.withTrailers block else pure block
  let operations ← if goesOn then g.operations true false else pure []
  let isWrapped := Operator.wrapsFirst (operations.map (·.1))
  let text := first.withAttributes attributes ++ operationsText operations
  return if first.isWritten && !isWrapped then text else outer ++ text

end MemoKey.Derive.Grammar
