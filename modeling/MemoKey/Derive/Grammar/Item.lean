import MemoKey.Derive.Grammar.Block
import MemoKey.Derive.Grammar.Data

/-!
# The grammar of items

Items that are no complete declarations where they stand are kept as they are written: functions
without a body, constants without a value, names for types that are bounded or not defined, and the
like. An import and the declaration of a macro have no other normal form than what is written.

* `Grammar.readItem` reads an item. It is given no attributes: they stand in front of it.
* `Grammar.traitMember`, `Grammar.implementationMember` and `Grammar.foreignMember` read what
  stands in a trait, in an implementation and in a block of foreign items.
-/

namespace MemoKey.Derive.Grammar

open Derive.Tree Rule

/-! ## Parts of items -/

/-- Reads all up to a semicolon, as it is written. -/
def throughSemicolon : Rule String := do
  let trees ← get
  take ((trees.takeWhile (!isSign ";" [·])).length + 1)

/-- A rule whose text stays as it is written. -/
def asWritten (rule : Rule α) : Rule Fragment := do
  let start ← get
  let _ ← rule
  return ⟨← writtenSince start, true⟩

/-- A rule whose text is in normal form. -/
def normal (rule : Rule String) : Rule Fragment := do
  return { text := ← rule }

/-- Reads a value that is stated. -/
def stated (g : Grammar) : Rule String :=
  inOrder [sign "=", g.expression true]

/-- Reads items in braces, given what reads one. Attributes of what they stand in come first. -/
def itemsInBraces (item : Rule String) : Rule String :=
  enclosed .braces (inOrder [innerAttributes, many item])

/-- Reads an item with its attributes. Items other than statements keep theirs. -/
def attributed (item : Rule Fragment) : Rule String :=
  inOrder [attributes, (·.text) <$> item]

/-- Reads the name of a constant, its type and, if they are stated, its value. Says too whether it
has both a type and a value. -/
def constantBody (g : Grammar) : Rule (String × Bool) := do
  let name ← anyWord
  let type ← optionally (isSign ":") (inOrder [sign ":", g.anyType])
  let value ← optionally (isSign "=") g.stated
  return (name ++ type ++ value ++ (← sign ";"), type != "" && value != "")

/-- The parts of the declaration of a type that may stand for others. -/
structure Alias where
  /-- The word, the name and the parameters. -/
  head : String
  /-- The colon and the bounds. -/
  bounds : String
  /-- Whether there is a colon. -/
  hasColon : Bool
  /-- The type that is defined. -/
  value : String
  /-- The clause of bounds. -/
  clause : String

/-- Reads the declaration of a type that may stand for others. -/
def aliasParts (g : Grammar) : Rule Alias := do
  let head ← g.dataHead "type"
  let colon ← sign? ":"
  let isEnd (trees : List Tree) := isWord "where" trees || isAnySign ["=", ";"] trees
  let bounds ← if colon == "" then pure "" else list "+" isEnd g.readBound
  let before ← g.whereClause
  let value ← optionally (isSign "=") (inOrder [sign "=", g.anyType])
  let after ← g.whereClause
  let _ ← sign ";"
  return {
    head, value
    bounds := if bounds == "" then "" else colon ++ bounds
    hasColon := colon != ""
    clause := before ++ after }

/-- A declaration of a type that is defined and has no bounds; otherwise what was read since the
trees to come were the given ones stays as it is written. -/
def definition (start : List Tree) (a : Alias) (text : String) : Rule Fragment := do
  if a.value != "" && !a.hasColon then return { text }
  else return ⟨← writtenSince start, true⟩

/-! ## Items of traits -/

/-- Reads a function of which the body may be left out. -/
def method (g : Grammar) : Rule String := do
  let signature ← g.signature
  return signature ++ (← if isSign ";" (← get) then sign ";" else g.block)

/-- Reads what stands in a trait. With a visibility or as a default it stays as it is written. -/
def traitMember (g : Grammar) : Rule String := do
  attributed do
    let start ← get
    let head ← inOrder [visibility, word? "default"]
    let trees ← get
    let text ←
      if startsFunction trees then g.method
      else if isWord "const" trees then
        pure ((← word "const") ++ (← g.constantBody).1)
      else if isWord "type" trees then do
        let a ← g.aliasParts
        pure (a.head ++ a.bounds ++ a.value ++ a.clause ++ ";")
      else macroStatement
    if head == "" then return { text } else return ⟨← writtenSince start, true⟩

/-! ## Items of implementations -/

/-- Reads what stands in an implementation. -/
def implementationMember (g : Grammar) : Rule String := do
  attributed do
    let start ← get
    let isCall (trees : List Tree) := isWord "default" trees && isSign "!" (trees.drop 1)
    let head ← inOrder [visibility, optionally (!isCall ·) (word? "default")]
    let trees ← get
    if startsFunction trees then return { text := head ++ (← g.method) }
    else if isWord "const" trees then
      let word ← word "const"
      let (text, isComplete) ← g.constantBody
      if isComplete then return { text := head ++ word ++ text }
      else return ⟨← writtenSince start, true⟩
    else if isWord "type" trees then
      let a ← g.aliasParts
      definition start a (head ++ a.head ++ a.value ++ a.clause ++ ";")
    else return { text := head ++ (← macroStatement) }

/-- Whether parameters of an implementation are to come, and not a type in angle brackets. -/
def startsParameters (trees : List Tree) : Bool :=
  let second := trees.drop 1
  let third := second.drop 1
  isSign "<" trees &&
    (isAnySign [">", "#"] second || isWord "const" second ||
      ((isName second || isLifetime second) && isAnySign [":", ",", ">", "="] third))

/-- Reads an implementation. With a visibility, as a constant one, or of what is no trait it stays
as it is written; so does the type of one that denies nothing but a type. -/
def implementationItem (g : Grammar) : Rule Fragment := do
  let start ← get
  let who ← visibility
  let head ← inOrder [
    word? "default", word? "unsafe", word "impl", optionally startsParameters g.parameters]
  let mark := optionally (fun trees => isWord "const" (trees.drop 1)) (sign? "?")
  let constant ← inOrder [mark, word? "const"]
  let begin ← get
  let denial ← optionally (fun trees => !isGroup .braces (trees.drop 1)) (sign? "!")
  let first ← g.type true
  let isTrait := match first.form with
    | .path path => path.qualifier?.isNone
    | _ => false
  let isFor := isWord "for" (← get)
  let type ←
    if isFor then inOrder [pure (denial ++ first.text), word "for", g.anyType]
    else if denial == "" then pure first.text
    else writtenSince begin
  let text := head ++ type ++ (← g.whereClause) ++ (← itemsInBraces g.implementationMember)
  if who != "" || constant != "" || (isFor && !isTrait) then
    return ⟨← writtenSince start, true⟩
  else return { text }

/-! ## Foreign items -/

/-- Reads what stands in a block of foreign items. A function with a body, a variable with a value
and a type stay as they are written. -/
def foreignMember (g : Grammar) : Rule String := do
  attributed do
    let start ← get
    let head ← visibility
    let trees ← get
    if startsFunction trees then
      let signature ← g.signature
      if isSign ";" (← get) then return { text := head ++ signature ++ (← sign ";") }
      else
        let _ ← g.block
        return ⟨← writtenSince start, true⟩
    else if isWord "static" trees then
      let word ← inOrder [word "static", word? "mut"]
      let (text, hasValue) ← g.constantBody
      if hasValue then return ⟨← writtenSince start, true⟩
      else return { text := head ++ word ++ text }
    else if isWord "type" trees then
      let _ ← g.aliasParts
      return ⟨← writtenSince start, true⟩
    else return { text := head ++ (← macroStatement) }

/-- Reads a block of foreign items. -/
def foreignItem (g : Grammar) : Rule String :=
  inOrder [callForm, itemsInBraces g.foreignMember]

/-! ## Traits and modules -/

/-- Whether bounds are at an end: a clause, a body or a semicolon is to come. -/
def endsSupertraits (trees : List Tree) : Bool :=
  isWord "where" trees || isGroup .braces trees || isSign ";" trees

/-- Reads a trait, or a name for a sum of traits. -/
def traitItem (g : Grammar) : Rule String := do
  let head ← inOrder [word? "unsafe", word? "auto", g.dataHead "trait"]
  if isSign "=" (← get) then
    return head ++ (← inOrder [
      sign "=", list "+" endsSupertraits g.readBound, g.whereClause, sign ";"])
  else
    let colon ← sign? ":"
    let bounds ← if colon == "" then pure "" else list "+" endsSupertraits g.readBound
    return head ++ (if bounds == "" then "" else colon ++ bounds) ++
      (← inOrder [g.whereClause, itemsInBraces g.traitMember])

/-- Reads a module. -/
def moduleItem (g : Grammar) : Rule String := do
  let head ← inOrder [word "mod", anyWord]
  let body := itemsInBraces (attributed g.item)
  return head ++ (← if isSign ";" (← get) then sign ";" else body)

/-! ## Items -/

/-- Reads a function. -/
def functionItem (g : Grammar) : Rule Fragment := do
  let start ← get
  let head ← inOrder [visibility, g.signature]
  if isSign ";" (← get) then
    let _ ← sign ";"
    return ⟨← writtenSince start, true⟩
  else return { text := head ++ (← g.block) }

/-- Reads a constant or a variable for the whole program. -/
def constantItem (g : Grammar) : Rule Fragment := do
  let start ← get
  let head ← inOrder [visibility, anyWord, word? "mut"]
  let (text, isComplete) ← g.constantBody
  if isComplete then return { text := head ++ text } else return ⟨← writtenSince start, true⟩

/-- Reads a name for a type. -/
def aliasItem (g : Grammar) : Rule Fragment := do
  let start ← get
  let head ← visibility
  let a ← g.aliasParts
  definition start a (head ++ a.head ++ a.clause ++ a.value ++ ";")

/-- Reads the declaration of a macro, as it is written. -/
def macroDeclaration : Rule String :=
  inOrder [
    visibility, word "macro", name, optionally (isGroup .parentheses) anyGroup,
    takeIf (isGroup .braces) 1]

/-- Reads an item without the attributes in front of it. It is told by what follows the visibility.
-/
def readItem (g : Grammar) : Rule Fragment := do
  let trees := (visibility.rest? (← get)).getD []
  let next := trees.drop 1
  let visible (rule : Rule String) := normal (inOrder [visibility, rule])
  if startsFunction trees then g.functionItem
  else if isWord "extern" trees then
    if isWord "crate" next then normal throughSemicolon else normal g.foreignItem
  else if isWord "use" trees then normal throughSemicolon
  else if isAnyWordOf ["static", "const"] trees then g.constantItem
  else if isWord "unsafe" trees && isWord "extern" next then
    asWritten (inOrder [visibility, word "unsafe", g.foreignItem])
  else if isWord "unsafe" trees && isWord "mod" next then
    asWritten (inOrder [visibility, word "unsafe", g.moduleItem])
  else if isWord "mod" trees then visible g.moduleItem
  else if isWord "type" trees then g.aliasItem
  else if isWord "existential" trees && isWord "type" next then asWritten throughSemicolon
  else if isWord "struct" trees then visible g.structItem
  else if isWord "enum" trees then visible g.enumItem
  else if isWord "union" trees && isName next then visible g.unionItem
  else if isWord "trait" trees || (isAnyWordOf ["unsafe", "auto"] trees && (isWord "trait" next ||
      (isWord "auto" next && isWord "trait" (next.drop 1)))) then visible g.traitItem
  else if isWord "macro" trees then normal macroDeclaration
  else if isAnyWordOf ["impl", "unsafe"] trees || (isWord "default" trees && !isSign "!" next) then
    g.implementationItem
  else normal macroStatement

end MemoKey.Derive.Grammar
