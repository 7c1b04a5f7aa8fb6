import MemoKey.Derive.Grammar.Rule

/-!
# The grammar of paths

The parts of the grammar of types call each other in circles: a type holds paths, a path holds
types and, in constant arguments, whole blocks with statements and items. `Grammar` lists the parts
that are called from elsewhere. Every rule takes them from a grammar, and `Grammar.step` in the
module of the grammar builds the next grammar from them.

A path is a row of segments with arguments. Generic arguments are put into normal form: lifetimes
come first. In an expression they follow a double colon, in a type they need not.

* `Path` is a path, `Path.last?` the name of its last segment.
* `Grammar.path` and `Grammar.qualifiedPath` read paths.
* `Grammar.argument` reads a generic argument.
-/

namespace MemoKey.Derive

/-! ## Paths -/

/-- The arguments of a segment. -/
inductive Arguments where
  /-- There are none. -/
  | none
  /-- Arguments in angle brackets, and whether nothing stands in them. -/
  | angled (text : String) (isEmpty : Bool)
  /-- The inputs of a function with its result. -/
  | inputs (text : String)
  deriving DecidableEq, Inhabited

namespace Arguments

/-- How arguments are written. -/
def text : Arguments → String
  | none => ""
  | angled text _ => text
  | inputs text => text

/-- Whether inputs of a function may take the place. -/
def isVacant : Arguments → Bool
  | none => true
  | angled _ isEmpty => isEmpty
  | inputs _ => false

end Arguments

/-- A segment of a path. -/
structure Segment where
  name : String
  arguments : Arguments
  deriving DecidableEq, Inhabited

/-- How a segment is written. -/
def Segment.text (s : Segment) : String :=
  s.name ++ s.arguments.text

/-- A path. -/
structure Path where
  /-- The qualification with its angle brackets, if there is one. -/
  qualifier? : Option String := none
  /-- Whether a double colon stands in front of the segments. -/
  isAbsolute : Bool := false
  /-- The segments, those of the qualification left out. -/
  segments : List Segment
  deriving DecidableEq, Inhabited

namespace Path

/-- How a path is written. -/
def text (p : Path) : String :=
  p.qualifier?.getD "" ++ (if p.isAbsolute then "::" else "") ++
    "::".intercalate (p.segments.map (·.text))

/-- The name of the last segment. -/
def last? (p : Path) : Option String :=
  p.segments.getLast?.map (·.name)

/-- Whether a segment has arguments. -/
def hasArguments (p : Path) : Bool :=
  p.segments.any (·.arguments != .none)

/-- Whether inputs of a function may follow the last segment. -/
def isOpen (p : Path) : Bool :=
  p.segments.getLast?.any (·.arguments.isVacant)

/-- The path with inputs of a function at the last segment. -/
def withInputs (p : Path) (inputs : String) : Path :=
  match p.segments.getLast? with
  | some s => { p with segments := p.segments.dropLast ++ [{ s with arguments := .inputs inputs }] }
  | none => p

/-- Whether the path is one name with arguments in angle brackets. -/
def isAppliedName (p : Path) : Bool :=
  p.qualifier?.isNone && !p.isAbsolute &&
    match p.segments with
    | [⟨_, .angled _ _⟩] => true
    | _ => false

end Path

/-! ## Grammars -/

/-- What the rules around a type have to know about it. -/
inductive TypeForm where
  /-- The type is a path. -/
  | path (path : Path)
  /-- The type is a single bound that is no path. Parentheses around the bound are left out. -/
  | bound (text : String)
  /-- The type stands in parentheses. -/
  | parenthesized
  /-- The type is something else. -/
  | other
  deriving DecidableEq, Inhabited

/-- A type in normal form. -/
structure TypeText where
  /-- The text. -/
  text : String
  /-- What the type is. -/
  form : TypeForm
  deriving DecidableEq, Inhabited

/-- The parts of a grammar that are called in circles. -/
structure Grammar where
  /-- A type. It may be a sum of bounds only where that is allowed. -/
  type : Bool → Rule TypeText
  /-- A bound. -/
  bound : Rule String
  /-- An expression. It may be the literal of a struct only where that is allowed. -/
  expression : Bool → Rule String
  /-- An operand of an expression, with the same restriction. -/
  operand : Bool → Rule Fragment
  /-- An expression that is complete where it ends with a block. -/
  early : Rule String
  /-- A pattern. -/
  pattern : Rule Fragment
  /-- Statements in braces. -/
  block : Rule String
  /-- An item, without the attributes in front of it. -/
  item : Rule Fragment

/-- The grammar in which nothing can be read. -/
def Grammar.nothing : Grammar where
  type _ := Rule.never
  bound := Rule.never
  expression _ := Rule.never
  operand _ := Rule.never
  early := Rule.never
  pattern := Rule.never
  block := Rule.never
  item := Rule.never

namespace Grammar

open Derive.Tree Rule

/-- Reads the text of a type that may be a sum. -/
def anyType (g : Grammar) : Rule String := do
  return (← g.type true).text

/-- Reads the text of a type that is no sum. -/
def singleType (g : Grammar) : Rule String := do
  return (← g.type false).text

/-- Reads the result of a function, if one is stated. -/
def result (g : Grammar) (allowsSum : Bool) : Rule String :=
  optionally (isSign "->") (inOrder [sign "->", (·.text) <$> g.type allowsSum])

/-! ## Generic arguments -/

/-- Reads a block in braces as a constant argument. -/
def constantBlock (g : Grammar) : Rule String :=
  inOrder [attributes, g.block]

/-- Reads what is equated to an associated type. A literal and a block stay as they are written. -/
def equatedType (g : Grammar) : Rule String := do
  let start ← get
  if isLiteral start then literal
  else if isGroup .braces start then
    let _ ← g.constantBlock
    writtenSince start
  else g.anyType

/-- Reads the bounds of an associated type. -/
def constraint (g : Grammar) : Rule String :=
  list "+" (isAnySign [",", ">"]) g.bound

/-- Reads a type as a generic argument. If it is a name with arguments, it may go on as the name of
an associated type that is equated or bounded, and then all of it stays as it is written. -/
def typeArgument (g : Grammar) : Rule String := do
  let start ← get
  let type ← g.type true
  let isAppliedName := match type.form with
    | .path path => path.isAppliedName
    | _ => false
  let next ← get
  if isAppliedName && isSign "=" next then
    let _ ← sign "="
    let _ ← g.anyType
    writtenSince start
  else if isAppliedName && isSign ":" next then
    let _ ← sign ":"
    let _ ← g.constraint
    writtenSince start
  else return type.text

/-- Reads a generic argument. -/
def argument (g : Grammar) : Rule Argument := do
  let trees ← get
  let next := trees.drop 1
  if isLifetime trees && !isSign "+" next then return ⟨← lifetime, true⟩
  else if isName trees && isSign "=" next then
    return ⟨(← name) ++ (← sign "=") ++ (← g.equatedType), false⟩
  else if isName trees && isColon next then
    return ⟨(← name) ++ (← sign ":") ++ (← g.constraint), false⟩
  else if isLiteral trees then return ⟨← literal, false⟩
  else if isGroup .braces trees then return ⟨← g.constantBlock, false⟩
  else return ⟨← g.typeArgument, false⟩

/-- Reads generic arguments in angle brackets. A double colon in front is kept. -/
def angledArguments (g : Grammar) : Rule Arguments := do
  let colons ← sign? "::"
  let opener ← sign "<"
  let arguments ← separated "," (isSign ">") g.argument
  let closer ← sign ">"
  return .angled (colons ++ opener ++ Argument.list arguments ++ closer) arguments.isEmpty

/-- Reads the inputs of a function with its result. Says too whether segments may follow: they may
if no result is stated, or one in parentheses. -/
def inputs (g : Grammar) : Rule (String × Bool) := do
  let types ← enclosed .parentheses (commaList g.anyType)
  if isSign "->" (← get) then
    let arrow ← sign "->"
    let type ← g.type false
    return (types ++ arrow ++ type.text, type.form == .parenthesized)
  else return (types, true)

/-! ## Reading paths -/

/-- Whether inputs of a function are to come. A double colon may stand in front. -/
def startsInputs (trees : List Tree) : Bool :=
  isGroup .parentheses trees || (isSign "::" trees && isGroup .parentheses (trees.drop 2))

/-- Reads a segment. Angle brackets hold arguments after a double colon, and in a type after a name
too. -/
def segment (g : Grammar) (isType : Bool) : Rule Segment := do
  let trees ← get
  if isAnyWordOf ["super", "self", "crate", "try"] trees then return ⟨← anyWord, .none⟩
  else
    let name ← if isWord "Self" trees then anyWord else Rule.name
    let next ← get
    let isAngled := (isType && isSign "<" next && !isSign "<=" next) ||
      (isSign "::" next && isSign "<" (next.drop 2))
    return ⟨name, ← if isAngled then g.angledArguments else pure .none⟩

/-- Reads the segments that follow, each after a double colon. -/
def furtherSegments (g : Grammar) (isType : Bool) : Rule (List Segment) := do
  let isEnd (trees : List Tree) := !isSign "::" trees || isGroup .parentheses (trees.drop 2)
  manyUpTo isEnd (do let _ ← sign "::"; g.segment isType) (← get).length

/-- Reads a path that is not qualified. -/
def path (g : Grammar) (isType : Bool) : Rule Path := do
  let isAbsolute := (← sign? "::") != ""
  let first ← g.segment isType
  return { isAbsolute, segments := first :: (← g.furtherSegments isType) }

/-- Reads a path. It may be qualified by a type, or by a type as one that has a trait. -/
def qualifiedPath (g : Grammar) (isType : Bool) : Rule Path := do
  if isSign "<" (← get) then
    let opener ← sign "<"
    let type ← g.anyType
    let trait ← optionally (isWord "as") (inOrder [word "as", (·.text) <$> g.path true])
    let closer ← sign ">"
    let colons ← sign "::"
    let first ← g.segment isType
    return {
      qualifier? := some (opener ++ type ++ trait ++ closer ++ colons)
      segments := first :: (← g.furtherSegments isType) }
  else g.path isType

/-- Reads the inputs of functions that follow a path, at most a number of times. Segments may
follow inputs, and inputs the last one of these. -/
def pathWithInputs (g : Grammar) : Nat → Path → Rule Path
  | 0, p => return p
  | bound + 1, p => do
    if p.isOpen && startsInputs (← get) then
      let _ ← sign? "::"
      let (inputs, goesOn) ← g.inputs
      let p := p.withInputs inputs
      if goesOn then
        g.pathWithInputs bound { p with segments := p.segments ++ (← g.furtherSegments true) }
      else return p
    else return p

/-- Reads a path as a type. -/
def typePath (g : Grammar) : Rule Path := do
  let p ← g.qualifiedPath true
  g.pathWithInputs (← get).length p

/-- Reads a path of names alone. -/
def plainPath : Rule String := do
  let colons ← sign? "::"
  let names ← separated "::" (!isSegment ·) anyWord
  if names.isEmpty then never
  return colons ++ "::".intercalate (names.map (·.1))

end Grammar

end MemoKey.Derive
