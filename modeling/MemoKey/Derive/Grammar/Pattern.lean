import MemoKey.Derive.Grammar.Bound

/-!
# The grammar of patterns

Some patterns stay as they are written: a range that is open on one side, a block of constants, a
struct or a tuple whose path is qualified, and a struct with attributes in front of the points that
stand for its other fields.

* `Grammar.readPattern` reads a pattern, `Grammar.alternatives` patterns with bars between them.
* `Member` says how fields are named where they are used.
-/

namespace MemoKey.Derive

/-! ## Members -/

namespace Member

/-- The value of a digit, in any base. -/
def digitValue (c : Char) : Nat :=
  if c.isDigit then c.toNat - '0'.toNat
  else if 'a' ≤ c && c ≤ 'f' then c.toNat - 'a'.toNat + 10
  else c.toNat - 'A'.toNat + 10

/-- The number with given digits in a base. -/
def number (base : Nat) (digits : List Char) : Nat :=
  digits.foldl (fun n c => base * n + digitValue c) 0

/-- The index that a numeral stands for, in decimal digits. -/
def index (numeral : String) : String :=
  toString <| match numeral.toList.filter (· != '_') with
    | '0' :: 'x' :: digits => number 16 digits
    | '0' :: 'o' :: digits => number 8 digits
    | '0' :: 'b' :: digits => number 2 digits
    | digits => number 10 digits

end Member

namespace Grammar

open Derive.Tree Rule

/-- Whether the name of a field is to come, and not its index. -/
def isFieldName (trees : List Tree) : Bool :=
  isName trees

/-- Reads the name of a field or its index. -/
def member : Rule String := do
  if isFieldName (← get) then name else return Member.index (← literal)

/-! ## Parts of patterns -/

/-- Reads patterns with bars between them and perhaps in front of them. A double bar and an
assignment are no bars. -/
def alternatives (g : Grammar) : Rule String := do
  let isBar (trees : List Tree) := isSign "|" trees && !isAnySign ["||", "|="] trees
  let bar ← sign? "|"
  let first ← g.pattern
  let one := inOrder [sign "|", (·.text) <$> g.pattern]
  return bar ++ first.text ++ String.join (← manyUpTo (!isBar ·) one (← get).length)

/-- Reads constants in braces, as they are written. -/
def constantBraces : Rule String :=
  inOrder [word "const", takeIf (isGroup .braces) 1]

/-- Whether a range is open at its end. -/
def endsRange (trees : List Tree) : Bool :=
  trees.isEmpty || isAnySign ["|", "=", ",", ";"] trees || isColon trees || isWord "if" trees

/-- Reads the limit of a range. -/
def limit (g : Grammar) : Rule String := do
  let minus ← sign? "-"
  let trees ← get
  if isLiteral trees then return minus ++ (← literal)
  else if isWord "const" trees then return minus ++ (← constantBraces)
  else return minus ++ (← attributes) ++ (← g.qualifiedPath false).text

/-- How many characters the points of a range have that includes its upper limit. There is an older
way to write them. -/
def closedPointsLength (trees : List Tree) : Nat :=
  if isAnySign ["..=", "..."] trees then 3 else 0

/-- Reads the points of a range. -/
def rangePoints : Rule String := do
  let closed := closedPointsLength (← get)
  if closed == 0 then sign ".."
  else
    let _ ← take closed
    return "..="

/-- Reads a range after its lower limit. Without an upper one it stays as it is written. -/
def rangeFrom (g : Grammar) (start : List Tree) (lower : String) : Rule Fragment := do
  let points ← rangePoints
  if endsRange (← get) then return ⟨← writtenSince start, true⟩
  else return { text := lower ++ points ++ (← g.limit) }

/-! ## Structs -/

/-- Reads a field in the pattern of a struct. Says too whether attributes stand in front of the
points for the other fields. The words in front of an index are left out. -/
def fieldPattern (g : Grammar) : Rule (String × Bool) := do
  let attributes ← attributes
  if isSign ".." (← get) then return (attributes ++ (← sign ".."), attributes != "")
  else
    let mode := (← word? "box") ++ (← word? "ref") ++ (← word? "mut")
    let isNamed := isFieldName (← get)
    let member ← member
    if !isNamed || (mode == "" && isColon (← get)) then
      return (attributes ++ member ++ (← sign ":") ++ (← g.alternatives), false)
    else return (attributes ++ mode ++ member, false)

/-- Reads the fields in the pattern of a struct. -/
def fieldPatterns (g : Grammar) : Rule Fragment := do
  let fields ← inside .braces (separated "," List.isEmpty g.fieldPattern)
  let text := String.join (fields.map fun (f, isClosed) => f.1 ++ if isClosed then "," else "")
  return ⟨Delimiter.braces.enclose text, fields.any (·.1.2)⟩

/-- Reads patterns between parentheses. -/
def tuplePattern (g : Grammar) : Rule String :=
  enclosed .parentheses (commaList g.alternatives)

/-- Reads a pattern that starts with a path: the call of a macro, a struct, a tuple, a range or the
path alone. -/
def pathPattern (g : Grammar) : Rule Fragment := do
  let start ← get
  let path ← g.qualifiedPath false
  let isQualified := path.qualifier?.isSome
  let next ← get
  if !isQualified && isSign "!" next && !isSign "!=" next && !path.hasArguments then
    return { text := path.text ++ (← sign "!") ++ (← anyGroup) }
  else if isGroup .braces next then
    let fields ← g.fieldPatterns
    if isQualified || fields.isWritten then return ⟨← writtenSince start, true⟩
    else return { text := path.text ++ fields.text }
  else if isGroup .parentheses next then
    let fields ← g.tuplePattern
    if isQualified then return ⟨← writtenSince start, true⟩
    else return { text := path.text ++ fields }
  else if isSign ".." next then g.rangeFrom start path.text
  else return { text := path.text }

/-! ## Patterns -/

/-- Whether a name is to come that starts a path, a macro, a struct, a tuple or a range. -/
def startsPathPattern (trees : List Tree) : Bool :=
  let next := trees.drop 1
  let afterRange := next.drop (max 2 (closedPointsLength next))
  isName trees &&
      (isAnySign ["::", "!"] next || isGroup .braces next || isGroup .parentheses next ||
        (isSign ".." next && !(afterRange.isEmpty || isSign "," afterRange))) ||
    isWord "self" trees && isSign "::" next ||
    isAnySign ["::", "<"] trees || isAnyWordOf ["Self", "super", "crate"] trees

/-- Reads a name that is bound, perhaps to what fits another pattern. -/
def nameBinding (g : Grammar) : Rule String := do
  let mode := (← word? "ref") ++ (← word? "mut")
  let name ← anyWord
  let pattern ← optionally (isSign "@") (inOrder [sign "@", (·.text) <$> g.pattern])
  return mode ++ name ++ pattern

/-- Reads a pattern that starts with a literal or a block of constants. -/
def literalPattern (g : Grammar) : Rule Fragment := do
  let start ← get
  let limit ← g.limit
  if isSign ".." (← get) then g.rangeFrom start limit
  else return ⟨limit, isWord "const" start⟩

/-- Reads a pattern. -/
def readPattern (g : Grammar) : Rule Fragment := do
  let trees ← get
  if startsPathPattern trees then g.pathPattern
  else if isWord "_" trees then return { text := ← anyWord }
  else if isWord "box" trees then return { text := (← word "box") ++ (← g.pattern).text }
  else if isSign "-" trees || isLiteral trees || isWord "const" trees then g.literalPattern
  else if isAnyWordOf ["ref", "mut", "self"] trees || isName trees then
    return { text := ← g.nameBinding }
  else if isSign "&" trees then
    return { text := (← sign "&") ++ (← word? "mut") ++ (← g.pattern).text }
  else if isGroup .parentheses trees then return { text := ← g.tuplePattern }
  else if isGroup .brackets trees then
    return { text := ← enclosed .brackets (commaList g.alternatives) }
  else
    let points ← rangePoints
    if endsRange (← get) then return { text := points }
    else
      let _ ← g.limit
      return ⟨← writtenSince trees, true⟩

end Grammar

end MemoKey.Derive
