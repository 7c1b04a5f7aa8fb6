import MemoKey.Derive.Tree

/-!
# Rules

A rule of the grammar reads trees from the front of a list and says what it has read, or does not
apply. What most rules say is a text: the normal form of what they read.

* `Rule` is the type of rules, `Misfit` why a rule reads nothing.
* The functions in `Tree` from `isSign` on look at what is to come without reading it.
* `Rule.sign`, `Rule.word`, `Rule.name` and the like read one thing; `Rule.enclosed`,
  `Rule.separated` and `Rule.many` combine rules; `Rule.writtenSince` gives what was read as it is
  written and not in normal form.
-/

namespace MemoKey.Derive

namespace Tree

/-! ## Looking ahead -/

/-- Whether trees start with the characters of a sign, each joined to the next. -/
def isSignOf : List Char → List Tree → Bool
  | [c], leaf (.sign d _) :: _ => c == d
  | c :: more, leaf (.sign d isJoined) :: rest => c == d && isJoined && isSignOf more rest
  | _, _ => false

/-- Whether trees start with a sign. The sign may go on. -/
def isSign (sign : String) (trees : List Tree) : Bool :=
  isSignOf sign.toList trees

/-- Whether trees start with one of some signs. -/
def isAnySign (signs : List String) (trees : List Tree) : Bool :=
  signs.any (isSign · trees)

/-- Whether trees start with a word. -/
def isWord (word : String) : List Tree → Bool
  | leaf (.word w) :: _ => w == word
  | _ => false

/-- Whether trees start with one of some words. -/
def isAnyWordOf (words : List String) : List Tree → Bool
  | leaf (.word w) :: _ => words.contains w
  | _ => false

/-- Whether trees start with a word of any kind. -/
def isAnyWord : List Tree → Bool
  | leaf (.word _) :: _ => true
  | _ => false

/-- The words that are no names. -/
def keywords : List String :=
  ["_", "abstract", "as", "become", "box", "break", "const", "continue", "crate", "do", "else",
    "enum", "extern", "false", "final", "fn", "for", "if", "impl", "in", "let", "loop", "macro",
    "match", "mod", "move", "mut", "override", "priv", "pub", "ref", "return", "Self", "self",
    "static", "struct", "super", "trait", "true", "type", "typeof", "unsafe", "unsized", "use",
    "virtual", "where", "while", "yield"]

/-- Whether trees start with a name. -/
def isName : List Tree → Bool
  | leaf (.word w) :: _ => !keywords.contains w
  | _ => false

/-- The keywords that can be segments of a path. -/
def pathKeywords : List String :=
  ["super", "self", "Self", "crate"]

/-- Whether trees start with the first segment of a path. -/
def isSegment (trees : List Tree) : Bool :=
  isName trees || isAnyWordOf pathKeywords trees

/-- Whether trees start with a path that is not qualified. -/
def isPlainPath (trees : List Tree) : Bool :=
  isSegment trees || isSign "::" trees

/-- Whether trees start with a path. -/
def isPath (trees : List Tree) : Bool :=
  isPlainPath trees || isSign "<" trees

/-- Whether trees start with a lifetime. -/
def isLifetime : List Tree → Bool
  | leaf (.lifetime _) :: _ => true
  | _ => false

/-- Whether trees start with brackets of a kind. -/
def isGroup (d : Delimiter) : List Tree → Bool
  | group e _ :: _ => d == e
  | _ => false

/-- Whether trees start with a colon that is not the first half of a double one. -/
def isColon (trees : List Tree) : Bool :=
  isSign ":" trees && !isSign "::" trees

/-- Whether trees start with a point that is not the first one of two. -/
def isPoint (trees : List Tree) : Bool :=
  isSign "." trees && !isSign ".." trees

/-- Whether a literal is a number. -/
def isNumeral (literal : String) : Bool :=
  literal.toList.head?.any Char.isDigit

/-- Whether a literal is of a kind that has a place in the grammar. Texts with a final null character
have none. They are told by the letter in front. -/
def isKnownLiteral (literal : String) : Bool :=
  literal.toList.head? != some 'c'

/-- How many trees make up the literal at the front. A number may have a minus sign. -/
def literalLength : List Tree → Nat
  | leaf (.literal l) :: _ => if isKnownLiteral l then 1 else 0
  | leaf (.word w) :: _ => if w == "true" || w == "false" then 1 else 0
  | leaf (.sign '-' _) :: leaf (.literal l) :: _ => if isNumeral l then 2 else 0
  | _ => 0

/-- Whether trees start with a literal that has no place in the grammar. -/
def isUnknownLiteral : List Tree → Bool
  | leaf (.literal l) :: _ => !isKnownLiteral l
  | _ => false

/-- Whether trees start with a literal. -/
def isLiteral (trees : List Tree) : Bool :=
  literalLength trees != 0

end Tree

/-! ## Rules -/

/-- Why a rule reads nothing. -/
inductive Misfit where
  /-- The rule does not apply. -/
  | mismatch
  /-- What stands there is formed as the rule says, but has no meaning. -/
  | unreadable
  deriving DecidableEq, Inhabited

/-- A rule reads from the front of a list of trees, or says why it reads nothing. -/
abbrev Rule := StateT (List Tree) (Except Misfit)

namespace Rule

/-- The rule that never applies. -/
def never : Rule α :=
  throw .mismatch

/-- What would follow if a rule were applied to trees. -/
def rest? (rule : Rule α) (trees : List Tree) : Option (List Tree) :=
  match rule.run trees with
  | .ok (_, rest) => some rest
  | .error _ => none

/-- Reads a number of trees, as they are written. -/
def take (count : Nat) : Rule String := do
  let trees ← get
  set (trees.drop count)
  return Tree.textOfList (trees.take count)

/-- Reads a number of trees if the trees to come are as required. -/
def takeIf (isFit : List Tree → Bool) (count : Nat) : Rule String := do
  if isFit (← get) then take count else never

/-- Reads a sign. -/
def sign (s : String) : Rule String :=
  takeIf (Tree.isSign s) s.length

/-- Reads a given word. -/
def word (w : String) : Rule String :=
  takeIf (Tree.isWord w) 1

/-- Reads a word of any kind. -/
def anyWord : Rule String :=
  takeIf Tree.isAnyWord 1

/-- Reads a name. -/
def name : Rule String :=
  takeIf Tree.isName 1

/-- Reads a lifetime. -/
def lifetime : Rule String :=
  takeIf Tree.isLifetime 1

/-- Reads a literal. -/
def literal : Rule String := do
  let length := Tree.literalLength (← get)
  if length == 0 then never else take length

/-- Reads brackets of any kind, as they are written. -/
def anyGroup : Rule String :=
  takeIf (fun trees => Delimiter.all.any (Tree.isGroup · trees)) 1

/-- Reads one thing after the other. -/
def inOrder (rules : List (Rule String)) : Rule String := do
  return String.join (← rules.mapM id)

/-- Reads something if the trees to come are as required. -/
def optionally (isFit : List Tree → Bool) (rule : Rule String) : Rule String := do
  if isFit (← get) then rule else return ""

/-- Reads a sign if it is there. -/
def sign? (s : String) : Rule String :=
  optionally (Tree.isSign s) (sign s)

/-- Reads a word if it is there. -/
def word? (w : String) : Rule String :=
  optionally (Tree.isWord w) (word w)

/-- Reads what stands between brackets of a kind, all of it. -/
def inside (d : Delimiter) (rule : Rule α) : Rule α := do
  match ← get with
  | .group e trees :: rest =>
    if d != e then never
    let (a, left) ← rule.run trees
    set rest
    if left.isEmpty then return a else never
  | _ => never

/-- Reads brackets of a kind with what stands between them. -/
def enclosed (d : Delimiter) (rule : Rule String) : Rule String :=
  d.enclose <$> inside d rule

/-- What was read since the trees to come were the given ones, as it is written. -/
def writtenSince (start : List Tree) : Rule String := do
  return Tree.textOfList (start.take (start.length - (← get).length))

/-! ## Repetition -/

/-- Reads things up to an end, at most a number of them. -/
def manyUpTo (isEnd : List Tree → Bool) (rule : Rule α) : Nat → Rule (List α)
  | 0 => return []
  | bound + 1 => do
    if isEnd (← get) then return []
    let a ← rule
    return a :: (← manyUpTo isEnd rule bound)

/-- Reads texts up to the end of the trees. -/
def many (rule : Rule String) : Rule String := do
  return String.join (← manyUpTo List.isEmpty rule (← get).length)

/-- Reads things with separators between them, at most a number of them. Each comes with whether a
separator follows. There is no further thing where there is no separator, or where the end is. -/
def separatedUpTo (separator : String) (isEnd : List Tree → Bool) (rule : Rule α) :
    Nat → Rule (List (α × Bool))
  | 0 => return []
  | bound + 1 => do
    if isEnd (← get) then return []
    let a ← rule
    if Tree.isSign separator (← get) then
      let _ ← sign separator
      return (a, true) :: (← separatedUpTo separator isEnd rule bound)
    else return [(a, false)]

/-- Reads things with separators between them. -/
def separated (separator : String) (isEnd : List Tree → Bool) (rule : Rule α) :
    Rule (List (α × Bool)) := do
  separatedUpTo separator isEnd rule (← get).length

/-- Reads texts with separators between them and perhaps after them. -/
def list (separator : String) (isEnd : List Tree → Bool) (rule : Rule String) : Rule String := do
  let texts ← separated separator isEnd rule
  return String.join (texts.map fun (text, isClosed) => if isClosed then text ++ separator else text)

/-- Reads texts with commas between them, up to the end of the trees. -/
def commaList (rule : Rule String) : Rule String :=
  list "," List.isEmpty rule

/-! ## Attributes -/

/-- Reads attributes of what follows. What stands in an attribute is kept as it is written. -/
def attributes : Rule String := do
  let one := inOrder [sign "#", takeIf (Tree.isGroup .brackets) 1]
  return String.join (← manyUpTo (!Tree.isSign "#" ·) one (← get).length)

/-- Reads attributes of what they stand in. -/
def innerAttributes : Rule String := do
  let isEnd (trees : List Tree) := !(Tree.isSign "#" trees && Tree.isSign "!" (trees.drop 1))
  let one := inOrder [take 2, takeIf (Tree.isGroup .brackets) 1]
  return String.join (← manyUpTo isEnd one (← get).length)

end Rule

/-! ## Normal forms -/

/-- What a rule says where its caller has to know whether the text is a normal form. -/
structure Fragment where
  /-- The text. -/
  text : String
  /-- Whether the text is kept as it is written. -/
  isWritten : Bool := false
  deriving DecidableEq, Inhabited

/-- The attributes and the text they belong to. A text that is kept as it is written has no place
for attributes that were read before it, so that they are lost. -/
def Fragment.withAttributes (f : Fragment) (attributes : String) : String :=
  if f.isWritten then f.text else attributes ++ f.text

/-- What may stand between commas in a list that has lifetimes in front. -/
structure Argument where
  /-- The text in normal form. -/
  text : String
  /-- Whether a lifetime is named or declared. -/
  isLifetime : Bool
  deriving DecidableEq, Inhabited

namespace Argument

/-- Arguments in normal form: the lifetimes, then the others, each in the given order, with commas
between them. A comma ends the list if one followed the argument that has come to stand last. -/
def list (arguments : List (Argument × Bool)) : String :=
  let sorted := arguments.filter (·.1.isLifetime) ++ arguments.filter (!·.1.isLifetime)
  ",".intercalate (sorted.map (·.1.text)) ++ if sorted.getLast?.any (·.2) then "," else ""

end Argument

end MemoKey.Derive
