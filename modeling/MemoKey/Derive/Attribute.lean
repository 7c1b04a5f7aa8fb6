import MemoKey.Derive.Grammar.Rule

/-!
# Attributes of fields

The attribute of the deriving rule stands alone, has a value assigned to it, or has a list of
options. An option is a literal or a path, and a path may again have a list or a value. An attribute
that is not written in this way is malformed, and the first thing that is missing is its fault.
Attributes with another name belong to something else and are not looked into.

As with types, it is a parser taken from elsewhere that reads attributes. The rules for deriving
begin where options are taken from what has been read.

* `Attribute` is what an attribute says, `Attribute.ofText` reads one.
* `AttributeFault` is why an attribute cannot be read, `AttributeFault.message` its text.
-/

namespace MemoKey.Derive

/-! ## Faults -/

/-- What may be missing in an attribute. -/
inductive Expected where
  /-- An option: a path or a literal. -/
  | option
  /-- A comma between two options. -/
  | comma
  /-- The literal that is assigned. -/
  | literal
  /-- The segment of a path that a double colon promises. -/
  | segment
  deriving DecidableEq, Inhabited

/-- How a thing that is missing is named. -/
def Expected.name : Expected → String
  | option => "identifier or literal"
  | comma => "\x60,\x60"
  | literal => "literal"
  | segment => "path segment"

/-- Why an attribute cannot be read. -/
inductive AttributeFault where
  /-- Something is missing, perhaps because the brackets or the attribute are at an end. -/
  | missing (what : Expected) (atEnd : Bool)
  /-- Something follows a complete attribute. -/
  | leftover
  /-- A literal has no place in the grammar. -/
  | unknownLiteral
  deriving DecidableEq, Inhabited

/-- The text of a fault. -/
def AttributeFault.message : AttributeFault → String
  | missing what atEnd =>
    (if atEnd then "unexpected end of input, " else "") ++ "expected " ++ what.name
  | leftover => "unexpected token"
  | unknownLiteral => "unknown literal"

/-! ## Attributes -/

/-- One option in an attribute list. -/
inductive OptionItem where
  /-- A single word. -/
  | word (path : String)
  /-- Anything else: a longer path, a call, an assignment or a literal. -/
  | other
  deriving DecidableEq, Inhabited

/-- An attribute of a field. -/
inductive Attribute where
  /-- The attribute of the deriving rule, bare. -/
  | bare
  /-- The attribute of the deriving rule with a value assigned to it. -/
  | assigned
  /-- The attribute of the deriving rule with a list of options. -/
  | options (items : List OptionItem)
  /-- The attribute of the deriving rule, written in a way that cannot be read. -/
  | malformed (fault : AttributeFault)
  /-- An attribute of something else. -/
  | foreign
  deriving DecidableEq, Inhabited

namespace Attribute

open Derive.Tree

/-- Reads from the front of a list of trees, or finds a fault. -/
abbrev Reader := StateT (List Tree) (Except AttributeFault)

/-- Finds that something is missing. -/
def missing (what : Expected) : Reader α := do
  throw (.missing what (← get).isEmpty)

/-- Passes over a number of trees. -/
def skip (count : Nat) : Reader Unit :=
  modify (·.drop count)

/-- Finds that a literal has no place in the grammar, if one is to come. -/
def refuseUnknown : Reader Unit := do
  if isUnknownLiteral (← get) then throw .unknownLiteral

/-- Reads a literal. -/
def literal : Reader Unit := do
  refuseUnknown
  let length := literalLength (← get)
  if length == 0 then missing .literal else skip length

/-- Reads the words of a path, at most a number of them. -/
def words : Nat → Reader (List String)
  | 0 => missing .segment
  | bound + 1 => do
    match ← get with
    | .leaf (.word w) :: rest =>
      set rest
      if isSign "::" rest then
        skip 2
        return w :: (← words bound)
      else return [w]
    | _ => missing .segment

/-- Reads options with commas between them, at most a number of them. A comma may follow the last
one. -/
def items (item : Reader OptionItem) : Nat → Reader (List OptionItem)
  | 0 => return []
  | bound + 1 => do
    if (← get).isEmpty then return []
    let first ← item
    let next ← get
    if next.isEmpty then return [first]
    else if isSign "," next then
      skip 1
      return first :: (← items item bound)
    else missing .comma

/-- The options that trees are, given what reads one. -/
def itemsOf (item : Reader OptionItem) (trees : List Tree) :
    Except AttributeFault (List OptionItem) :=
  (items item trees.length).run' trees

/-- Reads an option in which lists are at most a number deep. -/
def item : Nat → Reader OptionItem
  | 0 => missing .option
  | bound + 1 => do
    refuseUnknown
    let trees ← get
    let isAssignedTruth := isAnyWord trees && isSign "=" (trees.drop 1)
    let isAbsolute := isSign "::" trees && isAnyWord (trees.drop 2)
    if isLiteral trees && !isAssignedTruth then
      literal
      return .other
    else if isAbsolute || isAnyWord trees then
      if isAbsolute then skip 2
      let words ← words trees.length
      match ← get with
      | .group .parentheses inner :: rest =>
        let _ ← itemsOf (item bound) inner
        set rest
        return .other
      | next =>
        if isSign "=" next then
          skip 1
          literal
          return .other
        else
          match isAbsolute, words with
          | false, [w] => return .word w
          | _, _ => return .other
    else missing .option

/-- Reads what follows the name of the attribute, with lists in it at most a number deep. -/
def form (bound : Nat) : Reader Attribute := do
  match ← get with
  | .group .parentheses inner :: rest =>
    let items ← itemsOf (item bound) inner
    set rest
    return .options items
  | next =>
    if isSign "=" next then
      skip 1
      literal
      return .assigned
    else return .bare

/-- What follows the name of the attribute. Nothing may be left of it. -/
def ofForm (bound : Nat) (trees : List Tree) : Attribute :=
  match (form bound).run trees with
  | .ok (read, []) => read
  | .ok _ => .malformed .leftover
  | .error fault => .malformed fault

/-- The attribute that is written with a given text. That of the deriving rule is told by its name
alone: a longer path and a raw name are other names. -/
def ofText (text : String) : Attribute :=
  match Tree.ofText? text with
  | some (.leaf (.word "reflect") :: rest) =>
    if isSign "::" rest then .foreign else ofForm text.length rest
  | _ => .foreign

end Attribute

end MemoKey.Derive
