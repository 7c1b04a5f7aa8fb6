import MemoKey.Derive.Grammar.Function

/-!
# The grammar of data types

* `Grammar.structItem`, `Grammar.enumItem` and `Grammar.unionItem` read declarations of types, after
  the visibility.
-/

namespace MemoKey.Derive.Grammar

open Derive.Tree Rule

/-! ## Fields -/

/-- Whether a struct or a union is to come that is declared in place. -/
def startsNameless (trees : List Tree) : Bool :=
  isWord "struct" trees || (isWord "union" trees && isGroup .braces (trees.drop 1))

/-- Reads a field with a name. If an underscore stands for the name, the type may be declared in
place, and stays as it is written. -/
def namedField (g : Grammar) : Rule String := do
  let head ← inOrder [attributes, visibility]
  let isNameless := isWord "_" (← get)
  let label ← inOrder [anyWord, sign ":"]
  let isInPlace := isNameless && startsNameless (← get)
  return head ++ label ++ (← if isInPlace then take 2 else g.anyType)

/-- Reads a field without a name. -/
def tupleField (g : Grammar) : Rule String :=
  inOrder [attributes, visibility, g.anyType]

/-- Reads fields with names. -/
def namedFields (g : Grammar) : Rule String :=
  enclosed .braces (commaList g.namedField)

/-- Reads fields without names. -/
def tupleFields (g : Grammar) : Rule String :=
  enclosed .parentheses (commaList g.tupleField)

/-! ## Types -/

/-- Reads what all declarations of types start with. -/
def dataHead (g : Grammar) (keyword : String) : Rule String :=
  inOrder [word keyword, name, g.parameters]

/-- Reads a struct. The clause of bounds follows the fields of a tuple and is in front of others. -/
def structItem (g : Grammar) : Rule String := do
  let head ← g.dataHead "struct"
  if isGroup .parentheses (← get) then
    return head ++ (← inOrder [g.tupleFields, g.whereClause, sign ";"])
  else
    let clause ← g.whereClause
    return head ++ clause ++ (← if isSign ";" (← get) then sign ";" else g.namedFields)

/-- Reads a variant. A visibility in front of it is left out. -/
def variant (g : Grammar) : Rule String := do
  let attributes ← attributes
  let _ ← visibility
  let name ← name
  let trees ← get
  let fields ←
    if isGroup .braces trees then g.namedFields
    else if isGroup .parentheses trees then g.tupleFields
    else pure ""
  let value ← optionally (isSign "=") (inOrder [sign "=", g.expression true])
  return attributes ++ name ++ fields ++ value

/-- Reads an enum. -/
def enumItem (g : Grammar) : Rule String :=
  inOrder [g.dataHead "enum", g.whereClause, enclosed .braces (commaList g.variant)]

/-- Reads a union. -/
def unionItem (g : Grammar) : Rule String :=
  inOrder [g.dataHead "union", g.whereClause, g.namedFields]

end MemoKey.Derive.Grammar
