import MemoKey.Derive.Token

/-!
# Trees of tokens

Brackets come in pairs, so that the tokens of a declaration form trees: a leaf is a token and a
branch is a pair of brackets with the trees between them. What a branch holds can be passed over
without being understood. This is the form in which the compiler gives declarations to the rules
for deriving.

* `Tree` is such a tree, `Tree.text` and `Tree.textOfList` the way trees are written, without
  blanks.
* `Tree.ofText?` reads the trees of a text in which all brackets are paired.
-/

namespace MemoKey.Derive

/-- A token, or brackets with what is between them. -/
inductive Tree where
  /-- A token. -/
  | leaf (token : Token)
  /-- What stands between brackets. -/
  | group (delimiter : Delimiter) (inside : List Tree)
  deriving BEq, Inhabited

namespace Tree

mutual

/-- How a tree is written. -/
def text : Tree → String
  | leaf token => token.text
  | group d inside => d.enclose (textOfList inside)

/-- How trees are written one after the other. -/
def textOfList : List Tree → String
  | [] => ""
  | t :: ts => t.text ++ textOfList ts

end

/-- Brackets that are open: each with the trees in front of it, the last one first, and the trees
that stand in the innermost. -/
structure Open where
  /-- The trees in the innermost bracket, the last one first. -/
  inside : List Tree := []
  /-- The open brackets, the innermost first. -/
  outer : List (Delimiter × List Tree) := []

/-- Takes one lexeme. A bracket closes only its own kind. -/
def Open.feed (o : Open) : Lexeme → Option Open
  | .token token => some { o with inside := leaf token :: o.inside }
  | .opening d => some ⟨[], (d, o.inside) :: o.outer⟩
  | .closing d =>
    match o.outer with
    | (e, before) :: outer =>
      if d = e then some ⟨group d o.inside.reverse :: before, outer⟩ else none
    | [] => none

/-- The trees of lexemes in which all brackets are paired. -/
def ofLexemes? (lexemes : List Lexeme) : Option (List Tree) := do
  let o ← lexemes.foldlM Open.feed {}
  guard o.outer.isEmpty
  return o.inside.reverse

/-- The trees of a text in which all brackets are paired. -/
def ofText? (text : String) : Option (List Tree) :=
  ofLexemes? (Lexeme.scan text.toList)

end Tree

end MemoKey.Derive
