import MemoKey.Derive.Grammar.Item

/-!
# The grammar of declarations

The rules for deriving have declarations read by a parser that is taken from elsewhere. `Rule` and
the modules under `Grammar` stand for this parser as far as it reads the type of a field. Three
things are asked of it: whether a type can be read, the last segment of its path, and for the parent
the text of the type in normal form. All of the grammar has a say in this: the length of an array is
an expression, and an expression may hold blocks with statements and whole declarations in them.

The parts of the grammar call each other in circles. Every call reads something before the next
one, so that a grammar unrolled as often as there are lexemes reads all that can be read.

* `Grammar.step` is the grammar whose parts call the parts of a given one.
* `Grammar.level` is the grammar that is unrolled a number of times.
* `Grammar.typeOf` reads a type from a text.
-/

namespace MemoKey.Derive.Grammar

/-- The grammar whose parts call those of a given one. -/
def step (g : Grammar) : Grammar where
  type := g.readType
  bound := g.readBound
  expression := g.readExpression
  operand := g.readOperand
  early := g.readEarly ""
  pattern := g.readPattern
  block := g.readBlock
  item := g.readItem

/-- The grammar that is reached from a given one in a number of steps. -/
def unroll (g : Grammar) : Nat → Grammar
  | 0 => g
  | n + 1 => g.step.unroll n

/-- The grammar that is unrolled a number of times. -/
def level (n : Nat) : Grammar :=
  nothing.unroll n

/-- The type that a text is. All of the text has to be read. -/
def typeOf (text : String) : Except Misfit TypeText := do
  let lexemes := Lexeme.scan text.toList
  match Tree.ofLexemes? lexemes with
  | some trees =>
    let (type, rest) ← ((level (2 * lexemes.length + 8)).type true).run trees
    if rest.isEmpty then return type else throw .mismatch
  | none => throw .mismatch

end MemoKey.Derive.Grammar
