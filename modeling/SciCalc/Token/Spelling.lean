import SciCalc.Operation
import SciCalc.Token

/-! Spellings: how tokens are written in an expression. -/

namespace SciCalc

/-- A token as it is written. -/
inductive Spelling where
  | function (f : MathFunction)
  | operator (op : Operator)
  | opening
  | closing
  | literal (number : Literal)
  deriving DecidableEq, Repr

namespace Spelling

def text : Spelling → List Char
  | .function f => f.name.toList
  | .operator op => [op.symbol]
  | .opening => ['(']
  | .closing => [')']
  | .literal number => number.text

/-- What a spelling means, unless it is a literal out of range. -/
def lexeme? : Spelling → Option Lexeme
  | .function f => some (.function f.name)
  | .operator op => some (.operator op.text)
  | .opening => some (.opening "(")
  | .closing => some (.closing ")")
  | .literal number => number.value?.map .number

/-- The spelling of one character, if it has one. -/
def ofChar? (c : Char) : Option Spelling :=
  if c = '(' then some .opening
  else if c = ')' then some .closing
  else (Operator.ofSymbol? c).map .operator

/-- The spelling at the head of a text. No two kinds start with the same character, so the
order in which they are tried does not matter.
-/
def ofHead? (text : List Char) : Option Spelling :=
  match MathFunction.ofHead? text with
  | some f => some (.function f)
  | none =>
      match text.head?.bind ofChar? with
      | some spelling => some spelling
      | none => (Literal.ofHead? text).map .literal

end Spelling

end SciCalc
