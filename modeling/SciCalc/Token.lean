import SciCalc.Number.Text

/-! Tokens: the units that an expression is made of, and their places. -/

namespace SciCalc

/-- What a token is. The text of an operator, function or parenthesis is kept as it was given:
a scan finds known ones only, and a list made by hand may hold any.
-/
inductive Lexeme where
  | number (value : Float)
  | operator (text : String)
  | function (name : String)
  | opening (text : String)
  | closing (text : String)
  deriving DecidableEq

namespace Lexeme

/-- A number in its expression form, and any other token as given. -/
def text : Lexeme → String
  | .number value => numberText value
  | .operator text | .function text | .opening text | .closing text => text

def isOpening : Lexeme → Bool
  | .opening _ => true
  | _ => false

def isClosing : Lexeme → Bool
  | .closing _ => true
  | _ => false

def isFunction : Lexeme → Bool
  | .function _ => true
  | _ => false

end Lexeme

/-- A lexeme at a position, counted in characters from the start of the expression. -/
structure Token where
  lexeme : Lexeme
  position : Int
  deriving DecidableEq

end SciCalc
