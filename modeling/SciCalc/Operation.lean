/-! Operators and functions: their spelling, their precedence, and what they compute. -/

namespace SciCalc

/-- The operators, all of them binary and all of them grouping to the left. -/
inductive Operator where
  | add
  | subtract
  | multiply
  | divide
  | power
  deriving DecidableEq, Repr

namespace Operator

def all : List Operator :=
  [.add, .subtract, .multiply, .divide, .power]

/-- The one character that an operator is written with. -/
def symbol : Operator → Char
  | .add => '+'
  | .subtract => '-'
  | .multiply => '*'
  | .divide => '/'
  | .power => '^'

def text : Operator → String
  | .add => "+"
  | .subtract => "-"
  | .multiply => "*"
  | .divide => "/"
  | .power => "^"

/-- An operator of higher precedence takes its operands first. -/
def precedence : Operator → Nat
  | .add | .subtract => 1
  | .multiply | .divide => 2
  | .power => 3

/-- One double to the power of another. A square is one rounded product, which is the nearest
double; the general power may miss that by one unit in the last place.
-/
def raise (base exponent : Float) : Float :=
  if exponent == 2.0 then base * base else base.pow exponent

/-- The operation on doubles, the left operand first. -/
def apply : Operator → Float → Float → Float
  | .add => (· + ·)
  | .subtract => (· - ·)
  | .multiply => (· * ·)
  | .divide => (· / ·)
  | .power => raise

def ofSymbol? (c : Char) : Option Operator :=
  all.find? fun operator => operator.symbol == c

def ofText? (text : String) : Option Operator :=
  all.find? fun operator => operator.text == text

theorem toList_text (operator : Operator) : operator.text.toList = [operator.symbol] := by
  cases operator <;> rfl

theorem ofText?_text (operator : Operator) : ofText? operator.text = some operator := by
  cases operator <;> decide

theorem symbol_of_ofSymbol? {c : Char} {operator : Operator} (found : ofSymbol? c = some operator)
    : operator.symbol = c := by
  simpa using List.find?_some found

theorem text_of_ofText? {text : String} {operator : Operator}
    (found : ofText? text = some operator)
    : operator.text = text := by
  simpa using List.find?_some found

theorem exists_text_eq {text : String} (known : (ofText? text).isSome)
    : ∃ operator : Operator, operator.text = text := by
  obtain ⟨operator, found⟩ := Option.isSome_iff_exists.mp known
  exact ⟨operator, text_of_ofText? found⟩

end Operator

/-- The functions, all of one argument. -/
inductive MathFunction where
  | sin
  | cos
  | tan
  | log
  | sqrt
  deriving DecidableEq, Repr

namespace MathFunction

def all : List MathFunction :=
  [.sin, .cos, .tan, .log, .sqrt]

def name : MathFunction → String
  | .sin => "sin"
  | .cos => "cos"
  | .tan => "tan"
  | .log => "log"
  | .sqrt => "sqrt"

/-- An angle given in degrees, in radians: one rounded product. -/
def radians (degrees : Float) : Float :=
  degrees * 0.017453292519943295

/-- The function on doubles. Angles are in degrees, and the logarithm has base ten. -/
def apply : MathFunction → Float → Float
  | .sin, x => (radians x).sin
  | .cos, x => (radians x).cos
  | .tan, x => (radians x).tan
  | .log, x => x.log10
  | .sqrt, x => x.sqrt

def ofName? (name : String) : Option MathFunction :=
  all.find? fun function => function.name == name

/-- The function whose name stands at the head of a text; no name begins another. -/
def ofHead? (text : List Char) : Option MathFunction :=
  all.find? fun function => function.name.toList.isPrefixOf text

theorem ofName?_name (function : MathFunction) : ofName? function.name = some function := by
  cases function <;> decide

theorem name_of_ofName? {name : String} {function : MathFunction}
    (found : ofName? name = some function)
    : function.name = name := by
  simpa using List.find?_some found

theorem exists_name_eq {name : String} (known : (ofName? name).isSome)
    : ∃ function : MathFunction, function.name = name := by
  obtain ⟨function, found⟩ := Option.isSome_iff_exists.mp known
  exact ⟨function, name_of_ofName? found⟩

theorem name_prefix_of_ofHead? {text : List Char} {function : MathFunction}
    (found : ofHead? text = some function)
    : function.name.toList <+: text := by
  simpa using List.find?_some found

end MathFunction

end SciCalc
