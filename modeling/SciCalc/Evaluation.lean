import SciCalc.Operation
import SciCalc.Rpn.Conversion
import SciCalc.Rpn.Text
import SciCalc.Scan

/-! Evaluation: the value of a sequence in reverse Polish order, and that of the text of an
expression by way of such a sequence.
-/

namespace SciCalc

/-- Reduction to doubles: operators and functions are looked up and applied. -/
def Algebra.value : Algebra Float where
  number value := value
  zero := 0.0
  call name argument :=
    match MathFunction.ofName? name with
    | some function => .ok (function.apply argument)
    | none => .error (.unknownName name)
  combine text left right :=
    match Operator.ofText? text with
    | some operator => .ok (operator.apply left right)
    | none => .error (.unknownName text)

def rpnValue (mode : Mode) (tokens : List Token) : Traced Float :=
  Algebra.value.reduce mode tokens

/-- The tokens of an expression in infix order. -/
def tokenize (mode : Mode) (expression : String) : Traced (List Token) :=
  (Consumer.collect.draw (scan mode expression)).result

def toRpn (mode : Mode) (expression : String) : Traced (List Token) :=
  (Conversion.consumer.draw (scan mode expression)).result

def evaluate (mode : Mode) (expression : String) : Traced Float := do
  let rpn ← toRpn mode expression
  .note (.converted expression rpn)
  let value ← rpnValue mode rpn
  .note (.evaluated expression value)
  return value

end SciCalc
