import SciCalc.Failure
import SciCalc.Token.Stream

/-! Reduction: a sequence in reverse Polish order, brought down to one result.

Results wait on a stack. A number adds one, a function replaces the latest, and an operator
replaces the latest two. What a result is depends on the algebra: a double, or a text.
-/

namespace SciCalc

/-- What a reduction computes with. -/
structure Algebra (α : Type) where
  number : Float → α
  /-- What stands in for a missing left operand. -/
  zero : α
  /-- The result of a function applied to another result. -/
  call : String → α → Except Failure α
  /-- The result of an operator between two others, the left one first. -/
  combine : String → α → α → Except Failure α

/-- What an operator finds on the stack: its operands, and what lies below them. -/
structure Operands (α : Type) where
  left : α
  right : α
  below : List α

namespace Algebra

variable {α : Type}

/-- Takes the operands of an operator from the stack, the right one first. -/
def operands (algebra : Algebra α) (mode : Mode) (operator : String) (position : Int)
    : List α → Traced (Operands α)
  | [] => .fail (.missingOperands operator position)
  | [right] =>
      match mode with
      | .strict => .fail (.missingLeftOperand operator position)
      | .lenient => do
          .note (.zeroSupplied operator position)
          pure ⟨algebra.zero, right, []⟩
  | right :: left :: below => pure ⟨left, right, below⟩

/-- One token of the sequence. Operands are taken before the algebra is asked. -/
def step (algebra : Algebra α) (mode : Mode) (stack : List α) (token : Token)
    : Traced (List α) :=
  match token.lexeme with
  | .number value => pure (algebra.number value :: stack)
  | .function name =>
      match stack with
      | [] => .fail (.missingArgument name token.position)
      | argument :: below => do
          let result ← algebra.call name argument
          pure (result :: below)
  | .operator text => do
      let found ← algebra.operands mode text token.position stack
      let result ← algebra.combine text found.left found.right
      pure (result :: found.below)
  | .opening text | .closing text => .fail (.unexpected text token.position)

/-- The end of the sequence: one result must be left. -/
def finish : List α → Except Failure α
  | [] => .error .emptyExpression
  | [result] => .ok result
  | _ :: _ :: _ => .error .malformedExpression

def consumer (algebra : Algebra α) (mode : Mode) : Consumer (List α) α where
  start := []
  step := algebra.step mode
  finish := finish

def reduce (algebra : Algebra α) (mode : Mode) (tokens : List Token) : Traced α :=
  (algebra.consumer mode).run tokens

end Algebra

end SciCalc
