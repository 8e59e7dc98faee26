import SciCalc.Text.Quoted

/-! Failures: why an expression has no value, what is said about it, and in which mode it is one. -/

namespace SciCalc

/-- How an expression is read. -/
inductive Mode where
  /-- Stray characters are skipped, and a missing left operand counts as zero. -/
  | lenient
  /-- Either is a failure. -/
  | strict
  deriving DecidableEq, Repr

/-- The causes of failure. Positions count the characters before the culprit. -/
inductive Failure where
  /-- A literal that rounds beyond the finite doubles. -/
  | numberOutOfRange (position : Nat)
  /-- A character that belongs to no token, where none may be skipped. -/
  | unrecognized (character : Char) (position : Nat)
  /-- A parenthesis without its partner. -/
  | unmatchedParenthesis (position : Int)
  /-- An operator with nothing to work on. -/
  | missingOperands (operator : String) (position : Int)
  /-- An operator with one operand, where no zero is supplied for the other. -/
  | missingLeftOperand (operator : String) (position : Int)
  /-- A function with nothing to work on. -/
  | missingArgument (function : String) (position : Int)
  /-- A parenthesis in a sequence that has no use for it. -/
  | unexpected (text : String) (position : Int)
  /-- Nothing to evaluate. -/
  | emptyExpression
  /-- More than one value is left. -/
  | malformedExpression
  /-- An operator or function that nobody knows. -/
  | unknownName (text : String)
  deriving DecidableEq, Repr

namespace Failure

/-- The three kinds of failure. -/
inductive Kind where
  /-- The tokens do not fit together. -/
  | ofSyntax
  /-- The tokens fit together, and they are not one expression. -/
  | ofEvaluation
  /-- A token means nothing. -/
  | ofLookup
  deriving DecidableEq, Repr

def kind : Failure → Kind
  | .emptyExpression | .malformedExpression => .ofEvaluation
  | .unknownName _ => .ofLookup
  | _ => .ofSyntax

/-- Where the culprit stands, for a failure that has one place. -/
def position? : Failure → Option Int
  | .numberOutOfRange position | .unrecognized _ position => some position
  | .unmatchedParenthesis position | .missingOperands _ position
  | .missingLeftOperand _ position | .missingArgument _ position
  | .unexpected _ position => some position
  | .emptyExpression | .malformedExpression | .unknownName _ => none

def message : Failure → String
  | .numberOutOfRange position => "number out of range at position " ++ toString position
  | .unrecognized character position =>
      "unrecognized character " ++ Text.quoted (String.singleton character)
        ++ " at position " ++ toString position
  | .unmatchedParenthesis _ => "unmatched parenthesis"
  | .missingOperands operator _ => "operator '" ++ operator ++ "' is missing operands"
  | .missingLeftOperand operator _ => "operator '" ++ operator ++ "' is missing its left operand"
  | .missingArgument function _ => "function '" ++ function ++ "' is missing its argument"
  | .unexpected text _ => "unexpected " ++ Text.quoted text ++ " in postfix sequence"
  | .emptyExpression => "empty expression"
  | .malformedExpression => "malformed expression"
  | .unknownName text => Text.quoted text

/-- A failure of the tokens' order always has a place, by cases. -/
theorem isSome_position?_iff (failure : Failure)
    : failure.position?.isSome ↔ failure.kind = .ofSyntax := by
  cases failure <;> simp [position?, kind]

/-- Two outcomes in a row are a success exactly if each is one, by cases on the first. -/
theorem bind_eq_ok_iff {α β : Type} {first : Except Failure α}
    {further : α → Except Failure β} {b : β}
    : first >>= further = .ok b ↔ ∃ a, first = .ok a ∧ further a = .ok b := by
  cases first <;> simp [bind, Except.bind]

/-- Two outcomes in a row fail as the first does, or as the second does after it. -/
theorem bind_eq_error_iff {α β : Type} {first : Except Failure α}
    {further : α → Except Failure β} {failure : Failure}
    : first >>= further = .error failure
      ↔ first = .error failure ∨ ∃ a, first = .ok a ∧ further a = .error failure := by
  cases first <;> simp [bind, Except.bind]

end Failure

end SciCalc
