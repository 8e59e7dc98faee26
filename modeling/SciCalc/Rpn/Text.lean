import SciCalc.Rpn.Reduction

/-! The texts of a sequence in reverse Polish order: word by word, and as an infix expression.

In the infix text every application of an operator stands in parentheses, so it means the same
wherever it is put. A function's argument needs parentheses of its own unless it is such an
application.
-/

namespace SciCalc

/-- The tokens' texts with one space between them. -/
def rpnText (tokens : List Token) : String :=
  " ".intercalate (tokens.map (·.lexeme.text))

/-- Whether some parenthesis before the last character closes the depth that is open. -/
def closesEarly : (depth : Nat) → List Char → Bool
  | _, [] => false
  | _, [_] => false
  | depth, c :: next :: rest =>
      if c = '(' then closesEarly (depth + 1) (next :: rest)
      else if c = ')' then depth = 1 || closesEarly (depth - 1) (next :: rest)
      else closesEarly depth (next :: rest)

/-- Whether a text stands in parentheses that belong together: it starts with one and ends with
one, and the first is not closed before the last.
-/
def isWrapped (text : String) : Bool :=
  match text.toList with
  | '(' :: rest => rest.getLast? == some ')' && !closesEarly 1 rest
  | _ => false

def parenthesized (text : String) : String :=
  "(" ++ text ++ ")"

theorem toList_parenthesized (text : String)
    : (parenthesized text).toList = '(' :: (text.toList ++ [')']) := by
  simp [parenthesized]

/-- Reduction to texts. A zero is written where one is supplied. -/
def Algebra.written : Algebra String where
  number value := numberText value
  zero := "0"
  call name argument :=
    .ok (name ++ if isWrapped argument then argument else parenthesized argument)
  combine text left right := .ok (parenthesized (left ++ text ++ right))

def infixText (mode : Mode) (tokens : List Token) : Traced String :=
  Algebra.written.reduce mode tokens

end SciCalc
