import SciCalc.Operation
import SciCalc.Token.Stream

/-! Conversion: from infix order to reverse Polish order.

Numbers go out at once. Operators, functions and opening parentheses wait on a stack until
what they apply to has gone out: an operator until one of lower precedence or the end of its
group, a function until its group ends or, standing before a group, until that group ends.
-/

namespace SciCalc

/-- The state of a conversion: what has gone out, latest first, and what waits, latest first. -/
structure Conversion where
  output : List Token
  pending : List Token

namespace Conversion

def start : Conversion :=
  ⟨[], []⟩

def emit (token : Token) (state : Conversion) : Conversion :=
  { state with output := token :: state.output }

def hold (token : Token) (state : Conversion) : Conversion :=
  { state with pending := token :: state.pending }

/-- Whether a waiting token is an operator of at least some precedence. -/
def bindsAtLeast (precedence : Nat) (token : Token) : Bool :=
  match token.lexeme with
  | .operator text => (Operator.ofText? text).any (precedence ≤ ·.precedence)
  | _ => false

/-- The latest waiting tokens go out as long as they pass a test. -/
def releaseWhile (test : Token → Bool) (state : Conversion) : Conversion :=
  ⟨(state.pending.takeWhile test).reverse ++ state.output, state.pending.dropWhile test⟩

/-- A function that waits before a group goes out with the group. -/
def releaseFunction (state : Conversion) : Conversion :=
  match state.pending with
  | token :: below => if token.lexeme.isFunction then ⟨token :: state.output, below⟩ else state
  | [] => state

/-- A group ends: what waits inside it goes out, the parenthesis that opened it is dropped, and
a function before it follows.
-/
def closeGroup (position : Int) (state : Conversion) : Except Failure Conversion :=
  let closed := state.releaseWhile fun token => !token.lexeme.isOpening
  match closed.pending with
  | [] => .error (.unmatchedParenthesis position)
  | _ :: below => .ok (releaseFunction { closed with pending := below })

/-- One token of the infix sequence. Before an operator waits, those go out that bind at least
as tightly, since all operators group to the left.
-/
def step (state : Conversion) (token : Token) : Except Failure Conversion :=
  match token.lexeme with
  | .number _ => .ok (state.emit token)
  | .function _ | .opening _ => .ok (state.hold token)
  | .closing _ => state.closeGroup token.position
  | .operator text =>
      match Operator.ofText? text with
      | none => .error (.unknownName text)
      | some operator => .ok ((state.releaseWhile (bindsAtLeast operator.precedence)).hold token)

/-- The end of the infix sequence: whatever waits goes out, unless a group is still open. -/
def finish (state : Conversion) : Except Failure (List Token) :=
  match state.pending.find? (·.lexeme.isOpening) with
  | some token => .error (.unmatchedParenthesis token.position)
  | none => .ok (state.output.reverse ++ state.pending)

def consumer : Consumer Conversion (List Token) where
  start := start
  step state token := .ofExcept (step state token)
  finish := finish

end Conversion

/-- A list of tokens in infix order, brought into reverse Polish order. -/
def convert (tokens : List Token) : Except Failure (List Token) :=
  tokens.foldlM Conversion.step .start >>= Conversion.finish

end SciCalc
