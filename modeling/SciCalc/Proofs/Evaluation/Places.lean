import SciCalc.Proofs.Scan.Drawing
import SciCalc.Proofs.Token.Places

/-! Evaluation at other places: the same value, or the same failure there.

From the scan on, a place is only handed on: from a token to the failure that blames it.
-/

namespace SciCalc

variable {α β : Type} {place : Int → Int} {mode : Mode}

/-- Two outcomes in a row are moved as each of them is, by cases on the first. -/
theorem relocateOutcome_bind {move : α → α} {again : β → β} {further moved : α → Except Failure β}
    (outcome : Except Failure α)
    (next : ∀ a, moved (move a) = relocateOutcome place again (further a))
    : relocateOutcome place move outcome >>= moved
      = relocateOutcome place again (outcome >>= further) := by
  cases outcome with
  | error failure => rfl
  | ok a => exact next a

-----------------------------------------------------------------------------------------
-- Conversion of a stream
-----------------------------------------------------------------------------------------

theorem conclude_relocate (stream : TokenStream) (last : Conversion)
    : Conversion.consumer.conclude (stream.relocate place) (last.relocate place)
      = relocateOutcome place (List.map (Token.relocate place))
          (Conversion.consumer.conclude stream last) := by
  rw [Consumer.conclude, Consumer.conclude, TokenStream.failure?_relocate]
  cases stream.failure? with
  | some failure => rfl
  | none => exact last.finish_relocate

/-- A stream at other places converts to the same tokens there, or fails for the same reason there.
Witness: its tokens and its own failure are at these places.
-/
theorem outcome_draw_conversion_relocate (stream : TokenStream)
    : (Conversion.consumer.draw (stream.relocate place)).result.outcome
      = relocateOutcome place (List.map (Token.relocate place))
          (Conversion.consumer.draw stream).result.outcome := by
  have run := @Conversion.foldlM_step_relocate place stream.tokens .start
  change (stream.tokens.map (Token.relocate place)).foldlM Conversion.step .start = _ at run
  rw [outcome_draw_conversion_eq, outcome_draw_conversion_eq, TokenStream.tokens_relocate, run]
  exact relocateOutcome_bind _ (conclude_relocate stream)

-----------------------------------------------------------------------------------------
-- Reduction
-----------------------------------------------------------------------------------------

namespace Algebra

/-- A step on a token at another place has the same results, or fails for the same reason there.
Witness: cases on the token; an unknown name has no place.
-/
theorem outcome_step_value_relocate (stack : List Float) (token : Token)
    : (value.step mode stack (token.relocate place)).outcome
      = relocateOutcome place id (value.step mode stack token).outcome := by
  obtain ⟨lexeme, position⟩ := token
  cases lexeme with
  | number | opening | closing => rfl
  | function name =>
      cases stack with
      | nil => rfl
      | cons argument below =>
          simp only [step, Token.relocate, value]
          cases MathFunction.ofName? name <;> rfl
  | operator text =>
      cases stack with
      | nil => rfl
      | cons right rest =>
          simp only [step, Token.relocate, value]
          cases rest with
          | nil =>
              cases mode with
              | strict => rfl
              | lenient => cases Operator.ofText? text <;> rfl
          | cons left below => cases Operator.ofText? text <;> rfl

theorem outcome_foldlM_value_relocate (tokens : List Token) (stack : List Float)
    : ((tokens.map (Token.relocate place)).foldlM (value.step mode) stack).outcome
      = relocateOutcome place id (tokens.foldlM (value.step mode) stack).outcome := by
  induction tokens generalizing stack with
  | nil => rfl
  | cons token rest ih =>
      rw [List.map_cons, List.foldlM_cons, List.foldlM_cons, Traced.outcome_bind,
        Traced.outcome_bind, outcome_step_value_relocate]
      exact relocateOutcome_bind _ ih

theorem finish_relocate (stack : List Float)
    : (finish stack : Except Failure Float) = relocateOutcome place id (finish stack) := by
  match stack with
  | [] | [_] | _ :: _ :: _ => rfl

end Algebra

theorem outcome_rpnValue_relocate (rpn : List Token)
    : (rpnValue mode (rpn.map (Token.relocate place))).outcome
      = relocateOutcome place id (rpnValue mode rpn).outcome := by
  have run := @Algebra.outcome_foldlM_value_relocate place mode rpn []
  refine (Traced.outcome_bind _ _).trans ?_
  refine .trans ?_ (congrArg (relocateOutcome place id) (Traced.outcome_bind _ _)).symm
  exact (congrArg (· >>= Algebra.finish) run).trans
    (relocateOutcome_bind _ Algebra.finish_relocate)

-----------------------------------------------------------------------------------------
-- Evaluation
-----------------------------------------------------------------------------------------

/-- What an expression's tokens come to is moved as its scan is. -/
theorem outcome_tokenize_relocate {expression again : String}
    (moved : scan mode again = (scan mode expression).relocate place)
    : (tokenize mode again).outcome
      = relocateOutcome place (List.map (Token.relocate place))
          (tokenize mode expression).outcome := by
  rw [outcome_tokenize, outcome_tokenize, moved, TokenStream.failure?_relocate,
    TokenStream.tokens_relocate]
  cases (scan mode expression).failure? <;> rfl

theorem outcome_evaluate_eq (mode : Mode) (expression : String)
    : (evaluate mode expression).outcome
      = (toRpn mode expression).outcome >>= fun rpn => (rpnValue mode rpn).outcome := by
  simp only [evaluate, Traced.outcome_bind]
  refine bind_congr fun rpn => ?_
  cases evaluated : (rpnValue mode rpn).outcome <;> rfl

/-- An expression whose scan is that of another one at other places has the same value, or fails
for the same reason there.
-/
theorem outcome_evaluate_relocate {expression other : String}
    (moved : scan mode expression = (scan mode other).relocate place)
    : (evaluate mode expression).outcome
      = relocateOutcome place id (evaluate mode other).outcome := by
  have converted : (toRpn mode expression).outcome
      = relocateOutcome place (List.map (Token.relocate place)) (toRpn mode other).outcome := by
    rw [toRpn, moved]
    exact outcome_draw_conversion_relocate _
  rw [outcome_evaluate_eq, outcome_evaluate_eq, converted]
  exact relocateOutcome_bind _ outcome_rpnValue_relocate

-----------------------------------------------------------------------------------------
-- What is said of places
-----------------------------------------------------------------------------------------

@[simp] theorem Failure.kind_relocate (place : Int → Int) (failure : Failure)
    : (failure.relocate place).kind = failure.kind := by
  cases failure <;> rfl

/-- A failure that tells a place, told of a place some characters further ahead. -/
def Failure.ahead (distance : Nat) : Failure → Failure
  | .numberOutOfRange position => .numberOutOfRange (position + distance)
  | .unrecognized character position => .unrecognized character (position + distance)
  | failure => failure

/-- Only two kinds of failure tell their places, by cases. -/
theorem Failure.message_relocate (failure : Failure) (distance : Nat)
    : (failure.relocate (· + distance)).message = (failure.ahead distance).message := by
  cases failure with
  | numberOutOfRange | unrecognized => rw [relocate, ahead, toNat_add_natCast]
  | _ => rfl

end SciCalc
