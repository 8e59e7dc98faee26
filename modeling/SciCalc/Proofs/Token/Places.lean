import SciCalc.Proofs.Rpn.Runs
import SciCalc.Rpn.Conversion
import SciCalc.Scan

/-! Places of tokens: they are carried along, and decide nothing.

A text that is scanned from a later position yields the same tokens at later places. Tokens at
other places convert to the same tokens at these places, or fail for the same reason there, and a
reduction of them has the same results.
-/

namespace SciCalc

/-- A token moved to another place. -/
def Token.relocate (place : Int → Int) (token : Token) : Token :=
  { token with position := place token.position }

/-- A failure whose culprit is moved to another place. -/
def Failure.relocate (place : Int → Int) : Failure → Failure
  | .numberOutOfRange position => .numberOutOfRange (place position).toNat
  | .unrecognized character position => .unrecognized character (place position).toNat
  | .unmatchedParenthesis position => .unmatchedParenthesis (place position)
  | .missingOperands operator position => .missingOperands operator (place position)
  | .missingLeftOperand operator position => .missingLeftOperand operator (place position)
  | .missingArgument function position => .missingArgument function (place position)
  | .unexpected text position => .unexpected text (place position)
  | .emptyExpression => .emptyExpression
  | .malformedExpression => .malformedExpression
  | .unknownName text => .unknownName text

/-- An outcome whose failure is moved, and whose value is moved as such values are. -/
def relocateOutcome {α : Type} (place : Int → Int) (move : α → α)
    : Except Failure α → Except Failure α
  | .ok a => .ok (move a)
  | .error failure => .error (failure.relocate place)

variable {place : Int → Int}

-----------------------------------------------------------------------------------------
-- Scanning
-----------------------------------------------------------------------------------------

def TokenStream.relocate (place : Int → Int) : TokenStream → TokenStream
  | .done => .done
  | .fault failure => .fault (failure.relocate place)
  | .skip character position rest =>
      .skip character (place position).toNat (rest.relocate place)
  | .deliver token rest => .deliver (token.relocate place) (rest.relocate place)

theorem TokenStream.tokens_relocate (stream : TokenStream)
    : (stream.relocate place).tokens = stream.tokens.map (Token.relocate place) := by
  induction stream with
  | done | fault _ => rfl
  | skip _ _ rest ih => exact ih
  | deliver token rest ih => exact congrArg (token.relocate place :: ·) ih

theorem TokenStream.failure?_relocate (stream : TokenStream)
    : (stream.relocate place).failure? = stream.failure?.map (Failure.relocate place) := by
  induction stream with
  | done | fault _ => rfl
  | skip _ _ rest ih | deliver _ rest ih => exact ih

theorem toNat_add_natCast (position distance : Nat)
    : ((position : Int) + (distance : Int)).toNat = position + distance := by
  omega

/-- A text scanned from a later position yields all at later places, by induction on the scan.
-/
theorem scanFrom_add {mode : Mode} {position : Nat} {text : List Char} (distance : Nat)
    : scanFrom mode (position + distance) text
      = (scanFrom mode position text).relocate (· + distance) := by
  fun_induction scanFrom mode position text with
  | case1 => simp [scanFrom, TokenStream.relocate]
  | case2 position c later spelling found lexeme means ih =>
      rw [scanFrom.eq_def]
      simp only [found, means, Nat.add_right_comm _ distance, ih]
      simp [TokenStream.relocate, Token.relocate]
  | case3 position c later spelling found fails =>
      rw [scanFrom.eq_def]
      simp only [found, fails]
      simp only [TokenStream.relocate, Failure.relocate, toNat_add_natCast]
  | case4 position c later found blank ih =>
      rw [scanFrom.eq_def]
      simp only [found, blank, if_true, Nat.add_right_comm _ distance, ih]
  | case5 position c later found blank strict =>
      subst strict
      rw [scanFrom.eq_def]
      simp only [found, blank]
      simp only [Bool.false_eq_true, if_false, TokenStream.relocate, Failure.relocate,
        toNat_add_natCast]
  | case6 position c later found blank lenient ih =>
      subst lenient
      rw [scanFrom.eq_def]
      simp only [found, blank, Nat.add_right_comm _ distance, ih]
      simp only [Bool.false_eq_true, if_false, TokenStream.relocate, toNat_add_natCast]

-----------------------------------------------------------------------------------------
-- Conversion
-----------------------------------------------------------------------------------------

namespace Conversion

def relocate (place : Int → Int) (state : Conversion) : Conversion :=
  ⟨state.output.map (Token.relocate place), state.pending.map (Token.relocate place)⟩

theorem releaseWhile_relocate {test : Token → Bool}
    (blind : ∀ token, test (token.relocate place) = test token) (state : Conversion)
    : (state.relocate place).releaseWhile test = (state.releaseWhile test).relocate place := by
  have same : test ∘ Token.relocate place = test := funext blind
  simp [releaseWhile, relocate, List.takeWhile_map, List.dropWhile_map, same]

theorem releaseFunction_relocate (state : Conversion)
    : (state.relocate place).releaseFunction = state.releaseFunction.relocate place := by
  obtain ⟨output, pending⟩ := state
  cases pending with
  | nil => rfl
  | cons top below =>
      obtain ⟨lexeme, position⟩ := top
      cases lexeme <;> rfl

/-- A step on tokens at other places leads to the same tokens there, by cases on the token. -/
theorem step_relocate (state : Conversion) (token : Token)
    : (state.relocate place).step (token.relocate place)
      = relocateOutcome place (relocate place) (state.step token) := by
  obtain ⟨lexeme, position⟩ := token
  cases lexeme with
  | number _ | function _ | opening _ => rfl
  | closing text =>
      have released := @releaseWhile_relocate place (fun token => !token.lexeme.isOpening)
        (fun _ => rfl) state
      change closeGroup (place position) _ = relocateOutcome _ _ (closeGroup position _)
      simp only [closeGroup, released]
      cases waiting : (state.releaseWhile fun token => !token.lexeme.isOpening).pending with
      | nil => simp [relocate, waiting, relocateOutcome, Failure.relocate]
      | cons first below =>
          simp only [relocate, waiting, List.map_cons, relocateOutcome]
          exact congrArg Except.ok
            (releaseFunction_relocate ⟨_, below⟩)
  | operator text =>
      simp only [step, Token.relocate]
      cases Operator.ofText? text with
      | none => rfl
      | some operator =>
          have released := @releaseWhile_relocate place (bindsAtLeast operator.precedence)
            (fun _ => rfl) state
          simp only [released]
          rfl

theorem foldlM_step_relocate (tokens : List Token) (state : Conversion)
    : (tokens.map (Token.relocate place)).foldlM step (state.relocate place)
      = relocateOutcome place (relocate place) (tokens.foldlM step state) := by
  induction tokens generalizing state with
  | nil => rfl
  | cons token rest ih =>
      rw [List.map_cons, List.foldlM_cons, List.foldlM_cons, step_relocate]
      cases state.step token with
      | error failure => rfl
      | ok next => exact ih next

theorem finish_relocate (state : Conversion)
    : (state.relocate place).finish
      = relocateOutcome place (List.map (Token.relocate place)) state.finish := by
  have found : (state.pending.map (Token.relocate place)).find? (·.lexeme.isOpening)
      = (state.pending.find? (·.lexeme.isOpening)).map (Token.relocate place) :=
    List.find?_map
  simp only [finish, relocate, found]
  cases state.pending.find? (·.lexeme.isOpening) with
  | some token => rfl
  | none => simp [relocateOutcome]

end Conversion

/-- Tokens at other places convert to the same tokens there, or fail for the same reason there.
-/
theorem convert_relocate (tokens : List Token)
    : convert (tokens.map (Token.relocate place))
      = relocateOutcome place (List.map (Token.relocate place)) (convert tokens) := by
  have run := @Conversion.foldlM_step_relocate place tokens .start
  change _ >>= _ = relocateOutcome _ _ (_ >>= _)
  change (tokens.map (Token.relocate place)).foldlM Conversion.step .start = _ at run
  rw [run]
  cases tokens.foldlM Conversion.step .start with
  | error failure => rfl
  | ok state => exact state.finish_relocate

-----------------------------------------------------------------------------------------
-- Reduction
-----------------------------------------------------------------------------------------

/-- A run takes tokens at other places just as well, and only tells of these places.
Witness: induction on the run.
-/
theorem Algebra.Runs.relocate {α : Type} {algebra : Algebra α} {mode stack tokens told final}
    (run : algebra.Runs mode stack tokens told final)
    : ∃ again, algebra.Runs mode stack (tokens.map (Token.relocate place)) again final := by
  induction run with
  | nil => exact ⟨[], .nil⟩
  | cons first _ ih =>
      obtain ⟨later, others⟩ := ih
      cases first with
      | number => exact ⟨_, .cons .number others⟩
      | call called => exact ⟨_, .cons (.call called) others⟩
      | combine combined => exact ⟨_, .cons (.combine combined) others⟩
      | supply lenient combined => exact ⟨_, .cons (.supply lenient combined) others⟩

end SciCalc
