import SciCalc.Proofs.Evaluation.Strictness
import SciCalc.Proofs.Infix.Outcome
import SciCalc.Proofs.Infix.Preservation
import SciCalc.Proofs.Rpn.Lockstep

/-! Failures of an evaluation point at their culprits.

Every token of an expression stands where it says, from the scan over the conversion to the
reduction. So the place of a failure lies in the expression, and what the failure blames is written
there. A name that nobody knows, or a parenthesis in a reverse Polish sequence, is never met.
-/

namespace SciCalc

/-- What a failure says of the text that starts at its place. -/
def Failure.Blames (failure : Failure) (text : List Char) : Prop :=
  match failure with
  | .numberOutOfRange _ => ∃ d ∈ text.head?, d.isDigit
  | .unrecognized c _ => text.head? = some c
  | .unmatchedParenthesis _ => text.head? = some '(' ∨ text.head? = some ')'
  | .missingOperands operator _ | .missingLeftOperand operator _ =>
      (Operator.ofText? operator).isSome ∧ operator.toList <+: text
  | .missingArgument function _ =>
      (MathFunction.ofName? function).isSome ∧ function.toList <+: text
  | .unexpected _ _ | .emptyExpression | .malformedExpression | .unknownName _ => False

/-- A failure points into a text: it has a place there, and blames what is written at the place. -/
def Failure.PointsInto (failure : Failure) (text : List Char) : Prop :=
  ∃ place : Nat,
    failure.position? = some ↑place ∧ place < text.length ∧ failure.Blames (text.drop place)

variable {mode : Mode} {expression : String} {token : Token} {failure : Failure}
variable {rpn : List Token}

-----------------------------------------------------------------------------------------
-- Tokens of an expression
-----------------------------------------------------------------------------------------

theorem Spelling.text_of_lexeme? {spelling : Spelling} {lexeme : Lexeme}
    (means : spelling.lexeme? = some lexeme) (other : lexeme.isNumber = false)
    : spelling.text = lexeme.text.toList := by
  cases spelling with
  | operator op =>
      cases means
      exact op.toList_text.symm
  | function | opening | closing =>
      cases means
      rfl
  | literal number =>
      obtain ⟨_, _, rfl⟩ := Option.map_eq_some_iff.mp means
      cases other

/-- A token other than a number stands in the expression as it is written, at its position. -/
theorem exists_place_of_mem_scan (delivered : token ∈ (scan mode expression).tokens)
    (other : token.lexeme.isNumber = false)
    : ∃ place : Nat,
        token.position = place
        ∧ place < expression.toList.length
        ∧ token.lexeme.text.toList <+: expression.toList.drop place := by
  obtain ⟨occurrences, cut⟩ := exists_cut expression.toList 0
  obtain ⟨occurrence, member, means⟩ := cut.exists_of_mem_scan delivered
  obtain ⟨means, position⟩ := Occurrence.token?_eq_some_iff.mp means
  have stands := cut.isSegmentation.standing occurrence member
  have within := stands.position_lt
  refine ⟨occurrence.position, position, by omega, ?_⟩
  rw [← Spelling.text_of_lexeme? means other]
  exact stands.written

-----------------------------------------------------------------------------------------
-- Failures of the scan and of the conversion
-----------------------------------------------------------------------------------------

/-- A scan fails at a digit, or at the character that it names. -/
theorem pointsInto_of_scan (fails : (scan mode expression).failure? = some failure)
    : failure.PointsInto expression.toList := by
  obtain ⟨occurrences, cut⟩ := exists_cut expression.toList 0
  rcases cut.failure?_scan fails with ⟨occurrence, member, unmeant, rfl⟩ | ⟨c, place, stands, rfl⟩
  · have stands := cut.isSegmentation.standing occurrence member
    have within := stands.position_lt
    refine ⟨occurrence.position, rfl, by omega, ?_⟩
    obtain ⟨spelling, position⟩ := occurrence
    cases spelling with
    | literal number =>
        obtain ⟨c, later, starts, digit⟩ := Literal.exists_digit_text stands.wellFormed
        obtain ⟨rest, split⟩ := stands.written
        refine ⟨c, ?_, digit⟩
        rw [← split, Spelling.text, starts]
        rfl
    | _ => cases unmeant
  · have inside := (List.getElem?_eq_some_iff.mp stands).1
    exact ⟨place, rfl, inside, by rw [Failure.Blames, List.head?_drop, stands]⟩

/-- A conversion fails at a parenthesis among the tokens, or as the scan does.
Witness: a stray parenthesis is one of the tokens, and so is one that opens a group.
-/
theorem exists_parenthesis_of_toRpn (failed : (toRpn mode expression).outcome = .error failure)
    : (∃ culprit ∈ (scan mode expression).tokens,
        culprit.isParenthesis ∧ failure = .unmatchedParenthesis culprit.position)
      ∨ (scan mode expression).failure? = some failure := by
  by_cases some : ∃ culprit, FirstStray (scan mode expression).tokens culprit
  · obtain ⟨culprit, stray⟩ := some
    rw [outcome_toRpn_of_firstStray stray] at failed
    obtain ⟨before, after, delivered, closes, _⟩ := stray
    cases failed
    exact .inl ⟨culprit, by simp [delivered], by simp [Token.isParenthesis, closes], rfl⟩
  · obtain ⟨state, groups, concluded⟩ := exists_outcome_toRpn_of_noStray (.of_not_firstStray some)
    rw [concluded, Consumer.conclude] at failed
    split at failed
    · next early fails =>
        cases failed
        exact .inr fails
    · change state.finish = _ at failed
      rw [Conversion.finish_opened] at failed
      cases opened : state.opened with
      | nil => simp [opened] at failed
      | cons first outer =>
          rw [opened] at failed groups
          cases failed
          obtain ⟨before, after, found, _⟩ := groups.lastUnclosed
          exact .inl ⟨first, by simp [found.place], by simp [Token.isParenthesis, found.opens], rfl⟩

/-- A conversion that fails points into the expression. -/
theorem pointsInto_of_toRpn (failed : (toRpn mode expression).outcome = .error failure)
    : failure.PointsInto expression.toList := by
  rcases exists_parenthesis_of_toRpn failed with ⟨culprit, delivered, kind, rfl⟩ | fails
  · have writable := isWritable_of_mem_scan delivered
    obtain ⟨lexeme, position⟩ := culprit
    have other : lexeme.isNumber = false := by
      cases lexeme with
      | number value => cases kind
      | _ => rfl
    obtain ⟨place, here, within, rest, written⟩ := exists_place_of_mem_scan delivered other
    refine ⟨place, congrArg some here, within, ?_⟩
    rw [← written]
    cases lexeme with
    | opening text =>
        obtain rfl := writable
        exact .inl (by simp [Lexeme.text])
    | closing text =>
        obtain rfl := writable
        exact .inr (by simp [Lexeme.text])
    | _ => cases kind
  · exact pointsInto_of_scan fails

-----------------------------------------------------------------------------------------
-- Failures of the reduction
-----------------------------------------------------------------------------------------

/-- The tokens of a converted expression are delivered by the scan, and none is a parenthesis. -/
theorem mem_scan_of_toRpn (converts : (toRpn mode expression).outcome = .ok rpn)
    (member : token ∈ rpn)
    : token ∈ (scan mode expression).tokens ∧ token.isParenthesis = false := by
  obtain ⟨_, converted⟩ := outcome_toRpn_eq_ok_iff.mp converts
  simpa using (convert_perm converted).subset member

/-- A token that is refused is written where the failure points, with the name that it blames. -/
theorem Algebra.Refuses.pointsInto {height : Nat} (refused : Refuses mode height token failure)
    (delivered : token ∈ (scan mode expression).tokens) (kind : token.isParenthesis = false)
    : failure.PointsInto expression.toList := by
  have known := isKnown_of_mem_scan delivered
  cases refused with
  | opening | closing => cases kind
  | _ =>
      obtain ⟨place, here, within, written⟩ := exists_place_of_mem_scan delivered rfl
      exact ⟨place, congrArg some here, within, known, written⟩

/-- A converted expression without a value points into the expression, or it is not one value.
Witness: a reduction refuses one of the tokens of the expression, whose names are all known.
-/
theorem kind_or_pointsInto_of_rpnValue (converts : (toRpn mode expression).outcome = .ok rpn)
    (failed : (rpnValue mode rpn).outcome = .error failure)
    : failure.kind = .ofEvaluation ∨ failure.PointsInto expression.toList := by
  rcases Algebra.outcome_reduce_eq_error_iff.mp failed with
    ⟨before, token, after, rfl, stack, _, stopped⟩ | ⟨stack, _, finished⟩
  · have member : token ∈ before ++ token :: after := by simp
    obtain ⟨delivered, kind⟩ := mem_scan_of_toRpn converts member
    rcases Algebra.outcome_step_eq_error_iff.mp stopped with refused | lacking
    · exact .inr (refused.pointsInto delivered kind)
    · exact absurd (isKnown_of_mem_scan delivered) (Algebra.not_isKnown_of_lacks lacking).2
  · exact .inl (Algebra.kind_of_finish_eq_error finished)

/-- No name of an expression is unknown, so no evaluation fails for that reason. -/
theorem kind_ne_ofLookup_of_evaluate (failed : (evaluate mode expression).outcome = .error failure)
    : failure.kind ≠ .ofLookup := by
  have pointed : failure.kind = .ofEvaluation ∨ failure.PointsInto expression.toList := by
    rcases outcome_evaluate_eq_error_iff.mp failed with unconverted | ⟨rpn, converts, unreduced⟩
    · exact .inr (pointsInto_of_toRpn unconverted)
    · exact kind_or_pointsInto_of_rpnValue converts unreduced
  rcases pointed with kind | ⟨place, here, _⟩
  · simp [kind]
  · simp [failure.isSome_position?_iff.mp (by simp [here])]

/-- Evaluation fails in documented ways only, and points at the culprit. A failure is no unknown
name and no unexpected parenthesis. Either it says that the tokens are not one expression, and
then it has no place, or its place lies in the expression and what it blames is written there.
-/
theorem evaluate_pointsInto (mode : Mode) (expression : String) (failure : Failure)
    (failed : (evaluate mode expression).outcome = .error failure)
    : (∀ text, failure ≠ .unknownName text)
      ∧ (∀ text position, failure ≠ .unexpected text position)
      ∧ ((failure.kind = .ofEvaluation ∧ failure.position? = none)
        ∨ (failure.kind = .ofSyntax ∧ failure.PointsInto expression.toList)) := by
  have pointed : failure.kind = .ofEvaluation ∨ failure.PointsInto expression.toList := by
    rcases outcome_evaluate_eq_error_iff.mp failed with unconverted | ⟨rpn, converts, unreduced⟩
    · exact .inr (pointsInto_of_toRpn unconverted)
    · exact kind_or_pointsInto_of_rpnValue converts unreduced
  rcases pointed with kind | points
  · have nowhere : failure.position? = none := by
      simpa [kind] using failure.isSome_position?_iff
    refine ⟨?_, ?_, .inl ⟨kind, nowhere⟩⟩
    · rintro text rfl
      cases kind
    · rintro text position rfl
      cases kind
  · obtain ⟨place, here, within, blames⟩ := id points
    refine ⟨?_, ?_, .inr ⟨failure.isSome_position?_iff.mp (by simp [here]), points⟩⟩
    · rintro text rfl
      cases here
    · rintro text position rfl
      exact blames

/-- In `$ sqrt(cos())+2` a character is skipped, and the inner function has nothing to work on. -/
theorem evaluate_pointsInto_of_empty_call
    : let failure := Failure.missingArgument "cos" 7
      (evaluate .lenient "$ sqrt(cos())+2").outcome = .error failure
      ∧ (∀ text, failure ≠ .unknownName text)
      ∧ (∀ text position, failure ≠ .unexpected text position)
      ∧ ((failure.kind = .ofEvaluation ∧ failure.position? = none)
        ∨ (failure.kind = .ofSyntax ∧ failure.PointsInto "$ sqrt(cos())+2".toList)) := by
  intro failure
  have failed : (evaluate .lenient "$ sqrt(cos())+2").outcome = .error failure := by
    decide +kernel
  exact ⟨failed, evaluate_pointsInto _ _ _ failed⟩

end SciCalc
