import SciCalc.Proofs.Rpn.Refusal
import SciCalc.Proofs.Scan.Recognition

/-! Strict evaluation is lenient evaluation with fewer successes.

The strict mode differs in two places. A scan that would pass over a character fails there, and a
reduction that would supply a zero fails there. Up to such a failure, and where there is none, both
modes do the same, so their values and all other failures are the same.
-/

namespace SciCalc

variable {α : Type} {expression : String} {rpn before tokens : List Token} {token : Token}
variable {failure : Failure}

-----------------------------------------------------------------------------------------
-- Reduction
-----------------------------------------------------------------------------------------

namespace Algebra

variable {algebra : Algebra α} {stack : List α} {result : α}

theorem outcome_foldlM_lenient
    (taken : (tokens.foldlM (algebra.step .strict) []).outcome = .ok stack)
    : (tokens.foldlM (algebra.step .lenient) []).outcome = .ok stack := by
  obtain ⟨told, run⟩ := outcome_foldlM_eq_ok_iff.mp taken
  exact outcome_foldlM_eq_ok_iff.mpr ⟨told, run.of_strict⟩

theorem outcome_reduce_lenient (accepted : (algebra.reduce .strict tokens).outcome = .ok result)
    : (algebra.reduce .lenient tokens).outcome = .ok result := by
  have run := outcome_reduce_eq_ok_iff.mp accepted
  rw [reduce_eq_ok_iff.mpr run.of_strict]

theorem Refuses.of_strict {height : Nat} (refused : Refuses .strict height token failure)
    : (∃ text position, failure = .missingLeftOperand text position)
      ∨ Refuses .lenient height token failure := by
  cases refused with
  | missingLeftOperand _ => exact .inl ⟨_, _, rfl⟩
  | missingArgument => exact .inr .missingArgument
  | missingOperands => exact .inr .missingOperands
  | opening => exact .inr .opening
  | closing => exact .inr .closing

theorem Lacks.of_strict (lacking : algebra.Lacks .strict stack token failure)
    : algebra.Lacks .lenient stack token failure := by
  cases lacking with
  | call called => exact .call called
  | combine combined => exact .combine combined
  | supply lenient _ => cases lenient

/-- A strict reduction that fails at a token misses a left operand, or a lenient one fails there
too. Witness: the lenient one has the same stack, and refuses and lacks the same otherwise.
-/
theorem FailsAt.lenient (fails : algebra.FailsAt .strict before token failure)
    : (∃ text position, failure = .missingLeftOperand text position)
      ∨ algebra.FailsAt .lenient before token failure := by
  obtain ⟨stack, taken, failed⟩ := fails
  have beside := outcome_foldlM_lenient taken
  rcases outcome_step_eq_error_iff.mp failed with refused | lacking
  · refine refused.of_strict.imp_right fun lenient => ?_
    exact ⟨stack, beside, outcome_step_eq_error_iff.mpr (.inl lenient)⟩
  · exact .inr ⟨stack, beside, outcome_step_eq_error_iff.mpr (.inr lacking.of_strict)⟩

/-- A strict reduction that fails misses a left operand, or a lenient one fails the same. -/
theorem outcome_reduce_lenient_of_error
    (failed : (algebra.reduce .strict tokens).outcome = .error failure)
    : (∃ text position, failure = .missingLeftOperand text position)
      ∨ (algebra.reduce .lenient tokens).outcome = .error failure := by
  rcases outcome_reduce_eq_error_iff.mp failed with
    ⟨before, token, after, rfl, fails⟩ | ⟨stack, taken, finished⟩
  · refine fails.lenient.imp_right fun lenient => ?_
    exact outcome_reduce_eq_error_iff.mpr (.inl ⟨before, token, after, rfl, lenient⟩)
  · exact .inr (outcome_reduce_eq_error_iff.mpr
      (.inr ⟨stack, outcome_foldlM_lenient taken, finished⟩))

end Algebra

-----------------------------------------------------------------------------------------
-- Conversion
-----------------------------------------------------------------------------------------

/-- Conversion of a stream that is cut short fails as that of the whole stream does, or it meets
the place where the stream is cut. Witness: the tokens up to there are the same.
-/
theorem CutShort.outcome_draw_conversion {whole stream : TokenStream} {c : Char} {place : Nat}
    (short : CutShort whole stream c place)
    : (Conversion.consumer.draw stream).result.outcome
        = (Conversion.consumer.draw whole).result.outcome
      ∨ (Conversion.consumer.draw stream).result.outcome = .error (.unrecognized c place) := by
  obtain ⟨more, parts⟩ : stream.tokens <+: whole.tokens :=
    short.earlier ▸ List.takeWhile_prefix _
  rw [outcome_draw_conversion_eq, outcome_draw_conversion_eq, ← parts, List.foldlM_append]
  cases stream.tokens.foldlM Conversion.step .start with
  | error failure => exact .inl rfl
  | ok state =>
      refine .inr ?_
      change Conversion.consumer.conclude stream state = _
      rw [Consumer.conclude, short.fails]

/-- A strict conversion is the lenient one, or it fails at the first character of the expression
that is not recognized.
-/
theorem outcome_toRpn_strict (expression : String)
    : (toRpn .strict expression).outcome = (toRpn .lenient expression).outcome
      ∨ ∃ c place occurrences,
          (toRpn .strict expression).outcome = .error (.unrecognized c place)
          ∧ IsSegmentation expression.toList 0 occurrences
          ∧ FirstUnrecognized expression.toList 0 occurrences c place := by
  obtain ⟨occurrences, cut⟩ := exists_cut expression.toList 0
  have strict := cut.scan_strict
  simp only [scanFrom_drop_zero] at strict
  rcases strict with ⟨same, _⟩ | ⟨c, place, first, short⟩
  · exact .inl (by rw [toRpn, same, toRpn])
  · refine short.outcome_draw_conversion.imp_right fun failed => ?_
    exact ⟨c, place, occurrences, failed, cut.isSegmentation, first⟩

-----------------------------------------------------------------------------------------
-- Evaluation
-----------------------------------------------------------------------------------------

/-- The strict mode restricts the lenient one and is otherwise the same. A strict value is the
lenient value. A strict failure is the lenient failure, unless it is one of two: the first
character that is not recognized, or a missing left operand.
Witness: the conversions agree or meet that character, and then the reductions agree or miss one.
-/
theorem evaluate_strict_restricts_lenient (expression : String)
    : (∀ value,
        (evaluate .strict expression).outcome = .ok value
        → (evaluate .lenient expression).outcome = .ok value)
      ∧ ∀ failure,
          (evaluate .strict expression).outcome = .error failure
          → (evaluate .lenient expression).outcome = .error failure
            ∨ (∃ c place occurrences,
                failure = .unrecognized c place
                ∧ IsSegmentation expression.toList 0 occurrences
                ∧ FirstUnrecognized expression.toList 0 occurrences c place)
            ∨ ∃ operator position, failure = .missingLeftOperand operator position := by
  rcases outcome_toRpn_strict expression with
    same | ⟨c, place, occurrences, stopped, segmentation, first⟩
  · constructor
    · intro value evaluated
      obtain ⟨rpn, converts, evaluated⟩ := outcome_evaluate_eq_ok_iff.mp evaluated
      refine outcome_evaluate_eq_ok_iff.mpr ⟨rpn, same.symm.trans converts, ?_⟩
      exact Algebra.outcome_reduce_lenient evaluated
    · intro failure failed
      rcases outcome_evaluate_eq_error_iff.mp failed with unconverted | ⟨rpn, converts, failed⟩
      · exact .inl (outcome_evaluate_eq_error_iff.mpr (.inl (same.symm.trans unconverted)))
      · rcases Algebra.outcome_reduce_lenient_of_error failed with missing | lenient
        · exact .inr (.inr missing)
        · refine .inl (outcome_evaluate_eq_error_iff.mpr (.inr ⟨rpn, ?_, lenient⟩))
          exact same.symm.trans converts
  · have failed := outcome_evaluate_eq_error_iff.mpr (.inl stopped)
    constructor
    · intro value evaluated
      cases failed.symm.trans evaluated
    · intro failure other
      cases failed.symm.trans other
      exact .inr (.inl ⟨c, place, occurrences, rfl, segmentation, first⟩)

/-- The two failures that only the strict mode knows, and one that both modes know. -/
example
    : (evaluate .strict "2 $ 3").outcome = .error (.unrecognized '$' 2)
      ∧ (evaluate .strict "-2").outcome = .error (.missingLeftOperand "-" 0)
      ∧ (evaluate .strict "2 3").outcome = .error .malformedExpression
      ∧ (evaluate .lenient "2 3").outcome = .error .malformedExpression := by
  decide +kernel

end SciCalc
