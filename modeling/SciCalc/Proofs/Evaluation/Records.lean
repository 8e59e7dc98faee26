import SciCalc.Log
import SciCalc.Proofs.Evaluation.Culprit
import SciCalc.Proofs.Rpn.Supplied
import SciCalc.Proofs.Stream.Refusal
import SciCalc.Proofs.Stream.Skipped

/-! The records of an evaluation: which there are, and in which order.

A lenient evaluation logs what its scan passes over, until the conversion stops to draw. If it
converts, that is logged next, then the zeros that are supplied, and last the value, if there is
one. A strict evaluation logs the conversion and the value only.
-/

namespace SciCalc

variable {expression : String} {place : Int}

-----------------------------------------------------------------------------------------
-- What the records say
-----------------------------------------------------------------------------------------

namespace Log

/-- A record of the engine: all of them are at the lowest level. -/
def engineRecord (message : String) : Record :=
  ⟨.debug, engineLogger, message⟩

/-- A character that belongs to no spelling was passed over at its place. -/
def skipRecord : Char × Nat → Record
  | (c, place) =>
      engineRecord
        ("Skipping unrecognized character " ++ Text.quoted (String.singleton c)
          ++ " at position " ++ toString place)

/-- An expression was converted; its words are those of the reverse Polish sequence. -/
def conversionRecord (expression : String) (rpn : List Token) : Record :=
  engineRecord (Text.quoted expression ++ " -> " ++ Text.quoted (rpnText rpn))

/-- A zero was supplied for an operator, at whatever index of the sequence it stands. -/
def zeroRecord : Token × Nat → Record
  | (operator, _) =>
      engineRecord
        ("Operator '" ++ operator.lexeme.text ++ "' at position " ++ toString operator.position
          ++ " has no left operand, using 0")

def resultRecord (expression : String) (value : Float) : Record :=
  engineRecord (Text.quoted expression ++ " = " ++ resultText value)

/-- The records of an evaluation, in the order in which they are logged. -/
def ofEvaluation (mode : Mode) (expression : String) : List Record :=
  (evaluate mode expression).events.map recordOf

/-- Records are those of an evaluation: one for each character that was passed over, then one for
the conversion if there is one, then one for each zero that was supplied, and last one for the
value if there is one.
-/
inductive IsEvaluationLog (mode : Mode) (expression : String) (skipped : List (Char × Nat))
    (zeros : List (Token × Nat))
    : List Record → Prop
  | unconverted {failure} (fails : (toRpn mode expression).outcome = .error failure)
    : IsEvaluationLog mode expression skipped zeros (skipped.map skipRecord)
  | unevaluated {rpn failure} (converts : (toRpn mode expression).outcome = .ok rpn)
    (fails : (evaluate mode expression).outcome = .error failure)
    : IsEvaluationLog mode expression skipped zeros
        (skipped.map skipRecord ++ conversionRecord expression rpn :: zeros.map zeroRecord)
  | evaluated {rpn value} (converts : (toRpn mode expression).outcome = .ok rpn)
    (succeeds : (evaluate mode expression).outcome = .ok value)
    : IsEvaluationLog mode expression skipped zeros
        (skipped.map skipRecord
          ++ conversionRecord expression rpn
            :: (zeros.map zeroRecord ++ [resultRecord expression value]))

/-- An evaluation logs what its two stages tell of, whatever becomes of them, by cases on their
outcomes.
-/
theorem isEvaluationLog_of_events {mode : Mode} {expression : String} {skipped : List (Char × Nat)}
    {zeros : List (Token × Nat)}
    (scanned
      : (toRpn mode expression).events = skipped.map fun (c, place) => .skipped c place)
    (reduced
      : ∀ rpn,
          (toRpn mode expression).outcome = .ok rpn
          → (rpnValue mode rpn).events
            = zeros.map fun (token, _) => .zeroSupplied token.lexeme.text token.position)
    : IsEvaluationLog mode expression skipped zeros (ofEvaluation mode expression) := by
  have skips : (toRpn mode expression).events.map recordOf = skipped.map skipRecord := by
    rw [scanned, List.map_map]
    rfl
  cases converts : (toRpn mode expression).outcome with
  | error failure =>
      rw [ofEvaluation, events_evaluate_of_toRpn_error converts, skips]
      exact .unconverted converts
  | ok rpn =>
      have supplies : (rpnValue mode rpn).events.map recordOf = zeros.map zeroRecord := by
        rw [reduced rpn converts, List.map_map]
        rfl
      have whole := outcome_evaluate_of_toRpn converts
      cases evaluated : (rpnValue mode rpn).outcome with
      | error failure =>
          rw [ofEvaluation, events_evaluate_of_error converts evaluated, List.map_append, skips,
            List.map_cons, supplies]
          exact .unevaluated converts (whole.trans evaluated)
      | ok value =>
          rw [ofEvaluation, events_evaluate converts evaluated, List.map_append, skips,
            List.map_cons, List.map_append, supplies]
          exact .evaluated converts (whole.trans evaluated)

end Log

-----------------------------------------------------------------------------------------
-- Where the scan stops
-----------------------------------------------------------------------------------------

/-- The place at which a lenient scan stops: that of the first stray closing parenthesis, behind
which nothing is drawn, that of a number out of range, or the end of the expression.
-/
inductive StopsAt (expression : String) : Int → Prop
  | stray {culprit} (first : FirstStray (scan .lenient expression).tokens culprit)
    : StopsAt expression culprit.position
  | outOfRange {position : Nat}
    (noStray : ¬ ∃ culprit, FirstStray (scan .lenient expression).tokens culprit)
    (fails : (scan .lenient expression).failure? = some (.numberOutOfRange position))
    : StopsAt expression position
  | ended (noStray : ¬ ∃ culprit, FirstStray (scan .lenient expression).tokens culprit)
    (complete : (scan .lenient expression).failure? = none)
    : StopsAt expression expression.toList.length

/-- A lenient scan fails at a number out of range only. -/
theorem failure?_scan_lenient (expression : String)
    : (scan .lenient expression).failure? = none
      ∨ ∃ position, (scan .lenient expression).failure? = some (.numberOutOfRange position) := by
  obtain ⟨occurrences, cut⟩ := exists_cut expression.toList 0
  obtain ⟨_, rest, _, _, fails, _⟩ := cut.scan_lenient
  rw [scanFrom_drop_zero] at fails
  rw [fails]
  cases rest.head? <;> simp

theorem exists_stopsAt (expression : String) : ∃ place, StopsAt expression place := by
  by_cases stray : ∃ culprit, FirstStray (scan .lenient expression).tokens culprit
  · obtain ⟨culprit, first⟩ := stray
    exact ⟨_, .stray first⟩
  · rcases failure?_scan_lenient expression with complete | ⟨position, fails⟩
    · exact ⟨_, .ended stray complete⟩
    · exact ⟨_, .outOfRange stray fails⟩

/-- The scan stops where the conversion stops to draw from it.
Witness: the conversion fails at the first stray parenthesis, and without one it takes all tokens.
-/
theorem StopsAt.eq_stopFrom (stops : StopsAt expression place)
    : place
      = Conversion.consumer.stopFrom expression.toList.length .start
          (scan .lenient expression) := by
  have taken (noStray : ¬ ∃ culprit, FirstStray (scan .lenient expression).tokens culprit)
      : ∃ last,
          ((scan .lenient expression).tokens.foldlM Conversion.consumer.step .start).outcome
            = .ok last := by
    obtain ⟨last, run, _⟩ :=
      Conversion.exists_foldlM_openGroups (fun _ => isKnown_of_mem_scan)
        (.of_not_firstStray noStray)
    refine ⟨last, ?_⟩
    simp only [Conversion.consumer, Traced.foldlM_ofExcept]
    exact run
  cases stops with
  | @stray culprit first =>
      obtain ⟨before, after, delivered, paired, closes⟩ := Paired.exists_of_firstStray first
      have part : before ++ [culprit] <+: (scan .lenient expression).tokens :=
        ⟨after, by rw [delivered, List.append_assoc, List.singleton_append]⟩
      have fails := (Conversion.failsAt_iff fun other member =>
        isKnown_of_mem_scan (part.subset member)).mpr ⟨paired, closes, rfl⟩
      exact (Consumer.stopFrom_of_failsAt fails delivered).symm
  | outOfRange noStray fails =>
      obtain ⟨last, run⟩ := taken noStray
      rw [Consumer.stopFrom_of_foldlM run, fails]
      rfl
  | ended noStray complete =>
      obtain ⟨last, run⟩ := taken noStray
      rw [Consumer.stopFrom_of_foldlM run, complete]
      rfl

-----------------------------------------------------------------------------------------
-- Which records there are
-----------------------------------------------------------------------------------------

/-- A strict evaluation has nothing to log but its conversion and its value.
Witness: a strict scan passes over nothing, and a strict reduction supplies no zero.
-/
theorem Log.isEvaluationLog_strict (expression : String)
    : IsEvaluationLog .strict expression [] [] (ofEvaluation .strict expression) := by
  apply isEvaluationLog_of_events
  · exact Consumer.events_drawFrom_strict (fun _ _ => rfl) _ 0 expression.toList
  · intro rpn _
    rw [rpnValue, Algebra.events_reduce, Algebra.events_foldlM_strict, List.map_nil]

/-- A reduction tells of the zeros for the operators that miss their left operand. -/
theorem exists_zeros_of_toRpn (expression : String)
    : ∃ zeros : List (Token × Nat),
        ∀ rpn,
          (toRpn .lenient expression).outcome = .ok rpn
          → (rpnValue .lenient rpn).events
              = zeros.map (fun (token, _) => .zeroSupplied token.lexeme.text token.position)
            ∧ Enumerates zeros (Algebra.value.MissesLeft rpn) := by
  cases converts : (toRpn .lenient expression).outcome with
  | error failure => exact ⟨[], nofun⟩
  | ok rpn =>
      obtain ⟨zeros, told, missing⟩ := Algebra.value.exists_missesLeft rpn
      rw [← Algebra.events_reduce] at told
      refine ⟨zeros, fun other same => ?_⟩
      cases same
      exact ⟨told, missing⟩

/-- The records of an evaluation are exact. A lenient evaluation logs the characters that are not
recognized and stand before the place where the scan stops, from left to right. Then it logs the
conversion, if the expression converts, and then the zeros that were supplied, in the order of the
operators that miss their left operand, none of which stands behind a token at which the reduction
fails. Last it logs the value, if there is one, and then there are as many zeros as numbers are
missing beside the operators. A strict evaluation logs no character and no zero.
Witness: conversion and reduction tell of what they meet at once, and of nothing else.
-/
theorem evaluate_logs_in_order (expression : String)
    : (∃ occurrences stop skipped zeros,
          IsSegmentation expression.toList 0 occurrences
          ∧ (∀ other, IsSegmentation expression.toList 0 other → other = occurrences)
          ∧ StopsAt expression stop
          ∧ (∀ other, StopsAt expression other → other = stop)
          ∧ Enumerates skipped (fun c place =>
              Unrecognized expression.toList 0 occurrences c place ∧ (place : Int) < stop)
          ∧ (∀ rpn,
              (toRpn .lenient expression).outcome = .ok rpn
              → Enumerates zeros (Algebra.value.MissesLeft rpn)
                ∧ (∀ before culprit after failure,
                    rpn = before ++ culprit :: after
                    → Algebra.value.FailsAt .lenient before culprit failure
                    → ∀ zero ∈ zeros, zero.2 < before.length)
                ∧ ∀ value,
                    (evaluate .lenient expression).outcome = .ok value
                    → (zeros.length : Int)
                      = rpn.countP Token.isOperator + 1 - rpn.countP Token.isNumber)
          ∧ Log.IsEvaluationLog .lenient expression skipped zeros
              (Log.ofEvaluation .lenient expression))
      ∧ Log.IsEvaluationLog .strict expression [] [] (Log.ofEvaluation .strict expression) := by
  refine ⟨?_, Log.isEvaluationLog_strict expression⟩
  obtain ⟨occurrences, cut⟩ := exists_cut expression.toList 0
  obtain ⟨stop, stops⟩ := exists_stopsAt expression
  obtain ⟨skipped, scanned, unrecognized⟩ :=
    cut.enumerates_skipped Conversion.consumer (fun _ _ => rfl) .start
  rw [scanFrom_drop_zero, ← stops.eq_stopFrom] at unrecognized
  obtain ⟨zeros, reduced⟩ := exists_zeros_of_toRpn expression
  refine ⟨occurrences, stop, skipped, zeros, cut.isSegmentation,
    fun other => cut.eq_of_isSegmentation, stops,
    fun other stopsToo => stopsToo.eq_stopFrom.trans stops.eq_stopFrom.symm, unrecognized,
    fun rpn converts => ?_,
    Log.isEvaluationLog_of_events scanned fun rpn converts => (reduced rpn converts).1⟩
  obtain ⟨told, missing⟩ := reduced rpn converts
  refine ⟨missing, ?_, fun value succeeds => ?_⟩
  · rintro before culprit after failure rfl fails ⟨operator, index⟩ member
    refine ((missing.mem_iff _ _).mp member).lt_of_failsAt fails fun stack lacking => ?_
    have delivered := (mem_scan_of_toRpn converts List.mem_append_cons_self).1
    exact (Algebra.not_isKnown_of_lacks lacking).2 (isKnown_of_mem_scan delivered)
  · rw [outcome_evaluate_of_toRpn converts] at succeeds
    have counted := Algebra.length_events_reduce succeeds
    change ((rpnValue .lenient rpn).events.length : Int) = _ at counted
    rwa [told, List.length_map] at counted

/-- Behind a stray parenthesis nothing is passed over, and a reduction that fails at its end has
supplied a zero.
-/
example
    : (evaluate .lenient "$(-2))#").events = [.skipped '$' 0]
      ∧ (evaluate .lenient "(-2)3#").events
        = [.skipped '#' 5,
          .converted "(-2)3#" [⟨.number 2.0, 2⟩, ⟨.operator "-", 1⟩, ⟨.number 3.0, 4⟩],
          .zeroSupplied "-" 1] := by
  decide +kernel

end SciCalc
