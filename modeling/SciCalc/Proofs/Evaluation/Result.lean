import SciCalc.Proofs.Evaluation.Culprit
import SciCalc.Proofs.Infix.Meaning
import SciCalc.Proofs.Number.Leading
import SciCalc.Proofs.Scan.Number

/-! A result that is evaluated again, strictly: it has its value, or it is refused.

A result without a sign and without an exponent is a literal. A sign in front of it is an
operator without a left operand, and an exponent, infinity and what is no number start with a
letter that belongs to no token.
-/

namespace SciCalc

open Binary64 (infinity rational?)

-----------------------------------------------------------------------------------------
-- Texts that are read again
-----------------------------------------------------------------------------------------

/-- An expression whose scan fails has no value, for a reason of syntax. -/
theorem exists_syntax_failure {mode : Mode} {expression : String}
    (fails : (scan mode expression).failure? ≠ none)
    : ∃ failure,
        (evaluate mode expression).outcome = .error failure ∧ failure.kind = .ofSyntax := by
  cases converted : (toRpn mode expression).outcome with
  | ok rpn => exact absurd (outcome_toRpn_eq_ok_iff.mp converted).1 fails
  | error failure =>
      obtain ⟨place, there, _⟩ := pointsInto_of_toRpn converted
      refine ⟨failure, outcome_evaluate_eq_error_iff.mpr (.inl converted), ?_⟩
      rw [← failure.isSome_position?_iff, there]
      rfl

namespace Literal

variable {literal : Literal} {x : Float}

/-- A literal alone has its value. -/
theorem ScansAs.outcome_evaluate (scans : literal.ScansAs x) (mode : Mode)
    : (evaluate mode (String.ofList literal.text)).outcome = .ok x := by
  have scanned := congrArg Traced.outcome (scans.alone mode)
  obtain ⟨value, stands, evaluated, _⟩ := Phrase.number.outcome_evaluate scanned
  cases stands
  exact evaluated

/-- A literal behind a minus is a right operand without a left one. -/
theorem ScansAs.outcome_evaluate_minus (scans : literal.ScansAs x)
    : (evaluate .strict (String.ofList ('-' :: literal.text))).outcome
      = .error (.missingLeftOperand "-" 0) := by
  have behind := scans.within .strict 1 [] stopsBefore_nil
  rw [List.append_nil, scanFrom] at behind
  have scanned : scan .strict (String.ofList ('-' :: literal.text))
      = .deliver ⟨.operator "-", 0⟩ (.deliver ⟨.number x, 1⟩ .done) := by
    rw [scan, String.toList_ofList]
    refine Eq.trans ?_ (congrArg _ behind)
    exact @scanFrom_spelling_append .strict 0 (.operator .subtract) _ literal.text trivial
      trivial rfl
  refine outcome_evaluate_eq_error_iff.mpr
    (.inr ⟨[⟨.number x, 1⟩, ⟨.operator "-", 0⟩], outcome_toRpn_eq_ok_iff.mpr ?_, rfl⟩)
  rw [scanned]
  exact ⟨rfl, rfl⟩

/-- An exponent cannot be scanned: its letter starts no token. -/
theorem failure?_of_exponent (wellFormed : literal.WellFormed) (position : Nat)
    (rest : List Char)
    : (scanFrom .strict position (literal.text ++ 'e' :: rest)).failure? ≠ none := by
  have stops : literal.StopsBefore ('e' :: rest) := ⟨by simp, by simp⟩
  have letter (place : Nat)
      : scanFrom .strict place ('e' :: rest) = .fault (.unrecognized 'e' place) := by
    rw [scanFrom]
    rfl
  cases valued : literal.value? with
  | none =>
      rw [(isRefused_of_value? wellFormed valued).within _ _ _ stops]
      exact Option.some_ne_none _
  | some x =>
      rw [(scansAs_of_value? wellFormed valued).within _ _ _ stops, letter]
      exact Option.some_ne_none _

/-- A digit after the point does not change a whole number, if it is a zero. -/
theorem number_withFraction (literal : Literal)
    : literal.withFraction.number = literal.number := by
  rw [withFraction]
  split
  · next none =>
      rw [number, number, List.isEmpty_iff.mp none]
      simp [Nat.ofDigitChars]
  · rfl

theorem WellFormed.withFraction (wellFormed : literal.WellFormed)
    : literal.withFraction.WellFormed := by
  rw [Literal.withFraction]
  split
  · exact ⟨wellFormed.some_whole, wellFormed.whole, by simp⟩
  · exact wellFormed

end Literal

-----------------------------------------------------------------------------------------
-- Results
-----------------------------------------------------------------------------------------

/-- A double that a result shows with digits and a point only, apart from the sign. -/
structure IsPositional (x : Float) : Prop where
  finite : Binary64.magnitude x < infinity
  least : -4 ≤ (Decimal.ofMagnitude (Binary64.magnitude x)).leadingExponent
  most : (Decimal.ofMagnitude (Binary64.magnitude x)).leadingExponent < 16

/-- The mantissa of a scientific form is digits, at least one of them before the point. -/
theorem Decimal.wellFormed_mantissa (d : Decimal)
    : (⟨d.digitChars.take 1, d.digitChars.drop 1⟩ : Literal).WellFormed := by
  constructor
  · apply List.ne_nil_of_length_pos
    have long : 0 < d.digitChars.length := Nat.length_toDigits_pos
    rw [List.length_take]
    omega
  · exact fun c member => isDigit_of_mem_digitChars (List.mem_of_mem_take member)
  · exact fun c member => isDigit_of_mem_digitChars (List.mem_of_mem_drop member)

variable {x : Float}

theorem resultText_of_finite (finite : Binary64.magnitude x < infinity)
    : resultText x
      = String.ofList (signed (Binary64.isNegative x)
          (Decimal.ofMagnitude (Binary64.magnitude x)).result) := by
  rw [resultText, writeDouble, Binary64.ofFloat, if_pos finite]

/-- What a result shows positionally is a literal, behind the sign, and is scanned as the double
with this magnitude. Witness: the shortest decimal reads back, and one more zero does not matter.
-/
theorem IsPositional.exists_literal (positional : IsPositional x)
    : ∃ literal : Literal,
        literal.ScansAs (Binary64.compose false (Binary64.magnitude x))
        ∧ resultText x = String.ofList (signed (Binary64.isNegative x) literal.text) := by
  have bounded := Nat.le_of_lt positional.finite
  refine ⟨(Decimal.ofMagnitude (Binary64.magnitude x)).literal.withFraction, ?_, ?_⟩
  · have valued := value?_numberLiteral (isUnsigned_compose positional.finite)
    rw [numberLiteral, Binary64.magnitude_compose bounded,
      ← Literal.value?_congr (Literal.number_withFraction _)] at valued
    exact Literal.scansAs_of_value? (Decimal.wellFormed_literal _).withFraction valued
  · rw [resultText_of_finite positional.finite, Decimal.result,
      if_pos ⟨positional.least, positional.most⟩]

/-- A positional result without a sign has its value. -/
theorem IsPositional.outcome_evaluate (positional : IsPositional x)
    (positive : Binary64.isNegative x = false)
    : (evaluate .strict (resultText x)).outcome = .ok x := by
  obtain ⟨literal, scans, shown⟩ := positional.exists_literal
  have apart : Binary64.ofFloat x = .finite false (Binary64.magnitude x) := by
    rw [Binary64.ofFloat, if_pos positional.finite, positive]
  rw [(Binary64.compose_of_ofFloat apart).2] at scans
  rw [shown, positive]
  exact scans.outcome_evaluate .strict

/-- The sign of a positional result is an operator without a left operand. -/
theorem IsPositional.outcome_evaluate_of_isNegative (positional : IsPositional x)
    (negative : Binary64.isNegative x = true)
    : (evaluate .strict (resultText x)).outcome = .error (.missingLeftOperand "-" 0) := by
  obtain ⟨literal, scans, shown⟩ := positional.exists_literal
  rw [shown, negative]
  exact scans.outcome_evaluate_minus

/-- A result that is not positional cannot be scanned strictly. Witness: it has an exponent, or
it is a word that starts no token.
-/
theorem failure?_of_not_isPositional (other : ¬ IsPositional x)
    : (scan .strict (resultText x)).failure? ≠ none := by
  by_cases finite : Binary64.magnitude x < infinity
  · rw [resultText_of_finite finite]
    generalize shown : Decimal.ofMagnitude (Binary64.magnitude x) = d
    have scientific : d.result = d.scientific := by
      rw [Decimal.result, if_neg]
      intro within
      rw [← shown] at within
      exact other ⟨finite, within.1, within.2⟩
    have exponent (position : Nat)
        : (scanFrom .strict position d.scientific).failure? ≠ none := by
      rw [Decimal.scientific, List.append_assoc, List.append_assoc]
      exact Literal.failure?_of_exponent d.wellFormed_mantissa position _
    rw [scan, String.toList_ofList, scientific]
    cases Binary64.isNegative x with
    | false => exact exponent 0
    | true =>
        have minus := @scanFrom_spelling_append .strict 0 (.operator .subtract) _ d.scientific
          trivial trivial rfl
        change (scanFrom .strict 0 ((Spelling.operator .subtract).text ++ d.scientific)).failure?
          ≠ none
        rw [minus]
        exact exponent 1
  · rw [resultText, writeDouble, Binary64.ofFloat, if_neg finite]
    split
    · next none =>
        decide +kernel
    · next negative infinite =>
        cases negative <;> decide +kernel
    · next apart =>
        split at apart <;> cases apart

/-- A double without a sign is shown positionally exactly if it stands for zero, or for a number
between the bounds.
-/
theorem isPositional_iff (positive : Binary64.isNegative x = false)
    : IsPositional x
      ↔ ∃ value,
          rational? x = some value
          ∧ (value = 0 ∨ 1 / 10 ^ 4 ≤ value ∧ value < 10 ^ 16) := by
  constructor
  · intro positional
    have within := (Decimal.positional_iff positional.finite).mp
      ⟨positional.least, positional.most⟩
    refine ⟨_, Binary64.rational?_eq_some_iff.mpr ⟨positional.finite, rfl⟩, ?_⟩
    rwa [positive]
  · intro between
    obtain ⟨value, stands, within⟩ := between
    obtain ⟨finite, rfl⟩ := Binary64.rational?_eq_some_iff.mp stands
    rw [positive] at within
    obtain ⟨least, most⟩ := (Decimal.positional_iff finite).mpr within
    exact ⟨finite, least, most⟩

/-- A result is never misread: evaluated again, strictly, it has the value that it shows, or it
is refused for a reason of syntax. It has its value exactly if it has no sign, and is zero or
lies from the fourth place behind the point on to below the seventeenth before it.
-/
theorem evaluate_resultText (x : Float)
    : let outcome := (evaluate .strict (resultText x)).outcome
      (outcome = .ok x
        ∨ ∃ failure, outcome = .error failure ∧ failure.kind = .ofSyntax)
      ∧ (outcome = .ok x
          ↔ Binary64.isNegative x = false
            ∧ ∃ value,
                rational? x = some value
                ∧ (value = 0 ∨ 1 / 10 ^ 4 ≤ value ∧ value < 10 ^ 16)) := by
  intro outcome
  by_cases positional : IsPositional x
  · cases sign : Binary64.isNegative x with
    | false =>
        have succeeds : outcome = .ok x := positional.outcome_evaluate sign
        have within := (isPositional_iff sign).mp positional
        exact ⟨.inl succeeds, fun _ => ⟨rfl, within⟩, fun _ => succeeds⟩
    | true =>
        have fails : outcome = .error (.missingLeftOperand "-" 0) :=
          positional.outcome_evaluate_of_isNegative sign
        rw [fails]
        exact ⟨.inr ⟨_, rfl, rfl⟩, nofun, nofun⟩
  · obtain ⟨failure, fails, kind⟩ :=
      exists_syntax_failure (failure?_of_not_isPositional positional)
    change outcome = _ at fails
    rw [fails]
    refine ⟨.inr ⟨failure, rfl, kind⟩, nofun, fun both => ?_⟩
    exact absurd ((isPositional_iff both.1).mpr both.2) positional

end SciCalc
