import SciCalc.Evaluation
import SciCalc.Proofs.Number.Exact
import SciCalc.Proofs.Scan.Written

/-! Literals are read exactly or refused exactly, whatever their length.

A literal below half-way between the greatest double and the next power of two is scanned as the
double nearest to it, and from there on it is refused at its start. What is left of a literal in
a scan is its exact value, so literals of one value are treated alike and the order of values is
kept.
-/

namespace SciCalc

open Binary64 (infinity rational?)

namespace Literal

/-- The exact value of a literal: what stands before the point, and parts of a power of ten
behind it.
-/
def number (literal : Literal) : ℚ :=
  Nat.ofDigitChars 10 literal.whole 0
    + Nat.ofDigitChars 10 literal.fraction 0 / 10 ^ literal.fraction.length

/-- The decimal of a literal has its value. -/
theorem rational_decimal (literal : Literal) : literal.decimal.rational = literal.number := by
  have above : literal.decimal.numerator
      = 10 ^ literal.fraction.length * Nat.ofDigitChars 10 literal.whole 0
        + Nat.ofDigitChars 10 literal.fraction 0 := by
    have none : (-(literal.fraction.length : Int)).toNat = 0 := by omega
    rw [Decimal.numerator, decimal, none, Nat.ofDigitChars_append,
      Nat.ofDigitChars_eq_ofDigitChars_zero]
    exact Nat.mul_one _
  have below : literal.decimal.denominator = 10 ^ literal.fraction.length := by
    have places : (- -(literal.fraction.length : Int)).toNat = literal.fraction.length := by omega
    rw [Decimal.denominator, decimal, places, Nat.pow_eq]
  have some : (10 : ℚ) ^ literal.fraction.length ≠ 0 := by positivity
  rw [Decimal.rational, above, below, number]
  push_cast
  field_simp

/-- Wherever a literal stands, it is scanned as a certain double, in either mode. -/
structure ScansAs (literal : Literal) (x : Float) : Prop where
  within
    : ∀ mode position rest,
        literal.StopsBefore rest
        → scanFrom mode position (literal.text ++ rest)
          = .deliver ⟨.number x, position⟩
              (scanFrom mode (position + literal.text.length) rest)
  alone : ∀ mode, tokenize mode (String.ofList literal.text) = pure [⟨.number x, 0⟩]

/-- Wherever a literal stands, it is refused as out of range at its start, in either mode. -/
structure IsRefused (literal : Literal) : Prop where
  within
    : ∀ mode position rest,
        literal.StopsBefore rest
        → scanFrom mode position (literal.text ++ rest) = .fault (.numberOutOfRange position)
  alone : ∀ mode, tokenize mode (String.ofList literal.text) = .fail (.numberOutOfRange 0)

variable {literal : Literal}

theorem stopsBefore_nil : literal.StopsBefore [] :=
  ⟨nofun, nofun⟩

/-- A literal alone is scanned as one in front of nothing. -/
theorem tokenize_text (literal : Literal) (mode : Mode)
    : tokenize mode (String.ofList literal.text)
      = (Consumer.collect.draw (scanFrom mode 0 (literal.text ++ []))).result := by
  rw [tokenize, scan, String.toList_ofList, List.append_nil]

/-- A literal with a value is scanned as that value. -/
theorem scansAs_of_value? (wellFormed : literal.WellFormed) {x : Float}
    (valued : literal.value? = some x)
    : literal.ScansAs x := by
  have means : (Spelling.literal literal).lexeme? = some (.number x) := by
    rw [Spelling.lexeme?, valued]
    rfl
  have within (mode : Mode) (position : Nat) (rest : List Char)
      (stops : literal.StopsBefore rest)
      : scanFrom mode position (literal.text ++ rest)
        = .deliver ⟨.number x, position⟩
            (scanFrom mode (position + literal.text.length) rest) :=
    @scanFrom_spelling_append mode position (.literal literal) _ rest wellFormed stops means
  refine ⟨within, fun mode => ?_⟩
  rw [tokenize_text, within _ _ _ stopsBefore_nil, scanFrom]
  rfl

/-- A literal without a value is refused. -/
theorem isRefused_of_value? (wellFormed : literal.WellFormed)
    (outOfRange : literal.value? = none)
    : literal.IsRefused := by
  have meaningless : (Spelling.literal literal).lexeme? = none := by
    rw [Spelling.lexeme?, outOfRange]
    rfl
  have within (mode : Mode) (position : Nat) (rest : List Char)
      (stops : literal.StopsBefore rest)
      : scanFrom mode position (literal.text ++ rest) = .fault (.numberOutOfRange position) :=
    @scanFrom_spelling_append_of_meaningless mode position (.literal literal) rest wellFormed
      stops meaningless
  refine ⟨within, fun mode => ?_⟩
  rw [tokenize_text, within _ _ _ stopsBefore_nil]
  rfl

/-- What a literal is scanned as is its value. Witness: a scan has one outcome. -/
theorem ScansAs.value?_eq (wellFormed : literal.WellFormed) {x : Float}
    (scans : literal.ScansAs x)
    : literal.value? = some x := by
  have outcome := congrArg Traced.outcome (scans.alone .strict)
  cases valued : literal.value? with
  | none =>
      rw [(isRefused_of_value? wellFormed valued).alone] at outcome
      cases outcome
  | some y =>
      rw [(scansAs_of_value? wellFormed valued).alone] at outcome
      cases outcome
      rfl

theorem IsRefused.value?_eq (wellFormed : literal.WellFormed) (refused : literal.IsRefused)
    : literal.value? = none := by
  have outcome := congrArg Traced.outcome (refused.alone .strict)
  cases valued : literal.value? with
  | none => rfl
  | some y =>
      rw [(scansAs_of_value? wellFormed valued).alone] at outcome
      cases outcome

/-- A literal has a value exactly below the bound of the range, and then the double that its
decimal is read as.
-/
theorem value?_eq (literal : Literal)
    : literal.value?
      = if literal.number < 2 ^ 1024 - 2 ^ 970 then some (literal.decimal.toFloat false)
        else none := by
  simp only [value?, Decimal.magnitude_lt_infinity_iff, rational_decimal]

theorem value?_eq_none_iff : literal.value? = none ↔ 2 ^ 1024 - 2 ^ 970 ≤ literal.number := by
  rw [value?_eq]
  split
  · next less => exact ⟨nofun, fun reached => absurd less (not_lt.mpr reached)⟩
  · next reached => exact ⟨fun _ => not_lt.mp reached, fun _ => rfl⟩

/-- The value of a literal depends on its exact value alone. -/
theorem value?_congr {other : Literal} (same : literal.number = other.number)
    : literal.value? = other.value? := by
  have read : literal.decimal.magnitude = other.decimal.magnitude := by
    rw [← rational_decimal, ← rational_decimal] at same
    exact Nat.le_antisymm (Decimal.magnitude_le_of_rational_le same.le)
      (Decimal.magnitude_le_of_rational_le same.ge)
  rw [value?, value?, Decimal.toFloat, Decimal.toFloat, read]

/-- The values of literals keep the order of their exact values. -/
theorem value?_mono {other : Literal} (ordered : literal.number ≤ other.number) {x y : Float}
    (first : literal.value? = some x) (second : other.value? = some y)
    : ∃ lower upper, rational? x = some lower ∧ rational? y = some upper ∧ lower ≤ upper := by
  have finite {literal : Literal} {x : Float} (valued : literal.value? = some x)
      : literal.decimal.magnitude < infinity ∧ literal.decimal.toFloat false = x := by
    simp only [value?] at valued
    split at valued
    · next inRange => exact ⟨inRange, Option.some.inj valued⟩
    · cases valued
  obtain ⟨firstFinite, rfl⟩ := finite first
  obtain ⟨secondFinite, rfl⟩ := finite second
  refine ⟨_, _, (Decimal.isNearest_toFloat firstFinite).stands,
    (Decimal.isNearest_toFloat secondFinite).stands, ?_⟩
  apply Binary64.rational_strictMono.monotone
  apply Decimal.magnitude_le_of_rational_le
  rwa [rational_decimal, rational_decimal]

end Literal

/-- A literal is read exactly or refused exactly, whatever its length and wherever it stands.
Below half-way between the greatest double and the next power of two it is scanned as the double
nearest to its exact value, which is finite and has no sign, with ties to even; from there on it
is refused at its start. So a greater value is scanned as no lesser double, and a literal is
refused if one of no greater value is.
-/
theorem scan_literal (literal : Literal) (wellFormed : literal.WellFormed)
    : (literal.number < 2 ^ 1024 - 2 ^ 970
        → ∃ x value,
            literal.ScansAs x
            ∧ IsUnsigned x
            ∧ Binary64.IsNearest literal.number value x)
      ∧ (2 ^ 1024 - 2 ^ 970 ≤ literal.number → literal.IsRefused)
      ∧ (∀ position,
          (Failure.numberOutOfRange position).message
          = "number out of range at position " ++ toString position)
      ∧ ∀ other : Literal,
          other.WellFormed
          → literal.number ≤ other.number
          → (literal.IsRefused → other.IsRefused)
            ∧ ∀ x y,
                literal.ScansAs x
                → other.ScansAs y
                → ∃ lower upper,
                    rational? x = some lower ∧ rational? y = some upper ∧ lower ≤ upper := by
  refine ⟨fun inRange => ?_, fun reached => ?_, fun _ => rfl, fun other otherFormed ordered => ?_⟩
  · have valued := literal.value?_eq
    rw [if_pos inRange] at valued
    have finite : literal.decimal.magnitude < infinity := by
      rwa [Decimal.magnitude_lt_infinity_iff, Literal.rational_decimal]
    have nearest := Decimal.isNearest_toFloat finite
    rw [Literal.rational_decimal] at nearest
    exact ⟨_, _, Literal.scansAs_of_value? wellFormed valued,
      Literal.isUnsigned_of_value? valued, nearest⟩
  · exact Literal.isRefused_of_value? wellFormed (Literal.value?_eq_none_iff.mpr reached)
  · refine ⟨fun refused => ?_, fun x y first second => ?_⟩
    · have reached := Literal.value?_eq_none_iff.mp (refused.value?_eq wellFormed)
      exact Literal.isRefused_of_value? otherFormed
        (Literal.value?_eq_none_iff.mpr (reached.trans ordered))
    · exact Literal.value?_mono ordered (first.value?_eq wellFormed)
        (second.value?_eq otherFormed)

/-- The literal `9007199254740993` is half-way between two doubles. -/
theorem scan_literal_of_tie
    : let literal : Literal :=
        ⟨['9', '0', '0', '7', '1', '9', '9', '2', '5', '4', '7', '4', '0', '9', '9', '3'], []⟩
      literal.WellFormed
      ∧ (literal.number < 2 ^ 1024 - 2 ^ 970
          → ∃ x value,
              literal.ScansAs x
              ∧ IsUnsigned x
              ∧ Binary64.IsNearest literal.number value x)
      ∧ (2 ^ 1024 - 2 ^ 970 ≤ literal.number → literal.IsRefused)
      ∧ (∀ position,
          (Failure.numberOutOfRange position).message
          = "number out of range at position " ++ toString position)
      ∧ ∀ other : Literal,
          other.WellFormed
          → literal.number ≤ other.number
          → (literal.IsRefused → other.IsRefused)
            ∧ ∀ x y,
                literal.ScansAs x
                → other.ScansAs y
                → ∃ lower upper,
                    rational? x = some lower ∧ rational? y = some upper ∧ lower ≤ upper := by
  intro literal
  have wellFormed : literal.WellFormed := ⟨nofun, by simp [literal, Char.isDigit], nofun⟩
  exact ⟨wellFormed, scan_literal literal wellFormed⟩

end SciCalc
