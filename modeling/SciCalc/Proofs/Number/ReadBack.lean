import SciCalc.Number.Text
import SciCalc.Proofs.Number.Bits
import SciCalc.Proofs.Number.Rounding

/-! Numbers survive printing and reading: the shortest decimal of a magnitude lies in its
rounding interval, the nearest magnitude to it is the one it came from, and its written form is
a literal with the same digits.
-/

namespace SciCalc

open Binary64 (mantissa shift infinity hiddenBit)

-----------------------------------------------------------------------------------------
-- The rounding interval
-----------------------------------------------------------------------------------------

namespace RoundingInterval

/-- An interval holds the numbers between its ends, and the ends if it is closed. -/
theorem contains_iff {interval : RoundingInterval} {n : Nat}
    : interval.contains n
      ↔ interval.low ≤ n
        ∧ n ≤ interval.high
        ∧ (interval.low = n ∨ n = interval.high → interval.closed) := by
  unfold contains
  split
  · next closed => simp [closed]
  · next unclosed =>
      simp only [unclosed, Bool.false_eq_true, Bool.and_eq_true, decide_eq_true_eq, imp_false]
      omega

/-- The interval of a magnitude, given a quarter of the step of doubles there. -/
def ofQuarter (magnitude quarter : Nat) : RoundingInterval where
  low := 4 * mantissa magnitude * quarter
    - if mantissa magnitude = hiddenBit ∧ 0 < shift magnitude then quarter else 2 * quarter
  centre := 4 * mantissa magnitude * quarter
  high := 4 * mantissa magnitude * quarter + 2 * quarter
  closed := mantissa magnitude % 2 = 0

/-- The centre of an interval lies in it, at an end only if the mantissa is zero. -/
theorem contains_centre {magnitude quarter : Nat} (positive : 0 < quarter)
    : (ofQuarter magnitude quarter).contains (ofQuarter magnitude quarter).centre := by
  rw [contains_iff]
  simp only [ofQuarter, decide_eq_true_eq]
  refine ⟨Nat.sub_le _ _, Nat.le_add_right _ _, ?_⟩
  intro ends
  rcases Nat.eq_zero_or_pos (mantissa magnitude) with zero | some
  · rw [zero]
  · have many : quarter ≤ mantissa magnitude * quarter := Nat.le_mul_of_pos_left _ some
    rw [Nat.mul_assoc] at ends
    split at ends <;> omega

theorem parts_of_quarters {magnitude quarter unit : Nat}
    (quarters : Binary64.step unit magnitude = 4 * quarter)
    : Binary64.parts unit magnitude = 4 * mantissa magnitude * quarter := by
  rw [Binary64.parts, quarters]
  ring

/-- What an interval contains lies around its magnitude, whatever the step counts.
Witness: the interval reaches half a step of doubles to either side, or a quarter below, and
contains its ends only for an even mantissa.
-/
theorem around_of_contains {magnitude quarter unit n : Nat}
    (quarters : Binary64.step unit magnitude = 4 * quarter) (positive : 0 < quarter)
    (inside : (ofQuarter magnitude quarter).contains n)
    : Binary64.Around magnitude n unit := by
  have centred := parts_of_quarters quarters
  obtain ⟨low, high, ends⟩ := contains_iff.mp inside
  simp only [ofQuarter, ← centred, decide_eq_true_eq] at low high ends
  constructor
  · rw [quarters]
    split at low <;> omega
  · omega
  · intro least doubled
    rw [if_pos ⟨least, doubled⟩] at low
    omega
  · rw [quarters]
    intro tie
    split at low <;> split at ends <;> omega

theorem contains_of_onGrid? {interval : RoundingInterval} {k digits : Nat}
    (found : interval.onGrid? k = some digits)
    : interval.contains (digits * Nat.pow 10 k) := by
  simp only [onGrid?] at found
  split at found
  · next below above =>
      injection found with nearer
      rcases Binary64.roundQuotient_eq_or interval.centre (Nat.pow 10 k) with down | up
      · rwa [← nearer, down]
      · rwa [← nearer, up]
  · next below _ =>
      injection found with point
      rwa [← point]
  · next _ above =>
      injection found with point
      rwa [← point]
  · cases found

/-- The decimal that the grids lead to lies in the interval, and the grids passed over on the way
to it have no point there. Witness: either a grid offers it, or it is the centre.
-/
theorem exists_contains_shortestFrom {interval : RoundingInterval}
    (centred : interval.contains interval.centre) (k : Nat)
    : ∃ digits grid : Nat,
        interval.shortestFrom k = ⟨digits, (grid : Int) - (scale : Int)⟩
        ∧ interval.contains (digits * Nat.pow 10 grid)
        ∧ ∀ coarser, grid < coarser → coarser ≤ k → interval.onGrid? coarser = none := by
  induction k with
  | zero =>
      refine ⟨interval.centre, 0, ?_, ?_, fun coarser more less => by omega⟩
      · rw [shortestFrom, Int.ofNat_zero, Int.zero_sub]
      · exact (Nat.mul_one interval.centre).symm ▸ centred
  | succ k before =>
      rw [shortestFrom]
      split
      · next digits found =>
          exact ⟨digits, k + 1, rfl, contains_of_onGrid? found, fun coarser more less => by omega⟩
      · next none =>
          obtain ⟨digits, grid, found, inside, passed⟩ := before
          refine ⟨digits, grid, found, inside, fun coarser more less => ?_⟩
          rcases Nat.lt_or_eq_of_le less with earlier | rfl
          · exact passed coarser more (Nat.le_of_lt_succ earlier)
          · exact none

end RoundingInterval

-----------------------------------------------------------------------------------------
-- Decimals that read back
-----------------------------------------------------------------------------------------

namespace Decimal

/-- A decimal on a grid is a whole number of steps of the scale. -/
theorem numerator_mul_pow (digits grid scale : Nat)
    : (⟨digits, (grid : Int) - (scale : Int)⟩ : Decimal).numerator * Nat.pow 10 scale
      = digits * Nat.pow 10 grid
        * (⟨digits, (grid : Int) - (scale : Int)⟩ : Decimal).denominator := by
  have above : ((grid : Int) - (scale : Int)).toNat = grid - scale := by omega
  have below : (-((grid : Int) - (scale : Int))).toNat = scale - grid := by omega
  have exponents : grid - scale + scale = grid + (scale - grid) := by omega
  calc digits * Nat.pow 10 ((grid : Int) - (scale : Int)).toNat * Nat.pow 10 scale
      = digits * Nat.pow 10 (grid - scale + scale) := by
        rw [above, Nat.mul_assoc]
        exact congrArg (digits * ·) (Nat.pow_add 10 _ _).symm
    _ = digits * Nat.pow 10 grid * Nat.pow 10 (scale - grid) := by
        rw [exponents, Nat.mul_assoc]
        exact congrArg (digits * ·) (Nat.pow_add 10 _ _)
    _ = digits * Nat.pow 10 grid * Nat.pow 10 (-((grid : Int) - (scale : Int))).toNat := by
        rw [below]

/-- The magnitude of a decimal on a grid, from its steps. -/
theorem magnitude_eq_nearest (digits grid : Nat) {unit scale : Nat} (positive : 0 < unit)
    (steps : Nat.pow 2 Binary64.unitScale * unit = Nat.pow 10 scale)
    : (⟨digits, (grid : Int) - (scale : Int)⟩ : Decimal).magnitude
      = Binary64.nearest (digits * Nat.pow 10 grid) unit := by
  refine Binary64.nearest_congr (denominator_pos _) positive ?_
  rw [Nat.mul_assoc, steps, numerator_mul_pow]

end Decimal

namespace RoundingInterval

/-- A unit, in steps of the scale. -/
def unit : Nat :=
  4 * Nat.pow 5 scale

theorem unit_pos : 0 < unit := by
  have power (n : Nat) : 0 < Nat.pow 5 n := Nat.pow_pos (by decide)
  exact Nat.mul_pos (by decide) (power scale)

/-- A unit is a whole number of steps. -/
theorem steps_of_unit
    : Nat.pow 2 Binary64.unitScale * unit = Nat.pow 10 scale := by
  rw [unit]
  have whole (n s : Nat) (quartered : s = n + 2)
      : Nat.pow 2 n * (4 * Nat.pow 5 s) = Nat.pow 10 s :=
    calc Nat.pow 2 n * (4 * Nat.pow 5 s)
        = Nat.pow 2 s * Nat.pow 5 s := by
          rw [← Nat.mul_assoc, quartered]
          exact congrArg (· * _) (Nat.pow_add 2 n 2).symm
      _ = Nat.pow 10 s := (Nat.mul_pow 2 5 s).symm
  exact whole Binary64.unitScale scale rfl

/-- A quarter of the step of doubles at a magnitude, in steps of the scale. -/
def quarter (magnitude : Nat) : Nat :=
  Nat.pow 2 (shift magnitude) * Nat.pow 5 scale

theorem quarter_pos (magnitude : Nat) : 0 < quarter magnitude := by
  have power (n : Nat) : 0 < Nat.pow 5 n := Nat.pow_pos (by decide)
  exact Nat.mul_pos (Nat.pow_pos (by decide)) (power scale)

theorem step_unit (magnitude : Nat) : Binary64.step unit magnitude = 4 * quarter magnitude := by
  rw [Binary64.step, unit, quarter, Nat.mul_assoc, Nat.mul_comm (Nat.pow 2 (shift magnitude))]

/-- What the interval of a magnitude contains is rounded to the magnitude. -/
theorem nearest_of_contains {magnitude n : Nat} (finite : magnitude ≤ infinity)
    (inside : (ofMagnitude magnitude).contains n)
    : Binary64.nearest n unit = magnitude :=
  Binary64.nearest_eq unit_pos finite
    (around_of_contains (step_unit magnitude) (quarter_pos magnitude) inside)

end RoundingInterval

/-- The shortest decimal of a magnitude other than zero is a point of its interval, on the first
grid that has one.
-/
theorem Decimal.exists_ofMagnitude_eq {magnitude : Nat} (some : magnitude ≠ 0)
    : ∃ digits grid : Nat,
        ofMagnitude magnitude = ⟨digits, (grid : Int) - (RoundingInterval.scale : Int)⟩
        ∧ (RoundingInterval.ofMagnitude magnitude).contains (digits * Nat.pow 10 grid)
        ∧ ∀ coarser, grid < coarser
            → coarser ≤ (RoundingInterval.ofMagnitude magnitude).coarsest
            → (RoundingInterval.ofMagnitude magnitude).onGrid? coarser = none := by
  rw [ofMagnitude, if_neg some]
  exact RoundingInterval.exists_contains_shortestFrom
    (RoundingInterval.contains_centre (RoundingInterval.quarter_pos magnitude)) _

/-- The shortest decimal of a finite magnitude reads back as that magnitude.
Witness: it lies in the rounding interval, and what lies there is rounded to the magnitude.
-/
theorem Decimal.magnitude_ofMagnitude {magnitude : Nat} (finite : magnitude < infinity)
    : (Decimal.ofMagnitude magnitude).magnitude = magnitude := by
  by_cases zero : magnitude = 0
  · subst zero
    rw [ofMagnitude, if_pos rfl, Decimal.magnitude, numerator, Nat.zero_mul, Nat.zero_mul]
    rfl
  · obtain ⟨digits, grid, shortest, inside, _⟩ := exists_ofMagnitude_eq zero
    rw [shortest, magnitude_eq_nearest digits grid RoundingInterval.unit_pos
      RoundingInterval.steps_of_unit]
    exact RoundingInterval.nearest_of_contains (Nat.le_of_lt finite) inside

-----------------------------------------------------------------------------------------
-- Written decimals
-----------------------------------------------------------------------------------------

/-- A literal as a scan takes it: digits, at least one of them before the point. -/
structure Literal.WellFormed (literal : Literal) : Prop where
  some_whole : literal.whole ≠ []
  whole : ∀ c ∈ literal.whole, c.isDigit
  fraction : ∀ c ∈ literal.fraction, c.isDigit

/-- A literal is written in digits and at most a point. -/
theorem Literal.WellFormed.isDigit_or_eq_point {literal : Literal}
    (wellFormed : literal.WellFormed)
    : ∀ c ∈ literal.text, c.isDigit ∨ c = '.' := by
  intro c member
  rw [Literal.text, List.mem_append] at member
  rcases member with whole | rest
  · exact .inl (wellFormed.whole c whole)
  · split at rest
    · cases rest
    · rcases List.mem_cons.mp rest with point | fraction
      · exact .inr point
      · exact .inl (wellFormed.fraction c fraction)

namespace Decimal

theorem isDigit_of_mem_digitChars {d : Decimal} {c : Char} (mem : c ∈ d.digitChars)
    : c.isDigit :=
  Nat.isDigit_of_mem_toDigits (by decide) (by decide) mem

theorem ofDigitChars_digitChars (d : Decimal)
    : Nat.ofDigitChars 10 d.digitChars 0 = d.digits :=
  Nat.ofDigitChars_ten_toDigits

theorem wellFormed_literal (d : Decimal) : d.literal.WellFormed := by
  have zeros {n : Nat} {c : Char} (mem : c ∈ List.replicate n '0') : c.isDigit := by
    rw [List.eq_of_mem_replicate mem]
    decide
  have digits : d.digitChars ≠ [] := Nat.toDigits_ne_nil
  simp only [literal]
  split
  · refine ⟨List.append_ne_nil_of_left_ne_nil digits _, ?_, by simp⟩
    intro c mem
    rcases List.mem_append.mp mem with digit | zero
    · exact isDigit_of_mem_digitChars digit
    · exact zeros zero
  · split
    · next few =>
        refine ⟨?_, ?_, ?_⟩
        · apply List.ne_nil_of_length_pos
          rw [List.length_take]
          omega
        · intro c mem
          exact isDigit_of_mem_digitChars (List.mem_of_mem_take mem)
        · intro c mem
          exact isDigit_of_mem_digitChars (List.mem_of_mem_drop mem)
    · refine ⟨List.cons_ne_nil _ _, fun c mem => @zeros 1 _ mem, ?_⟩
      intro c mem
      rcases List.mem_append.mp mem with zero | digit
      · exact zeros zero
      · exact isDigit_of_mem_digitChars digit

/-- The literal of a decimal has its places after the point. -/
theorem length_fraction_literal (d : Decimal)
    : d.literal.fraction.length = (-d.exponent).toNat := by
  simp only [literal]
  split
  · next whole => rw [whole, List.length_nil]
  · split
    · rw [List.length_drop]
      omega
    · rw [List.length_append, List.length_replicate]
      omega

/-- The digits of the literal of a decimal, valued as a whole number. -/
theorem ofDigitChars_literal (d : Decimal)
    : Nat.ofDigitChars 10 (d.literal.whole ++ d.literal.fraction) 0 = d.numerator := by
  have fractional (places : (-d.exponent).toNat ≠ 0) : d.digits = d.numerator := by
    have whole : d.exponent.toNat = 0 := by omega
    rw [numerator, whole]
    exact (Nat.mul_one _).symm
  simp only [literal]
  split
  · rw [List.append_nil, Nat.ofDigitChars_append, Nat.ofDigitChars_replicate_zero,
      ofDigitChars_digitChars]
    exact Nat.mul_comm _ _
  · next places =>
      split
      · rw [List.take_append_drop, ofDigitChars_digitChars, fractional places]
      · rw [← List.append_assoc, Nat.ofDigitChars_append, ← List.replicate_one,
          List.replicate_append_replicate, Nat.ofDigitChars_replicate_zero, Nat.mul_zero,
          ofDigitChars_digitChars, fractional places]

/-- The literal of a decimal is as near to the doubles as the decimal.
Witness: it has the same numerator and denominator.
-/
theorem magnitude_literal (d : Decimal) : d.literal.decimal.magnitude = d.magnitude := by
  have above : d.literal.decimal.numerator = d.numerator := by
    simp only [numerator, Literal.decimal, ofDigitChars_literal]
    have whole : (-(d.literal.fraction.length : Int)).toNat = 0 := by omega
    rw [whole]
    exact Nat.mul_one _
  have below : d.literal.decimal.denominator = d.denominator := by
    simp only [denominator, Literal.decimal, length_fraction_literal]
    exact congrArg (Nat.pow 10) (by omega)
  rw [magnitude, above, below, ← magnitude]

end Decimal

-----------------------------------------------------------------------------------------
-- Written numbers
-----------------------------------------------------------------------------------------

/-- A double that a literal can stand for: a finite one without a sign. -/
def IsUnsigned (x : Float) : Prop :=
  Binary64.isNegative x = false ∧ Binary64.magnitude x < infinity

instance (x : Float) : Decidable (IsUnsigned x) :=
  inferInstanceAs (Decidable (_ ∧ _))

theorem IsUnsigned.ofFloat_eq {x : Float} (unsigned : IsUnsigned x)
    : Binary64.ofFloat x = .finite false (Binary64.magnitude x) := by
  rw [Binary64.ofFloat, if_pos unsigned.2, unsigned.1]

theorem isUnsigned_compose {magnitude : Nat} (finite : magnitude < infinity)
    : IsUnsigned (Binary64.compose false magnitude) := by
  have bounded := Nat.le_of_lt finite
  exact ⟨Binary64.isNegative_compose bounded, by rwa [Binary64.magnitude_compose bounded]⟩

/-- The literal that a double without a sign is written as. -/
def numberLiteral (x : Float) : Literal :=
  (Decimal.ofMagnitude (Binary64.magnitude x)).literal

/-- A double without a sign stands in an expression as its literal. -/
theorem toList_numberText {x : Float} (unsigned : IsUnsigned x)
    : (numberText x).toList = (numberLiteral x).text := by
  rw [numberText, String.toList_ofList, writeDouble, unsigned.ofFloat_eq]
  rfl

/-- The literal of a double without a sign has that double as its value.
Witness: the shortest decimal reads back as the magnitude, which composes to the double.
-/
theorem value?_numberLiteral {x : Float} (unsigned : IsUnsigned x)
    : (numberLiteral x).value? = some x := by
  have back : (numberLiteral x).decimal.magnitude = Binary64.magnitude x := by
    rw [numberLiteral, Decimal.magnitude_literal, Decimal.magnitude_ofMagnitude unsigned.2]
  rw [Literal.value?, Decimal.toFloat, back, if_pos unsigned.2,
    (Binary64.compose_of_ofFloat unsigned.ofFloat_eq).2]

theorem Literal.isUnsigned_of_value? {literal : Literal} {x : Float}
    (valued : literal.value? = some x)
    : IsUnsigned x := by
  simp only [Literal.value?] at valued
  split at valued
  · next finite =>
      injection valued with same
      exact same ▸ isUnsigned_compose finite
  · cases valued

end SciCalc
