import Mathlib
import SciCalc.Proofs.Number.Rational
import SciCalc.Proofs.Number.Shortest

/-! Rounding is exact: the double that a decimal is read as is the nearest one, and a decimal is
out of range exactly from half-way between the greatest double and the next power of two.

What lies around a magnitude lies between the midpoints to its neighbours, and there the
magnitude is nearest. The bound of the range is the last of these midpoints.
-/

namespace SciCalc

namespace Binary64

/-- A double is nearest to a number: no finite double is nearer, of either sign, and if one of
another value is as near, the last bit of this one is zero.
-/
structure IsNearest (number value : ℚ) (x : Float) : Prop where
  stands : rational? x = some value
  least : ∀ y other, rational? y = some other → |number - value| ≤ |number - other|
  tie
    : ∀ y other,
        rational? y = some other
        → |number - value| = |number - other|
        → other = value ∨ x.toBits.toNat % 2 = 0

-----------------------------------------------------------------------------------------
-- Midpoints
-----------------------------------------------------------------------------------------

variable {magnitude numerator denominator : Nat}

theorem parts_eq (denominator magnitude : Nat)
    : parts denominator magnitude = units magnitude * denominator := by
  rw [parts, step, units]
  ring

theorem even_of_mantissa (even : mantissa magnitude % 2 = 0) : magnitude % 2 = 0 := by
  have whole := (shift_add_mantissa magnitude).1
  simp only [hiddenBit] at whole
  omega

/-- What lies around a magnitude lies no higher than half-way to the next one, and there only if
the magnitude is even.
-/
theorem Around.le_midpoint (around : Around magnitude numerator denominator)
    : 2 * numerator ≤ (units magnitude + units (magnitude + 1)) * denominator
      ∧ (2 * numerator = (units magnitude + units (magnitude + 1)) * denominator
          → magnitude % 2 = 0) := by
  have half : 2 * parts denominator magnitude + step denominator magnitude
      = (units magnitude + units (magnitude + 1)) * denominator := by
    rw [parts_eq, units_succ, step, Nat.pow_eq]
    ring
  rw [← half]
  exact ⟨around.below, fun same => even_of_mantissa (around.tie (.inr same))⟩

/-- What lies around a magnitude lies no lower than half-way to the one before, and there only if
the magnitude is even. Witness: below a power of two the step is half as wide, and what lies
around is half as near.
-/
theorem Around.midpoint_le (around : Around (magnitude + 1) numerator denominator)
    : (units magnitude + units (magnitude + 1)) * denominator ≤ 2 * numerator
      ∧ ((units magnitude + units (magnitude + 1)) * denominator = 2 * numerator
          → (magnitude + 1) % 2 = 0) := by
  have next : parts denominator (magnitude + 1)
      = units magnitude * denominator + denominator * 2 ^ shift magnitude := by
    rw [parts_eq, units_succ]
    ring
  have sum : (units magnitude + units (magnitude + 1)) * denominator
      = 2 * (units magnitude * denominator) + denominator * 2 ^ shift magnitude := by
    rw [units_succ]
    ring
  rw [sum]
  by_cases level : shift (magnitude + 1) = shift magnitude
  · have above := around.above
    have tie := around.tie
    rw [next, step, level, Nat.pow_eq] at above tie
    refine ⟨by omega, fun same => even_of_mantissa (tie (.inl (by omega)))⟩
  · have doubled : shift (magnitude + 1) = shift magnitude + 1
        ∧ mantissa (magnitude + 1) = hiddenBit := by
      simp only [mantissa, shift, hiddenBit] at level ⊢
      omega
    have narrow := around.narrow doubled.2 (by omega)
    rw [next, step, doubled.1, Nat.pow_eq, Nat.pow_succ, ← Nat.mul_assoc] at narrow
    have even : (magnitude + 1) % 2 = 0 := even_of_mantissa (by rw [doubled.2]; rfl)
    exact ⟨by omega, fun _ => even⟩

/-- A quotient below the midpoint between the greatest finite magnitude and infinity is in range.
Witness: a quotient from that magnitude up to the midpoint lies around it, and a lesser one is
read as no more.
-/
theorem nearest_lt_infinity (positive : 0 < denominator)
    (less : 2 * numerator < (units (infinity - 1) + units infinity) * denominator)
    : nearest numerator denominator < infinity := by
  obtain ⟨top, last⟩ : ∃ top, infinity = top + 1 := ⟨infinity - 1, rfl⟩
  have exponent : shift top = 2045 := by
    simp only [shift, infinity, hiddenBit] at last ⊢
    omega
  have bits : mantissa top ≠ hiddenBit := by
    simp only [mantissa, shift, infinity, hiddenBit] at last ⊢
    omega
  have gap : (units (infinity - 1) + units infinity) * denominator
      = 2 * parts denominator top + step denominator top := by
    rw [last, Nat.add_sub_cancel, units_succ, parts_eq, step, Nat.pow_eq]
    ring
  rw [gap] at less
  have around : Around top (max numerator (parts denominator top)) denominator := by
    have wide : 0 < step denominator top := Nat.mul_pos positive (Nat.pow_pos (by decide))
    constructor
    · omega
    · omega
    · exact fun least => absurd least bits
    · intro ends
      omega
  have bounded : top ≤ infinity := by omega
  have most := @nearest_le_nearest numerator denominator _ denominator positive positive
    (Nat.mul_le_mul_right _ (Nat.le_max_left numerator (parts denominator top)))
  rw [nearest_eq positive bounded around] at most
  omega

/-- Infinity stands where the next power of two would, as a magnitude. -/
theorem rational_infinity : rational infinity = 2 ^ 1024 := by
  have product := mul_zpow_eq_rational false infinity
  have bits : mantissa infinity = 2 ^ 52 := rfl
  have exponent : (shift infinity : Int) - unitScale = 972 := rfl
  rw [bits, exponent, if_neg Bool.false_ne_true, if_neg Bool.false_ne_true] at product
  rw [← product, Int.cast_natCast, Nat.cast_pow, Nat.cast_ofNat, ← zpow_natCast,
    ← zpow_add₀ two_ne_zero, ← zpow_natCast]
  rfl

theorem rational_infinity_sub_one : rational (infinity - 1) = 2 ^ 1024 - 2 ^ 971 := by
  have gap := rational_succ (infinity - 1)
  have exponent : (shift (infinity - 1) : Int) - unitScale = (971 : Nat) := rfl
  have next : infinity - 1 + 1 = infinity := rfl
  rw [exponent, next, rational_infinity, zpow_natCast] at gap
  exact eq_sub_of_add_eq gap.symm

-----------------------------------------------------------------------------------------
-- The nearest number
-----------------------------------------------------------------------------------------

/-- Of two numbers the lower is nearer to what is not above their midpoint. -/
theorem nearer_of_le_midpoint {number lower upper : ℚ} (ordered : lower < upper)
    (most : 2 * number ≤ lower + upper)
    : |number - lower| ≤ |number - upper|
      ∧ (|number - lower| = |number - upper| → 2 * number = lower + upper) := by
  have beyond : |number - upper| = upper - number := by
    rw [abs_sub_comm, abs_of_pos]
    linarith
  rw [beyond]
  constructor
  · apply abs_le.mpr
    constructor <;> linarith
  · intro level
    rcases abs_choice (number - lower) with same | same
    · rw [same] at level
      linarith
    · rw [same] at level
      linarith

/-- Of two numbers the upper is nearer to what is not below their midpoint. -/
theorem nearer_of_midpoint_le {number lower upper : ℚ} (ordered : lower < upper)
    (least : lower + upper ≤ 2 * number)
    : |number - upper| ≤ |number - lower|
      ∧ (|number - upper| = |number - lower| → 2 * number = lower + upper) := by
  obtain ⟨nearer, tie⟩ :=
    @nearer_of_le_midpoint (-number) (-upper) (-lower) (by linarith) (by linarith)
  rw [neg_sub_neg, neg_sub_neg, abs_sub_comm upper, abs_sub_comm lower] at nearer tie
  exact ⟨nearer, fun level => by linarith [tie level]⟩

/-- A number that is not below zero is no nearer to the other side of it. -/
theorem nearer_than_mirrored {number other : ℚ} (nonneg : 0 ≤ number) (otherNonneg : 0 ≤ other)
    : |number - other| ≤ |number - -other|
      ∧ (|number - other| = |number - -other| → number = 0 ∨ other = 0) := by
  have sum : |number - -other| = number + other := by
    rw [sub_neg_eq_add, abs_of_nonneg (add_nonneg nonneg otherNonneg)]
  rw [sum]
  constructor
  · apply abs_le.mpr
    constructor <;> linarith
  · intro level
    rcases abs_choice (number - other) with same | same
    · rw [same] at level
      exact .inr (by linarith)
    · rw [same] at level
      exact .inl (by linarith)

/-- A number between the midpoints around a member of a growing sequence is nearer to it than to
any other member, or half-way to a neighbour. Witness: another member is at least as far off as
the neighbour on its side.
-/
theorem nearest_of_midpoints {sequence : Nat → ℚ} (grows : StrictMono sequence) {place : Nat}
    {number : ℚ} (above : 2 * number ≤ sequence place + sequence (place + 1))
    (below : ∀ before, place = before + 1 → sequence before + sequence place ≤ 2 * number)
    (other : Nat)
    : |number - sequence place| ≤ |number - sequence other|
      ∧ (|number - sequence place| = |number - sequence other|
          → other = place
            ∨ 2 * number = sequence place + sequence (place + 1)
            ∨ ∃ before, place = before + 1 ∧ 2 * number = sequence before + sequence place) := by
  rcases Nat.lt_trichotomy other place with less | same | greater
  · obtain ⟨before, rfl⟩ : ∃ before, place = before + 1 := ⟨place - 1, by omega⟩
    have least := below before rfl
    have far : sequence other ≤ sequence before := grows.monotone (Nat.le_of_lt_succ less)
    obtain ⟨nearer, tie⟩ :=
      @nearer_of_midpoint_le number _ _ (grows less) (by linarith)
    refine ⟨nearer, fun level => .inr (.inr ⟨before, rfl, ?_⟩)⟩
    have half := tie level
    linarith
  · subst same
    exact ⟨le_refl _, fun _ => .inl rfl⟩
  · have far : sequence (place + 1) ≤ sequence other := grows.monotone greater
    obtain ⟨nearer, tie⟩ :=
      @nearer_of_le_midpoint number _ _ (grows greater) (by linarith)
    refine ⟨nearer, fun level => .inr (.inl ?_)⟩
    have half := tie level
    linarith

end Binary64

-----------------------------------------------------------------------------------------
-- Decimals
-----------------------------------------------------------------------------------------

namespace Decimal

open Binary64 (infinity units)

/-- A decimal as a number. -/
def rational (d : Decimal) : ℚ :=
  d.numerator / d.denominator

theorem rational_nonneg (d : Decimal) : 0 ≤ d.rational :=
  div_nonneg (Nat.cast_nonneg _) (Nat.cast_nonneg _)

/-- A decimal and a midpoint compare like parts of units.
Witness: both are taken times the same positive number.
-/
theorem midpoint_iff (d : Decimal) (first second : Nat)
    : (2 * d.rational ≤ Binary64.rational first + Binary64.rational second
        ↔ 2 * (d.numerator * Nat.pow 2 Binary64.unitScale)
          ≤ (units first + units second) * d.denominator)
      ∧ (Binary64.rational first + Binary64.rational second ≤ 2 * d.rational
        ↔ (units first + units second) * d.denominator
          ≤ 2 * (d.numerator * Nat.pow 2 Binary64.unitScale)) := by
  have below : (0 : ℚ) < d.denominator := Nat.cast_pos.mpr d.denominator_pos
  have scale : (0 : ℚ) < 2 ^ Binary64.unitScale := by positivity
  have common : (0 : ℚ) < d.denominator * 2 ^ Binary64.unitScale := mul_pos below scale
  have decimal : 2 * d.rational
      = ((2 * (d.numerator * Nat.pow 2 Binary64.unitScale) : Nat) : ℚ)
        / (d.denominator * 2 ^ Binary64.unitScale) := by
    rw [rational, Nat.pow_eq, eq_div_iff common.ne']
    push_cast
    field_simp
  have midpoint : Binary64.rational first + Binary64.rational second
      = (((units first + units second) * d.denominator : Nat) : ℚ)
        / (d.denominator * 2 ^ Binary64.unitScale) := by
    rw [Binary64.rational, Binary64.rational, eq_div_iff common.ne']
    push_cast
    field_simp
  rw [decimal, midpoint, div_le_div_iff_of_pos_right common, div_le_div_iff_of_pos_right common,
    Nat.cast_le, Nat.cast_le]
  exact ⟨Iff.rfl, Iff.rfl⟩

/-- A decimal in range lies between the midpoints around the magnitude it is read as, and on one
of them only if the magnitude is even.
-/
theorem between_midpoints {d : Decimal} (finite : d.magnitude < infinity)
    : (2 * d.rational
          ≤ Binary64.rational d.magnitude + Binary64.rational (d.magnitude + 1)
        ∧ (2 * d.rational
            = Binary64.rational d.magnitude + Binary64.rational (d.magnitude + 1)
          → d.magnitude % 2 = 0))
      ∧ ∀ before,
          d.magnitude = before + 1
          → Binary64.rational before + Binary64.rational d.magnitude ≤ 2 * d.rational
            ∧ (2 * d.rational = Binary64.rational before + Binary64.rational d.magnitude
              → d.magnitude % 2 = 0) := by
  have around := Binary64.around_nearest d.denominator_pos finite
  change Binary64.Around d.magnitude _ _ at around
  constructor
  · obtain ⟨most, tie⟩ := around.le_midpoint
    obtain ⟨le, ge⟩ := d.midpoint_iff d.magnitude (d.magnitude + 1)
    refine ⟨le.mpr most, fun level => tie ?_⟩
    exact Nat.le_antisymm most (ge.mp level.ge)
  · intro before next
    rw [next] at around ⊢
    obtain ⟨least, tie⟩ := around.midpoint_le
    obtain ⟨le, ge⟩ := d.midpoint_iff before (before + 1)
    refine ⟨ge.mpr least, fun level => tie ?_⟩
    exact Nat.le_antisymm least (le.mp level.le)

/-- No magnitude is nearer to a decimal in range than the one it is read as, and if another is as
near, that one is even.
-/
theorem nearest_magnitude {d : Decimal} (finite : d.magnitude < infinity) (other : Nat)
    : |d.rational - Binary64.rational d.magnitude| ≤ |d.rational - Binary64.rational other|
      ∧ (|d.rational - Binary64.rational d.magnitude| = |d.rational - Binary64.rational other|
          → Binary64.rational other = Binary64.rational d.magnitude ∨ d.magnitude % 2 = 0) := by
  obtain ⟨⟨above, aboveTie⟩, below⟩ := between_midpoints finite
  obtain ⟨nearer, tie⟩ := Binary64.nearest_of_midpoints Binary64.rational_strictMono above
    (fun before next => (below before next).1) other
  refine ⟨nearer, fun level => ?_⟩
  rcases tie level with same | half | ⟨before, next, half⟩
  · exact .inl (congrArg _ same)
  · exact .inr (aboveTie half)
  · exact .inr ((below before next).2 half)

/-- A decimal in range is read as the double nearest to it. Witness: of the finite magnitudes
the one found is nearest, and a double below zero is no nearer than its magnitude.
-/
theorem isNearest_toFloat {d : Decimal} (finite : d.magnitude < infinity)
    : Binary64.IsNearest d.rational (Binary64.rational d.magnitude) (d.toFloat false) := by
  have bounded := Nat.le_of_lt finite
  have read : Binary64.magnitude (d.toFloat false) = d.magnitude :=
    Binary64.magnitude_compose bounded
  have positive : Binary64.isNegative (d.toFloat false) = false :=
    Binary64.isNegative_compose bounded
  have bits : (d.toFloat false).toBits.toNat = d.magnitude := by
    rw [toFloat, Binary64.toNat_toBits_compose bounded, if_neg Bool.false_ne_true, Nat.add_zero]
  have mirrored (other : Nat) :=
    Binary64.nearer_than_mirrored d.rational_nonneg (Binary64.rational_nonneg other)
  constructor
  · refine Binary64.rational?_eq_some_iff.mpr ⟨by rwa [read], ?_⟩
    rw [read, positive, if_neg Bool.false_ne_true]
  · intro y other stands
    obtain ⟨_, rfl⟩ := Binary64.rational?_eq_some_iff.mp stands
    have nearer := (nearest_magnitude finite (Binary64.magnitude y)).1
    split
    · exact nearer.trans (mirrored _).1
    · exact nearer
  · intro y other stands
    obtain ⟨_, rfl⟩ := Binary64.rational?_eq_some_iff.mp stands
    obtain ⟨nearer, tie⟩ := nearest_magnitude finite (Binary64.magnitude y)
    rw [bits]
    split
    · intro level
      have same := le_antisymm nearer (level ▸ (mirrored _).1)
      -- A tie across zero can only be one at zero.
      have nothing : Binary64.rational (Binary64.magnitude y) = 0 := by
        rcases (mirrored _).2 (same.symm.trans level) with zero | zero
        · have least := (nearest_magnitude finite 0).1
          rw [level, Binary64.rational_zero, zero, zero_sub, neg_neg, sub_zero, abs_zero] at least
          exact abs_nonpos_iff.mp least
        · exact zero
      rw [nothing, neg_zero, ← nothing]
      exact tie same
    · exact tie

/-- A decimal is in range exactly below the midpoint between the greatest finite double and the
next power of two. Witness: at the midpoint itself the tie goes to the power of two, which is
even.
-/
theorem magnitude_lt_infinity_iff (d : Decimal)
    : d.magnitude < infinity ↔ d.rational < 2 ^ 1024 - 2 ^ 970 := by
  have midpoint : Binary64.rational (infinity - 1) + Binary64.rational infinity
      = 2 * (2 ^ 1024 - 2 ^ 970) := by
    have double : (2 : ℚ) ^ 971 = 2 ^ 970 * 2 := pow_succ 2 970
    rw [Binary64.rational_infinity_sub_one, Binary64.rational_infinity, double]
    generalize (2 : ℚ) ^ 1024 = power, (2 : ℚ) ^ 970 = half
    ring
  have bound : d.rational < 2 ^ 1024 - 2 ^ 970
      ↔ 2 * d.rational < Binary64.rational (infinity - 1) + Binary64.rational infinity := by
    rw [midpoint, mul_lt_mul_iff_right₀ two_pos]
  rw [bound]
  constructor
  · intro finite
    obtain ⟨⟨above, tie⟩, _⟩ := between_midpoints finite
    have grows := Binary64.rational_strictMono
    rcases Nat.lt_or_eq_of_le (Nat.le_sub_one_of_lt finite) with short | last
    · have lower := grows short
      have upper := grows (Nat.succ_lt_succ short)
      exact lt_of_le_of_lt above (add_lt_add lower upper)
    · have next : infinity - 1 + 1 = infinity := rfl
      rw [last, next] at above tie
      refine lt_of_le_of_ne above fun half => ?_
      cases tie half
  · intro less
    apply Binary64.nearest_lt_infinity d.denominator_pos
    exact Nat.lt_of_not_le fun reached => not_le.mpr less ((d.midpoint_iff _ _).2.mpr reached)

/-- Decimals keep their order when they are read. -/
theorem magnitude_le_of_rational_le {first second : Decimal}
    (ordered : first.rational ≤ second.rational)
    : first.magnitude ≤ second.magnitude := by
  apply Binary64.nearest_le_nearest first.denominator_pos second.denominator_pos
  have firstPositive : (0 : ℚ) < first.denominator := Nat.cast_pos.mpr first.denominator_pos
  have secondPositive : (0 : ℚ) < second.denominator := Nat.cast_pos.mpr second.denominator_pos
  rw [rational, rational, div_le_div_iff₀ firstPositive secondPositive] at ordered
  have products : first.numerator * second.denominator ≤ second.numerator * first.denominator := by
    exact_mod_cast ordered
  have scaled := Nat.mul_le_mul_right (Nat.pow 2 Binary64.unitScale) products
  rw [Nat.mul_right_comm, Nat.mul_right_comm second.numerator]
  exact scaled

end Decimal

end SciCalc
