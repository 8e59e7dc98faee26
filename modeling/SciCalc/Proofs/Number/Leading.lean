import SciCalc.Proofs.Number.Exact
import SciCalc.Proofs.Number.Significant

/-! The power of ten of the first digit of the shortest decimal, and the bounds of the doubles
that a result shows positionally.

The first digit stands at a power of ten or to the left of it exactly if the magnitude is at
least what that power is read as. At the two bounds of the positional form a double reaches this
exactly if it reaches the power itself.
-/

namespace SciCalc

open Binary64 (infinity units)

namespace Decimal

variable {magnitude : Nat}

theorem digits_lt_pow_length (d : Decimal) : d.digits < 10 ^ d.digitChars.length :=
  (Nat.length_toDigits_le_iff (by decide) Nat.length_toDigits_pos).mp (Nat.le_refl _)

theorem pow_length_le_digits {d : Decimal} (some : d.digits ≠ 0)
    : 10 ^ (d.digitChars.length - 1) ≤ d.digits := by
  have long : 0 < d.digitChars.length := Nat.length_toDigits_pos
  rcases Nat.eq_zero_or_pos (d.digitChars.length - 1) with single | more
  · rw [single]
    exact Nat.one_le_iff_ne_zero.mpr some
  · refine Nat.le_of_not_lt fun less => ?_
    have short : d.digitChars.length ≤ d.digitChars.length - 1 :=
      (Nat.length_toDigits_le_iff (by decide) more).mpr less
    omega

/-- The shortest decimal of a magnitude starts at a power of ten or to the left of it exactly if
the magnitude is at least what the power is read as.
Witness: the decimal lies between the powers of its first digit and of the place before. If it
were read as the greater one, that would be the shorter decimal.
-/
theorem le_leadingExponent_iff (some : magnitude ≠ 0) (finite : magnitude < infinity) (k : Int)
    : k ≤ (ofMagnitude magnitude).leadingExponent
      ↔ (⟨1, k⟩ : Decimal).magnitude ≤ magnitude := by
  have reads := magnitude_ofMagnitude finite
  have coarsest := @exponent_le_of_magnitude_eq magnitude some finite
  generalize ofMagnitude magnitude = d at reads coarsest
  have nonzero : d.digits ≠ 0 := by
    intro none
    obtain ⟨digits, exponent⟩ := d
    subst none
    exact some (reads.symm.trans (magnitude_zero exponent))
  have long : 0 < d.digitChars.length := Nat.length_toDigits_pos
  have power (zeros : Nat) : (⟨10 ^ zeros, d.exponent⟩ : Decimal).magnitude
      = (⟨1, d.exponent + zeros⟩ : Decimal).magnitude := by
    rw [← magnitude_mul_pow, Nat.one_mul]
  rw [leadingExponent]
  constructor
  · intro reached
    have place : k ≤ d.exponent + (d.digitChars.length - 1 : Nat) := by omega
    calc (⟨1, k⟩ : Decimal).magnitude
        ≤ (⟨1, d.exponent + (d.digitChars.length - 1 : Nat)⟩ : Decimal).magnitude :=
          magnitude_le_magnitude (Nat.le_refl 1) place
      _ = (⟨10 ^ (d.digitChars.length - 1), d.exponent⟩ : Decimal).magnitude := (power _).symm
      _ ≤ d.magnitude :=
          magnitude_le_magnitude (pow_length_le_digits nonzero) (Int.le_refl _)
      _ = magnitude := reads
  · intro reached
    refine Int.le_of_not_gt fun beyond => ?_
    have place : d.exponent + d.digitChars.length ≤ k := by omega
    have least : (⟨1, d.exponent + d.digitChars.length⟩ : Decimal).magnitude ≤ magnitude :=
      (magnitude_le_magnitude (Nat.le_refl 1) place).trans reached
    have most : magnitude ≤ (⟨1, d.exponent + d.digitChars.length⟩ : Decimal).magnitude := by
      rw [← power, ← reads]
      exact magnitude_le_magnitude (Nat.le_of_lt d.digits_lt_pow_length) (Int.le_refl _)
    have coarser := coarsest (Nat.le_antisymm least most)
    change d.exponent + d.digitChars.length ≤ d.exponent at coarser
    omega

-----------------------------------------------------------------------------------------
-- The bounds of the positional form
-----------------------------------------------------------------------------------------

/-- A decimal and a magnitude compare like parts of units. -/
theorem rational_le_iff (d : Decimal) (magnitude : Nat)
    : d.rational ≤ Binary64.rational magnitude
      ↔ d.numerator * Nat.pow 2 Binary64.unitScale ≤ units magnitude * d.denominator := by
  have twice := (d.midpoint_iff magnitude magnitude).1
  rw [← two_mul, mul_le_mul_iff_right₀ two_pos, ← two_mul, Nat.mul_assoc,
    Nat.mul_le_mul_left_iff two_pos] at twice
  exact twice

/-- A decimal that is no greater than a double is not read as a greater one.
Witness: the double is nearest to itself, and reading keeps the order.
-/
theorem magnitude_le_of_rational_le_rational {d : Decimal} (finite : magnitude < infinity)
    (ordered : d.rational ≤ Binary64.rational magnitude)
    : d.magnitude ≤ magnitude := by
  have exact : Binary64.Around magnitude (units magnitude) 1 := by
    have whole : Binary64.parts 1 magnitude = units magnitude := by
      rw [Binary64.parts_eq, Nat.mul_one]
    have wide : 0 < Binary64.step 1 magnitude :=
      Nat.mul_pos Nat.one_pos (Nat.pow_pos (by decide))
    constructor <;> rw [whole] <;> omega
  rw [← Binary64.nearest_eq Nat.one_pos (Nat.le_of_lt finite) exact]
  apply Binary64.nearest_le_nearest d.denominator_pos Nat.one_pos
  rw [Nat.mul_one]
  exact (d.rational_le_iff magnitude).mp ordered

/-- A double is at least what a decimal is read as exactly if it is at least the decimal, where
that is not read as less.
-/
theorem magnitude_le_iff {d : Decimal} (finite : magnitude < infinity)
    (upward : d.rational ≤ Binary64.rational d.magnitude)
    : d.magnitude ≤ magnitude ↔ d.rational ≤ Binary64.rational magnitude := by
  constructor
  · intro reached
    exact upward.trans (Binary64.rational_strictMono.monotone reached)
  · exact magnitude_le_of_rational_le_rational finite

/-- A magnitude is shown positionally if it is zero, or lies from the fourth place behind the
point on to below the seventeenth before it.
Witness: the two powers of ten are read as no less than they are.
-/
theorem positional_iff (finite : magnitude < infinity)
    : (-4 ≤ (ofMagnitude magnitude).leadingExponent
        ∧ (ofMagnitude magnitude).leadingExponent < 16)
      ↔ Binary64.rational magnitude = 0
        ∨ 1 / 10 ^ 4 ≤ Binary64.rational magnitude ∧ Binary64.rational magnitude < 10 ^ 16 := by
  by_cases some : magnitude = 0
  · subst some
    have leading : (ofMagnitude 0).leadingExponent = 0 := rfl
    simp [leading, Binary64.rational_zero]
  · have lower : (⟨1, -4⟩ : Decimal).rational ≤ Binary64.rational (⟨1, -4⟩ : Decimal).magnitude :=
      (rational_le_iff _ _).mpr (by decide +kernel)
    have upper : (⟨1, 16⟩ : Decimal).rational ≤ Binary64.rational (⟨1, 16⟩ : Decimal).magnitude :=
      (rational_le_iff _ _).mpr (by decide +kernel)
    have tenThousandth : (⟨1, -4⟩ : Decimal).rational = 1 / 10 ^ 4 := by
      change ((1 : Nat) : ℚ) / ((10000 : Nat) : ℚ) = _
      norm_num
    have power : (⟨1, 16⟩ : Decimal).rational = 10 ^ 16 := by
      change ((10000000000000000 : Nat) : ℚ) / ((1 : Nat) : ℚ) = _
      norm_num
    have positive : 0 < Binary64.rational magnitude := by
      rw [← Binary64.rational_zero]
      exact Binary64.rational_strictMono (Nat.pos_of_ne_zero some)
    rw [le_leadingExponent_iff some finite, magnitude_le_iff finite lower, tenThousandth,
      ← not_le, le_leadingExponent_iff some finite, magnitude_le_iff finite upper, power, not_le]
    constructor
    · exact .inr
    · intro either
      rcases either with zero | within
      · exact absurd zero positive.ne'
      · exact within

end Decimal

end SciCalc
