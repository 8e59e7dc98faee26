import Mathlib.Data.Nat.Log
import SciCalc.Proofs.Number.Rounding

/-! The nearest magnitude lies nearest, and grows with what is rounded.

A rounded quotient is at most a half away, so what is nearest to a quotient has it around itself.
Rounding keeps the order of quotients, at one step and across the powers of two where the step
changes.
-/

namespace SciCalc.Binary64

-----------------------------------------------------------------------------------------
-- Whole numbers
-----------------------------------------------------------------------------------------

/-- A quotient lies within a half of the number it is rounded to, which is even if it is a half
away. Witness: the remainder decides between the number below and the next one.
-/
theorem roundQuotient_within {numerator denominator rounded : Nat} (positive : 0 < denominator)
    (nearest : roundQuotient numerator denominator = rounded)
    : 2 * (rounded * denominator) ≤ 2 * numerator + denominator
      ∧ 2 * numerator ≤ 2 * (rounded * denominator) + denominator
      ∧ (2 * (rounded * denominator) = 2 * numerator + denominator
          ∨ 2 * numerator = 2 * (rounded * denominator) + denominator
          → rounded % 2 = 0) := by
  have split := Nat.div_add_mod' numerator denominator
  have short := Nat.mod_lt numerator positive
  simp only [roundQuotient] at nearest
  split at nearest
  · subst nearest
    omega
  · subst nearest
    rw [Nat.add_mul]
    omega

/-- Rounding keeps the order of quotients.
Witness: two quotients that changed places would both lie half-way between the same numbers, and
be rounded to the even one.
-/
theorem roundQuotient_le_roundQuotient {numerator denominator other below : Nat}
    (positive : 0 < denominator) (otherPositive : 0 < below)
    (ordered : numerator * below ≤ other * denominator)
    : roundQuotient numerator denominator ≤ roundQuotient other below := by
  obtain ⟨least, _, tie⟩ := @roundQuotient_within numerator denominator _ positive rfl
  obtain ⟨_, most, otherTie⟩ := @roundQuotient_within other below _ otherPositive rfl
  generalize roundQuotient numerator denominator = first at least tie ⊢
  generalize roundQuotient other below = second at most otherTie ⊢
  refine Nat.le_of_not_lt fun swapped => ?_
  have apart : (second + 1) * (denominator * below) ≤ first * (denominator * below) :=
    Nat.mul_le_mul_right _ swapped
  have common : 0 < denominator * below := Nat.mul_pos positive otherPositive
  have leastScaled := Nat.mul_le_mul_right below least
  have mostScaled := Nat.mul_le_mul_right denominator most
  have even : first % 2 = 0 := by
    refine tie (.inl (Nat.eq_of_mul_eq_mul_right otherPositive ?_))
    linarith
  have otherEven : second % 2 = 0 := by
    refine otherTie (.inr (Nat.eq_of_mul_eq_mul_right positive ?_))
    linarith
  have next : first ≤ second + 1 := by
    refine Nat.le_of_mul_le_mul_right ?_ common
    linarith
  omega

theorem roundQuotient_le {numerator denominator n : Nat} (positive : 0 < denominator)
    (most : numerator ≤ n * denominator)
    : roundQuotient numerator denominator ≤ n := by
  rw [← @roundQuotient_mul_self n denominator positive]
  exact roundQuotient_le_roundQuotient positive positive (Nat.mul_le_mul_right _ most)

theorem le_roundQuotient {numerator denominator n : Nat} (positive : 0 < denominator)
    (least : n * denominator ≤ numerator)
    : n ≤ roundQuotient numerator denominator := by
  conv_lhs => rw [← @roundQuotient_mul_self n denominator positive]
  exact roundQuotient_le_roundQuotient positive positive (Nat.mul_le_mul_right _ least)

-----------------------------------------------------------------------------------------
-- The step of a quotient
-----------------------------------------------------------------------------------------

/-- How often the unit is doubled before a quotient is rounded. -/
def doublings (numerator denominator : Nat) : Nat :=
  (numerator / denominator).log2 - fractionBits

theorem nearest_eq_doublings (numerator denominator : Nat)
    : nearest numerator denominator
      = min infinity
          (doublings numerator denominator * hiddenBit
            + roundQuotient numerator
                (denominator * Nat.pow 2 (doublings numerator denominator))) :=
  rfl

/-- In its own steps a quotient has at most 53 bits. -/
theorem lt_hiddenBit_mul_step {numerator denominator : Nat} (positive : 0 < denominator)
    : numerator
      < 2 * hiddenBit * (denominator * Nat.pow 2 (doublings numerator denominator)) := by
  have bits := @Nat.lt_log2_self (numerator / denominator)
  have enough : (numerator / denominator).log2 + 1
      ≤ 53 + doublings numerator denominator := by
    simp only [doublings, fractionBits]
    omega
  have short : numerator / denominator < Nat.pow 2 (53 + doublings numerator denominator) :=
    Nat.lt_of_lt_of_le bits (Nat.pow_le_pow_right (by decide) enough)
  have power : Nat.pow 2 (53 + doublings numerator denominator)
      = 2 * hiddenBit * Nat.pow 2 (doublings numerator denominator) :=
    Nat.pow_add 2 53 _
  rw [power, Nat.div_lt_iff_lt_mul positive] at short
  linarith

/-- A quotient that is rounded at a doubled unit has the hidden bit. -/
theorem hiddenBit_mul_step_le {numerator denominator : Nat} (positive : 0 < denominator)
    (doubled : 0 < doublings numerator denominator)
    : hiddenBit * (denominator * Nat.pow 2 (doublings numerator denominator)) ≤ numerator := by
  have exact : (numerator / denominator).log2 = 52 + doublings numerator denominator := by
    simp only [doublings, fractionBits] at doubled ⊢
    omega
  have some : numerator / denominator ≠ 0 := by
    intro none
    rw [none] at exact
    change 0 = _ at exact
    omega
  have long : Nat.pow 2 (52 + doublings numerator denominator) ≤ numerator / denominator :=
    exact ▸ Nat.log2_self_le some
  have power : Nat.pow 2 (52 + doublings numerator denominator)
      = hiddenBit * Nat.pow 2 (doublings numerator denominator) :=
    Nat.pow_add 2 52 _
  rw [power, Nat.le_div_iff_mul_le positive] at long
  linarith

theorem doublings_le_doublings {numerator denominator other below : Nat}
    (positive : 0 < denominator) (otherPositive : 0 < below)
    (ordered : numerator * below ≤ other * denominator)
    : doublings numerator denominator ≤ doublings other below := by
  have quotients : numerator / denominator ≤ other / below := by
    rw [Nat.le_div_iff_mul_le otherPositive]
    refine Nat.le_of_mul_le_mul_right ?_ positive
    have part := Nat.div_mul_le_self numerator denominator
    nlinarith
  simp only [doublings, Nat.log2_eq_log_two]
  exact Nat.sub_le_sub_right (Nat.log_mono_right quotients) _

-----------------------------------------------------------------------------------------
-- The nearest magnitude
-----------------------------------------------------------------------------------------

/-- The nearest magnitude grows with the quotient.
Witness: at one step rounding keeps the order. Where the step is doubled more often, the smaller
quotient is rounded to at most a power of two that the greater one has reached.
-/
theorem nearest_le_nearest {numerator denominator other below : Nat}
    (positive : 0 < denominator) (otherPositive : 0 < below)
    (ordered : numerator * below ≤ other * denominator)
    : nearest numerator denominator ≤ nearest other below := by
  have wide (n d : Nat) (some : 0 < d) : 0 < d * Nat.pow 2 (doublings n d) :=
    Nat.mul_pos some (Nat.pow_pos (by decide))
  rw [nearest_eq_doublings, nearest_eq_doublings]
  apply min_le_min_left
  rcases Nat.eq_or_lt_of_le (doublings_le_doublings positive otherPositive ordered)
    with same | fewer
  · have rounded : roundQuotient numerator
          (denominator * Nat.pow 2 (doublings numerator denominator))
        ≤ roundQuotient other (below * Nat.pow 2 (doublings other below)) := by
      apply roundQuotient_le_roundQuotient (wide _ _ positive) (wide _ _ otherPositive)
      rw [← same, ← Nat.mul_assoc, ← Nat.mul_assoc]
      exact Nat.mul_le_mul_right _ ordered
    rw [same] at rounded ⊢
    exact Nat.add_le_add_left rounded _
  · have most := roundQuotient_le (wide numerator _ positive)
      (Nat.le_of_lt (lt_hiddenBit_mul_step positive))
    have least := le_roundQuotient (wide other _ otherPositive)
      (hiddenBit_mul_step_le otherPositive (Nat.zero_lt_of_lt fewer))
    have steps := Nat.mul_le_mul_right hiddenBit fewer
    rw [Nat.succ_mul] at steps
    omega

theorem nearest_zero {denominator : Nat} (positive : 0 < denominator)
    : nearest 0 denominator = 0 := by
  have least := @nearest_le_nearest 0 denominator 0 1 positive (by decide) (by simp)
  exact Nat.le_zero.mp least

/-- Doublings and a mantissa make up a magnitude if the mantissa has the hidden bit once
anything is doubled, and at most 53 bits.
-/
theorem shift_and_mantissa {doubled bits : Nat} (short : bits < 2 * hiddenBit)
    (hidden : 0 < doubled → hiddenBit ≤ bits)
    : shift (doubled * hiddenBit + bits) = doubled
      ∧ mantissa (doubled * hiddenBit + bits) = bits := by
  simp only [mantissa, shift, hiddenBit] at *
  omega

/-- A quotient lies around the magnitude that it is rounded to at its own step. -/
theorem around_of_rounded {numerator denominator doubled bits : Nat}
    (wide : 0 < denominator * Nat.pow 2 doubled)
    (rounded : roundQuotient numerator (denominator * Nat.pow 2 doubled) = bits)
    (short : bits < 2 * hiddenBit)
    (least : 0 < doubled → hiddenBit * (denominator * Nat.pow 2 doubled) ≤ numerator)
    : Around (doubled * hiddenBit + bits) numerator denominator := by
  obtain ⟨above, below, tie⟩ := roundQuotient_within wide rounded
  have hidden (some : 0 < doubled) : hiddenBit ≤ bits :=
    rounded ▸ le_roundQuotient wide (least some)
  obtain ⟨exponent, digits⟩ := shift_and_mantissa short hidden
  constructor
  all_goals simp only [parts, step, exponent, digits]
  · exact above
  · exact below
  · intro equal some
    have reached := least some
    rw [equal]
    omega
  · exact tie

/-- A quotient that is rounded up to a power of two lies around it.
Witness: half of the step it is rounded at is a quarter of the step there.
-/
theorem around_of_carried {numerator denominator doubled : Nat}
    (wide : 0 < denominator * Nat.pow 2 doubled)
    (rounded : roundQuotient numerator (denominator * Nat.pow 2 doubled) = 2 * hiddenBit)
    (most : numerator < 2 * hiddenBit * (denominator * Nat.pow 2 doubled))
    : Around (doubled * hiddenBit + 2 * hiddenBit) numerator denominator := by
  obtain ⟨above, _, _⟩ := roundQuotient_within wide rounded
  obtain ⟨exponent, digits⟩ :=
    @shift_and_mantissa (doubled + 1) hiddenBit (by decide) (fun _ => Nat.le_refl _)
  have next : doubled * hiddenBit + 2 * hiddenBit = (doubled + 1) * hiddenBit + hiddenBit := by
    ring
  have double : denominator * Nat.pow 2 (doubled + 1)
      = 2 * (denominator * Nat.pow 2 doubled) := by
    change denominator * (Nat.pow 2 doubled * 2) = _
    ring
  rw [Nat.mul_assoc] at above most
  rw [next]
  constructor
  all_goals simp only [parts, step, exponent, digits, double, Nat.mul_left_comm hiddenBit 2]
  · omega
  · omega
  · omega
  · exact fun _ => rfl

/-- A quotient lies around the magnitude nearest to it.
Witness: rounding takes it to at most 53 bits, or carries to the next power of two.
-/
theorem around_nearest {numerator denominator : Nat} (positive : 0 < denominator)
    (finite : nearest numerator denominator < infinity)
    : Around (nearest numerator denominator) numerator denominator := by
  have most := @lt_hiddenBit_mul_step numerator denominator positive
  have least := @hiddenBit_mul_step_le numerator denominator positive
  have wide : 0 < denominator * Nat.pow 2 (doublings numerator denominator) :=
    Nat.mul_pos positive (Nat.pow_pos (by decide))
  rw [nearest_eq_doublings] at finite ⊢
  rw [Nat.min_eq_right (by omega)]
  rcases Nat.lt_or_eq_of_le (roundQuotient_le wide (Nat.le_of_lt most)) with short | carried
  · exact around_of_rounded wide rfl short least
  · rw [carried]
    exact around_of_carried wide carried most

end SciCalc.Binary64
