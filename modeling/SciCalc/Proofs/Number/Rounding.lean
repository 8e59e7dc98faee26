import Mathlib.Tactic.Linarith
import Mathlib.Tactic.Ring
import SciCalc.Number.Shortest

/-! Rounding: the nearest magnitude depends on a quotient alone, and is the one around which
the quotient lies.

A magnitude is the nearest one to all quotients within half a step of it. Below a power of two
the steps are half as wide, and the quotient must be half as near.
-/

namespace SciCalc.Binary64

-----------------------------------------------------------------------------------------
-- Whole numbers
-----------------------------------------------------------------------------------------

theorem roundQuotient_mul_right {numerator denominator factor : Nat} (positive : 0 < factor)
    : roundQuotient (numerator * factor) (denominator * factor)
      = roundQuotient numerator denominator := by
  have scaled : 2 * (numerator % denominator * factor) = 2 * (numerator % denominator) * factor :=
    (Nat.mul_assoc _ _ _).symm
  simp only [roundQuotient, Nat.mul_div_mul_right _ _ positive, Nat.mul_mod_mul_right, scaled,
    Nat.mul_lt_mul_right positive, Nat.mul_right_cancel_iff positive]

theorem roundQuotient_eq_or (numerator denominator : Nat)
    : roundQuotient numerator denominator = numerator / denominator
      ∨ roundQuotient numerator denominator = numerator / denominator + 1 := by
  simp only [roundQuotient]
  split
  · exact .inl rfl
  · exact .inr rfl

/-- A quotient is rounded to the number that it is within a half of, and to an even one if it
is a half away. Witness: the remainder decides between the number below and the next one.
-/
theorem roundQuotient_eq {numerator denominator n : Nat} (positive : 0 < denominator)
    (above : 2 * (n * denominator) ≤ 2 * numerator + denominator)
    (below : 2 * numerator ≤ 2 * (n * denominator) + denominator)
    (tie : 2 * (n * denominator) = 2 * numerator + denominator
      ∨ 2 * numerator = 2 * (n * denominator) + denominator → n % 2 = 0)
    : roundQuotient numerator denominator = n := by
  have split := Nat.div_add_mod' numerator denominator
  have short := Nat.mod_lt numerator positive
  have least : numerator / denominator < n + 1 := by
    have products : numerator / denominator * denominator < (n + 1) * denominator := by
      rw [Nat.add_mul]
      omega
    exact Nat.lt_of_mul_lt_mul_right products
  have greatest : n < numerator / denominator + 2 := by
    have products : n * denominator < (numerator / denominator + 2) * denominator := by
      rw [Nat.add_mul]
      omega
    exact Nat.lt_of_mul_lt_mul_right products
  obtain same | next : n = numerator / denominator ∨ n = numerator / denominator + 1 := by omega
  · subst same
    simp only [roundQuotient]
    split <;> omega
  · have product : n * denominator = numerator / denominator * denominator + denominator := by
      rw [next, Nat.add_mul, Nat.one_mul]
    simp only [roundQuotient]
    split <;> omega

/-- The binary logarithm of a quotient, from the powers of two around it. -/
theorem log2_div {numerator denominator k : Nat} (positive : 0 < denominator)
    (least : Nat.pow 2 k * denominator ≤ numerator)
    (greatest : numerator < 2 * (Nat.pow 2 k * denominator))
    : (numerator / denominator).log2 = k := by
  have atLeast : Nat.pow 2 k ≤ numerator / denominator :=
    (Nat.le_div_iff_mul_le positive).mpr least
  have one : 0 < Nat.pow 2 k := Nat.pow_pos (by decide)
  refine (Nat.log2_eq_iff (by omega)).mpr ⟨atLeast, ?_⟩
  refine (Nat.div_lt_iff_lt_mul positive).mpr ?_
  change numerator < Nat.pow 2 k * 2 * denominator
  linarith

-----------------------------------------------------------------------------------------
-- The nearest magnitude
-----------------------------------------------------------------------------------------

theorem nearest_mul_right {numerator denominator factor : Nat} (positive : 0 < factor)
    : nearest (numerator * factor) (denominator * factor) = nearest numerator denominator := by
  simp only [nearest, Nat.mul_div_mul_right _ _ positive, Nat.mul_right_comm _ factor,
    roundQuotient_mul_right positive]

/-- Equal quotients have the same nearest magnitude. -/
theorem nearest_congr {numerator denominator other below : Nat} (positive : 0 < denominator)
    (otherPositive : 0 < below) (equal : numerator * below = other * denominator)
    : nearest numerator denominator = nearest other below := by
  rw [← nearest_mul_right otherPositive, equal, Nat.mul_comm denominator below,
    nearest_mul_right positive]

/-- A magnitude is made up of its doublings and its mantissa, which has the hidden bit once
anything is doubled.
-/
theorem shift_add_mantissa (magnitude : Nat)
    : shift magnitude * hiddenBit + mantissa magnitude = magnitude
      ∧ mantissa magnitude < 2 * hiddenBit
      ∧ (0 < shift magnitude → hiddenBit ≤ mantissa magnitude) := by
  simp only [mantissa, shift, hiddenBit]
  omega

/-- The step of doubles at a magnitude, in parts of a unit. -/
def step (denominator magnitude : Nat) : Nat :=
  denominator * Nat.pow 2 (shift magnitude)

/-- A magnitude in parts of a unit. -/
def parts (denominator magnitude : Nat) : Nat :=
  mantissa magnitude * step denominator magnitude

/-- A quotient of units lies around a magnitude: at most half a step away from it, at most a
quarter below it if the steps below are half as wide, and at the ends only if the mantissa is
even.
-/
structure Around (magnitude numerator denominator : Nat) : Prop where
  above : 2 * parts denominator magnitude ≤ 2 * numerator + step denominator magnitude
  below : 2 * numerator ≤ 2 * parts denominator magnitude + step denominator magnitude
  narrow
    : mantissa magnitude = hiddenBit
      → 0 < shift magnitude
      → 4 * parts denominator magnitude ≤ 4 * numerator + step denominator magnitude
  tie
    : 2 * parts denominator magnitude = 2 * numerator + step denominator magnitude
      ∨ 2 * numerator = 2 * parts denominator magnitude + step denominator magnitude
      → mantissa magnitude % 2 = 0

theorem nearest_of_log2 {numerator denominator doublings magnitude : Nat}
    (found : (numerator / denominator).log2 - fractionBits = doublings)
    (rounded : doublings * hiddenBit
        + roundQuotient numerator (denominator * Nat.pow 2 doublings)
      = magnitude)
    (finite : magnitude ≤ infinity)
    : nearest numerator denominator = magnitude := by
  rw [nearest, found, rounded]
  exact Nat.min_eq_right finite

theorem log2_of_hiddenBit {numerator denominator doublings : Nat} (positive : 0 < denominator)
    (least : hiddenBit * (denominator * Nat.pow 2 doublings) ≤ numerator)
    (greatest : numerator < 2 * (hiddenBit * (denominator * Nat.pow 2 doublings)))
    : (numerator / denominator).log2 - fractionBits = doublings := by
  have power : Nat.pow 2 (52 + doublings) * denominator
      = hiddenBit * (denominator * Nat.pow 2 doublings) := by
    have split : Nat.pow 2 (52 + doublings) = hiddenBit * Nat.pow 2 doublings :=
      Nat.pow_add 2 52 doublings
    rw [split, Nat.mul_assoc, Nat.mul_comm denominator]
  rw [log2_div positive (power ▸ least) (power ▸ greatest)]
  exact Nat.add_sub_cancel_left 52 doublings

/-- A quotient around a magnitude lies below twice the hidden bit in steps. -/
theorem Around.lt {magnitude numerator denominator : Nat}
    (around : Around magnitude numerator denominator)
    (wide : 0 < step denominator magnitude)
    : numerator < 2 * (hiddenBit * step denominator magnitude) := by
  have small := (shift_add_mantissa magnitude).2.1
  have below := around.below
  have most : parts denominator magnitude + step denominator magnitude
      ≤ 2 * hiddenBit * step denominator magnitude := by
    rw [parts, ← Nat.succ_mul]
    exact Nat.mul_le_mul_right _ small
  rw [Nat.mul_assoc] at most
  omega

/-- Where nothing is doubled, a quotient around a magnitude is rounded at the unit. -/
theorem nearest_eq_of_undoubled {magnitude numerator denominator : Nat}
    (positive : 0 < denominator) (finite : magnitude ≤ infinity)
    (around : Around magnitude numerator denominator) (undoubled : shift magnitude = 0)
    : nearest numerator denominator = magnitude := by
  have unit : step denominator magnitude = denominator := by
    rw [step, undoubled]
    exact Nat.mul_one denominator
  have whole := (shift_add_mantissa magnitude).1
  rw [undoubled] at whole
  have quotient : numerator / denominator < 2 * hiddenBit := by
    rw [Nat.div_lt_iff_lt_mul positive, Nat.mul_assoc]
    have lt := around.lt (by omega)
    rwa [unit] at lt
  have short : (numerator / denominator).log2 - fractionBits = 0 := by
    rcases Nat.eq_zero_or_pos (numerator / denominator) with none | some
    · rw [none]
      rfl
    · have log : (numerator / denominator).log2 < 53 :=
        (Nat.log2_lt (by omega)).mpr quotient
      simp only [fractionBits]
      omega
  have atUnit : roundQuotient numerator denominator = mantissa magnitude := by
    have atStep := roundQuotient_eq (by omega) around.above around.below around.tie
    rwa [unit] at atStep
  refine nearest_of_log2 short ?_ finite
  change 0 * hiddenBit + roundQuotient numerator (denominator * 1) = magnitude
  rwa [Nat.mul_one, atUnit]

/-- Just below a power of two the step is half as wide, and rounding carries into the hidden bit.
Witness: only the least mantissa has quotients around it that fall below the hidden bit, and
they are within a quarter of a step.
-/
theorem nearest_eq_of_lt_hiddenBit {magnitude numerator denominator s : Nat}
    (positive : 0 < denominator) (finite : magnitude ≤ infinity)
    (around : Around magnitude numerator denominator) (doubled : shift magnitude = s + 1)
    (short : numerator < hiddenBit * step denominator magnitude)
    : nearest numerator denominator = magnitude := by
  obtain ⟨whole, _, hidden⟩ := shift_add_mantissa magnitude
  have least : mantissa magnitude = hiddenBit := by
    refine Nat.le_antisymm (Nat.le_of_not_lt fun greater => ?_) (hidden (by omega))
    have more : (hiddenBit + 1) * step denominator magnitude ≤ parts denominator magnitude :=
      Nat.mul_le_mul_right _ greater
    have above := around.above
    rw [Nat.add_mul] at more
    omega
  have narrow := around.narrow least (by omega)
  have half : step denominator magnitude = 2 * (denominator * Nat.pow 2 s) := by
    rw [step, doubled]
    change denominator * (Nat.pow 2 s * 2) = _
    ring
  have finer : 0 < denominator * Nat.pow 2 s := Nat.mul_pos positive (Nat.pow_pos (by decide))
  have many : denominator * Nat.pow 2 s ≤ hiddenBit * (denominator * Nat.pow 2 s) :=
    Nat.le_mul_of_pos_left _ (by decide)
  rw [parts, least, half, Nat.mul_left_comm hiddenBit 2] at narrow
  rw [half, Nat.mul_left_comm hiddenBit 2] at short
  have log : (numerator / denominator).log2 - fractionBits = s :=
    log2_of_hiddenBit positive (by omega) (by omega)
  have carried : roundQuotient numerator (denominator * Nat.pow 2 s) = 2 * hiddenBit := by
    refine roundQuotient_eq finer ?_ ?_ (fun _ => rfl)
    · rw [Nat.mul_assoc]
      omega
    · rw [Nat.mul_assoc]
      omega
  refine nearest_of_log2 log ?_ finite
  rw [carried, ← whole, doubled, least]
  ring

/-- The nearest magnitude to a quotient around a finite one is that one.
Witness: the quotient has the binary logarithm of the magnitude, so it is rounded at the step of
the magnitude, unless it lies just below a power of two.
-/
theorem nearest_eq {magnitude numerator denominator : Nat} (positive : 0 < denominator)
    (finite : magnitude ≤ infinity) (around : Around magnitude numerator denominator)
    : nearest numerator denominator = magnitude := by
  have wide : 0 < step denominator magnitude := Nat.mul_pos positive (Nat.pow_pos (by decide))
  cases doubled : shift magnitude with
  | zero => exact nearest_eq_of_undoubled positive finite around doubled
  | succ s =>
      by_cases reached : hiddenBit * step denominator magnitude ≤ numerator
      · have lt := around.lt wide
        have atStep := roundQuotient_eq wide around.above around.below around.tie
        rw [step, doubled] at reached lt atStep
        refine nearest_of_log2 (log2_of_hiddenBit positive reached lt) ?_ finite
        rw [atStep, ← doubled, (shift_add_mantissa magnitude).1]
      · exact nearest_eq_of_lt_hiddenBit positive finite around doubled
          (Nat.lt_of_not_le reached)

end SciCalc.Binary64
