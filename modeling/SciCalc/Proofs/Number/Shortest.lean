import SciCalc.Proofs.Number.Nearest
import SciCalc.Proofs.Number.ReadBack

/-! The shortest decimal has the fewest digits of all that read back as the same magnitude.

A rounding interval has no gaps, so a grid with a point in it has one next to the centre, where
the search looks. No coarser grid than the one found has a point there. A decimal with fewer
digits would leave room for a power of ten between itself and the one found, and this is a point
of a coarser grid.
-/

namespace SciCalc

open Binary64 (mantissa shift infinity hiddenBit)

-----------------------------------------------------------------------------------------
-- Grids over an interval
-----------------------------------------------------------------------------------------

namespace RoundingInterval

/-- An interval has no gaps. -/
theorem contains_between {interval : RoundingInterval} {first n last : Nat}
    (start : interval.contains first) (stop : interval.contains last)
    (above : first ≤ n) (below : n ≤ last)
    : interval.contains n := by
  obtain ⟨low, _, lowEnd⟩ := contains_iff.mp start
  obtain ⟨_, high, highEnd⟩ := contains_iff.mp stop
  refine contains_iff.mpr ⟨by omega, by omega, ?_⟩
  intro ends
  rcases ends with same | same
  · exact lowEnd (.inl (by omega))
  · exact highEnd (.inr (by omega))

/-- A grid with a point in the interval offers one.
Witness: between such a point and the centre lies a neighbour of the centre.
-/
theorem onGrid?_ne_none {interval : RoundingInterval} {k digits : Nat}
    (centred : interval.contains interval.centre)
    (inside : interval.contains (digits * Nat.pow 10 k))
    : interval.onGrid? k ≠ none := by
  have spaced : 0 < Nat.pow 10 k := Nat.pow_pos (by decide)
  have floor := Nat.div_mul_le_self interval.centre (Nat.pow 10 k)
  have ceiling := @Nat.lt_div_mul_add interval.centre (Nat.pow 10 k) spaced
  rw [← Nat.succ_mul] at ceiling
  simp only [onGrid?]
  rcases Nat.lt_or_ge (interval.centre / Nat.pow 10 k) digits with greater | less
  · rw [contains_between centred inside (Nat.le_of_lt ceiling) (Nat.mul_le_mul_right _ greater)]
    split <;> simp_all
  · rw [contains_between inside centred (Nat.mul_le_mul_right _ less) floor]
    split <;> simp_all

/-- The search starts with a power of ten above the centre. -/
theorem centre_lt_pow_coarsest (interval : RoundingInterval)
    : interval.centre < 10 ^ interval.coarsest := by
  obtain ⟨bits, same⟩ : ∃ bits, interval.centre.log2 + 1 = bits := ⟨_, rfl⟩
  have binary : interval.centre < 2 ^ bits := same ▸ Nat.lt_log2_self
  rw [coarsest, same]
  refine Nat.lt_of_lt_of_le binary ?_
  have enough : 28 * bits ≤ (bits * 28 / 93 + 1) * 93 := by omega
  refine (Nat.pow_le_pow_iff_left (by decide : 93 ≠ 0)).mp ?_
  calc (2 ^ bits) ^ 93
      = (2 ^ 93) ^ bits := by rw [← Nat.pow_mul, ← Nat.pow_mul, Nat.mul_comm]
    _ ≤ (10 ^ 28) ^ bits := Nat.pow_le_pow_left (by decide) _
    _ = 10 ^ (28 * bits) := (Nat.pow_mul _ _ _).symm
    _ ≤ 10 ^ ((bits * 28 / 93 + 1) * 93) := Nat.pow_le_pow_right (by decide) enough
    _ = (10 ^ (bits * 28 / 93 + 1)) ^ 93 := Nat.pow_mul _ _ _

variable {magnitude : Nat}

theorem mantissa_pos (some : magnitude ≠ 0) : 0 < mantissa magnitude := by
  obtain ⟨whole, _, hidden⟩ := Binary64.shift_add_mantissa magnitude
  rcases Nat.eq_zero_or_pos (shift magnitude) with none | doubled
  · rw [none] at whole
    omega
  · exact Nat.lt_of_lt_of_le (by decide) (hidden doubled)

theorem four_quarters_le (some : magnitude ≠ 0)
    : 4 * quarter magnitude ≤ 4 * mantissa magnitude * quarter magnitude :=
  Nat.mul_le_mul_right _ (Nat.le_mul_of_pos_right 4 (mantissa_pos some))

theorem ofMagnitude_eq_ofQuarter (magnitude : Nat)
    : ofMagnitude magnitude = ofQuarter magnitude (quarter magnitude) :=
  rfl

/-- The interval of a magnitude other than zero ends above zero, and below twice its centre. -/
theorem ends_of_ne_zero (some : magnitude ≠ 0)
    : 0 < (ofMagnitude magnitude).low
      ∧ (ofMagnitude magnitude).high < 2 * (ofMagnitude magnitude).centre := by
  have many := four_quarters_le some
  have positive := quarter_pos magnitude
  rw [ofMagnitude_eq_ofQuarter]
  simp only [ofQuarter]
  split <;> omega

/-- No multiple of a power of ten beyond those of the search lies in the interval.
Witness: zero lies below it, and the power of ten above it.
-/
theorem le_coarsest_of_contains (some : magnitude ≠ 0) {k digits : Nat}
    (inside : (ofMagnitude magnitude).contains (digits * Nat.pow 10 k))
    : k ≤ (ofMagnitude magnitude).coarsest := by
  refine Nat.le_of_not_lt fun beyond => ?_
  obtain ⟨low, high, _⟩ := contains_iff.mp inside
  obtain ⟨nonzero, reach⟩ := ends_of_ne_zero some
  have above := centre_lt_pow_coarsest (ofMagnitude magnitude)
  have power : 10 * 10 ^ (ofMagnitude magnitude).coarsest ≤ Nat.pow 10 k := by
    rw [← Nat.pow_succ']
    exact Nat.pow_le_pow_right (by decide) beyond
  have least : Nat.pow 10 k ≤ digits * Nat.pow 10 k := by
    refine Nat.le_mul_of_pos_left _ (Nat.pos_of_ne_zero fun none => ?_)
    rw [none, Nat.zero_mul] at low
    omega
  omega

/-- The interval of a magnitude contains what lies around the magnitude.
Witness: its ends are half a step of doubles away, or a quarter below where the step is halved.
-/
theorem contains_of_around (some : magnitude ≠ 0) {n : Nat}
    (around : Binary64.Around magnitude n unit)
    : (ofMagnitude magnitude).contains n := by
  have many := four_quarters_le some
  have positive := quarter_pos magnitude
  have centred := parts_of_quarters (step_unit magnitude)
  obtain ⟨above, below, narrow, tie⟩ := around
  rw [centred, step_unit] at above below narrow tie
  rw [ofMagnitude_eq_ofQuarter, contains_iff]
  simp only [ofQuarter, decide_eq_true_eq]
  by_cases halved : mantissa magnitude = hiddenBit ∧ 0 < shift magnitude
  · have least := narrow halved.1 halved.2
    rw [if_pos halved]
    refine ⟨by omega, by omega, fun _ => ?_⟩
    rw [halved.1]
    rfl
  · rw [if_neg halved]
    refine ⟨by omega, by omega, fun ends => tie ?_⟩
    omega

/-- The interval of a magnitude contains exactly what is rounded to the magnitude. -/
theorem contains_iff_nearest (some : magnitude ≠ 0) (finite : magnitude < infinity) {n : Nat}
    : (ofMagnitude magnitude).contains n ↔ Binary64.nearest n unit = magnitude := by
  constructor
  · exact nearest_of_contains (Nat.le_of_lt finite)
  · intro rounded
    apply contains_of_around some
    have around := @Binary64.around_nearest n unit unit_pos (by rwa [rounded])
    rwa [rounded] at around

end RoundingInterval

-----------------------------------------------------------------------------------------
-- Decimals that read back
-----------------------------------------------------------------------------------------

namespace Decimal

variable {magnitude : Nat}

/-- A decimal grows with its digits and with its exponent, and so does what it is read as. -/
theorem magnitude_le_magnitude {first second : Decimal}
    (digits : first.digits ≤ second.digits) (exponent : first.exponent ≤ second.exponent)
    : first.magnitude ≤ second.magnitude := by
  obtain ⟨digit, place⟩ := first
  obtain ⟨otherDigit, otherPlace⟩ := second
  apply Binary64.nearest_le_nearest (denominator_pos _) (denominator_pos _)
  simp only [numerator, denominator] at digits exponent ⊢
  have exponents : place.toNat + (-otherPlace).toNat ≤ otherPlace.toNat + (-place).toNat := by
    omega
  have powers : Nat.pow 10 place.toNat * Nat.pow 10 (-otherPlace).toNat
      ≤ Nat.pow 10 otherPlace.toNat * Nat.pow 10 (-place).toNat := by
    have sums := Nat.pow_le_pow_right (by decide : 0 < 10) exponents
    rwa [Nat.pow_add, Nat.pow_add] at sums
  have products := Nat.mul_le_mul digits powers
  generalize Nat.pow 2 Binary64.unitScale = scale
  have scaled := Nat.mul_le_mul_right scale products
  linarith

/-- Zeros at the end of the digits can be told by the exponent instead. -/
theorem magnitude_mul_pow (digits zeros : Nat) (exponent : Int)
    : (⟨digits * 10 ^ zeros, exponent⟩ : Decimal).magnitude
      = (⟨digits, exponent + zeros⟩ : Decimal).magnitude := by
  apply Binary64.nearest_congr (denominator_pos _) (denominator_pos _)
  simp only [numerator, denominator]
  have exponents : zeros + exponent.toNat + (-(exponent + zeros)).toNat
      = (exponent + zeros).toNat + (-exponent).toNat := by
    omega
  have powers : 10 ^ zeros * Nat.pow 10 exponent.toNat * Nat.pow 10 (-(exponent + zeros)).toNat
      = Nat.pow 10 (exponent + zeros).toNat * Nat.pow 10 (-exponent).toNat := by
    have sums := congrArg (10 ^ ·) exponents
    simp only [Nat.pow_add] at sums
    exact sums
  generalize Nat.pow 2 Binary64.unitScale = scale
  calc _ = digits * scale * (10 ^ zeros * Nat.pow 10 exponent.toNat
          * Nat.pow 10 (-(exponent + zeros)).toNat) := by ring
    _ = _ := by
        rw [powers]
        ring

/-- No decimal that reads back as a magnitude other than zero is coarser than the shortest.
Witness: a coarser one would be a point of a grid that was passed over.
-/
theorem exponent_le_of_magnitude_eq (some : magnitude ≠ 0) (finite : magnitude < infinity)
    {d : Decimal} (reads : d.magnitude = magnitude)
    : d.exponent ≤ (ofMagnitude magnitude).exponent := by
  obtain ⟨digits, grid, shortest, _, passed⟩ := exists_ofMagnitude_eq some
  rw [shortest]
  refine Int.le_of_not_gt fun coarser => ?_
  change (grid : Int) - (RoundingInterval.scale : Int) < d.exponent at coarser
  obtain ⟨k, place⟩ : ∃ k : Nat, d.exponent = (k : Int) - (RoundingInterval.scale : Int) :=
    ⟨(d.exponent + RoundingInterval.scale).toNat, by omega⟩
  obtain ⟨digits, exponent⟩ := d
  change exponent = _ at place
  subst place
  rw [magnitude_eq_nearest digits k RoundingInterval.unit_pos RoundingInterval.steps_of_unit,
    ← RoundingInterval.contains_iff_nearest some finite] at reads
  have centred :=
    @RoundingInterval.contains_centre magnitude _ (RoundingInterval.quarter_pos magnitude)
  refine RoundingInterval.onGrid?_ne_none centred reads (passed k ?_ ?_)
  · change (grid : Int) - _ < (k : Int) - _ at coarser
    omega
  · exact RoundingInterval.le_coarsest_of_contains some reads

/-- The digits of the shortest decimal do not end with a zero, which a coarser one would spare. -/
theorem digits_mod_ten_ne_zero (some : magnitude ≠ 0) (finite : magnitude < infinity)
    : (ofMagnitude magnitude).digits % 10 ≠ 0 := by
  intro ends
  have reads := magnitude_ofMagnitude finite
  have spared := magnitude_mul_pow ((ofMagnitude magnitude).digits / 10) 1
    (ofMagnitude magnitude).exponent
  have same : (ofMagnitude magnitude).digits / 10 * 10 ^ 1 = (ofMagnitude magnitude).digits := by
    omega
  rw [same] at spared
  have coarser := exponent_le_of_magnitude_eq some finite (spared.symm.trans reads)
  change (ofMagnitude magnitude).exponent + (1 : Nat) ≤ _ at coarser
  omega

end Decimal

end SciCalc
