import Mathlib
import SciCalc.Proofs.Number.Bits
import SciCalc.Proofs.Number.Nearest

/-! The number that a double stands for, and what it has to do with the magnitude.

The core library takes a double apart into a sign, a mantissa and an exponent, and what these
say is the number. For a finite magnitude this is its whole multiple of the unit, so the numbers
grow with the magnitudes, by one step from each to the next.
-/

namespace SciCalc.Binary64

open Float.Model (Format UnpackedFloat)
open Float.Model.UnpackedFloat

/-- The number that a double taken apart stands for, unless it is infinite or none. -/
def ofUnpacked? : UnpackedFloat → Option ℚ
  | .infinity _ | .notANumber => none
  | .zero _ => some 0
  | .finite sign mantissa exponent _ => some (sign.apply mantissa * 2 ^ exponent)

/-- The number that a double stands for. -/
def rational? (x : Float) : Option ℚ :=
  ofUnpacked? x.toModel.unpack

/-- A finite magnitude as a number. -/
def rational (magnitude : Nat) : ℚ :=
  units magnitude / 2 ^ unitScale

-----------------------------------------------------------------------------------------
-- The fields of a double
-----------------------------------------------------------------------------------------

theorem toNat_unpackMantissa (x : Float)
    : (@unpackMantissa Format.binary64 x.toBits.toBitVec).toNat = magnitude x % hiddenBit := by
  simp only [unpackMantissa, BitVec.toNat_cast, BitVec.extractLsb_toNat, UInt64.toNat_toBitVec,
    Nat.shiftRight_zero]
  change x.toBits.toNat % hiddenBit = _
  simp only [magnitude, hiddenBit, signBit]
  omega

theorem toNat_unpackExponent (x : Float)
    : (@unpackExponent Format.binary64 x.toBits.toBitVec).toNat = magnitude x / hiddenBit := by
  simp only [unpackExponent, BitVec.toNat_cast, BitVec.extractLsb_toNat, UInt64.toNat_toBitVec,
    Nat.shiftRight_eq_div_pow]
  change x.toBits.toNat / hiddenBit % 2048 = _
  simp only [magnitude, hiddenBit, signBit]
  omega

theorem toNat_unpackSign (x : Float)
    : (@unpackSign Format.binary64 x.toBits.toBitVec).toNat = (isNegative x).toNat := by
  have word := x.toBits.toNat_lt
  simp only [unpackSign, BitVec.toNat_cast, BitVec.extractLsb_toNat, UInt64.toNat_toBitVec,
    Nat.shiftRight_eq_div_pow]
  change x.toBits.toNat / signBit % 2 = _
  simp only [isNegative, signBit]
  by_cases set : 0x8000000000000000 ≤ x.toBits.toNat
  · simp only [set, decide_true, Bool.toNat_true]
    omega
  · simp only [set, decide_false, Bool.toNat_false]
    omega

theorem apply_ofBitVec {bit : BitVec 1} {negative : Bool} (set : bit.toNat = negative.toNat)
    (n : Nat)
    : (Sign.ofBitVec bit).apply n = if negative then -(n : Int) else n := by
  have same : bit = BitVec.ofNat 1 negative.toNat := by
    apply BitVec.eq_of_toNat_eq
    rw [set]
    cases negative <;> rfl
  subst same
  cases negative <;> rfl

theorem toNat_one_append (fraction : BitVec 52)
    : ((1#1) ++ fraction).toNat = hiddenBit + fraction.toNat := by
  rw [BitVec.toNat_append, ← Nat.shiftLeft_add_eq_or_of_lt fraction.isLt]
  rfl

/-- A mantissa with a sign and an exponent stands for the magnitude with that sign. -/
theorem mul_zpow_eq_rational (negative : Bool) (magnitude : Nat)
    : (((if negative then -(mantissa magnitude : Int) else mantissa magnitude) : Int) : ℚ)
        * 2 ^ ((shift magnitude : Int) - unitScale)
      = if negative then -rational magnitude else rational magnitude := by
  have power : (2 : ℚ) ^ ((shift magnitude : Int) - unitScale)
      = 2 ^ shift magnitude / 2 ^ unitScale := by
    rw [zpow_sub₀ (by norm_num), zpow_natCast, zpow_natCast]
  have whole : rational magnitude
      = mantissa magnitude * (2 ^ shift magnitude / 2 ^ unitScale) := by
    rw [rational, units, Nat.pow_eq, Nat.cast_mul, Nat.cast_pow, Nat.cast_ofNat, mul_div_assoc]
  rw [power, whole]
  cases negative <;> simp

/-- A subnormal double has no hidden bit, and the least exponent. -/
theorem rational?_of_subnormal {x : Float} (low : magnitude x / hiddenBit = 0)
    : rational? x
      = some (if isNegative x then -rational (magnitude x) else rational (magnitude x)) := by
  have exponent : @unpackExponent Format.binary64 x.toBits.toBitVec = 0#_ :=
    BitVec.eq_of_toNat_eq ((toNat_unpackExponent x).trans low)
  have undoubled : shift (magnitude x) = 0 := by rw [shift, low]
  have whole : magnitude x % hiddenBit = mantissa (magnitude x) := by
    simp only [mantissa, shift, hiddenBit] at low ⊢
    omega
  have fraction := toNat_unpackMantissa x
  rw [whole] at fraction
  change ofUnpacked? (unpack Format.binary64 x.toBits.toBitVec) = _
  rw [← mul_zpow_eq_rational, undoubled, unpack]
  have lowest : (0#11 : BitVec 11) ≠ -1#11 := by decide
  simp only [exponent, lowest, if_false, if_true]
  split
  · next none =>
      rw [none] at fraction
      have nothing : mantissa (magnitude x) = 0 := fraction.symm
      simp [nothing, ofUnpacked?]
  · rw [ofUnpacked?, apply_ofBitVec (toNat_unpackSign x), fraction]
    rfl

/-- A normal double has the hidden bit, and its exponent field counts from one. -/
theorem rational?_of_normal {x : Float} (finite : magnitude x < infinity)
    (high : magnitude x / hiddenBit ≠ 0)
    : rational? x
      = some (if isNegative x then -rational (magnitude x) else rational (magnitude x)) := by
  have field := toNat_unpackExponent x
  have notHighest : @unpackExponent Format.binary64 x.toBits.toBitVec ≠ -1#_ := by
    intro highest
    rw [highest] at field
    change 2047 = _ at field
    simp only [infinity, hiddenBit] at finite field
    omega
  have notLowest : @unpackExponent Format.binary64 x.toBits.toBitVec ≠ 0#_ := by
    intro lowest
    rw [lowest] at field
    exact high field.symm
  have whole : hiddenBit + magnitude x % hiddenBit = mantissa (magnitude x) := by
    simp only [mantissa, shift, hiddenBit] at high ⊢
    omega
  have exponent
      : ((magnitude x / hiddenBit : Nat) : Int)
          - (Format.binary64.exponentBias + Format.binary64.mantissaBitsWithoutImplicit)
        = (shift (magnitude x) : Int) - unitScale := by
    change _ - ((1023 : Int) + 52) = _ - 1074
    simp only [shift, hiddenBit] at high ⊢
    omega
  change ofUnpacked? (unpack Format.binary64 x.toBits.toBitVec) = _
  rw [← mul_zpow_eq_rational, unpack]
  simp only [notHighest, notLowest, if_false]
  rw [ofUnpacked?, apply_ofBitVec (toNat_unpackSign x), toNat_one_append, toNat_unpackMantissa,
    field, whole, exponent]

/-- A double stands for a number exactly if it is finite, and then for its magnitude with its
sign. Witness: an exponent field of ones is that of no finite magnitude.
-/
theorem rational?_eq_some_iff {x : Float} {value : ℚ}
    : rational? x = some value
      ↔ magnitude x < infinity
        ∧ value = if isNegative x then -rational (magnitude x) else rational (magnitude x) := by
  have stands (finite : magnitude x < infinity)
      : rational? x
        = some (if isNegative x then -rational (magnitude x) else rational (magnitude x)) := by
    by_cases low : magnitude x / hiddenBit = 0
    · exact rational?_of_subnormal low
    · exact rational?_of_normal finite low
  have finite_of_some (some_value : rational? x = some value) : magnitude x < infinity := by
    refine Nat.lt_of_not_le fun infinite => ?_
    have highest : @unpackExponent Format.binary64 x.toBits.toBitVec = -1#_ := by
      apply BitVec.eq_of_toNat_eq
      rw [toNat_unpackExponent]
      change _ = 2047
      have word : magnitude x < signBit := Nat.mod_lt _ (by decide)
      simp only [infinity, hiddenBit, signBit] at infinite word ⊢
      omega
    change ofUnpacked? (unpack Format.binary64 x.toBits.toBitVec) = _ at some_value
    rw [unpack] at some_value
    simp only [highest, if_true] at some_value
    split at some_value <;> cases some_value
  constructor
  · intro some_value
    have finite := finite_of_some some_value
    exact ⟨finite, Option.some.inj (some_value.symm.trans (stands finite))⟩
  · intro both
    rw [stands both.1, both.2]

-----------------------------------------------------------------------------------------
-- The order of magnitudes
-----------------------------------------------------------------------------------------

/-- From each magnitude to the next it is one step.
Witness: the mantissa grows by one, and the greatest one gives way to the least with the step
doubled.
-/
theorem units_succ (magnitude : Nat)
    : units (magnitude + 1) = units magnitude + 2 ^ shift magnitude := by
  obtain ⟨whole, short, hidden⟩ := shift_add_mantissa magnitude
  rcases Nat.lt_or_eq_of_le (Nat.succ_le_of_lt short) with inside | last
  · have next : magnitude + 1 = shift magnitude * hiddenBit + (mantissa magnitude + 1) := by
      omega
    obtain ⟨sameShift, grown⟩ := shift_and_mantissa inside fun doubled =>
      Nat.le_succ_of_le (hidden doubled)
    rw [next, units, sameShift, grown, Nat.succ_mul]
    rfl
  · have next : magnitude + 1 = (shift magnitude + 1) * hiddenBit + hiddenBit := by
      rw [Nat.add_mul]
      omega
    obtain ⟨doubled, least⟩ :=
      @shift_and_mantissa (shift magnitude + 1) hiddenBit (by decide) fun _ => Nat.le_refl _
    have most : mantissa magnitude + 1 = 2 * hiddenBit := last
    rw [next, units, doubled, least, units]
    calc hiddenBit * 2 ^ (shift magnitude + 1)
        = (mantissa magnitude + 1) * 2 ^ shift magnitude := by rw [most, Nat.pow_succ]; ring
      _ = mantissa magnitude * 2 ^ shift magnitude + 2 ^ shift magnitude := by ring

theorem rational_succ (magnitude : Nat)
    : rational (magnitude + 1)
      = rational magnitude + 2 ^ ((shift magnitude : Int) - unitScale) := by
  rw [rational, units_succ, Nat.cast_add, Nat.cast_pow, add_div, ← rational,
    zpow_sub₀ (by norm_num), zpow_natCast, zpow_natCast]
  rfl

theorem units_strictMono : StrictMono units := by
  apply strictMono_nat_of_lt_succ
  intro magnitude
  rw [units_succ]
  exact Nat.lt_add_of_pos_right (Nat.two_pow_pos _)

theorem rational_strictMono : StrictMono rational := by
  intro first second less
  rw [rational, rational]
  have scale : (0 : ℚ) < 2 ^ unitScale := by positivity
  exact (div_lt_div_iff_of_pos_right scale).mpr (Nat.cast_lt.mpr (units_strictMono less))

theorem rational_zero : rational 0 = 0 := by
  rw [rational, units_of_lt (by decide), Nat.cast_zero, zero_div]

theorem rational_nonneg (magnitude : Nat) : 0 ≤ rational magnitude := by
  rw [← rational_zero]
  exact rational_strictMono.monotone (Nat.zero_le _)

end SciCalc.Binary64
