import Mathlib.Data.Nat.Digits.Lemmas
import SciCalc.Proofs.Number.Shortest
import SciCalc.Proofs.Scan.Drawing
import SciCalc.Proofs.Scan.Written

/-! Significant digits, and what the written form of a double is.

The digits of a decimal count from the first to the last that is no zero. The shortest decimal of
a magnitude has no more of them than any decimal that reads back as the magnitude. So a double is
written with the fewest digits that bring it back.
-/

namespace SciCalc

open Binary64 (infinity)

namespace Decimal

-----------------------------------------------------------------------------------------
-- Significant digits
-----------------------------------------------------------------------------------------

/-- How many digits a decimal needs: those of its whole number, but the zeros at the end. -/
def significantDigits (d : Decimal) : Nat :=
  ((Nat.digits 10 d.digits).dropWhile (· == 0)).length

theorem dropWhile_digits_mul_pow {leading : Nat} (some : 0 < leading) (zeros : Nat)
    : (Nat.digits 10 (leading * 10 ^ zeros)).dropWhile (· == 0)
      = (Nat.digits 10 leading).dropWhile (· == 0) := by
  rw [Nat.mul_comm, Nat.digits_base_pow_mul (by decide) some]
  exact List.dropWhile_append_of_pos (by simp)

/-- A decimal needs no more than a number of digits exactly if it has no more, zeros at the end
apart. Witness: the zeros are the first digits from the end.
-/
theorem significantDigits_le_iff {d : Decimal} {most : Nat}
    : d.significantDigits ≤ most
      ↔ ∃ leading zeros, d.digits = leading * 10 ^ zeros ∧ leading < 10 ^ most := by
  obtain ⟨n, exponent⟩ := d
  simp only [significantDigits]
  constructor
  · intro few
    rcases Nat.eq_zero_or_pos n with none | some
    · exact ⟨0, 0, by simp [none], Nat.pow_pos (by decide)⟩
    · obtain ⟨zeros, leading, last, same⟩ :=
        Nat.exists_eq_pow_mul_and_not_dvd (Nat.pos_iff_ne_zero.mp some) 10 (by decide)
      have positive : 0 < leading := Nat.pos_of_ne_zero fun none => last (none ▸ Nat.dvd_zero 10)
      have whole : (Nat.digits 10 leading).dropWhile (· == 0) = Nat.digits 10 leading := by
        rw [Nat.digits_def' (by decide) positive]
        simpa [Nat.dvd_iff_mod_eq_zero] using last
      rw [Nat.mul_comm] at same
      rw [same, dropWhile_digits_mul_pow positive, whole] at few
      exact ⟨leading, zeros, same, (Nat.digits_length_le_iff (by decide) leading).mp few⟩
  · intro found
    obtain ⟨leading, zeros, rfl, less⟩ := found
    rcases Nat.eq_zero_or_pos leading with none | some
    · simp [none]
    · rw [dropWhile_digits_mul_pow some]
      exact Nat.le_trans (List.dropWhile_suffix _).length_le
        ((Nat.digits_length_le_iff (by decide) leading).mpr less)

theorem exists_leading (d : Decimal)
    : ∃ leading zeros,
        d.digits = leading * 10 ^ zeros ∧ leading < 10 ^ d.significantDigits :=
  significantDigits_le_iff.mp (Nat.le_refl _)

theorem magnitude_zero (exponent : Int) : (⟨0, exponent⟩ : Decimal).magnitude = 0 := by
  rw [magnitude, numerator, Nat.zero_mul, Nat.zero_mul]
  exact Binary64.nearest_zero (denominator_pos _)

theorem magnitude_le_infinity (d : Decimal) : d.magnitude ≤ infinity :=
  Nat.min_le_left _ _

/-- The shortest decimal of a magnitude has no more digits than any decimal that reads back as
the magnitude has significant ones.
Witness: if it had more, the least number with so many digits would lie between the two, read
back as well, and be coarser.
-/
theorem digits_ofMagnitude_lt {magnitude : Nat} (some : magnitude ≠ 0)
    (finite : magnitude < infinity) {d : Decimal} (reads : d.magnitude = magnitude)
    : (ofMagnitude magnitude).digits < 10 ^ d.significantDigits := by
  refine Nat.lt_of_not_le fun more => ?_
  obtain ⟨leading, zeros, same, less⟩ := d.exists_leading
  generalize d.significantDigits = most at less more
  have stripped : (⟨leading, d.exponent + zeros⟩ : Decimal).magnitude = magnitude := by
    rw [← magnitude_mul_pow, ← same]
    exact reads
  have finer := exponent_le_of_magnitude_eq some finite stripped
  have least := @magnitude_le_magnitude ⟨leading, _⟩ ⟨10 ^ most, _⟩ (Nat.le_of_lt less) finer
  have greatest := @magnitude_le_magnitude ⟨10 ^ most, _⟩ (ofMagnitude magnitude) more
    (Int.le_refl _)
  rw [stripped] at least
  rw [magnitude_ofMagnitude finite] at greatest
  have between := Nat.le_antisymm greatest least
  rw [← Nat.one_mul (10 ^ most), magnitude_mul_pow] at between
  have coarser := exponent_le_of_magnitude_eq some finite between
  have none : most = 0 := by
    change (ofMagnitude magnitude).exponent + most ≤ _ at coarser
    omega
  rw [none, Nat.pow_zero, Nat.lt_one_iff] at less
  rw [less, magnitude_zero] at stripped
  exact some stripped.symm

theorem significantDigits_ofMagnitude_le {magnitude : Nat} (finite : magnitude < infinity)
    {d : Decimal} (reads : d.magnitude = magnitude)
    : (ofMagnitude magnitude).significantDigits ≤ d.significantDigits := by
  rw [significantDigits_le_iff]
  by_cases zero : magnitude = 0
  · rw [ofMagnitude, if_pos zero]
    exact ⟨0, 0, rfl, Nat.pow_pos (by decide)⟩
  · exact ⟨_, 0, (Nat.mul_one _).symm, digits_ofMagnitude_lt zero finite reads⟩

-----------------------------------------------------------------------------------------
-- The written digits
-----------------------------------------------------------------------------------------

/-- A written decimal has no more significant digits than the decimal has.
Witness: its digits are those of the decimal with zeros behind them.
-/
theorem significantDigits_literal_le (d : Decimal)
    : d.literal.decimal.significantDigits ≤ d.significantDigits := by
  obtain ⟨leading, zeros, same, less⟩ := d.exists_leading
  refine significantDigits_le_iff.mpr ⟨leading, zeros + d.exponent.toNat, ?_, less⟩
  simp only [Literal.decimal]
  rw [ofDigitChars_literal, numerator, same, Nat.pow_add, Nat.mul_assoc]
  rfl

theorem getLast?_digitChars (d : Decimal)
    : d.digitChars.getLast? = some (Nat.digitChar (d.digits % 10)) := by
  rw [digitChars]
  rcases Nat.lt_or_ge d.digits 10 with short | long
  · rw [Nat.toDigits_of_lt_base short, Nat.mod_eq_of_lt short]
    rfl
  · rw [Nat.toDigits_of_base_le (by decide) long]
    exact List.getLast?_concat

/-- Digits that do not end with a zero leave none at the end of a fraction.
Witness: a fraction ends with the last digit.
-/
theorem getLast?_fraction_literal {d : Decimal} (ends : d.digits % 10 ≠ 0)
    : d.literal.fraction.getLast? ≠ some '0' := by
  have last : ∀ k < 10, k ≠ 0 → Nat.digitChar k ≠ '0' := by decide
  have other : d.digitChars.getLast? ≠ some '0' := by
    rw [getLast?_digitChars]
    simpa using last _ (Nat.mod_lt _ (by decide)) ends
  simp only [literal]
  split
  · simp
  · split
    · next few =>
        rw [List.getLast?_drop, if_neg (by omega)]
        exact other
    · rw [List.getLast?_append, getLast?_digitChars]
      rw [getLast?_digitChars] at other
      exact other

end Decimal

-----------------------------------------------------------------------------------------
-- Written doubles
-----------------------------------------------------------------------------------------

/-- The written form of a double without a sign is scanned as one number, without a failure and
with nothing passed over.
-/
theorem tokenize_numberText (mode : Mode) {x : Float} (unsigned : IsUnsigned x)
    : tokenize mode (numberText x) = pure [⟨.number x, 0⟩] := by
  have scanned : scan mode (numberText x) = .ofList (placed 0 [.number x]) := by
    apply scan_written
    · simp [Lexeme.text]
    · simpa [Lexeme.IsWritable] using unsigned
    · simp
  rw [tokenize, scanned]
  rfl

/-- A finite double without a sign is written in digits, with a point only if digits follow it of
which the last is no zero. The scan reads the double back from this, in either mode, and no decimal
that reads back as the double has fewer significant digits.
-/
theorem numberText_shortest (x : Float) (unsigned : IsUnsigned x)
    : ∃ literal : Literal,
        (numberText x).toList = literal.text
        ∧ literal.WellFormed
        ∧ literal.fraction.getLast? ≠ some '0'
        ∧ (∀ mode, tokenize mode (numberText x) = pure [⟨.number x, 0⟩])
        ∧ ∀ (d : Decimal) (negative : Bool),
            d.toFloat negative = x
            → literal.decimal.significantDigits ≤ d.significantDigits := by
  refine ⟨numberLiteral x, toList_numberText unsigned, Decimal.wellFormed_literal _, ?_,
    fun mode => tokenize_numberText mode unsigned, ?_⟩
  · rw [numberLiteral]
    by_cases zero : Binary64.magnitude x = 0
    · rw [zero]
      decide
    · exact Decimal.getLast?_fraction_literal (Decimal.digits_mod_ten_ne_zero zero unsigned.2)
  · intro d negative reads
    have same : d.magnitude = Binary64.magnitude x := by
      rw [← reads, Decimal.toFloat, Binary64.magnitude_compose d.magnitude_le_infinity]
    exact Nat.le_trans (Decimal.significantDigits_literal_le _)
      (Decimal.significantDigits_ofMagnitude_le unsigned.2 same)

/-- The least double above zero is written as the last of 324 places, in a single digit. -/
theorem numberText_shortest_of_unit
    : IsUnsigned 5e-324
      ∧ ∃ literal : Literal,
          (numberText 5e-324).toList = literal.text
          ∧ literal.WellFormed
          ∧ literal.fraction.getLast? ≠ some '0'
          ∧ (∀ mode, tokenize mode (numberText 5e-324) = pure [⟨.number 5e-324, 0⟩])
          ∧ ∀ (d : Decimal) (negative : Bool),
              d.toFloat negative = 5e-324
              → literal.decimal.significantDigits ≤ d.significantDigits := by
  have unsigned : IsUnsigned 5e-324 := by decide +kernel
  exact ⟨unsigned, numberText_shortest _ unsigned⟩

/-- The greatest double needs 17 digits, and 292 zeros up to the point. -/
example : Decimal.ofMagnitude (infinity - 1) = ⟨17976931348623157, 292⟩ := by decide +kernel

end SciCalc
