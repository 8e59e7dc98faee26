import Mathlib
import SciCalc.Number.Binary64

/-! Doubles and their bits: a finite double and its sign and magnitude determine each other.

Every operation on doubles takes the bits apart and puts a result together. For a pattern that
is no number in disguise nothing is lost on the way.
-/

namespace SciCalc.Binary64

open Float.Model (Format)
open Float.Model.UnpackedFloat

/-- A valid pattern is that of the double made from it. -/
theorem toBits_ofBits {bits : UInt64} (valid : Format.binary64.Valid bits.toBitVec)
    : (Float.ofBits bits).toBits = bits :=
  UInt64.eq_of_toBitVec_eq (pack_unpack_of_valid valid)

theorem toNat_pattern {negative : Bool} {magnitude : Nat} (finite : magnitude < infinity)
    : (UInt64.ofNat (magnitude + if negative then signBit else 0)).toNat
      = magnitude + if negative then signBit else 0 := by
  rw [UInt64.toNat_ofNat']
  apply Nat.mod_eq_of_lt
  simp only [infinity, signBit] at *
  split <;> omega

/-- The pattern of a finite magnitude with a sign is valid.
Witness: its exponent field is not the highest.
-/
theorem valid_pattern {negative : Bool} {magnitude : Nat} (finite : magnitude < infinity)
    : Format.binary64.Valid
        (UInt64.ofNat (magnitude + if negative then signBit else 0)).toBitVec := by
  constructor
  intro highest _
  have field := congrArg BitVec.toNat highest
  simp only [unpackExponent, BitVec.toNat_cast, BitVec.extractLsb_toNat, UInt64.toNat_toBitVec,
    toNat_pattern finite, Nat.shiftRight_eq_div_pow] at field
  change (magnitude + if negative then signBit else 0) / hiddenBit % 2048 = 2047 at field
  simp only [infinity, signBit, hiddenBit] at *
  split at field <;> omega

/-- The bits of a double that is made from a sign and a magnitude, which may be infinity. -/
theorem toNat_toBits_compose {negative : Bool} {magnitude : Nat}
    (bounded : magnitude ≤ infinity)
    : (compose negative magnitude).toBits.toNat
      = magnitude + if negative then signBit else 0 := by
  rcases Nat.lt_or_eq_of_le bounded with finite | infinite
  · rw [compose, toBits_ofBits (valid_pattern finite), toNat_pattern finite]
  · subst infinite
    cases negative <;> rfl

theorem magnitude_compose {negative : Bool} {magnitude : Nat} (bounded : magnitude ≤ infinity)
    : Binary64.magnitude (compose negative magnitude) = magnitude := by
  rw [Binary64.magnitude, toNat_toBits_compose bounded]
  simp only [infinity, signBit] at *
  split <;> omega

theorem isNegative_compose {negative : Bool} {magnitude : Nat} (bounded : magnitude ≤ infinity)
    : isNegative (compose negative magnitude) = negative := by
  rw [isNegative, toNat_toBits_compose bounded]
  simp only [infinity, signBit] at *
  cases negative
  · simpa using by omega
  · simp

/-- A double that is taken apart into a sign and a magnitude has a finite magnitude, and is the
one with that sign and magnitude.
-/
theorem compose_of_ofFloat {x : Float} {negative : Bool} {magnitude : Nat}
    (apart : ofFloat x = .finite negative magnitude)
    : magnitude < infinity ∧ compose negative magnitude = x := by
  simp only [ofFloat] at apart
  split at apart
  · next finite =>
      injection apart with sign below
      subst sign below
      refine ⟨finite, ?_⟩
      have bits : Binary64.magnitude x + (if isNegative x then signBit else 0)
          = x.toBits.toNat := by
        have word := x.toBits.toNat_lt
        simp only [Binary64.magnitude, isNegative, signBit] at *
        by_cases sign : 0x8000000000000000 ≤ x.toBits.toNat
        · simp only [sign, decide_true, if_true]
          omega
        · simp only [sign, decide_false, Bool.false_eq_true, if_false]
          omega
      rw [compose, bits, UInt64.ofNat_toNat, Float.ofBits_toBits]
  · split at apart <;> cases apart

end SciCalc.Binary64
