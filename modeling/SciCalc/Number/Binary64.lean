/-! Doubles as whole numbers.

Every finite double is a whole multiple of one unit, `2 ^ -1074`. The bits of its magnitude,
read as one number, grow with that multiple: subnormal numbers and the first binade are their
own multiples, and each further binade doubles the step. Rounding is therefore done on whole
numbers, and the pattern after the greatest finite magnitude is infinity.
-/

namespace SciCalc

/-- A double taken apart. A magnitude is the bits below the sign; there is one number that
is none.
-/
inductive Binary64 where
  | nan
  | infinite (negative : Bool)
  | finite (negative : Bool) (magnitude : Nat)
  deriving DecidableEq, Repr

namespace Binary64

/-- The binary exponent of the unit, negated. -/
def unitScale : Nat := 1074

def fractionBits : Nat := 52

/-- The bit above the fraction field, which a normal mantissa has without its being stored. -/
def hiddenBit : Nat := 0x10000000000000

/-- The magnitude of infinity: the first pattern above the finite ones. -/
def infinity : Nat := 0x7FF0000000000000

/-- The bit above the magnitude. -/
def signBit : Nat := 0x8000000000000000

/-- How many times the step of a finite magnitude doubles the unit. -/
def shift (magnitude : Nat) : Nat :=
  magnitude / hiddenBit - 1

/-- A finite magnitude in its own steps, the hidden bit included. -/
def mantissa (magnitude : Nat) : Nat :=
  magnitude - shift magnitude * hiddenBit

/-- A finite magnitude in units. -/
def units (magnitude : Nat) : Nat :=
  mantissa magnitude * Nat.pow 2 (shift magnitude)

/-- A quotient rounded to the nearest whole number; a half goes to the even neighbour. -/
def roundQuotient (numerator denominator : Nat) : Nat :=
  let quotient := numerator / denominator
  let twice := 2 * (numerator % denominator)
  if twice < denominator ∨ twice = denominator ∧ quotient % 2 = 0 then quotient
  else quotient + 1

/-- The magnitude nearest to a quotient of units. The step is chosen so that the rounded
quotient has at most 53 bits; one that is rounded up to 54 bits carries into the exponent by
itself, and what lies above the finite magnitudes is infinity.
-/
def nearest (numerator denominator : Nat) : Nat :=
  let doublings := (numerator / denominator).log2 - fractionBits
  min infinity
    (doublings * hiddenBit + roundQuotient numerator (denominator * Nat.pow 2 doublings))

/-- The double with a sign and a magnitude. -/
def compose (negative : Bool) (magnitude : Nat) : Float :=
  Float.ofBits (UInt64.ofNat (magnitude + if negative then signBit else 0))

/-- The bits of a double below its sign. -/
def magnitude (x : Float) : Nat :=
  x.toBits.toNat % signBit

/-- Whether the sign bit of a double is set. -/
def isNegative (x : Float) : Bool :=
  signBit ≤ x.toBits.toNat

/-- A double taken apart by its bits. -/
def ofFloat (x : Float) : Binary64 :=
  if magnitude x < infinity then .finite (isNegative x) (magnitude x)
  else if magnitude x = infinity then .infinite (isNegative x)
  else .nan

/-- Subnormal magnitudes and those of the first binade are their own multiples of the unit,
since nothing is shifted below the second binade.
-/
theorem units_of_lt {magnitude : Nat} (h : magnitude < 2 * hiddenBit)
    : units magnitude = magnitude := by
  have hs : shift magnitude = 0 := by
    simp only [shift, hiddenBit] at *
    omega
  simp [units, mantissa, hs]

theorem roundQuotient_mul_self {n denominator : Nat} (h : 0 < denominator)
    : roundQuotient (n * denominator) denominator = n := by
  simp [roundQuotient, Nat.mul_div_cancel n h, h]

end Binary64

end SciCalc
