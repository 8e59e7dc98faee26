import SciCalc.Number.Binary64

/-! Decimal numbers, the doubles nearest to them, and literals: how a decimal without an exponent is
written.
-/

namespace SciCalc

/-- The number `digits * 10 ^ exponent`. -/
structure Decimal where
  digits : Nat
  exponent : Int
  deriving DecidableEq, Repr

namespace Decimal

/-- The whole number above the line when a decimal is written as a fraction. -/
def numerator (d : Decimal) : Nat :=
  d.digits * Nat.pow 10 d.exponent.toNat

/-- The whole number below the line, a power of ten. -/
def denominator (d : Decimal) : Nat :=
  Nat.pow 10 (-d.exponent).toNat

/-- The magnitude of the double nearest to a decimal, ties to even. -/
def magnitude (d : Decimal) : Nat :=
  Binary64.nearest (d.numerator * Nat.pow 2 Binary64.unitScale) d.denominator

/-- The double nearest to a decimal with a sign; too great a decimal yields an infinity. -/
def toFloat (d : Decimal) (negative : Bool) : Float :=
  Binary64.compose negative d.magnitude

theorem denominator_pos (d : Decimal) : 0 < d.denominator :=
  Nat.pow_pos (by decide)

end Decimal

/-- The digits before the point and, if there is one, after it. -/
structure Literal where
  whole : List Char
  fraction : List Char
  deriving DecidableEq, Repr

namespace Literal

/-- The written form: a point stands only before a fraction. -/
def text (literal : Literal) : List Char :=
  literal.whole ++ if literal.fraction.isEmpty then [] else '.' :: literal.fraction

/-- The longest literal at the head of a text. A point belongs to it only with a digit on
either side, and a digit is one of the ten of ASCII.
-/
def ofHead? (text : List Char) : Option Literal :=
  let whole := text.takeWhile Char.isDigit
  if whole.isEmpty then none
  else match text.dropWhile Char.isDigit with
    | '.' :: rest => some ⟨whole, rest.takeWhile Char.isDigit⟩
    | _ => some ⟨whole, []⟩

def decimal (literal : Literal) : Decimal :=
  ⟨Nat.ofDigitChars 10 (literal.whole ++ literal.fraction) 0, -literal.fraction.length⟩

/-- The nearest double, unless the value rounds beyond the finite ones. -/
def value? (literal : Literal) : Option Float :=
  if literal.decimal.magnitude < Binary64.infinity then some (literal.decimal.toFloat false)
  else none

/-- A literal at the head of a text has a digit, as the test in the definition says. -/
theorem whole_ne_nil_of_ofHead? {text : List Char} {literal : Literal}
    (found : ofHead? text = some literal)
    : literal.whole ≠ [] := by
  intro empty
  simp only [ofHead?] at found
  split at found
  · simp at found
  · split at found <;> simp_all [← Option.some.inj found]

end Literal

end SciCalc
