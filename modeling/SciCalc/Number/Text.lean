import SciCalc.Number.Decimal
import SciCalc.Number.Shortest

/-! The two written forms of a double: in an expression, and as a result.

Both show the shortest decimal that reads back. In an expression it is written positionally,
whatever its size, and a whole number has no point. A result always has a point or an exponent.
-/

namespace SciCalc

namespace Decimal

def digitChars (d : Decimal) : List Char :=
  Nat.toDigits 10 d.digits

/-- The power of ten of the first digit. -/
def leadingExponent (d : Decimal) : Int :=
  d.exponent + d.digitChars.length - 1

/-- A decimal written positionally: zeros fill the places up to the point, on either side. -/
def literal (d : Decimal) : Literal :=
  let digits := d.digitChars
  let places := (-d.exponent).toNat
  if places = 0 then ⟨digits ++ List.replicate d.exponent.toNat '0', []⟩
  else if places < digits.length then
    ⟨digits.take (digits.length - places), digits.drop (digits.length - places)⟩
  else ⟨['0'], List.replicate (places - digits.length) '0' ++ digits⟩

end Decimal

/-- The digits of a literal with at least one after the point. -/
def Literal.withFraction (literal : Literal) : Literal :=
  if literal.fraction.isEmpty then { literal with fraction := ['0'] } else literal

/-- A decimal in scientific form: one digit before the point, and an exponent with a sign and
at least two digits.
-/
def Decimal.scientific (d : Decimal) : List Char :=
  let mantissa : Literal := ⟨d.digitChars.take 1, d.digitChars.drop 1⟩
  let exponent := d.leadingExponent.natAbs
  mantissa.text ++ ['e', if d.leadingExponent < 0 then '-' else '+']
    ++ (if exponent < 10 then ['0'] else []) ++ Nat.toDigits 10 exponent

/-- A result is positional while its first digit stands between the fourth place after the
point and the sixteenth before it.
-/
def Decimal.result (d : Decimal) : List Char :=
  if -4 ≤ d.leadingExponent ∧ d.leadingExponent < 16 then d.literal.withFraction.text
  else d.scientific

def signed (negative : Bool) (text : List Char) : List Char :=
  if negative then '-' :: text else text

/-- A double in words or digits, given the form of its finite magnitude. -/
def writeDouble (form : Decimal → List Char) (x : Float) : List Char :=
  match Binary64.ofFloat x with
  | .nan => ['n', 'a', 'n']
  | .infinite negative => signed negative ['i', 'n', 'f']
  | .finite negative magnitude => signed negative (form (Decimal.ofMagnitude magnitude))

/-- A double as it stands in an expression. -/
def numberText (x : Float) : String :=
  String.ofList (writeDouble (fun d => d.literal.text) x)

/-- A double as a result shows it. -/
def resultText (x : Float) : String :=
  String.ofList (writeDouble Decimal.result x)

end SciCalc
