import SciCalc.Number.Decimal

/-! The shortest decimal that reads back as a double.

The reals that round to a finite magnitude form an interval around it. Counted in steps of
`10 ^ -1076` its ends and its centre are whole numbers. Grids of powers of ten are tried from
the coarsest on: the first grid with a point in the interval gives the fewest digits, and of
two such points the nearer one is taken.
-/

namespace SciCalc

/-- The reals that round to one magnitude, in steps of `10 ^ -1076`. -/
structure RoundingInterval where
  low : Nat
  centre : Nat
  high : Nat
  /-- Whether the ends round to the magnitude as well. -/
  closed : Bool
  deriving DecidableEq, Repr

namespace RoundingInterval

/-- The decimal exponent of the step, negated: a quarter of a unit is a whole number of steps. -/
def scale : Nat := Binary64.unitScale + 2

/-- The interval of a positive finite magnitude reaches half a step of doubles to either side,
and a quarter below a power of two, where the doubles lie twice as dense. Its ends are ties, so
they belong to an even mantissa.
-/
def ofMagnitude (magnitude : Nat) : RoundingInterval :=
  let mantissa := Binary64.mantissa magnitude
  let shift := Binary64.shift magnitude
  let quarter := Nat.pow 2 shift * Nat.pow 5 scale
  { low := 4 * mantissa * quarter
      - if mantissa = Binary64.hiddenBit ∧ 0 < shift then quarter else 2 * quarter
    centre := 4 * mantissa * quarter
    high := 4 * mantissa * quarter + 2 * quarter
    closed := mantissa % 2 = 0 }

/-- Whether a number of steps lies in the interval. -/
def contains (interval : RoundingInterval) (n : Nat) : Bool :=
  if interval.closed then interval.low ≤ n && n ≤ interval.high
  else interval.low < n && n < interval.high

/-- The point of the grid of `10 ^ k` that lies in the interval, the one nearer to the centre
if both neighbours of the centre do, and of two equally near ones the even one.
-/
def onGrid? (interval : RoundingInterval) (k : Nat) : Option Nat :=
  let spacing := Nat.pow 10 k
  let below := interval.centre / spacing
  match interval.contains (below * spacing), interval.contains ((below + 1) * spacing) with
  | true, true => some (Binary64.roundQuotient interval.centre spacing)
  | true, false => some below
  | false, true => some (below + 1)
  | false, false => none

/-- The first point of the interval on a grid, from the grid of `10 ^ k` to finer ones. -/
def shortestFrom (interval : RoundingInterval) : (k : Nat) → Decimal
  | 0 => ⟨interval.centre, -scale⟩
  | k + 1 =>
      match interval.onGrid? (k + 1) with
      | some digits => ⟨digits, (k + 1 : Nat) - (scale : Int)⟩
      | none => interval.shortestFrom k

/-- An exponent of ten above the centre: since `2 ^ 93 < 10 ^ 28`, as many decimal digits as
these suffice for its binary ones.
-/
def coarsest (interval : RoundingInterval) : Nat :=
  (interval.centre.log2 + 1) * 28 / 93 + 1

/-- The decimal of the interval with the fewest digits, the nearest to the centre of those. -/
def shortest (interval : RoundingInterval) : Decimal :=
  interval.shortestFrom interval.coarsest

end RoundingInterval

/-- The shortest decimal that reads back as a finite magnitude. -/
def Decimal.ofMagnitude (magnitude : Nat) : Decimal :=
  if magnitude = 0 then ⟨0, 0⟩ else (RoundingInterval.ofMagnitude magnitude).shortest

end SciCalc
