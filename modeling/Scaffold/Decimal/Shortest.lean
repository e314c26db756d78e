import Scaffold.Decimal.Double

/-!
# The shortest decimal of a double

Every real in a small interval around a double rounds to that double.  The shortest decimal is the
point with the fewest digits in that interval, and of two such points the one nearer to the double.
Grids of powers of ten are tried from coarse to fine; on a grid only the two neighbours of the
double need a test, because they lie nearest to it.
-/

namespace Scaffold.Decimal

/-- The reals that round to a double, as multiples of `numerator / denominator`. -/
structure RoundingInterval where
  /-- The double itself. -/
  center : Nat
  /-- The lower end. -/
  low : Nat
  /-- The upper end. -/
  high : Nat
  /-- Whether both ends round to the double. -/
  closed : Bool
  /-- Numerator of the unit. -/
  numerator : Nat
  /-- Denominator of the unit. -/
  denominator : Nat

/--
The rounding interval of `significand * 2 ^ exponent`, counted in quarters of the last bit.  Below a
power of two the next double is only half as far away.
-/
def roundingInterval (significand : Nat) (exponent : Int) : RoundingInterval :=
  let quarter := exponent - 2
  let nearBelow := significand == power 2 (significandBits - 1) && leastExponent < exponent
  { center := 4 * significand
    low := 4 * significand - (if nearBelow then 1 else 2)
    high := 4 * significand + 2
    closed := significand % 2 == 0
    numerator := if 0 ≤ quarter then power 2 quarter.toNat else 1
    denominator := if 0 ≤ quarter then 1 else power 2 (-quarter).toNat }

/-- Compare `count * 10 ^ grid` with `bound` units of an interval. -/
def RoundingInterval.compareGrid (interval : RoundingInterval) (count : Nat) (grid : Int)
    (bound : Nat) : Ordering :=
  let onGrid := if 0 ≤ grid then count * power 10 grid.toNat else count
  let scale := if 0 ≤ grid then 1 else power 10 (-grid).toNat
  compare (onGrid * interval.denominator) (bound * interval.numerator * scale)

/-- A grid point rounds to the double of the interval. -/
def RoundingInterval.contains (interval : RoundingInterval) (count : Nat) (grid : Int) : Bool :=
  let fromLow := interval.compareGrid count grid interval.low
  let fromHigh := interval.compareGrid count grid interval.high
  (fromLow == .gt || (interval.closed && fromLow == .eq)) &&
    (fromHigh == .lt || (interval.closed && fromHigh == .eq))

/-- The last grid point that is not above the double. -/
def RoundingInterval.floor (interval : RoundingInterval) (grid : Int) : Nat :=
  let value := interval.center * interval.numerator
  if 0 ≤ grid then value / (interval.denominator * power 10 grid.toNat)
  else value * power 10 (-grid).toNat / interval.denominator

/--
Of the two neighbours of the double on a grid, the one that rounds to it; when both do, the nearer
one, and the even one of two that are equally near.
-/
def RoundingInterval.neighbour? (interval : RoundingInterval) (grid : Int) : Option Nat :=
  let below := interval.floor grid
  let above := below + 1
  match interval.contains below grid, interval.contains above grid with
  | true, true =>
      match interval.compareGrid (below + above) grid (2 * interval.center) with
      | .gt => some below
      | .lt => some above
      | .eq => some (if below % 2 == 0 then below else above)
  | true, false => some below
  | false, true => some above
  | false, false => none

/-- The first of `fuel` ever finer grids on which a neighbour of the double rounds to it. -/
def RoundingInterval.firstHit (interval : RoundingInterval) : Nat → Int → Nat × Int
  | 0, grid => (interval.floor grid, grid)
  | fuel + 1, grid =>
      match interval.neighbour? grid with
      | some count => (count, grid)
      | none => interval.firstHit fuel (grid - 1)

/-- Raise an exponent until its power of ten is above the double, at most `fuel` times. -/
def RoundingInterval.powerAbove (interval : RoundingInterval) : Nat → Int → Int
  | 0, grid => grid
  | fuel + 1, grid =>
      if interval.compareGrid 1 grid interval.center == .gt then grid
      else interval.powerAbove fuel (grid + 1)

/-- Move trailing zeros of a decimal into its exponent; `fuel` bounds their number. -/
def dropTrailingZeros : Nat → Nat × Int → Nat × Int
  | 0, decimal => decimal
  | fuel + 1, (digits, exponent) =>
      if digits % 10 == 0 then dropTrailingZeros fuel (digits / 10, exponent + 1)
      else (digits, exponent)

/--
The shortest decimal `digits * 10 ^ exponent` that reads back as a positive double.  A double has at
most 17 digits, so the search starts at one digit and is over after 17.
-/
def shortest (significand : Nat) (exponent : Int) : Nat × Int :=
  let interval := roundingInterval significand exponent
  let binary := (significand.log2 : Int) + exponent
  let start := Int.fdiv (binary * 30103) 100000 - 1
  let power := interval.powerAbove 5 start
  dropTrailingZeros 17 (interval.firstHit 17 (power - 1))

end Scaffold.Decimal
