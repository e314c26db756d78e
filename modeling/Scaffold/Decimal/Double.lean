/-!
# Binary floating-point numbers

A double is a sign, a significand below `2 ^ 53` and a power of two, or an infinity, or no number.
It is kept in this decoded form, so that reading and writing decimals is exact arithmetic on
natural numbers.  A quotient is rounded to the nearest double, and a tie to the even significand.
-/

namespace Scaffold.Decimal

/-- A floating-point number of 64 bits: `± significand * 2 ^ exponent`, an infinity, or none. -/
inductive Double where
  | finite (negative : Bool) (significand : Nat) (exponent : Int)
  | infinite (negative : Bool)
  | nan
  deriving DecidableEq, Repr

/-- The exponent of the smallest doubles. -/
def leastExponent : Int :=
  -1074

/-- The exponent of the largest doubles. -/
def greatestExponent : Int :=
  971

/-- The number of bits of a significand. -/
def significandBits : Nat :=
  53

/-- A quotient of natural numbers rounded to the nearest one, a half to the even neighbour. -/
def roundHalfEven (numerator denominator : Nat) : Nat :=
  let below := numerator / denominator
  let rest := numerator % denominator
  if 2 * rest < denominator then below
  else if denominator < 2 * rest then below + 1
  else below + below % 2

/-- A power of a natural number, by `Nat.pow` itself, so that its meaning hangs on no instance. -/
def power (base exponent : Nat) : Nat :=
  Nat.pow base exponent

/-- Numerator and denominator of `numerator / denominator / 2 ^ exponent`. -/
def scaleByTwo (numerator denominator : Nat) (exponent : Int) : Nat × Nat :=
  if 0 ≤ exponent then (numerator, denominator * power 2 exponent.toNat)
  else (numerator * power 2 (-exponent).toNat, denominator)

/--
The exponent that gives a quotient a significand of full length, or the least exponent where the
quotient is too small for that.
-/
def quotientExponent (numerator denominator : Nat) : Int :=
  let estimate := (numerator.log2 : Int) - denominator.log2 - (significandBits - 1 : Nat)
  let (scaled, unit) := scaleByTwo numerator denominator estimate
  let exact := if scaled / unit < power 2 (significandBits - 1) then estimate - 1 else estimate
  max leastExponent exact

/-- The double nearest to a quotient, or none when it lies beyond the largest double. -/
def Double.ofQuotient? (negative : Bool) (numerator denominator : Nat) : Option Double :=
  if numerator = 0 then some (.finite negative 0 leastExponent)
  else
    let exponent := quotientExponent numerator denominator
    let (scaled, unit) := scaleByTwo numerator denominator exponent
    let significand := roundHalfEven scaled unit
    let (significand, exponent) :=
      if significand = power 2 significandBits then (power 2 (significandBits - 1), exponent + 1)
      else (significand, exponent)
    if greatestExponent < exponent then none
    else some (.finite negative significand exponent)

/-- The number of decimal digits of a natural number, at least one. -/
def digitCount (n : Nat) : Nat :=
  (Nat.toDigits 10 n).length

/--
The double nearest to `digits * 10 ^ exponent`.  Numbers far outside the range of doubles are
recognised by their length, before any power is computed.
-/
def Double.ofDecimal (negative : Bool) (digits : Nat) (exponent : Int) : Double :=
  if digits = 0 then .finite negative 0 leastExponent
  else
    let magnitude := (digitCount digits : Int) + exponent
    if 320 < magnitude then .infinite negative
    else if magnitude < -340 then .finite negative 0 leastExponent
    else
      let nearest :=
        if 0 ≤ exponent then Double.ofQuotient? negative (digits * power 10 exponent.toNat) 1
        else Double.ofQuotient? negative digits (power 10 (-exponent).toNat)
      nearest.getD (.infinite negative)

/-- The double nearest to an integer, or none when it lies beyond the largest double. -/
def Double.ofInt? (value : Int) : Option Double :=
  Double.ofQuotient? (value < 0) value.natAbs 1

/-- The size of a double as a quotient, if it has one. -/
def Double.size? : Double → Option (Nat × Nat)
  | .finite _ significand exponent =>
      if 0 ≤ exponent then some (significand * power 2 exponent.toNat, 1)
      else some (significand, power 2 (-exponent).toNat)
  | _ => none

/-- The double nearest to a quotient, or an infinity. -/
def Double.ofRatio (negative : Bool) (numerator denominator : Nat) : Double :=
  (Double.ofQuotient? negative numerator denominator).getD (.infinite negative)

/-- A double times a natural number, rounded. -/
def Double.scaled (part : Double) (factor : Nat) : Double :=
  match part, part.size? with
  | .finite negative _ _, some (numerator, denominator) =>
      .ofRatio negative (numerator * factor) denominator
  | _, _ => part

/-- A size as an integer of a sign. -/
def signed (negative : Bool) (size : Nat) : Int :=
  if negative then -(size : Int) else size

/-- The sum of two doubles, rounded. -/
def Double.sum (left right : Double) : Double :=
  match left, right, left.size?, right.size? with
  | .finite first _ _, .finite second _ _, some (a, b), some (c, d) =>
      let total := signed first (a * d) + signed second (c * b)
      if total = 0 then .finite (first && second) 0 leastExponent
      else .ofRatio (total < 0) total.natAbs (b * d)
  | .infinite first, .infinite second, _, _ => if first == second then left else .nan
  | .nan, _, _, _ | _, .nan, _, _ => .nan
  | .infinite _, _, _, _ => left
  | _, _, _, _ => right

/-- A double with the other sign. -/
def Double.negated : Double → Double
  | .finite negative significand exponent => .finite (!negative) significand exponent
  | .infinite negative => .infinite (!negative)
  | .nan => .nan

/-- Plus or minus zero. -/
def Double.isZero : Double → Bool
  | .finite _ significand _ => significand == 0
  | _ => false

/-- A number without a fraction. -/
def Double.isWhole : Double → Bool
  | .finite _ significand exponent =>
      0 ≤ exponent || significand % power 2 (-exponent).toNat == 0
  | _ => false

/-- The integer that a number without a fraction is. -/
def Double.whole? : Double → Option Int
  | .finite negative significand exponent =>
      let size :=
        if 0 ≤ exponent then some (significand * power 2 exponent.toNat)
        else
          let unit := power 2 (-exponent).toNat
          if significand % unit == 0 then some (significand / unit) else none
      size.map fun size => if negative then -(size : Int) else size
  | _ => none

/-- The number one. -/
def Double.isOne (number : Double) : Bool :=
  Double.ofInt? 1 == some number

end Scaffold.Decimal
