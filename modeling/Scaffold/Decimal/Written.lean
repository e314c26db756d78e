import Scaffold.Decimal.Shortest

/-!
# Written numbers

How integers and doubles are written in the generated code and in messages.  A double is written
with its shortest digits: positionally with at least one digit after the point, or with an exponent
of at least two digits and a sign.
-/

namespace Scaffold.Decimal

/-- The decimal digits of a natural number. -/
def naturalDigits (n : Nat) : List Char :=
  Nat.toDigits 10 n

/-- A natural number with zeros in front up to a least width. -/
def paddedNatural (width n : Nat) : List Char :=
  let digits := naturalDigits n
  List.replicate (width - digits.length) '0' ++ digits

/-- An integer: a minus where it is negative, then the digits. -/
def writtenInt (value : Int) : String :=
  String.ofList ((if value < 0 then ['-'] else []) ++ naturalDigits value.natAbs)

/-- An integer with zeros between sign and digits up to a least width, the sign counted. -/
def paddedInt (width : Nat) (value : Int) : String :=
  if value < 0 then String.ofList ('-' :: paddedNatural (width - 1) value.natAbs)
  else String.ofList (paddedNatural width value.natAbs)

/-- The decisions of a format for floating-point numbers. -/
structure Style where
  /-- The least exponent of a first digit that is written positionally. -/
  leastPositional : Int
  /-- The least exponent of a first digit that is no longer written positionally. -/
  leastScientific : Int
  /-- The least number of digits of an exponent. -/
  exponentWidth : Nat

/--
Numbers from 0.0001 up to 10 ^ 16 are written positionally, all others with an exponent of two or
more digits.
-/
def plainStyle : Style :=
  ⟨-4, 16, 2⟩

/-- Digits whose first one stands for `10 ^ first`, written positionally. -/
def positional (digits : List Char) (first : Int) : List Char :=
  if first < 0 then
    '0' :: '.' :: (List.replicate ((-first).toNat - 1) '0' ++ digits)
  else
    let whole := first.toNat + 1
    let padded := digits ++ List.replicate (whole - digits.length) '0'
    let fraction := padded.drop whole
    padded.take whole ++ '.' :: (if fraction.isEmpty then ['0'] else fraction)

/-- Digits whose first one stands for `10 ^ first`, written with an exponent. -/
def scientific (width : Nat) (digits : List Char) (first : Int) : List Char :=
  let sign := if first < 0 then '-' else '+'
  let mantissa :=
    match digits with
    | [] => ['0']
    | [digit] => [digit]
    | digit :: rest => digit :: '.' :: rest
  mantissa ++ 'e' :: sign :: paddedNatural width first.natAbs

/-- The digits of a positive double in a given style. -/
def Style.digits (style : Style) (significand : Nat) (exponent : Int) : List Char :=
  let (number, power) := shortest significand exponent
  let digits := naturalDigits number
  let first := (digits.length : Int) - 1 + power
  if style.leastPositional ≤ first && first < style.leastScientific then positional digits first
  else scientific style.exponentWidth digits first

/-- A double in a given style. -/
def Style.write (style : Style) : Double → String
  | .nan => "nan"
  | .infinite negative => if negative then "-inf" else "inf"
  | .finite negative significand exponent =>
      let digits := if significand = 0 then "0.0".toList else style.digits significand exponent
      String.ofList ((if negative then ['-'] else []) ++ digits)

/-- A double as the generated code and the messages show it. -/
def writtenDouble (number : Double) : String :=
  plainStyle.write number

end Scaffold.Decimal
