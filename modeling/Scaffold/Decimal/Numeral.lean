import Scaffold.Decimal.Double
import Scaffold.Text.DecimalDigit

/-!
# Numerals

A numeral is a text that spells a number.  Blanks around it do not count, a sign may stand in front,
and its decimal digits may be those of any script.  A numeral of a base other than a power of two may
not have too many digits.
-/

namespace Scaffold.Decimal

/-- Why a text is no numeral of a base. -/
inductive NumeralError where
  | malformed
  | tooLong (digits : Nat)
  deriving DecidableEq, Repr

/-- The greatest number of digits of a numeral of base ten. -/
def digitLimit : Nat :=
  4300

/-- The wording of the error that a numeral has too many digits. -/
def tooLongMessage (digits : Nat) : String :=
  let shown := fun (n : Nat) => String.ofList (Nat.toDigits 10 n)
  "Exceeds the limit (" ++ shown digitLimit ++ " digits) for integer string conversion: value has " ++
    shown digits ++ " digits; use sys.set_int_max_str_digits() to increase the limit"

/-- A blank that may stand around a numeral. -/
def isNumeralBlank (c : Char) : Bool :=
  Text.isBlank c && !('\x1c' ≤ c && c ≤ '\x1f')

/-- A text without the blanks around it. -/
def withoutBlanks (text : List Char) : List Char :=
  ((text.dropWhile isNumeralBlank).reverse.dropWhile isNumeralBlank).reverse

/-- The ASCII digit of the same value as a decimal digit of any script. -/
def plainDigit (c : Char) : Char :=
  match Text.digitValue? c with
  | some value => Char.ofNat ('0'.toNat + value)
  | none => c

/-- A text after its sign, and whether that is a minus. -/
def splitSign : List Char → Bool × List Char
  | '-' :: rest => (true, rest)
  | '+' :: rest => (false, rest)
  | text => (false, text)

/-- The value of a digit of a base up to sixteen. -/
def digitOf? (base : Nat) (c : Char) : Option Nat :=
  let value :=
    if c.isDigit then some (c.toNat - '0'.toNat)
    else if 'a' ≤ c && c ≤ 'f' then some (c.toNat - 'a'.toNat + 10)
    else if 'A' ≤ c && c ≤ 'F' then some (c.toNat - 'A'.toNat + 10)
    else none
  value.filter (· < base)

/-- The letter after a zero that marks the numerals of a base. -/
def baseLetter? : Nat → Option Char
  | 2 => some 'b'
  | 8 => some 'o'
  | 16 => some 'x'
  | _ => none

/-- The digits of a numeral, which may follow the mark of its base. -/
def withoutBaseMark (base : Nat) : List Char → List Char
  | '0' :: letter :: digits =>
      if baseLetter? base == some letter.toLower then digits else '0' :: letter :: digits
  | digits => digits

/-- The number that digits of a base spell. -/
def natOfNumeral (base : Nat) (digits : List Char) : Except NumeralError Nat :=
  match digits.mapM (digitOf? base) with
  | none | some [] => .error .malformed
  | some values =>
      if (baseLetter? base).isNone && digitLimit < values.length then .error (.tooLong values.length)
      else .ok (values.foldl (fun number value => number * base + value) 0)

/-- The integer that a numeral of a base spells. -/
def intOfNumeral (base : Nat) (text : List Char) : Except NumeralError Int :=
  let (negative, unsigned) := splitSign ((withoutBlanks text).map plainDigit)
  (natOfNumeral base (withoutBaseMark base unsigned)).map fun size =>
    if negative then -(size : Int) else size

/-- The exponent that a text consists of, which is zero where there is none. -/
def exponentOf? : List Char → Option Int
  | [] => some 0
  | letter :: rest =>
      let (negative, digits) := splitSign rest
      if letter.toLower == 'e' && !digits.isEmpty && digits.all Char.isDigit then
        let size := digits.foldl (fun number c => number * 10 + (c.toNat - '0'.toNat)) 0
        some (if negative then -(size : Int) else size)
      else none

/-- The double that digits spell, with a point and an exponent. -/
def unsignedDoubleOf? (negative : Bool) (text : List Char) : Option Double :=
  let whole := text.takeWhile Char.isDigit
  let behindWhole := text.dropWhile Char.isDigit
  let (fraction, rest) :=
    match behindWhole with
    | '.' :: decimals => (decimals.takeWhile Char.isDigit, decimals.dropWhile Char.isDigit)
    | _ => ([], behindWhole)
  let digits := whole ++ fraction
  if digits.isEmpty then none
  else
    (exponentOf? rest).map fun exponent =>
      let number := digits.foldl (fun number c => number * 10 + (c.toNat - '0'.toNat)) 0
      .ofDecimal negative number (exponent - fraction.length)

/-- The double that a numeral spells, which may be an infinity or no number. -/
def doubleOfNumeral? (text : List Char) : Option Double :=
  let (negative, unsigned) := splitSign ((withoutBlanks text).map plainDigit)
  let word := String.ofList (unsigned.map Char.toLower)
  if word == "inf" || word == "infinity" then some (.infinite negative)
  else if word == "nan" then some .nan
  else unsignedDoubleOf? negative unsigned

end Scaffold.Decimal
