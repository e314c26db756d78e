import Scaffold.Calendar
import Scaffold.Document.Describe
import Scaffold.Document.Yaml.Error
import Scaffold.Document.Yaml.Tag
import Scaffold.Text.Base64
import Scaffold.Text.Words

/-!
# Values of YAML scalars

The text of a scalar is read as a value of the kind of its node.  A tag may give a scalar a kind that
its text is not spelled like; it then has a value only as far as the text can be read as one.
-/

namespace Scaffold.Document.Yaml

/-! ## Words and numbers -/

/-- The truth value of a text. -/
def boolOf (text : String) : Except ReadError Bool :=
  let word := String.ofList (Text.lowered text.toList)
  if trueWords.contains word then .ok true
  else if falseWords.contains word then .ok false
  else .error (.defect .unknownWord)

/-- A text without the marks that separate digits. -/
def withoutMarks (text : List Char) : List Char :=
  text.filter (· != '_')

/-- The sign of a number without marks, and the characters after it. -/
def signOf (text : List Char) : Except ReadError (Bool × List Char) :=
  if text.isEmpty then .error (.defect .emptyNumber) else .ok (Decimal.splitSign text)

/-- The integer that a text of a base spells. -/
def intOfBase (base : Nat) (text : List Char) : Except ReadError Int :=
  match Decimal.intOfNumeral base text with
  | .ok value => .ok value
  | .error .malformed => .error (.scalar (.notInt base (String.ofList text)))
  | .error (.tooLong digits) => .error (.scalar (.tooLong digits))

/-- The integer that parts between colons spell, each of them counting sixty times the next. -/
def intOfSixtieths (value : Int) : List (List Char) → Except ReadError Int
  | [] => .ok value
  | part :: rest =>
      match intOfBase 10 part with
      | .ok size => intOfSixtieths (value * 60 + size) rest
      | .error error => .error error

/-- The integer of a text after its sign and without marks. -/
def unsignedInt (text : List Char) : Except ReadError Int :=
  match text with
  | [] => .error (.defect .emptyNumber)
  | ['0'] => .ok 0
  | '0' :: 'b' :: rest => intOfBase 2 rest
  | '0' :: 'x' :: rest => intOfBase 16 rest
  | '0' :: _ => intOfBase 8 text
  | _ => if text.contains ':' then intOfSixtieths 0 (colonParts text) else intOfBase 10 text

/-- The integer that a text spells. -/
def intOf (text : List Char) : Except ReadError Int :=
  match signOf (withoutMarks text) with
  | .error error => .error error
  | .ok (negative, unsigned) =>
      (unsignedInt unsigned).map fun value => if negative then -value else value

/-- The double that a text spells. -/
def doubleOfText (text : List Char) : Except ReadError Decimal.Double :=
  match Decimal.doubleOfNumeral? text with
  | some value => .ok value
  | none => .error (.scalar (.notDouble (String.ofList text)))

/-- The sum of parts of which each counts sixty times the one before, added in this order. -/
def sumOfSixtieths (sum : Decimal.Double) (factor : Nat) : List Decimal.Double → Decimal.Double
  | [] => sum
  | part :: rest => sumOfSixtieths (sum.sum (part.scaled factor)) (factor * 60) rest

/-- The double of a text after its sign, without marks and capitals. -/
def unsignedDouble (text : List Char) : Except ReadError Decimal.Double :=
  if text == ".inf".toList then .ok (.infinite false)
  else if text == ".nan".toList then .ok .nan
  else if text.contains ':' then
    ((colonParts text).mapM doubleOfText).map fun parts =>
      sumOfSixtieths (.ofRatio false 0 1) 1 parts.reverse
  else doubleOfText text

/-- The double that a text spells. -/
def doubleOf (text : List Char) : Except ReadError Decimal.Double :=
  match signOf (Text.lowered (withoutMarks text)) with
  | .error error => .error error
  | .ok (negative, unsigned) =>
      (unsignedDouble unsigned).map fun value => if negative then value.negated else value

/-- The bytes that a text encodes. -/
def bytesOf (codes : List Nat) : Except ReadError (List UInt8) :=
  if codes.any (128 ≤ ·) then .error .invalid
  else
    match Text.base64Bytes? (codes.map Char.ofNat) with
    | some bytes => .ok bytes
    | none => .error .invalid

/-! ## Days and instants -/

/-- A rule that a part of a day or an instant breaks. -/
def brokenRule? (year month day hour minute second : Nat) : Option String :=
  if year = 0 then some "year 0 is out of range"
  else if month < 1 ∨ 12 < month then some "month must be in 1..12"
  else if day < 1 ∨ Calendar.daysInMonth year month < day then
    some "day is out of range for month"
  else if 23 < hour then some "hour must be in 0..23"
  else if 59 < minute then some "minute must be in 0..59"
  else if 59 < second then some "second must be in 0..59"
  else none

/-- The number of minutes of a day. -/
def minutesOfDay : Nat :=
  1440

/-- The offset in minutes of a zone, which is less than a day. -/
def offsetOf : Option Char × List Char × List Char → Except ScalarError Int
  | (none, _, _) => .ok 0
  | (some sign, hours, minutes) =>
      let size := Json.natOfDigits hours * 60 + Json.natOfDigits minutes
      let offset : Int := if sign == '-' then -(size : Int) else size
      if size < minutesOfDay then .ok offset
      else
        .error (.outOfRange ("offset must be a timedelta strictly between " ++
          "-timedelta(hours=24) and timedelta(hours=24), not " ++ describeDuration offset ++ "."))

/-- The offset of an instant that may have no zone. -/
def offsetOf? : Option (Option Char × List Char × List Char) → Except ScalarError (Option Int)
  | none => .ok none
  | some zone => (offsetOf zone).map some

/-- The microseconds that the digits of a fraction spell. -/
def microsecondsOf (digits : List Char) : Nat :=
  Json.natOfDigits ((digits ++ List.replicate 6 '0').take 6)

/-- The day or the instant of its parts. -/
def stampOfParts (parts : StampText) : Except ScalarError Stamp :=
  let number := Json.natOfDigits
  let (year, month, day) := (number parts.year, number parts.month, number parts.day)
  match parts.time with
  | none =>
      match brokenRule? year month day 0 0 0 with
      | some rule => .error (.outOfRange rule)
      | none => .ok ⟨year, month, day, none, none⟩
  | some (hourText, minuteText, secondText, fraction) =>
      let (hour, minute, second) := (number hourText, number minuteText, number secondText)
      match offsetOf? parts.zone with
      | .error error => .error error
      | .ok offset =>
          match brokenRule? year month day hour minute second with
          | some rule => .error (.outOfRange rule)
          | none =>
              let time := (hour, minute, second, microsecondsOf fraction)
              .ok ⟨year, month, day, some time, offset⟩

/-- The day or the instant that a text names. -/
def stampOf (text : List Char) : Except ReadError Stamp :=
  match stampText? (Text.withoutLineEnd text) with
  | none => .error (.defect .notStamp)
  | some parts => (stampOfParts parts).mapError .scalar

/-- The value of a scalar of a kind. -/
def scalarValue (kind : NodeKind) (codes : List Nat) : Except ReadError Value :=
  let text := spellingOf codes
  match kind with
  | .null => .ok .null
  | .text => .ok (.ofCodes codes)
  | .bool => (boolOf text).map .bool
  | .int => (intOf text.toList).map .int
  | .double => (doubleOf text.toList).map .double
  | .bytes => (bytesOf codes).map .bytes
  | .stamp => (stampOf text.toList).map .stamp
  | _ => .error .invalid

end Scaffold.Document.Yaml
