import Scaffold.Document.Json
import Scaffold.Text.Identifier

/-!
# Spellings of YAML scalars

A plain scalar stands for null, a truth value, a number, a day or an instant if it is spelled like
one, and for its own text otherwise.  A line end behind the spelling does not count.
-/

namespace Scaffold.Document.Yaml

/-- The kinds of values that nodes stand for. -/
inductive NodeKind where
  | null
  | bool
  | int
  | double
  | bytes
  | stamp
  | text
  | list
  /-- A list of pairs, each given by a mapping of one entry. -/
  | pairs
  | set
  | mapping
  /-- The key of entries that are taken from another mapping. -/
  | merge
  /-- The key of the value that a mapping stands for. -/
  | standard
  /-- No kind that documents can hold. -/
  | unknown
  deriving DecidableEq, Repr

/-- The spellings of yes. -/
def trueWords : List String :=
  ["yes", "Yes", "YES", "true", "True", "TRUE", "on", "On", "ON"]

/-- The spellings of no. -/
def falseWords : List String :=
  ["no", "No", "NO", "false", "False", "FALSE", "off", "Off", "OFF"]

/-- The spellings of nothing. -/
def nullWords : List String :=
  ["", "~", "null", "Null", "NULL"]

/-- A text without its sign. -/
def withoutSign : List Char → List Char
  | '+' :: rest => rest
  | '-' :: rest => rest
  | text => text

/-- A digit, or the mark that may separate digits. -/
def isDigitOrMark (c : Char) : Bool :=
  c.isDigit || c == '_'

/-- The parts of a text between colons. -/
def colonParts : List Char → List (List Char)
  | [] => [[]]
  | c :: rest =>
      match colonParts rest with
      | [] => [[c]]
      | part :: parts => if c == ':' then [] :: part :: parts else (c :: part) :: parts

/-- Minutes or seconds: one digit, or two digits below sixty. -/
def isSixtieth : List Char → Bool
  | [a] => a.isDigit
  | [a, b] => '0' ≤ a && a ≤ '5' && b.isDigit
  | _ => false

/-- Digits and marks that start with a digit. -/
def isMarkedNumber : List Char → Bool
  | c :: rest => c.isDigit && rest.all isDigitOrMark
  | [] => false

/-- A text without a sign is spelled like an integer. -/
def isUnsignedInt (text : List Char) : Bool :=
  match text with
  | '0' :: 'b' :: rest => !rest.isEmpty && rest.all fun c => c == '0' || c == '1' || c == '_'
  | '0' :: 'x' :: rest => !rest.isEmpty && rest.all fun c => (Json.hexDigit? c).isSome || c == '_'
  | '0' :: rest => rest.all fun c => ('0' ≤ c && c ≤ '7') || c == '_'
  | _ =>
      match colonParts text with
      | first :: sixtieths => isMarkedNumber first && sixtieths.all isSixtieth
      | [] => false

/-- An exponent with its sign, or nothing. -/
def isExponent : List Char → Bool
  | [] => true
  | e :: sign :: digits =>
      (e == 'e' || e == 'E') && (sign == '+' || sign == '-') && !digits.isEmpty &&
        digits.all Char.isDigit
  | _ => false

/-- The digits and marks after a point, with an exponent that may follow. -/
def isFraction (text : List Char) : Bool :=
  isExponent (text.dropWhile isDigitOrMark)

/-- A text without a sign is spelled like a number with a point. -/
def isUnsignedDouble (text : List Char) : Bool :=
  match text.dropWhile isDigitOrMark with
  | '.' :: rest => isMarkedNumber (text.takeWhile isDigitOrMark) && isFraction rest
  | _ =>
      match colonParts text with
      | first :: second :: others =>
          let sixtieths := second :: others
          let last := sixtieths.getLast?.getD []
          isMarkedNumber first && sixtieths.dropLast.all isSixtieth &&
            isSixtieth (last.takeWhile (· != '.')) &&
            match last.dropWhile (· != '.') with
            | '.' :: marks => marks.all isDigitOrMark
            | _ => false
      | _ => false

/-- The spellings of infinity without a sign. -/
def infinityWords : List String :=
  [".inf", ".Inf", ".INF"]

/-- The spellings of no number. -/
def nanWords : List String :=
  [".nan", ".NaN", ".NAN"]

/-- A text is spelled like a double. -/
def isDouble (text : List Char) : Bool :=
  match text with
  | '.' :: c :: rest =>
      (c.isDigit && isFraction (c :: rest)) || infinityWords.contains (String.ofList text) ||
        nanWords.contains (String.ofList text)
  | _ =>
      let unsigned := withoutSign text
      isUnsignedDouble unsigned || infinityWords.contains (String.ofList unsigned)

/-- The parts of a day or an instant as digits. -/
structure StampText where
  year : List Char
  month : List Char
  day : List Char
  time : Option (List Char × List Char × List Char × List Char) := none
  /-- The sign, the hours and the minutes of the offset; universal time has no sign. -/
  zone : Option (Option Char × List Char × List Char) := none

/-- One or two digits, and what follows them. -/
def oneOrTwoDigits? : List Char → Option (List Char × List Char)
  | a :: b :: rest =>
      if !a.isDigit then none else if b.isDigit then some ([a, b], rest) else some ([a], b :: rest)
  | [a] => if a.isDigit then some ([a], []) else none
  | [] => none

/-- Two digits, and what follows them. -/
def twoDigits? : List Char → Option (List Char × List Char)
  | a :: b :: rest => if a.isDigit && b.isDigit then some ([a, b], rest) else none
  | _ => none

/-- Four digits, and what follows them. -/
def fourDigits? (text : List Char) : Option (List Char × List Char) :=
  match twoDigits? text with
  | some (first, rest) => (twoDigits? rest).map fun (second, behind) => (first ++ second, behind)
  | none => none

/-- What follows a given character. -/
def afterCharacter? (expected : Char) : List Char → Option (List Char)
  | c :: rest => if c == expected then some rest else none
  | [] => none

/-- A blank between the parts of an instant. -/
def isStampBlank (c : Char) : Bool :=
  c == ' ' || c == '\t'

/-- The offset at the end of an instant, which may be missing. -/
def zone? (text : List Char) : Option (Option (Option Char × List Char × List Char)) :=
  if text.isEmpty then some none
  else
    match text.dropWhile isStampBlank with
    | ['Z'] => some (some (none, [], []))
    | sign :: rest =>
        if sign != '+' && sign != '-' then none
        else
          match oneOrTwoDigits? rest with
          | some (hours, []) => some (some (some sign, hours, []))
          | some (hours, ':' :: behind) =>
              match twoDigits? behind with
              | some (minutes, []) => some (some (some sign, hours, minutes))
              | _ => none
          | _ => none
    | [] => none

/-- What separates the day of an instant from its time is left out. -/
def afterDaySeparator? : List Char → Option (List Char)
  | c :: rest =>
      if c == 'T' || c == 't' then some rest
      else if isStampBlank c then some (rest.dropWhile isStampBlank)
      else none
  | [] => none

/-- An instant, given what follows its day. -/
def instant? (day : StampText) (text : List Char) : Option StampText := do
  let clock ← afterDaySeparator? text
  let (hour, rest) ← oneOrTwoDigits? clock
  let (minute, rest) ← twoDigits? (← afterCharacter? ':' rest)
  let (second, rest) ← twoDigits? (← afterCharacter? ':' rest)
  let (fraction, rest) :=
    match rest with
    | '.' :: digits => (digits.takeWhile Char.isDigit, digits.dropWhile Char.isDigit)
    | _ => ([], rest)
  let zone ← zone? rest
  return { day with time := some (hour, minute, second, fraction), zone }

/-- The parts of a text that names a day or an instant. -/
def stampText? (text : List Char) : Option StampText := do
  let (year, rest) ← fourDigits? text
  let (month, rest) ← oneOrTwoDigits? (← afterCharacter? '-' rest)
  let (day, rest) ← oneOrTwoDigits? (← afterCharacter? '-' rest)
  let date : StampText := { year, month, day }
  if rest.isEmpty then some date else instant? date rest

/-- A text is spelled like an instant, or like a day with two digits each for month and day. -/
def isStamp (text : List Char) : Bool :=
  match stampText? text with
  | some parts => parts.time.isSome || (parts.month.length == 2 && parts.day.length == 2)
  | none => false

/-- The spellings of single indicators, which stand for nothing. -/
def indicatorWords : List String :=
  ["!", "&", "*"]

/-- What a text without a line end behind it is spelled like. -/
def lineKind (text : String) : NodeKind :=
  let characters := text.toList
  if nullWords.contains text then .null
  else if trueWords.contains text || falseWords.contains text then .bool
  else if isDouble characters then .double
  else if isUnsignedInt (withoutSign characters) then .int
  else if text == "<<" then .merge
  else if isStamp characters then .stamp
  else if text == "=" then .standard
  else if indicatorWords.contains text then .unknown
  else .text

/-- What a text is spelled like. -/
def kindOf (text : String) : NodeKind :=
  if text == "\n" then .text else lineKind (String.ofList (Text.withoutLineEnd text.toList))

end Scaffold.Document.Yaml
