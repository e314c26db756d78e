import Scaffold.Decimal.Written
import Scaffold.Document.Describe
import Scaffold.Document.Json

/-!
# Writing JSON

A document value is written as a JSON text, with one item or entry a line and two spaces more for
each level.  A text may be restricted to plain characters; all others are then written by their
codes.  Pairs and sets are written as lists, and a value that stands inside itself is left out there.
-/

namespace Scaffold.Document.Json

/-- The characters that a text may be written with. -/
inductive Alphabet where
  /-- The printable characters of ASCII. -/
  | ascii
  /-- All characters but controls. -/
  | unicode
  deriving DecidableEq, Repr

/-- A character stands for itself in a string. -/
def Alphabet.isPlain (alphabet : Alphabet) (c : Char) : Bool :=
  match alphabet with
  | .ascii => ' ' ≤ c && c ≤ '~'
  | .unicode => ' ' ≤ c

/-- The hexadecimal digit of a number below sixteen. -/
def hexDigit (value : Nat) : Char :=
  if value < 10 then Char.ofNat ('0'.toNat + value) else Char.ofNat ('a'.toNat + (value - 10))

/-- The numeric escape of a code of four hexadecimal digits. -/
def codeEscape (code : Nat) : List Char :=
  ['\\', 'u', hexDigit (code / 4096 % 16), hexDigit (code / 256 % 16), hexDigit (code / 16 % 16),
    hexDigit (code % 16)]

/-- The numeric escape of a character, which is a pair of codes beyond the first plane. -/
def numericEscape (c : Char) : List Char :=
  let code := c.toNat
  if code < 0x10000 then codeEscape code
  else
    codeEscape (0xd800 + (code - 0x10000) / 0x400) ++
      codeEscape (0xdc00 + (code - 0x10000) % 0x400)

/-- A character as it is written in a string. -/
def escaped (alphabet : Alphabet) : Char → List Char
  | '"' => ['\\', '"']
  | '\\' => ['\\', '\\']
  | '\n' => ['\\', 'n']
  | '\r' => ['\\', 'r']
  | '\t' => ['\\', 't']
  | '\x08' => ['\\', 'b']
  | '\x0c' => ['\\', 'f']
  | c => if alphabet.isPlain c then [c] else numericEscape c

/-- A code as it is written in a string; half of a pair is always escaped. -/
def escapedCode (alphabet : Alphabet) (code : Nat) : List Char :=
  if Text.isHalf code then codeEscape code else escaped alphabet (Char.ofNat code)

/-- Codes as a JSON string. -/
def stringOfCodes (alphabet : Alphabet) (codes : List Nat) : List Char :=
  '"' :: codes.flatMap (escapedCode alphabet) ++ ['"']

/-- A text as a JSON string. -/
def string (alphabet : Alphabet) (text : String) : List Char :=
  '"' :: text.toList.flatMap (escaped alphabet) ++ ['"']

/-- The key of an entry as a JSON string. -/
def keyString (alphabet : Alphabet) : Value → List Char
  | .illFormed codes => stringOfCodes alphabet codes
  | key => string alphabet key.keyText

/-- A double as JSON shows it. -/
def number : Decimal.Double → String
  | .nan => "NaN"
  | .infinite negative => if negative then "-Infinity" else "Infinity"
  | value => Decimal.writtenDouble value

/-- The start of a line of a level. -/
def newLine (level : Nat) : List Char :=
  '\n' :: List.replicate (2 * level) ' '

mutual

/-- A value whose lines belong to a level. -/
def laidOut (alphabet : Alphabet) (level : Nat) : Value → List Char
  | .null => "null".toList
  | .bool value => (if value then "true" else "false").toList
  | .int value => (Decimal.writtenInt value).toList
  | .double value => (number value).toList
  | .text value => string alphabet value
  | .illFormed codes => stringOfCodes alphabet codes
  | .bytes values => stringOfCodes alphabet (values.map (·.toNat))
  | .stamp value => string alphabet value.iso
  | .again _ => "null".toList
  | .list [] | .set [] => ['[', ']']
  | .pair first second =>
      '[' :: newLine (level + 1) ++ laidOut alphabet (level + 1) first ++ ',' ::
        newLine (level + 1) ++ laidOut alphabet (level + 1) second ++ newLine level ++ [']']
  | .list (item :: items) | .set (item :: items) =>
      '[' :: newLine (level + 1) ++ laidOut alphabet (level + 1) item ++
        laidOutItems alphabet (level + 1) items ++ newLine level ++ [']']
  | .mapping [] => ['\x7b', '\x7d']
  | .mapping ((key, value) :: entries) =>
      '\x7b' :: newLine (level + 1) ++ keyString alphabet key ++ [':', ' '] ++
        laidOut alphabet (level + 1) value ++ laidOutEntries alphabet (level + 1) entries ++
        newLine level ++ ['\x7d']

/-- The items of a list after its first one. -/
def laidOutItems (alphabet : Alphabet) (level : Nat) : List Value → List Char
  | [] => []
  | item :: items =>
      ',' :: newLine level ++ laidOut alphabet level item ++ laidOutItems alphabet level items

/-- The entries of a mapping after its first one. -/
def laidOutEntries (alphabet : Alphabet) (level : Nat) : List (Value × Value) → List Char
  | [] => []
  | (key, value) :: entries =>
      ',' :: newLine level ++ keyString alphabet key ++ [':', ' '] ++
        laidOut alphabet level value ++ laidOutEntries alphabet level entries

end

/-- The JSON text of a value, with a line end. -/
def written (alphabet : Alphabet) (value : Value) : String :=
  String.ofList (laidOut alphabet 0 value ++ ['\n'])

end Scaffold.Document.Json
