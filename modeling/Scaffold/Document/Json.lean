import Scaffold.Decimal.Numeral
import Scaffold.Document.Value

/-!
# Reading JSON

A JSON text is read into a document value.  Numbers without point and exponent are integers, all
others are doubles; the names of the infinities and of no number are accepted as well.  The value
that a key is given last stands in the place where the key came first.
-/

namespace Scaffold.Document.Json

/-- Why a text has no value. -/
inductive ReadError where
  /-- The text is no JSON. -/
  | malformed
  /-- An integer has too many digits. -/
  | tooLong (digits : Nat)
  deriving DecidableEq, Repr

/-- What was read from the start of a text, and what follows it. -/
abbrev Reading (α : Type) := Except ReadError (α × List Char)

/-- Blanks that may stand between the tokens of a JSON text. -/
def isSpace (c : Char) : Bool :=
  c == ' ' || c == '\t' || c == '\n' || c == '\r'

/-- What follows the blanks at the start of a text. -/
def skipSpace (text : List Char) : List Char :=
  text.dropWhile isSpace

/-- What follows a given text at the start of another. -/
def after? : List Char → List Char → Option (List Char)
  | [], rest => some rest
  | c :: expected, d :: rest => if c == d then after? expected rest else none
  | _ :: _, [] => none

/-- The value of a hexadecimal digit. -/
def hexDigit? (c : Char) : Option Nat :=
  if c.isDigit then some (c.toNat - '0'.toNat)
  else if 'a' ≤ c && c ≤ 'f' then some (c.toNat - 'a'.toNat + 10)
  else if 'A' ≤ c && c ≤ 'F' then some (c.toNat - 'A'.toNat + 10)
  else none

/-- The code given by four hexadecimal digits, and what follows them. -/
def hexCode? : List Char → Option (Nat × List Char)
  | a :: b :: c :: d :: rest =>
      match hexDigit? a, hexDigit? b, hexDigit? c, hexDigit? d with
      | some w, some x, some y, some z => some (((w * 16 + x) * 16 + y) * 16 + z, rest)
      | _, _, _, _ => none
  | _ => none

/-- The character of an escape of one letter. -/
def shortEscape? : Char → Option Char
  | '"' => some '"'
  | '\\' => some '\\'
  | '/' => some '/'
  | 'b' => some '\x08'
  | 'f' => some '\x0c'
  | 'n' => some '\n'
  | 'r' => some '\r'
  | 't' => some '\t'
  | _ => none

/-- The code is the first half of a pair that stands for one character. -/
def isHighHalf (code : Nat) : Bool :=
  0xd800 ≤ code && code ≤ 0xdbff

/-- The code is the second half of a pair that stands for one character. -/
def isLowHalf (code : Nat) : Bool :=
  0xdc00 ≤ code && code ≤ 0xdfff

/-- The code of a numeric escape, after its `u`, and what follows it. -/
def numericEscape? (text : List Char) : Option (Nat × List Char) :=
  match hexCode? text with
  | none => none
  | some (code, rest) =>
      let alone := some (code, rest)
      if !isHighHalf code then alone
      else
        match rest with
        | '\\' :: 'u' :: second =>
            match hexCode? second with
            | some (low, behind) =>
                if isLowHalf low then
                  some (0x10000 + (code - 0xd800) * 0x400 + (low - 0xdc00), behind)
                else alone
            | none => alone
        | _ => alone

/-- The codes of a string after its opening quote, and what follows the closing one. -/
def readString : Nat → List Nat → List Char → Reading (List Nat)
  | 0, _, _ => .error .malformed
  | fuel + 1, reversed, text =>
      match text with
      | [] => .error .malformed
      | '"' :: rest => .ok (reversed.reverse, rest)
      | '\\' :: 'u' :: rest =>
          match numericEscape? rest with
          | some (code, behind) => readString fuel (code :: reversed) behind
          | none => .error .malformed
      | '\\' :: letter :: rest =>
          match shortEscape? letter with
          | some c => readString fuel (c.toNat :: reversed) rest
          | none => .error .malformed
      | c :: rest =>
          if c < ' ' || c == '\\' then .error .malformed
          else readString fuel (c.toNat :: reversed) rest

/-- The number that decimal digits spell. -/
def natOfDigits (digits : List Char) : Nat :=
  digits.foldl (fun value c => value * 10 + (c.toNat - '0'.toNat)) 0

/-- The digits after the point of a number, and what follows them. -/
def readFraction (text : List Char) : List Char × List Char :=
  match text with
  | '.' :: rest =>
      match rest.takeWhile Char.isDigit with
      | [] => ([], text)
      | digits => (digits, rest.dropWhile Char.isDigit)
  | _ => ([], text)

/-- The exponent of a number, if it has one, and what follows it. -/
def readExponent (text : List Char) : Option Int × List Char :=
  let signed := fun (negative : Bool) (rest : List Char) =>
    match rest.takeWhile Char.isDigit with
    | [] => (none, text)
    | digits =>
        let size := (natOfDigits digits : Int)
        (some (if negative then -size else size), rest.dropWhile Char.isDigit)
  match text with
  | c :: rest =>
      if c == 'e' || c == 'E' then
        match rest with
        | '-' :: unsigned => signed true unsigned
        | '+' :: unsigned => signed false unsigned
        | unsigned => signed false unsigned
      else (none, text)
  | [] => (none, text)

/-- A number after its sign, and what follows it. -/
def readNumber (negative : Bool) (text : List Char) : Reading Value :=
  let whole :=
    match text with
    | '0' :: _ => ['0']
    | _ => text.takeWhile Char.isDigit
  if whole.isEmpty then .error .malformed
  else
    let (fraction, rest) := readFraction (text.drop whole.length)
    let (exponent, rest) := readExponent rest
    if fraction.isEmpty && exponent.isNone then
      if Decimal.digitLimit < whole.length then .error (.tooLong whole.length)
      else
        let size := (natOfDigits whole : Int)
        .ok (.int (if negative then -size else size), rest)
    else
      let power := exponent.getD 0 - fraction.length
      .ok (.double (.ofDecimal negative (natOfDigits (whole ++ fraction)) power), rest)

/-- A literal word, if the text starts with one, and what follows it. -/
def readWord (text : List Char) : Option (Value × List Char) :=
  let word := fun (spelling : String) (value : Value) =>
    (after? spelling.toList text).map fun rest => (value, rest)
  word "null" .null <|> word "true" (.bool true) <|> word "false" (.bool false) <|>
    word "NaN" (.double .nan) <|> word "Infinity" (.double (.infinite false)) <|>
    word "-Infinity" (.double (.infinite true))

/-- A scalar that is no string, and what follows it. -/
def readScalar (text : List Char) : Reading Value :=
  match readWord text with
  | some answer => .ok answer
  | none =>
      match text with
      | '-' :: rest => readNumber true rest
      | _ => readNumber false text

mutual

/-- A value at the start of a text without leading blanks, and what follows it. -/
def readValue : Nat → List Char → Reading Value
  | 0, _ => .error .malformed
  | fuel + 1, text =>
      match text with
      | '"' :: rest =>
          (readString (rest.length + 1) [] rest).map fun (codes, behind) =>
            (.ofCodes codes, behind)
      | '[' :: rest =>
          match skipSpace rest with
          | ']' :: behind => .ok (.list [], behind)
          | items => (readItems fuel [] items).map fun (found, behind) => (.list found, behind)
      | '\x7b' :: rest =>
          match skipSpace rest with
          | '\x7d' :: behind => .ok (.mapping [], behind)
          | entries =>
              (readEntries fuel [] entries).map fun (found, behind) => (.mapping found, behind)
      | _ => readScalar text

/-- The items of a list up to its closing bracket; those already read are given in reverse. -/
def readItems : Nat → List Value → List Char → Reading (List Value)
  | 0, _, _ => .error .malformed
  | fuel + 1, reversed, text =>
      match readValue fuel text with
      | .error error => .error error
      | .ok (item, rest) =>
          match skipSpace rest with
          | ',' :: behind => readItems fuel (item :: reversed) (skipSpace behind)
          | ']' :: behind => .ok ((item :: reversed).reverse, behind)
          | _ => .error .malformed

/-- The entries of a mapping up to its closing brace, added to those already read. -/
def readEntries : Nat → Entries → List Char → Reading Entries
  | 0, _, _ => .error .malformed
  | fuel + 1, entries, text =>
      match text with
      | '"' :: rest =>
          match readString (rest.length + 1) [] rest with
          | .error error => .error error
          | .ok (key, behindKey) =>
              match skipSpace behindKey with
              | ':' :: behindColon =>
                  match readValue fuel (skipSpace behindColon) with
                  | .error error => .error error
                  | .ok (value, behindValue) =>
                      let entries := Entries.insert entries (.ofCodes key) value
                      match skipSpace behindValue with
                      | ',' :: behind => readEntries fuel entries (skipSpace behind)
                      | '\x7d' :: behind => .ok (entries, behind)
                      | _ => .error .malformed
              | _ => .error .malformed
      | _ => .error .malformed

end

/-- The value of a JSON text.  A byte-order mark is not part of one. -/
def read (text : String) : Except ReadError Value :=
  let characters := skipSpace text.toList
  match readValue (2 * characters.length + 2) characters with
  | .error error => .error error
  | .ok (value, rest) => if (skipSpace rest).isEmpty then .ok value else .error .malformed

end Scaffold.Document.Json
