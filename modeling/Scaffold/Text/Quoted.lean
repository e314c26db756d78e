import Scaffold.Text.Printable

/-!
# Quoted texts in messages

A message quotes a text between apostrophes, or between double quotes when the text holds an
apostrophe and no double quote.  The backslash, the quote and the characters that are not printable
are escaped.  Bytes are quoted in the same way after a mark, and of them only ASCII is printable.

An escape may stand for half of a pair of codes.  A text in which such a half stands alone is
ill-formed: it has codes, but no characters.
-/

namespace Scaffold.Text

/-! ## Codes of texts -/

/-- The code is half of a pair and stands for no character of its own. -/
def isHalf (code : Nat) : Bool :=
  0xd800 ≤ code && code ≤ 0xdfff

/-- The text of codes, unless one of them is a half. -/
def ofCodes? (codes : List Nat) : Option String :=
  if codes.any isHalf then none else some (String.ofList (codes.map Char.ofNat))

/-- The character of a code, and the replacement character for a half. -/
def shownCode (code : Nat) : Char :=
  if isHalf code then '\ufffd' else Char.ofNat code

/-- The text of codes with the replacement character for every half. -/
def shownCodes (codes : List Nat) : String :=
  String.ofList (codes.map shownCode)

theorem ofCodes?_eq_none_iff {codes : List Nat} :
    ofCodes? codes = none ↔ ∃ code ∈ codes, isHalf code = true := by
  simp [ofCodes?]

/-! ## Quotes and escapes -/

/-- Hexadecimal digits of a code point with zeros in front up to a width. -/
def hexPadded (width code : Nat) : List Char :=
  let digits := Nat.toDigits 16 code
  List.replicate (width - digits.length) '0' ++ digits

/-- The escape of a code that is not printable: two, four or eight hexadecimal digits. -/
def codeEscape (code : Nat) : List Char :=
  if code < 0x100 then '\\' :: 'x' :: hexPadded 2 code
  else if code < 0x10000 then '\\' :: 'u' :: hexPadded 4 code
  else '\\' :: 'U' :: hexPadded 8 code

/-- One character of a quoted text. -/
def quotedCharacter (quote c : Char) : List Char :=
  if c == quote || c == '\\' then ['\\', c]
  else if c == '\n' then ['\\', 'n']
  else if c == '\r' then ['\\', 'r']
  else if c == '\t' then ['\\', 't']
  else if isPrintable c then [c]
  else codeEscape c.toNat

/-- The quote that a text is put between. -/
def quoteOf (text : List Char) : Char :=
  if text.contains '\'' && !text.contains '"' then '"' else '\''

/-- A text between quotes. -/
def quoted (text : String) : String :=
  let characters := text.toList
  let quote := quoteOf characters
  String.ofList (quote :: (characters.flatMap (quotedCharacter quote) ++ [quote]))

/-- Codes between quotes, with those escaped that are halves of pairs. -/
def quotedCodes (codes : List Nat) : String :=
  let quote := quoteOf (codes.map shownCode)
  let shown := fun (code : Nat) =>
    if isHalf code then codeEscape code else quotedCharacter quote (Char.ofNat code)
  String.ofList (quote :: (codes.flatMap shown ++ [quote]))

/-- Bytes between quotes, after their mark. -/
def quotedBytes (bytes : List UInt8) : String :=
  let characters := bytes.map fun byte => Char.ofNat byte.toNat
  let quote := quoteOf characters
  let shown := fun (c : Char) =>
    if c.toNat < 0x80 then quotedCharacter quote c else codeEscape c.toNat
  String.ofList ('b' :: quote :: (characters.flatMap shown ++ [quote]))

/-- A list of texts in brackets, each quoted. -/
def quotedList (texts : List String) : String :=
  "[" ++ ", ".intercalate (texts.map quoted) ++ "]"

end Scaffold.Text
