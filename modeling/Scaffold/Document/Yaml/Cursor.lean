/-!
# Cursors in YAML texts

A cursor stands before a character of a text and knows its column, its line and how many characters
lie behind it.  Besides the line feed, four more characters and one pair end a line.
-/

namespace Scaffold.Document.Yaml

/-- The character ends a line. -/
def isBreak (c : Char) : Bool :=
  c == '\n' || c == '\r' || c == '\x85' || c == '\u2028' || c == '\u2029'

/-- A text may contain the character. -/
def isAllowed (c : Char) : Bool :=
  c == '\t' || c == '\n' || c == '\r' || c == '\x85' || (' ' ≤ c && c ≤ '~') ||
    ('\xa0' ≤ c && c ≤ '\ufffd') || 0x10000 ≤ c.toNat

/-- Nothing stands here but a blank, a line end or the end of the text. -/
def isGap : Option Char → Bool
  | none => true
  | some c => c == ' ' || c == '\t' || isBreak c

/-- The line or the text ends here. -/
def isLineEnd : Option Char → Bool
  | none => true
  | some c => isBreak c

/-- Nothing stands here but a space, a line end or the end of the text. -/
def isWordEnd : Option Char → Bool
  | none => true
  | some c => c == ' ' || isBreak c

/-- The characters of a name. -/
def isNameCharacter (c : Char) : Bool :=
  c.isAlphanum || c == '-' || c == '_'

/-- The mark that a text may start with to show its byte order. -/
def byteOrderMark : Char :=
  '\ufeff'

/-- A place in a text. -/
structure Cursor where
  rest : List Char
  line : Nat := 0
  column : Nat := 0
  index : Nat := 0
  deriving DecidableEq, Repr

namespace Cursor

/-- The character after a cursor. -/
def peek? (cursor : Cursor) : Option Char :=
  cursor.rest.head?

/-- The character some places after a cursor. -/
def peekAt? (cursor : Cursor) (distance : Nat) : Option Char :=
  cursor.rest[distance]?

/-- The text continues with given characters. -/
def startsWith (cursor : Cursor) (text : String) : Bool :=
  text.toList.isPrefixOf cursor.rest

/-- Go on by one character. -/
def advance (cursor : Cursor) : Cursor :=
  match cursor.rest with
  | [] => cursor
  | c :: rest =>
      if isBreak c && !(c == '\r' && rest.head? == some '\n') then
        ⟨rest, cursor.line + 1, 0, cursor.index + 1⟩
      else if c == byteOrderMark then ⟨rest, cursor.line, cursor.column, cursor.index + 1⟩
      else ⟨rest, cursor.line, cursor.column + 1, cursor.index + 1⟩

/-- Go on by a number of characters. -/
def forward : Nat → Cursor → Cursor
  | 0, cursor => cursor
  | count + 1, cursor => forward count cursor.advance

/-- The characters up to the first one that has not a property, and the place behind them. -/
def span (property : Char → Bool) (cursor : Cursor) : List Char × Cursor :=
  let found := cursor.rest.takeWhile property
  (found, cursor.forward found.length)

/-- Go on behind all characters that have a property. -/
def skip (property : Char → Bool) (cursor : Cursor) : Cursor :=
  (cursor.span property).2

/-- A line end, and the place behind it; those with a name of their own are kept. -/
def lineEnd? (cursor : Cursor) : Option (Char × Cursor) :=
  match cursor.rest with
  | '\r' :: '\n' :: _ => some ('\n', cursor.forward 2)
  | c :: _ =>
      if c == '\u2028' || c == '\u2029' then some (c, cursor.advance)
      else if isBreak c then some ('\n', cursor.advance)
      else none
  | [] => none

/-- A line of three dashes or dots, which separates documents, starts here. -/
def atSeparator (cursor : Cursor) : Bool :=
  (cursor.startsWith "---" || cursor.startsWith "...") && isGap (cursor.peekAt? 3)

end Cursor

/-- A text can be read from a cursor, unless it has a character that is not allowed. -/
def Cursor.ofText? (text : String) : Option Cursor :=
  let cursor : Cursor := { rest := text.toList }
  if !cursor.rest.all isAllowed then none
  else if cursor.peek? == some byteOrderMark then some cursor.advance
  else some cursor

end Scaffold.Document.Yaml
