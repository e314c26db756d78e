import Scaffold.Document.Json
import Scaffold.Document.Yaml.Cursor
import Scaffold.Document.Yaml.Error

/-!
# Texts of YAML scalars

A scalar is written plainly, in single or double quotes, or as a block of lines that keeps or folds
its line ends.  Each reader starts at the first character of a scalar and answers with its text and
the place behind it.  Only escapes in double quotes can give codes that are no characters.
-/

namespace Scaffold.Document.Yaml

/-- Line ends as the text that they stand for when lines are folded. -/
def folded (first : Char) (others : List Char) : List Char :=
  if first != '\n' then first :: others
  else if others.isEmpty then [' ']
  else others

/-! ## Plain scalars -/

/-- The indicators that end a plain scalar inside brackets or braces. -/
def endsInFlow (c : Char) : Bool :=
  c == ',' || c == '?' || c == '[' || c == ']' || c == '\x7b' || c == '\x7d'

/-- A plain scalar ends before the characters of a text. -/
def endsPlain (inFlow : Bool) : List Char → Bool
  | [] => true
  | c :: rest =>
      isGap (some c) ||
        (c == ':' &&
          (isGap rest.head? ||
            (inFlow && ((rest.head?.map fun d =>
              d == ',' || d == '[' || d == ']' || d == '\x7b' || d == '\x7d').getD false)))) ||
        (inFlow && endsInFlow c)

/-- The characters of a plain scalar up to the next blank. -/
def plainPiece (inFlow : Bool) : List Char → List Char
  | [] => []
  | c :: rest => if endsPlain inFlow (c :: rest) then [] else c :: plainPiece inFlow rest

/--
Further line ends between the lines of a plain scalar, and the place behind them.  There are none
where a document ends.
-/
def plainBreaks : Nat → List Char → Cursor → Option (List Char) × Cursor
  | 0, found, cursor => (some found.reverse, cursor)
  | fuel + 1, found, cursor =>
      if cursor.peek? == some ' ' then plainBreaks fuel found cursor.advance
      else
        match cursor.lineEnd? with
        | none => (some found.reverse, cursor)
        | some (c, behind) =>
            if behind.atSeparator then (none, behind) else plainBreaks fuel (c :: found) behind

/-- What stands between two pieces of a plain scalar. -/
structure PlainGap where
  /-- The text that the gap stands for, empty if the scalar ends before it. -/
  text : List Char
  cursor : Cursor
  /-- The gap has a line end. -/
  breaksLine : Bool

/-- The gap after a piece of a plain scalar. -/
def plainGap (cursor : Cursor) : PlainGap :=
  let (blanks, behind) := cursor.span (· == ' ')
  match behind.lineEnd? with
  | none => ⟨blanks, behind, false⟩
  | some (first, nextLine) =>
      if nextLine.atSeparator then ⟨[], nextLine, true⟩
      else
        let (others, text) := plainBreaks nextLine.rest.length [] nextLine
        ⟨((others.map (folded first)).getD []), text, true⟩

/-- A plain scalar under way: its text so far, and whether its last gap broke the line. -/
structure PlainText where
  text : List Char := []
  cursor : Cursor
  breaksLine : Bool := false

/--
A plain scalar whose further lines are indented by at least `indent`.  The text of a gap counts only
if another piece follows it.
-/
def readPlain (inFlow : Bool) (indent : Int) : Nat → List Char → PlainText → PlainText
  | 0, _, state => state
  | fuel + 1, gap, state =>
      let piece :=
        if state.cursor.peek? == some '#' then [] else plainPiece inFlow state.cursor.rest
      if piece.isEmpty then state
      else
        let text := state.text ++ gap ++ piece
        let next := plainGap (state.cursor.forward piece.length)
        let read : PlainText := ⟨text, next.cursor, next.breaksLine⟩
        if next.text.isEmpty || (!inFlow && next.cursor.column < indent) then read
        else readPlain inFlow indent fuel next.text read

/-! ## Quoted scalars -/

/-- The character of an escape of one letter in double quotes. -/
def letterEscape? : Char → Option Char
  | '0' => some '\x00'
  | 'a' => some '\x07'
  | 'b' => some '\x08'
  | 't' => some '\t'
  | '\t' => some '\t'
  | 'n' => some '\n'
  | 'v' => some '\x0b'
  | 'f' => some '\x0c'
  | 'r' => some '\r'
  | 'e' => some '\x1b'
  | ' ' => some ' '
  | '"' => some '"'
  | '\\' => some '\\'
  | '/' => some '/'
  | 'N' => some '\x85'
  | '_' => some '\xa0'
  | 'L' => some '\u2028'
  | 'P' => some '\u2029'
  | _ => none

/-- The number of hexadecimal digits after the letter of a numeric escape. -/
def codeLength? : Char → Option Nat
  | 'x' => some 2
  | 'u' => some 4
  | 'U' => some 8
  | _ => none

/-- The number that hexadecimal digits spell. -/
def hexNumber? (digits : List Char) : Option Nat :=
  digits.foldl (fun number c =>
    match number, Json.hexDigit? c with
    | some n, some d => some (n * 16 + d)
    | _, _ => none) (some 0)

/-- The least number that is too large for a code. -/
def codeLimit : Nat :=
  0x80000000

/-- Codes that were read, and the place behind them. -/
abbrev CodesReading := Except ReadError (List Nat × Cursor)

/-- The code of a numeric escape, at its first digit. -/
def readCode (length : Nat) (cursor : Cursor) : CodesReading :=
  let digits := cursor.rest.take length
  match hexNumber? digits with
  | none => .error .invalid
  | some code =>
      if digits.length < length then .error .invalid
      else if codeLimit ≤ code then .error (.defect .codeTooLarge)
      else if 0x110000 ≤ code then .error (.scalar .codeOutOfRange)
      else .ok ([code], cursor.forward length)

/-- Line ends inside quotes, with the blanks around them. -/
def quotedBreaks : Nat → List Char → Cursor → Option (List Char × Cursor)
  | 0, _, _ => none
  | fuel + 1, found, cursor =>
      if cursor.atSeparator then none
      else
        let behind := cursor.skip fun c => c == ' ' || c == '\t'
        match behind.lineEnd? with
        | some (c, nextLine) => quotedBreaks fuel (c :: found) nextLine
        | none => some (found.reverse, behind)

/-- Characters that were read, as codes. -/
def asCodes : Option (List Char × Cursor) → CodesReading
  | some (characters, behind) => .ok (characters.map Char.toNat, behind)
  | none => .error .invalid

/-- An escape in double quotes, after its backslash; an escaped line end joins two lines. -/
def readEscape (cursor : Cursor) : CodesReading :=
  match cursor.peek? with
  | none => .error .invalid
  | some c =>
      match letterEscape? c, codeLength? c, cursor.lineEnd? with
      | some meant, _, _ => .ok ([meant.toNat], cursor.advance)
      | none, some length, _ => readCode length cursor.advance
      | none, none, some (_, nextLine) =>
          asCodes (quotedBreaks (nextLine.rest.length + 1) [] nextLine)
      | none, none, none => .error .invalid

/-- Blanks inside quotes; with a line end they stand for what folding leaves of it. -/
def quotedGap (cursor : Cursor) : Option (List Char × Cursor) :=
  let (blanks, behind) := cursor.span fun c => c == ' ' || c == '\t'
  match behind.lineEnd? with
  | none => some (blanks, behind)
  | some (first, nextLine) =>
      (quotedBreaks (nextLine.rest.length + 1) [] nextLine).map fun (others, text) =>
        (folded first others, text)

/-- The next piece of a quoted scalar; the closing quote gives none. -/
def readPiece (double : Bool) (cursor : Cursor) : Except ReadError (Option (List Nat × Cursor)) :=
  match cursor.rest with
  | [] => .error .invalid
  | c :: rest =>
      if !double && c == '\x27' && rest.head? == some '\x27' then
        .ok (some ([c.toNat], cursor.forward 2))
      else if c == (if double then '"' else '\x27') then .ok none
      else if double && c == '\\' then (readEscape cursor.advance).map some
      else if isGap (some c) then (asCodes (quotedGap cursor)).map some
      else .ok (some ([c.toNat], cursor.advance))

/-- A quoted scalar after its opening quote; the pieces already read are given in reverse. -/
def readQuoted (double : Bool) : Nat → List (List Nat) → Cursor → CodesReading
  | 0, _, _ => .error .invalid
  | fuel + 1, reversed, cursor =>
      match readPiece double cursor with
      | .error error => .error error
      | .ok none => .ok (reversed.reverse.flatten, cursor.advance)
      | .ok (some (piece, behind)) => readQuoted double fuel (piece :: reversed) behind

/-! ## Block scalars -/

/-- What becomes of the line ends at the end of a block. -/
inductive Chomping where
  /-- One line end stays. -/
  | clip
  | strip
  | keep
  deriving DecidableEq, Repr

/-- The chomping that a sign stands for. -/
def Chomping.ofSign? : Option Char → Option Chomping
  | some '+' => some .keep
  | some '-' => some .strip
  | _ => none

/-- The indentation that a digit asks for. -/
def indentDigit? : Option Char → Option Nat
  | some c => if '1' ≤ c && c ≤ '9' then some (c.toNat - '0'.toNat) else none
  | none => none

/-- The indicators after the sign of a block, in any order, and the place behind them. -/
def blockIndicators (cursor : Cursor) : Chomping × Option Nat × Cursor :=
  match Chomping.ofSign? cursor.peek?, indentDigit? cursor.peek? with
  | some chomping, _ =>
      match indentDigit? cursor.advance.peek? with
      | some digit => (chomping, some digit, cursor.forward 2)
      | none => (chomping, none, cursor.advance)
  | none, some digit =>
      match Chomping.ofSign? cursor.advance.peek? with
      | some chomping => (chomping, some digit, cursor.forward 2)
      | none => (.clip, some digit, cursor.advance)
  | none, none => (.clip, none, cursor)

/-- The place behind the rest of a line that may hold a comment. -/
def afterComment (cursor : Cursor) : Cursor :=
  let behind := cursor.skip (· == ' ')
  if behind.peek? == some '#' then behind.skip (!isBreak ·) else behind

/-- Leading lines of a block without text, and the greatest column that blanks reach. -/
def blockStart : Nat → List Char → Nat → Cursor → List Char × Nat × Cursor
  | 0, found, greatest, cursor => (found.reverse, greatest, cursor)
  | fuel + 1, found, greatest, cursor =>
      if cursor.peek? == some ' ' then
        blockStart fuel found (max greatest cursor.advance.column) cursor.advance
      else
        match cursor.lineEnd? with
        | some (c, nextLine) => blockStart fuel (c :: found) greatest nextLine
        | none => (found.reverse, greatest, cursor)

/-- Skip blanks in front of a column. -/
def skipTo (column : Nat) : Nat → Cursor → Cursor
  | 0, cursor => cursor
  | fuel + 1, cursor =>
      if cursor.column < column && cursor.peek? == some ' ' then skipTo column fuel cursor.advance
      else cursor

/-- Lines of a block without text. -/
def blockBreaks (indent : Nat) : Nat → List Char → Cursor → List Char × Cursor
  | 0, found, cursor => (found.reverse, cursor)
  | fuel + 1, found, cursor =>
      let behind := skipTo indent indent cursor
      match behind.lineEnd? with
      | some (c, nextLine) => blockBreaks indent fuel (c :: found) nextLine
      | none => (found.reverse, behind)

/-- The lines of a block, given the line ends before them. -/
def blockLines (isFolded : Bool) (chomping : Chomping) (indent : Nat) :
    Nat → List (List Char) → List Char → Cursor → List Char × Cursor
  | 0, reversed, _, cursor => (reversed.reverse.flatten, cursor)
  | fuel + 1, reversed, breaks, cursor =>
      let isText := fun (c : Option Char) => c != some ' ' && c != some '\t'
      let (line, behind) := cursor.span (!isBreak ·)
      let (ending, nextLine) :=
        match behind.lineEnd? with
        | some (c, nextLine) => ([c], nextLine)
        | none => ([], behind)
      let (others, next) := blockBreaks indent (nextLine.rest.length + 1) [] nextLine
      let read := line :: breaks :: reversed
      if next.column = indent && next.peek?.isSome then
        let joined :=
          if isFolded && ending == ['\n'] && isText cursor.peek? && isText next.peek? then
            if others.isEmpty then [' '] else []
          else ending
        blockLines isFolded chomping indent fuel (joined :: read) others next
      else
        let tail :=
          match chomping with
          | .strip => []
          | .clip => ending
          | .keep => ending ++ others
        ((tail :: read).reverse.flatten, next)

/-- A block scalar after its sign, in a block that is indented by `outer`. -/
def readBlock (isFolded : Bool) (outer : Int) (cursor : Cursor) : Option (List Char × Cursor) :=
  let (chomping, digit, behind) := blockIndicators cursor
  if !isGap behind.peek? || behind.peek? == some '\t' then none
  else
    let lineStart := afterComment behind
    if !isLineEnd lineStart.peek? then none
    else
      let start := (lineStart.lineEnd?.map (·.2)).getD lineStart
      let least := (max 1 (outer + 1)).toNat
      let fuel := start.rest.length + 1
      let (breaks, indent, text) :=
        match digit with
        | some digit =>
            let indent := least + digit - 1
            let (breaks, text) := blockBreaks indent fuel [] start
            (breaks, indent, text)
        | none =>
            let (breaks, greatest, text) := blockStart fuel [] 0 start
            (breaks, max least greatest, text)
      if text.column = indent && text.peek?.isSome then
        some (blockLines isFolded chomping indent fuel [] breaks text)
      else some (if chomping = .keep then breaks else [], text)

end Scaffold.Document.Yaml
