import Scaffold.Document.Yaml.Directive
import Scaffold.Document.Yaml.ScalarText

/-!
# Tokens of YAML texts

A YAML text is cut into tokens.  Indentation becomes tokens of its own, which start and end blocks.
A key that has no sign of its own is recognised by the colon behind it; its token is then put in
front of what was read since, and the key has to stand on one line.  The reading ends with an escape
whose code is too large.
-/

namespace Scaffold.Document.Yaml

/-- A token of a YAML text. -/
inductive Token where
  | directive (directive : Directive)
  | documentStart
  | documentEnd
  | blockListStart
  | blockMappingStart
  | blockEnd
  | flowListStart
  | flowListEnd
  | flowMappingStart
  | flowMappingEnd
  | item
  | comma
  | key
  | value
  | reference (name : String)
  | anchor (name : String)
  | tag (name : TagName)
  | scalar (codes : List Nat) (plain : Bool)
  /-- A scalar that has no text. -/
  | flawed (error : ReadError)
  deriving DecidableEq, Repr

/-- A place where a key may have started. -/
structure KeyPlace where
  /-- The number of tokens in front of the place. -/
  number : Nat
  /-- Nothing but a key may stand here. -/
  required : Bool
  line : Nat
  column : Nat
  index : Nat

/-- The reading of tokens under way. -/
structure Lexer where
  cursor : Cursor
  /-- The tokens so far, the last one first. -/
  tokens : List Token := []
  /-- The number of brackets and braces that are open. -/
  depth : Nat := 0
  /-- The column of the innermost block. -/
  indent : Int := -1
  /-- The columns of the blocks around it. -/
  outer : List Int := []
  /-- A key may start here. -/
  keyAllowed : Bool := true
  /-- The places where keys may have started, under the depths of brackets. -/
  places : List (Nat × KeyPlace) := []

/-- The greatest number of characters of a key without a sign. -/
def keyLimit : Nat :=
  1024

namespace Lexer

/-- Add a token. -/
def push (lexer : Lexer) (token : Token) : Lexer :=
  { lexer with tokens := token :: lexer.tokens }

/-- Put a token behind the first `number` ones. -/
def insert (lexer : Lexer) (number : Nat) (token : Token) : Lexer :=
  let (later, earlier) := lexer.tokens.splitAt (lexer.tokens.length - number)
  { lexer with tokens := later ++ token :: earlier }

/-- Go on by a number of characters. -/
def forward (lexer : Lexer) (count : Nat) : Lexer :=
  { lexer with cursor := lexer.cursor.forward count }

/-- The place where a key may have started inside the innermost brackets. -/
def place? (lexer : Lexer) : Option KeyPlace :=
  (lexer.places.find? (·.1 == lexer.depth)).map (·.2)

/-- Forget the place where a key may have started inside the innermost brackets. -/
def forgetPlace (lexer : Lexer) : Lexer :=
  { lexer with places := lexer.places.filter (·.1 != lexer.depth) }

/-- There is no key at the place inside the innermost brackets; it must not have been required. -/
def dropPlace? (lexer : Lexer) : Option Lexer :=
  match lexer.place? with
  | some place => if place.required then none else some lexer.forgetPlace
  | none => some lexer

/-- Note that a key may start here. -/
def savePlace? (lexer : Lexer) : Option Lexer :=
  if !lexer.keyAllowed then some lexer
  else
    let cursor := lexer.cursor
    let required := lexer.depth = 0 && lexer.indent = cursor.column
    let place : KeyPlace :=
      ⟨lexer.tokens.length, required, cursor.line, cursor.column, cursor.index⟩
    lexer.dropPlace?.map fun dropped =>
      { dropped with places := (lexer.depth, place) :: dropped.places }

/-- A key that started at a place would be too long by now. -/
def isStale (cursor : Cursor) (place : KeyPlace) : Bool :=
  place.line != cursor.line || keyLimit < cursor.index - place.index

/-- Forget the places whose keys would be too long by now; none of them may be required. -/
def dropStale? (lexer : Lexer) : Option Lexer :=
  let stale := fun (entry : Nat × KeyPlace) => isStale lexer.cursor entry.2
  if lexer.places.any fun entry => stale entry && entry.2.required then none
  else some { lexer with places := lexer.places.filter (!stale ·) }

/-- End the blocks that are indented by more than a column. -/
def closeTo (column : Int) : List Int → Lexer → Lexer
  | [], lexer => lexer
  | around :: outer, lexer =>
      if column < lexer.indent then
        closeTo column outer { lexer.push .blockEnd with indent := around, outer }
      else lexer

/-- End the blocks that are indented by more than a column, unless brackets are open. -/
def unwind (lexer : Lexer) (column : Int) : Lexer :=
  if lexer.depth = 0 then closeTo column lexer.outer lexer else lexer

/-- Start a block at a column behind the first `number` tokens, if it is indented by more. -/
def openBlock (lexer : Lexer) (column number : Nat) (token : Token) : Lexer :=
  if lexer.indent < column then
    { lexer.insert number token with indent := column, outer := lexer.indent :: lexer.outer }
  else lexer

/-- Start a block here. -/
def openHere (lexer : Lexer) (token : Token) : Lexer :=
  lexer.openBlock lexer.cursor.column lexer.tokens.length token

/-- Go on to the next token, behind blanks, comments and line ends. -/
def skipToToken : Nat → Lexer → Lexer
  | 0, lexer => lexer
  | fuel + 1, lexer =>
      let behind := afterComment lexer.cursor
      match behind.lineEnd? with
      | some (_, nextLine) =>
          skipToToken fuel
            { lexer with cursor := nextLine, keyAllowed := lexer.keyAllowed || lexer.depth = 0 }
      | none => { lexer with cursor := behind }

/-- A directive from the start of a line. -/
def directive? (lexer : Lexer) : Option Lexer :=
  (Directive.read? lexer.cursor).bind fun (directive, behind) =>
    (lexer.unwind (-1)).dropPlace?.map fun dropped =>
      { dropped.push (.directive directive) with cursor := behind, keyAllowed := false }

/-- A line that starts or ends a document. -/
def separator? (lexer : Lexer) (token : Token) : Option Lexer :=
  (lexer.unwind (-1)).dropPlace?.map fun dropped =>
    { (dropped.push token).forward 3 with keyAllowed := false }

/-- An opening bracket or brace. -/
def flowStart? (lexer : Lexer) (token : Token) : Option Lexer :=
  lexer.savePlace?.map fun saved =>
    { (saved.push token).forward 1 with depth := saved.depth + 1, keyAllowed := true }

/-- A closing bracket or brace. -/
def flowEnd? (lexer : Lexer) (token : Token) : Option Lexer :=
  if lexer.depth = 0 then none
  else
    lexer.dropPlace?.map fun dropped =>
      { (dropped.push token).forward 1 with depth := dropped.depth - 1, keyAllowed := false }

/-- A comma between brackets or braces. -/
def comma? (lexer : Lexer) : Option Lexer :=
  lexer.dropPlace?.map fun dropped => { (dropped.push .comma).forward 1 with keyAllowed := true }

/-- The dash of an item. -/
def item? (lexer : Lexer) : Option Lexer :=
  let opened? :=
    if lexer.depth ≠ 0 then some lexer
    else if lexer.keyAllowed then some (lexer.openHere .blockListStart)
    else none
  opened?.bind fun opened =>
    opened.dropPlace?.map fun dropped => { (dropped.push .item).forward 1 with keyAllowed := true }

/-- The question mark of a key. -/
def key? (lexer : Lexer) : Option Lexer :=
  let opened? :=
    if lexer.depth ≠ 0 then some lexer
    else if lexer.keyAllowed then some (lexer.openHere .blockMappingStart)
    else none
  opened?.bind fun opened =>
    opened.dropPlace?.map fun dropped =>
      { (dropped.push .key).forward 1 with keyAllowed := dropped.depth = 0 }

/-- The colon of a value, which may show that a key stands in front of it. -/
def value? (lexer : Lexer) : Option Lexer :=
  let found? :=
    match lexer.place? with
    | some place =>
        let named := lexer.forgetPlace.insert place.number .key
        let opened :=
          if lexer.depth = 0 then named.openBlock place.column place.number .blockMappingStart
          else named
        some { opened with keyAllowed := false }
    | none =>
        if lexer.depth ≠ 0 then some { lexer with keyAllowed := false }
        else if lexer.keyAllowed then
          some { lexer.openHere .blockMappingStart with keyAllowed := true }
        else none
  found?.map fun found => (found.push .value).forward 1

/-- What may follow a name. -/
def endsName (c : Option Char) : Bool :=
  isGap c || ((c.map fun d => "?:,]\x7d%@\x60".toList.contains d).getD false)

/-- The name of an anchor or a reference, after its sign. -/
def name? (lexer : Lexer) (token : String → Token) : Option Lexer :=
  let (name, behind) := lexer.cursor.advance.span isNameCharacter
  if name.isEmpty || !endsName behind.peek? then none
  else
    lexer.savePlace?.map fun saved =>
      { saved.push (token (String.ofList name)) with cursor := behind, keyAllowed := false }

/-- A tag. -/
def tag? (lexer : Lexer) : Option Lexer :=
  (TagName.read? lexer.cursor).bind fun (name, behind) =>
    lexer.savePlace?.map fun saved =>
      { saved.push (.tag name) with cursor := behind, keyAllowed := false }

/-- Add the token of a scalar of characters. -/
def pushScalar (lexer : Lexer) (characters : List Char) (plain : Bool) : Lexer :=
  lexer.push (.scalar (characters.map Char.toNat) plain)

/-- A block scalar, after its sign. -/
def block? (lexer : Lexer) (isFolded : Bool) : Option Lexer :=
  lexer.dropPlace?.bind fun dropped =>
    (readBlock isFolded dropped.indent dropped.cursor.advance).map fun (text, behind) =>
      { dropped.pushScalar text false with cursor := behind, keyAllowed := true }

/--
End the reading with a scalar that has no text.  What follows a place where a key may have started is
read as one with it, so that the error counts from there on.
-/
def pushFlawed (lexer : Lexer) (error : ReadError) : Lexer :=
  let number := lexer.places.foldl (fun least place => min least place.2.number) lexer.tokens.length
  let earlier := lexer.tokens.drop (lexer.tokens.length - number)
  { lexer with tokens := .flawed error :: earlier }

/-- A quoted scalar. -/
def quoted? (lexer : Lexer) (double : Bool) : Option Lexer :=
  lexer.savePlace?.bind fun saved =>
    let start := saved.cursor.advance
    match readQuoted double (start.rest.length + 1) [] start with
    | .ok (codes, behind) =>
        some { saved.push (.scalar codes false) with cursor := behind, keyAllowed := false }
    | .error .invalid => none
    | .error error => some (saved.pushFlawed error)

/-- A plain scalar. -/
def plain? (lexer : Lexer) : Option Lexer :=
  lexer.savePlace?.map fun saved =>
    let inFlow := saved.depth ≠ 0
    let read :=
      readPlain inFlow (saved.indent + 1) saved.cursor.rest.length [] { cursor := saved.cursor }
    { saved.pushScalar read.text true with
      cursor := read.cursor
      keyAllowed := read.breaksLine }

/-- A character that has a meaning of its own at the start of a token. -/
def isIndicator (c : Char) : Bool :=
  "-?:,[]\x7b\x7d#&*!|>'\"%@\x60".toList.contains c

/-- A plain scalar can start with a character in front of another one. -/
def startsPlain (inFlow : Bool) (c : Char) (next : Option Char) : Bool :=
  !(isGap (some c) || isIndicator c) ||
    (!isGap next && (c == '-' || (!inFlow && (c == '?' || c == ':'))))

/-- Read the token that starts with a character. -/
def token? (lexer : Lexer) (c : Char) : Option Lexer :=
  let cursor := lexer.cursor
  let inFlow := decide (lexer.depth ≠ 0)
  let next := cursor.peekAt? 1
  let atLineStart := cursor.column = 0
  if c == '%' && atLineStart then lexer.directive?
  else if atLineStart && cursor.startsWith "---" && isGap (cursor.peekAt? 3) then
    lexer.separator? .documentStart
  else if atLineStart && cursor.startsWith "..." && isGap (cursor.peekAt? 3) then
    lexer.separator? .documentEnd
  else if c == '[' then lexer.flowStart? .flowListStart
  else if c == '\x7b' then lexer.flowStart? .flowMappingStart
  else if c == ']' then lexer.flowEnd? .flowListEnd
  else if c == '\x7d' then lexer.flowEnd? .flowMappingEnd
  else if c == ',' then lexer.comma?
  else if c == '-' && isGap next then lexer.item?
  else if c == '?' && (inFlow || isGap next) then lexer.key?
  else if c == ':' && (inFlow || isGap next) then lexer.value?
  else if c == '*' then lexer.name? .reference
  else if c == '&' then lexer.name? .anchor
  else if c == '!' then lexer.tag?
  else if c == '|' && !inFlow then lexer.block? false
  else if c == '>' && !inFlow then lexer.block? true
  else if c == '\x27' then lexer.quoted? false
  else if c == '"' then lexer.quoted? true
  else if startsPlain inFlow c next then lexer.plain?
  else none

/-- End all blocks at the end of the text. -/
def finish? (lexer : Lexer) : Option (List Token) :=
  (lexer.unwind (-1)).dropPlace?.map fun dropped => dropped.tokens.reverse

/-- The last token is a scalar without a text, and no more can be read. -/
def isFlawed (lexer : Lexer) : Bool :=
  match lexer.tokens with
  | .flawed _ :: _ => true
  | _ => false

/-- Read all tokens. -/
def run? : Nat → Lexer → Option (List Token)
  | 0, _ => none
  | fuel + 1, lexer =>
      let ready := skipToToken (lexer.cursor.rest.length + 1) lexer
      match ready.dropStale? with
      | none => none
      | some fresh =>
          let unwound := fresh.unwind fresh.cursor.column
          match unwound.cursor.peek? with
          | none => unwound.finish?
          | some c =>
              match unwound.token? c with
              | some next =>
                  if next.isFlawed then some next.tokens.reverse else run? fuel next
              | none => none

end Lexer

/-- The tokens of a text, if it can be cut into tokens. -/
def tokens? (text : String) : Option (List Token) :=
  match Cursor.ofText? text with
  | some cursor => Lexer.run? (cursor.rest.length + 1) { cursor }
  | none => none

end Scaffold.Document.Yaml
