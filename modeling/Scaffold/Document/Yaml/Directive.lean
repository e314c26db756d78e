import Scaffold.Decimal.Numeral
import Scaffold.Document.Yaml.Cursor

/-!
# Directives and tags

A directive in front of a document gives its version, or says what a handle stands for.  A tag names
the kind of a node, in full or by a handle and what follows it.
-/

namespace Scaffold.Document.Yaml

/-- A directive in front of a document. -/
inductive Directive where
  | version (major : Nat)
  /-- A handle stands for the start of tags. -/
  | handle (name start : String)
  | other
  deriving DecidableEq, Repr

/-- A tag as a text gives it. -/
inductive TagName where
  | full (name : String)
  | short (handle ending : String)
  deriving DecidableEq, Repr

/-- The tag that leaves the kind of a node open. -/
def openTag : String :=
  "!"

/-- The start of the tags of the standard kinds. -/
def standardStart : String :=
  "tag:yaml.org,2002:"

/-- The handles that every document knows. -/
def standardHandles : List (String × String) :=
  [("!", "!"), ("!!", standardStart)]

/-- A tag may contain the character. -/
def isTagCharacter (c : Char) : Bool :=
  c.isAlphanum || "-;/?:@&=+$,_.!~*\x27()[]".toList.contains c

/-- The bytes of escapes of two digits each, and the place behind them. -/
def escapedBytes? : Nat → Cursor → Option (List UInt8 × Cursor)
  | 0, _ => none
  | fuel + 1, cursor =>
      match cursor.rest with
      | '%' :: high :: low :: _ =>
          match Decimal.digitOf? 16 high, Decimal.digitOf? 16 low with
          | some x, some y =>
              (escapedBytes? fuel (cursor.forward 3)).map fun (bytes, behind) =>
                (UInt8.ofNat (x * 16 + y) :: bytes, behind)
          | _, _ => none
      | '%' :: _ => none
      | _ => some ([], cursor)

/-- The characters of a tag, and the place behind them; those already read are given in reverse. -/
def tagCharacters? : Nat → List Char → Cursor → Option (List Char × Cursor)
  | 0, _, _ => none
  | fuel + 1, reversed, cursor =>
      match cursor.peek? with
      | some '%' =>
          match escapedBytes? fuel cursor with
          | none => none
          | some (bytes, behind) =>
              match String.fromUTF8? ⟨bytes.toArray⟩ with
              | some text => tagCharacters? fuel (text.toList.reverse ++ reversed) behind
              | none => none
      | some c =>
          if isTagCharacter c then tagCharacters? fuel (c :: reversed) cursor.advance
          else some (reversed.reverse, cursor)
      | none => some (reversed.reverse, cursor)

/-- A tag or a part of one, which is not empty, and the place behind it. -/
def tagText? (cursor : Cursor) : Option (String × Cursor) :=
  match tagCharacters? (cursor.rest.length + 2) [] cursor with
  | some ([], _) | none => none
  | some (characters, behind) => some (String.ofList characters, behind)

/-- A handle, and the place behind it. -/
def handle? (cursor : Cursor) : Option (String × Cursor) :=
  if cursor.peek? != some '!' then none
  else if cursor.peekAt? 1 == some ' ' then some ("!", cursor.advance)
  else
    let (name, behind) := cursor.advance.span isNameCharacter
    if behind.peek? == some '!' then
      some ("!" ++ String.ofList name ++ "!", behind.advance)
    else none

/-- A tag, from its exclamation mark, and the place behind it. -/
def TagName.read? (cursor : Cursor) : Option (TagName × Cursor) :=
  let found :=
    match cursor.peekAt? 1 with
    | some '<' =>
        (tagText? (cursor.forward 2)).bind fun (name, behind) =>
          if behind.peek? == some '>' then some (TagName.full name, behind.advance) else none
    | next =>
        if isGap next then some (.full openTag, cursor.advance)
        else
          let (word, _) := cursor.advance.span fun c => !isWordEnd (some c)
          let start := if word.contains '!' then handle? cursor else some ("!", cursor.advance)
          start.bind fun (handle, behindHandle) =>
            (tagText? behindHandle).map fun (ending, behind) => (.short handle ending, behind)
  found.filter fun (_, behind) => isWordEnd behind.peek?

/-- A number, and the place behind it. -/
def number? (cursor : Cursor) : Option (Nat × Cursor) :=
  let (digits, behind) := cursor.span Char.isDigit
  match Decimal.natOfNumeral 10 digits with
  | .ok number => some (number, behind)
  | .error _ => none

/-- The version that a directive gives, and the place behind it. -/
def version? (cursor : Cursor) : Option (Directive × Cursor) := do
  let (major, behindMajor) ← number? (cursor.skip (· == ' '))
  if behindMajor.peek? != some '.' then none
  else
    let (_, behind) ← number? behindMajor.advance
    if isWordEnd behind.peek? then some (.version major, behind) else none

/-- What a directive says about a handle, and the place behind it. -/
def handleMeaning? (cursor : Cursor) : Option (Directive × Cursor) := do
  let (name, behindName) ← handle? (cursor.skip (· == ' '))
  if behindName.peek? != some ' ' then none
  else
    let (start, behind) ← tagText? (behindName.skip (· == ' '))
    if isWordEnd behind.peek? then some (.handle name start, behind) else none

/-- The place behind the rest of a line that may hold spaces and a comment. -/
def behindLine? (cursor : Cursor) : Option Cursor :=
  let behindSpaces := cursor.skip (· == ' ')
  let behind :=
    if behindSpaces.peek? == some '#' then behindSpaces.skip (!isBreak ·) else behindSpaces
  match behind.lineEnd?, behind.peek? with
  | some (_, nextLine), _ => some nextLine
  | none, none => some behind
  | none, some _ => none

/-- A directive, from its percent sign, and the place behind its line. -/
def Directive.read? (cursor : Cursor) : Option (Directive × Cursor) := do
  let (name, behindName) := cursor.advance.span isNameCharacter
  if name.isEmpty || !isWordEnd behindName.peek? then none
  else
    let (directive, behind) ←
      if name == "YAML".toList then version? behindName
      else if name == "TAG".toList then handleMeaning? behindName
      else some (.other, behindName.skip (!isBreak ·))
    let nextLine ← behindLine? behind
    return (directive, nextLine)

end Scaffold.Document.Yaml
