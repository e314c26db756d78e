import Scaffold.Keyed
import Scaffold.Text.Blank
import Scaffold.Text.Identifier

/-!
# Placeholders

A stub is a text with placeholders: a key between double braces, with or without blanks around it.
Cutting a stub gives its placeholders from left to right and the characters between them.  Filling
it replaces each placeholder whose key has a value; a value is never searched for placeholders.
-/

namespace Scaffold.Stub

/-- A part of a stub. -/
inductive Piece where
  /-- A character outside placeholders. -/
  | plain (c : Char)
  /-- A placeholder with its key, and the text as it is written. -/
  | slot (key : String) (written : List Char)
  deriving DecidableEq, Repr

/-- The text of a piece as it is written. -/
def Piece.written : Piece → List Char
  | .plain c => [c]
  | .slot _ written => written

/-- The closing braces of a placeholder stand at the start of a text. -/
def isClosed : List Char → Bool
  | '\x7d' :: '\x7d' :: _ => true
  | _ => false

/-- The placeholder at the start of a text that follows two opening braces. -/
def slotBody? (text : List Char) : Option Piece :=
  let leading := text.takeWhile Text.isBlank
  let inner := text.dropWhile Text.isBlank
  let key := inner.takeWhile Text.isIdentifierPart
  let behind := inner.dropWhile Text.isIdentifierPart
  let trailing := behind.takeWhile Text.isBlank
  if key.head?.any Text.isIdentifierStart && isClosed (behind.dropWhile Text.isBlank) then
    some (.slot (String.ofList key)
      (['\x7b', '\x7b'] ++ leading ++ key ++ trailing ++ ['\x7d', '\x7d']))
  else none

/-- The placeholder at the start of a text. -/
def slot? : List Char → Option Piece
  | '\x7b' :: '\x7b' :: rest => slotBody? rest
  | _ => none

/-- Cut a text whose first characters, as many as `covered`, belong to a placeholder before. -/
def cutFrom : Nat → List Char → List Piece
  | _, [] => []
  | covered + 1, _ :: rest => cutFrom covered rest
  | 0, c :: rest =>
      match slot? (c :: rest) with
      | some piece => piece :: cutFrom (piece.written.length - 1) rest
      | none => .plain c :: cutFrom 0 rest

/-- Cut a stub into its pieces. -/
def cut (text : List Char) : List Piece :=
  cutFrom 0 text

/-- A piece with the value of its key in place of a placeholder, if the key has one. -/
def Piece.filled (values : Keyed String) : Piece → List Char
  | .plain c => [c]
  | .slot key written =>
      match Keyed.get? values key with
      | some value => value.toList
      | none => written

/-- Fill the placeholders of a stub. -/
def fill (values : Keyed String) (stub : String) : String :=
  String.ofList ((cut stub.toList).flatMap (Piece.filled values))

/-- The key of a placeholder that has no value. -/
def Piece.missingKey? (values : Keyed String) : Piece → Option String
  | .plain _ => none
  | .slot key _ => if Keyed.has values key then none else some key

/-- The keys of a stub that have no value, in the order of their placeholders. -/
def missingKeys (values : Keyed String) (stub : String) : List String :=
  distinct ((cut stub.toList).filterMap (Piece.missingKey? values))

end Scaffold.Stub
