/-!
# Contents of files

A file holds bytes.  Bytes that are a text are kept as that text, so that equal contents are equal
values.
-/

namespace Scaffold.Disk

/-- What a file holds: a text, or bytes that are no text. -/
inductive Content where
  | text (value : String)
  | bytes (values : List UInt8)
  deriving DecidableEq, Repr

namespace Content

/-- The content of bytes. -/
def ofBytes (values : List UInt8) : Content :=
  match String.fromUTF8? ⟨values.toArray⟩ with
  | some value => .text value
  | none => .bytes values

/-- The bytes of a content. -/
def toBytes : Content → List UInt8
  | .text value => value.toUTF8.toList
  | .bytes values => values

/-- The one character that bytes encode, if they do. -/
def character? (values : List UInt8) : Option Char :=
  match (String.fromUTF8? ⟨values.toArray⟩).map String.toList with
  | some [c] => some c
  | _ => none

/-- The character at the start of bytes, with the number of its bytes. -/
def firstCharacter? (values : List UInt8) : Option (Char × Nat) :=
  [1, 2, 3, 4].findSome? fun length =>
    (character? (values.take length)).map fun c => (c, length)

/-- The lower-case hexadecimal digit of a number below sixteen. -/
def byteDigit (value : Nat) : Char :=
  if value < 10 then Char.ofNat ('0'.toNat + value) else Char.ofNat ('a'.toNat + (value - 10))

/-- A byte that is part of no character, as `\xff`. -/
def escapedByte (byte : UInt8) : List Char :=
  ['\\', 'x', byteDigit (byte.toNat / 16), byteDigit (byte.toNat % 16)]

/-- Bytes as characters, with those escaped that are part of no character. -/
def readableBytes : Nat → List UInt8 → List Char
  | 0, _ => []
  | _, [] => []
  | fuel + 1, byte :: rest =>
      match firstCharacter? (byte :: rest) with
      | some (c, length) => c :: readableBytes fuel ((byte :: rest).drop length)
      | none => escapedByte byte ++ readableBytes fuel rest

/-- A content as a text, with the bytes escaped that are part of no character. -/
def readable : Content → String
  | .text value => value
  | .bytes values => String.ofList (readableBytes values.length values)

end Content

end Scaffold.Disk
