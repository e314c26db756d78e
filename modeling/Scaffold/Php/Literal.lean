import Scaffold.Decimal.Written

/-!
# PHP literals

Scalars of the generated code.  A string stands between apostrophes, and only the backslash and the
apostrophe are escaped in it, so that no value can end its literal early.
-/

namespace Scaffold.Php

/-- A scalar that the generated code can spell. -/
inductive Scalar where
  | null
  | bool (value : Bool)
  | int (value : Int)
  | double (value : Decimal.Double)
  | text (value : String)
  deriving DecidableEq, Repr

/-- One character inside a string literal. -/
def escaped (c : Char) : List Char :=
  if c == '\\' || c == '\'' then ['\\', c] else [c]

/-- A string literal. -/
def string (text : String) : String :=
  String.ofList ('\'' :: (text.toList.flatMap escaped ++ ['\'']))

/-- The literal of a scalar. -/
def Scalar.literal : Scalar → String
  | .null => "null"
  | .bool value => if value then "true" else "false"
  | .int value => Decimal.writtenInt value
  | .double value => Decimal.writtenDouble value
  | .text value => string value

/-- A list of scalars in short array notation. -/
def array (items : List Scalar) : String :=
  "[" ++ ", ".intercalate (items.map Scalar.literal) ++ "]"

/-- A list of strings in short array notation. -/
def stringArray (texts : List String) : String :=
  array (texts.map .text)

end Scaffold.Php
