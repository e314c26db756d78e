/-!
# Identifiers

Names of attributes and relations are identifiers: ASCII letters, digits and underscores, not
starting with a digit.
-/

namespace Scaffold.Text

/-- A text without one line feed at its end. -/
def withoutLineEnd (text : List Char) : List Char :=
  if text.getLast? == some '\n' then text.dropLast else text

/-- The first character of an identifier. -/
def isIdentifierStart (c : Char) : Bool :=
  c.isAlpha || c == '_'

/-- A further character of an identifier. -/
def isIdentifierPart (c : Char) : Bool :=
  c.isAlphanum || c == '_'

/-- A text that consists of an identifier and nothing else. -/
def isIdentifierText : List Char → Bool
  | [] => false
  | first :: rest => isIdentifierStart first && rest.all isIdentifierPart

/-- A name is accepted as an identifier; one line feed at its end is overlooked. -/
def isIdentifier (name : String) : Bool :=
  isIdentifierText (withoutLineEnd name.toList)

/-- A name, or another one in its place when it is absent or empty. -/
def nameOr (name : Option String) (fallback : String) : String :=
  match name with
  | some name => if name.isEmpty then fallback else name
  | none => fallback

end Scaffold.Text
