/-!
# Words of an identifier

An identifier is cut into words at separators (every character that is not an ASCII letter or
digit) and at humps (places where a new capital starts a word).  The four spellings used by the
generated code, `snake_case`, `StudlyCase`, `camelCase` and `kebab-case`, join those words again.
The small lemmas say that cutting neither loses nor invents a letter or a digit.  A given word is
also looked for inside of a text, wherever words start in it.
-/

namespace Scaffold.Text

/-- Letters and digits that may stand inside a word; every other character separates words. -/
def isWordCharacter (c : Char) : Bool :=
  c.isAlphanum

/-- Lower-case the ASCII capitals of a text. -/
def lowered (text : List Char) : List Char :=
  text.map Char.toLower

/-- Capitalise the first character of a word and keep the others. -/
def capitalised : List Char → List Char
  | [] => []
  | first :: rest => first.toUpper :: rest

/-- Put a character in front of the first piece of a cut text. -/
def consFirst (c : Char) : List (List Char) → List (List Char)
  | [] => [[c]]
  | piece :: pieces => (c :: piece) :: pieces

/-- Whether a new piece starts right after `here`, where `rest` follows. -/
def startsAfter (cut : Char → Char → Option Char → Bool) (here : Char) : List Char → Bool
  | [] => false
  | next :: rest => cut here next rest.head?

/--
Cut a text into pieces.  A separator ends a piece and is dropped; between two neighbours of one
word, `cut here next afterNext` says whether a new piece starts at `next`.
-/
def pieces (cut : Char → Char → Option Char → Bool) : List Char → List (List Char)
  | [] => [[]]
  | here :: rest =>
      if !isWordCharacter here then [] :: pieces cut rest
      else if startsAfter cut here rest then [here] :: pieces cut rest
      else consFirst here (pieces cut rest)

/-- The non-empty pieces of a text. -/
def words (cut : Char → Char → Option Char → Bool) (text : List Char) : List (List Char) :=
  (pieces cut text).filter (!·.isEmpty)

/-- No two letters or digits are cut apart, so that only separators end a word. -/
def atSeparator (_ _ : Char) (_ : Option Char) : Bool :=
  false

/--
A hump starts at a capital that follows a small letter or a digit, and at the last capital of a
run of capitals when a small letter follows it.
-/
def atHump (here next : Char) (afterNext : Option Char) : Bool :=
  next.isUpper &&
    (here.isLower || here.isDigit || (here.isUpper && afterNext.any Char.isLower))

/-- A hump, or a change between letters and digits. -/
def atHumpOrDigit (here next : Char) (afterNext : Option Char) : Bool :=
  atHump here next afterNext ||
    (isWordCharacter next && here.isDigit != next.isDigit)

/-- Lower-case words joined by one separator. -/
def joinLowered (separator : Char) (parts : List (List Char)) : List Char :=
  [separator].intercalate (parts.map lowered)

/-- The spelling of a column or a table: `blog_post`. -/
def snakeCase (text : String) : String :=
  String.ofList (joinLowered '_' (words atHump text.toList))

/-- The spelling of a URL segment: `blog-post`, with numbers as words of their own. -/
def kebabCase (text : String) : String :=
  String.ofList (joinLowered '-' (words atHumpOrDigit text.toList))

/-- The characters of the spelling of a class: every word capitalised, inner capitals kept. -/
def studlyCharacters (text : List Char) : List Char :=
  ((words atSeparator text).map capitalised).flatten

/-- The spelling of a class: `BlogPost`. -/
def studlyCase (text : String) : String :=
  String.ofList (studlyCharacters text.toList)

/-- Lower-case the first character of a word and keep the others. -/
def uncapitalised : List Char → List Char
  | [] => []
  | first :: rest => first.toLower :: rest

/-- The spelling of a variable or a property: `blogPost`. -/
def camelCase (text : String) : String :=
  String.ofList (uncapitalised (studlyCharacters text.toList))

/-- A word occurs in a text; the empty word occurs in every text. -/
def occursIn (word : List Char) : List Char → Bool
  | [] => word.isEmpty
  | c :: rest => word.isPrefixOf (c :: rest) || occursIn word rest

@[simp]
theorem flatten_consFirst (c : Char) (parts : List (List Char)) :
    (consFirst c parts).flatten = c :: parts.flatten := by
  cases parts <;> simp [consFirst]

/-- Cutting a text loses its separators and nothing else. -/
theorem flatten_pieces (cut : Char → Char → Option Char → Bool) (text : List Char) :
    (pieces cut text).flatten = text.filter isWordCharacter := by
  induction text with
  | nil => rfl
  | cons here rest hypothesis =>
      rw [pieces, List.filter_cons]
      cases isWordCharacter here with
      | false => simp [hypothesis]
      | true => cases startsAfter cut here rest <;> simp [hypothesis]

theorem flatten_words (cut : Char → Char → Option Char → Bool) (text : List Char) :
    (words cut text).flatten = text.filter isWordCharacter := by
  rw [words, ← flatten_pieces cut text]
  induction pieces cut text with
  | nil => rfl
  | cons piece others hypothesis =>
      cases piece with
      | nil => simpa using hypothesis
      | cons c rest => simpa using hypothesis

end Scaffold.Text
