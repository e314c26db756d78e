import Scaffold.Text.Words

/-!
# Plural and singular nouns

The conventional table of an entity is the plural of its name, and the model of a table the
singular of the table's name.  Only the last word of a compound name is inflected, by a short list
of irregular nouns and by the ending of the word otherwise.
-/

namespace Scaffold.Text

/-- Irregular nouns with their plurals. -/
def irregularNouns : List (String × String) :=
  [("person", "people"), ("child", "children"), ("man", "men"), ("woman", "women"),
    ("mouse", "mice"), ("goose", "geese"), ("tooth", "teeth"), ("foot", "feet"),
    ("datum", "data"), ("index", "indices"), ("matrix", "matrices"), ("vertex", "vertices"),
    ("axis", "axes"), ("crisis", "crises"), ("analysis", "analyses"), ("status", "statuses"),
    ("address", "addresses")]

/-- The plural of an irregular noun, given in lower case. -/
def irregularPlural? (word : List Char) : Option (List Char) :=
  (irregularNouns.find? (·.1.toList == word)).map (·.2.toList)

/-- The noun of an irregular plural, given in lower case. -/
def irregularSingular? (word : List Char) : Option (List Char) :=
  (irregularNouns.find? (·.2.toList == word)).map (·.1.toList)

/-- Capitalise a replacement when the word that it replaces starts with a capital. -/
def matchCapital (word replacement : List Char) : List Char :=
  if word.head?.any Char.isUpper then capitalised replacement else replacement

/-- A word ends in one of the given endings. -/
def endsWithAny (word : List Char) (endings : List String) : Bool :=
  endings.any (·.toList.isSuffixOf word)

/-- The letter before the last one is not a vowel. -/
def consonantBeforeLast (word : List Char) : Bool :=
  match word.reverse with
  | _ :: before :: _ => !"aeiou".toList.contains before
  | _ => false

/-- A word without its last `count` characters. -/
def dropEnd (word : List Char) (count : Nat) : List Char :=
  word.take (word.length - count)

/-- The plural of one word of letters and digits. -/
def pluralWord (word : List Char) : List Char :=
  let low := lowered word
  match irregularPlural? low with
  | some plural => matchCapital word plural
  | none =>
      if endsWithAny low ["s"] && !endsWithAny low ["ss", "us", "is"] then word
      else if endsWithAny low ["sh", "ch", "x", "z", "ss", "us"] then word ++ "es".toList
      else if endsWithAny low ["y"] && consonantBeforeLast low then
        dropEnd word 1 ++ "ies".toList
      else if endsWithAny low ["fe"] then dropEnd word 2 ++ "ves".toList
      else if endsWithAny low ["f"] && !endsWithAny low ["ff"] then
        dropEnd word 1 ++ "ves".toList
      else if endsWithAny low ["o"] && consonantBeforeLast low then word ++ "es".toList
      else word ++ "s".toList

/-- The singular of one word of letters and digits. -/
def singularWord (word : List Char) : List Char :=
  let low := lowered word
  match irregularSingular? low with
  | some singular => matchCapital word singular
  | none =>
      if endsWithAny low ["ies"] && word.length > 3 then dropEnd word 3 ++ "y".toList
      else if endsWithAny low ["ves"] then dropEnd word 3 ++ "f".toList
      else if endsWithAny low ["oes"] && word.length > 3 then dropEnd word 2
      else if endsWithAny low ["sses", "uses", "xes", "zes", "ches", "shes"] then dropEnd word 2
      else if endsWithAny low ["s"] && !endsWithAny low ["ss", "us", "is"] then dropEnd word 1
      else word

/-- A small letter or a digit. -/
def isSmallOrDigit (c : Char) : Bool :=
  c.isLower || c.isDigit

/-- The longest run at the start of a text whose characters satisfy `p`, and what follows it. -/
def splitRun (p : Char → Bool) (text : List Char) : List Char × List Char :=
  (text.takeWhile p, text.dropWhile p)

/--
The last word of a text that is given from its end: a run of small letters and digits with at most
one capital before it, else a run of capitals.  The answer is the word and what stands before it,
both from the end; there is none when the text ends in another character.
-/
def lastWord? (reversed : List Char) : Option (List Char × List Char) :=
  match splitRun isSmallOrDigit reversed with
  | ([], _) =>
      match splitRun Char.isUpper reversed with
      | ([], _) => none
      | capitals => some capitals
  | (run, capital :: before) =>
      if capital.isUpper then some (run ++ [capital], before) else some (run, capital :: before)
  | (run, []) => some (run, [])

/-- A text, given from its end, without one line feed at its end. -/
def dropLineEnd : List Char → List Char
  | '\n' :: before => before
  | reversed => reversed

/--
Inflect the last word of a compound name.  One line feed after the last word is dropped with it; a
name that ends in no word is kept as it is.
-/
def inflectLastWord (inflect : List Char → List Char) (name : String) : String :=
  match lastWord? (dropLineEnd name.toList.reverse) with
  | none => name
  | some (word, before) => String.ofList (before.reverse ++ inflect word.reverse)

/-- The plural of the last word of a name: `OrderStatus` gives `OrderStatuses`. -/
def plural (name : String) : String :=
  inflectLastWord pluralWord name

/-- The singular of the last word of a name. -/
def singular (name : String) : String :=
  inflectLastWord singularWord name

/-- The conventional table of an entity. -/
def tableName (entity : String) : String :=
  snakeCase (plural (studlyCase entity))

/-- The conventional entity of a table. -/
def modelName (table : String) : String :=
  studlyCase (singular table)

end Scaffold.Text
