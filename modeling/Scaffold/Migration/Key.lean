import Scaffold.Migration.Moment
import Scaffold.Text.DecimalDigit
import Scaffold.Text.Identifier
import Scaffold.Text.Quoted
import Scaffold.Text.WordCharacter

/-!
# Migration keys

A migration file starts with its key, a moment and a counter: `2024_01_15_103000_00`.  Keys of one
second differ in the counter, and a key sorts as text as its moment and counter do.  A key written
without a counter sorts after every counted key of its second, so it stands for the last counter.
-/

namespace Scaffold.Migration

/-- The last counter of a second. -/
def maxCounter : Nat :=
  99

/-- A moment with a counter that tells keys of one second apart. -/
structure Key where
  moment : Moment
  counter : Nat
  deriving DecidableEq, Repr

/-- Why a text gives no key. -/
inductive KeyError where
  | malformed (text : String)
  | noSuchDate
  deriving DecidableEq, Repr

/-- The wording of an error, where this library words it. -/
def KeyError.message? : KeyError → Option String
  | .malformed text => some ("Not a migration ordering key: " ++ Text.quoted text)
  | .noSuchDate => none

/-- The text of a moment and a counter. -/
def keyText (moment : Moment) (counter : Int) : String :=
  Decimal.writtenInt moment.year ++ "_" ++ Moment.padded 2 moment.month ++ "_" ++
    Moment.padded 2 moment.day ++ "_" ++ Moment.padded 2 moment.hour ++
    Moment.padded 2 moment.minute ++ Moment.padded 2 moment.second ++ "_" ++
    Decimal.paddedInt 2 counter

/-- The text of a key. -/
def Key.text (key : Key) : String :=
  keyText key.moment key.counter

/-- A key comes before another: by moment, then by counter. -/
def Key.before (left right : Key) : Bool :=
  left.moment.before right.moment ||
    (left.moment == right.moment && left.counter < right.counter)

/-- The pattern of a moment: `d` stands for a decimal digit, other characters for themselves. -/
def momentPattern : List Char :=
  "dddd_dd_dd_dddddd".toList

/-- A text has the shape of a pattern. -/
def matchesPattern : List Char → List Char → Bool
  | [], [] => true
  | p :: pattern, c :: text =>
      (if p == 'd' then Text.isDecimalDigit c else c == p) && matchesPattern pattern text
  | _, _ => false

/-- The number spelled by decimal digits of any script. -/
def numberOf (digits : List Char) : Nat :=
  digits.foldl (fun value c => value * 10 + (Text.digitValue? c).getD 0) 0

/--
The fields of a moment may use digits of any script only where every digit is possible: in the
year, and in the last place of a day, hour, minute or second after an ASCII first digit.
-/
def plainDigits (digits : List Char) : Bool :=
  match digits with
  | ['0', d] | ['1', d] | ['2', d] | ['3', d] | ['4', d] | ['5', d] => Text.isDecimalDigit d
  | _ => false

/-- A field that needs ASCII digits in both places. -/
def asciiDigits (digits : List Char) : Bool :=
  digits.all Char.isDigit

/-- The real moment spelled by a text of the shape of a moment. -/
def momentOf? (text : List Char) : Option Moment :=
  let year := text.take 4
  let month := (text.drop 5).take 2
  let day := (text.drop 8).take 2
  let hour := (text.drop 11).take 2
  let minute := (text.drop 13).take 2
  let second := (text.drop 15).take 2
  let moment : Moment :=
    ⟨numberOf year, numberOf month, numberOf day, numberOf hour, numberOf minute, numberOf second⟩
  let openEnded := fun (digits : List Char) (leading : List Char) =>
    digits.head?.any leading.contains
  let spelled :=
    asciiDigits month && plainDigits day && plainDigits hour && plainDigits minute &&
      plainDigits second && (openEnded day ['1', '2'] || asciiDigits day) &&
      (openEnded hour ['0', '1'] || asciiDigits hour)
  if spelled && decide moment.IsReal then some moment else none

/-- Split a text of the shape of a key into its moment and its counter. -/
def splitKey? (text : List Char) : Option (List Char × Option (List Char)) :=
  let moment := text.take momentPattern.length
  if !matchesPattern momentPattern moment then none
  else
    match text.drop momentPattern.length with
    | [] => some (moment, none)
    | counter =>
        if matchesPattern "_dd".toList counter then some (moment, some (counter.drop 1)) else none

/-- Read a key.  One line feed after it is overlooked. -/
def Key.read (text : String) : Except KeyError Key :=
  match splitKey? (Text.withoutLineEnd text.toList) with
  | none => .error (.malformed text)
  | some (moment, counter) =>
      match momentOf? moment with
      | none => .error .noSuchDate
      | some moment => .ok ⟨moment, (counter.map numberOf).getD maxCounter⟩

/-- The part of a migration's file name after its key, before the table. -/
def createMark : List Char :=
  "_create_".toList

/-- The end of the file name of a migration that creates a table. -/
def tableMark : List Char :=
  "_table.php".toList

/-- The file name of the migration that creates a table. -/
def fileName (key table : String) : String :=
  key ++ "_create_" ++ table ++ "_table.php"

/-- The table in the part of a file name that follows the key. -/
def tableOf? (text : List Char) : Option (List Char) :=
  if !createMark.isPrefixOf text then none
  else
    let rest := text.drop createMark.length
    if !tableMark.isSuffixOf rest then none
    else
      let table := rest.take (rest.length - tableMark.length)
      if !table.isEmpty && table.all Text.isUnicodeWordCharacter then some table else none

/-- The table and the key of the file name of a migration that creates a table. -/
def ofFileName? (name : String) : Option (String × String) :=
  let characters := Text.withoutLineEnd name.toList
  let split := fun length =>
    match splitKey? (characters.take length), tableOf? (characters.drop length) with
    | some _, some table => some (String.ofList table, String.ofList (characters.take length))
    | _, _ => none
  split (momentPattern.length + 3) <|> split momentPattern.length

end Scaffold.Migration
