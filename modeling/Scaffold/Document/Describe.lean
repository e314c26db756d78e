import Scaffold.Decimal.Written
import Scaffold.Document.Value
import Scaffold.Text.Quoted

/-!
# Values in messages

A message about a document shows the values it is about: scalars by name or number, texts quoted,
lists in brackets, sets and mappings in braces.  A value that stands inside itself is shown once.
-/

namespace Scaffold.Document

/-- A day, or an instant whose day and time a mark stands between. -/
def Stamp.written (mark : String) (stamp : Stamp) : String :=
  let pad := fun width n => String.ofList (Decimal.paddedNatural width n)
  let day := pad 4 stamp.year ++ "-" ++ pad 2 stamp.month ++ "-" ++ pad 2 stamp.day
  match stamp.time with
  | none => day
  | some (hour, minute, second, micro) =>
      let fraction := if micro = 0 then "" else "." ++ pad 6 micro
      let offset :=
        match stamp.offset with
        | none => ""
        | some minutes =>
            (if minutes < 0 then "-" else "+") ++ pad 2 (minutes.natAbs / 60) ++ ":" ++
              pad 2 (minutes.natAbs % 60)
      day ++ mark ++ pad 2 hour ++ ":" ++ pad 2 minute ++ ":" ++ pad 2 second ++ fraction ++ offset

/-- A day or an instant in the notation `2024-01-15T10:30:00+01:00`. -/
def Stamp.iso (stamp : Stamp) : String :=
  stamp.written "T"

/-- A number of minutes as a message shows it: whole days, and the seconds that are left. -/
def describeDuration (minutes : Int) : String :=
  let days := Int.fdiv minutes 1440
  let seconds := (minutes - days * 1440) * 60
  let shown := (if days = 0 then [] else ["days=" ++ Decimal.writtenInt days]) ++
    (if seconds = 0 then [] else ["seconds=" ++ Decimal.writtenInt seconds])
  "datetime.timedelta(" ++ (if shown.isEmpty then "0" else ", ".intercalate shown) ++ ")"

/-- The offset of an instant as a message shows it. -/
def describeOffset (minutes : Int) : String :=
  if minutes = 0 then "datetime.timezone.utc"
  else "datetime.timezone(" ++ describeDuration minutes ++ ")"

/-- A day or an instant as a message shows it. -/
def Stamp.describe (stamp : Stamp) : String :=
  let numbers := fun (parts : List Nat) =>
    ", ".intercalate (parts.map fun (n : Nat) => Decimal.writtenInt n)
  match stamp.time with
  | none => "datetime.date(" ++ numbers [stamp.year, stamp.month, stamp.day] ++ ")"
  | some (hour, minute, second, micro) =>
      let tail :=
        if micro ≠ 0 then [second, micro] else if second ≠ 0 then [second] else []
      let zone :=
        match stamp.offset with
        | none => ""
        | some minutes => ", tzinfo=" ++ describeOffset minutes
      "datetime.datetime(" ++
        numbers ([stamp.year, stamp.month, stamp.day, hour, minute] ++ tail) ++ zone ++ ")"

/-- How a message shows a list or mapping inside itself. -/
def describeAgain : Value → String
  | .mapping _ => "\x7b...\x7d"
  | _ => "[...]"

mutual

/-- A value as a message shows it. -/
def Value.describe : Value → String
  | .null => "None"
  | .bool value => if value then "True" else "False"
  | .int value => Decimal.writtenInt value
  | .double value => Decimal.writtenDouble value
  | .text value => Text.quoted value
  | .illFormed codes => Text.quotedCodes codes
  | .bytes values => Text.quotedBytes values
  | .stamp value => value.describe
  | .list items => "[" ++ ", ".intercalate (describeItems items) ++ "]"
  | .pair first second => "(" ++ first.describe ++ ", " ++ second.describe ++ ")"
  | .set [] => "set()"
  | .set (member :: members) =>
      "\x7b" ++ ", ".intercalate (member.describe :: describeItems members) ++ "\x7d"
  | .again whole => describeAgain whole
  | .mapping entries => "\x7b" ++ ", ".intercalate (describeEntries entries) ++ "\x7d"

/-- Values in order as a message shows them. -/
def describeItems : List Value → List String
  | [] => []
  | item :: items => item.describe :: describeItems items

/-- The entries of a mapping as a message shows them. -/
def describeEntries : List (Value × Value) → List String
  | [] => []
  | (key, value) :: entries => (key.describe ++ ": " ++ value.describe) :: describeEntries entries

end

/-- A key as messages name it: a text as it is, a day or an instant with a blank in it. -/
def Value.keyText : Value → String
  | .text name => name
  | .illFormed codes => Text.shownCodes codes
  | .stamp value => value.written " "
  | key => key.describe

/-- The name of the kind of a value in messages. -/
def Value.kindName : Value → String
  | .null => "NoneType"
  | .bool _ => "bool"
  | .int _ => "int"
  | .double _ => "float"
  | .text _ | .illFormed _ => "str"
  | .bytes _ => "bytes"
  | .stamp value => if value.time.isSome then "datetime" else "date"
  | .list _ => "list"
  | .pair _ _ => "tuple"
  | .set _ => "set"
  | .mapping _ => "dict"
  | .again (.mapping _) => "dict"
  | .again _ => "list"

end Scaffold.Document
