import Scaffold.Calendar
import Scaffold.Decimal.Double
import Scaffold.Text.Quoted

/-!
# Document values

The values that a module document can hold: scalars, dates, bytes, lists, sets, and mappings whose
entries keep the order in which they were written.  Keys are values themselves, because a document
may spell a key that is read as a truth value or a number.  A list or mapping may stand inside
itself.
-/

namespace Scaffold.Document

/-- A day, or an instant of a day with an optional offset from universal time in minutes. -/
structure Stamp where
  year : Nat
  month : Nat
  day : Nat
  /-- Hour, minute, second and microsecond, for an instant. -/
  time : Option (Nat × Nat × Nat × Nat)
  /-- The offset in minutes, for an instant that gives one. -/
  offset : Option Int
  deriving DecidableEq, Repr

/-- The minutes from the start of the year 1 to an instant in universal time. -/
def Stamp.universalMinutes? (stamp : Stamp) : Option Int :=
  match stamp.time, stamp.offset with
  | some (hour, minute, _, _), some offset =>
      let days := Calendar.daysBefore stamp.year stamp.month + stamp.day
      some ((days * 1440 + hour * 60 + minute : Nat) - offset)
  | _, _ => none

/-- Two stamps name the same day or the same instant. -/
def Stamp.same (left right : Stamp) : Bool :=
  match left.universalMinutes?, right.universalMinutes? with
  | some x, some y => x == y && left.time.map (·.2.2) == right.time.map (·.2.2)
  | none, none => left == right
  | _, _ => false

/-- A value of a document. -/
inductive Value where
  | null
  | bool (value : Bool)
  | int (value : Int)
  | double (value : Decimal.Double)
  | text (value : String)
  /-- The codes of a text in which half of a pair stands alone. -/
  | illFormed (codes : List Nat)
  | bytes (values : List UInt8)
  | stamp (value : Stamp)
  | list (items : List Value)
  | pair (first second : Value)
  | set (members : List Value)
  | mapping (entries : List (Value × Value))
  /-- A list or mapping that stands inside itself. -/
  | again (whole : Value)
  deriving Inhabited

/-- The entries of a mapping in order, with their keys. -/
abbrev Entries := List (Value × Value)

/-- The value of codes as a text. -/
def Value.ofCodes (codes : List Nat) : Value :=
  match Text.ofCodes? codes with
  | some characters => .text characters
  | none => .illFormed codes

/-- The value that stands here, for the first time or once more. -/
def Value.content : Value → Value
  | .again whole => whole
  | value => value

/-- The number of a key that stands for a whole one: truth values count as zero and one. -/
def Value.wholeKey? : Value → Option Int
  | .bool value => some (if value then 1 else 0)
  | .int value => some value
  | .double value => value.whole?
  | _ => none

/--
Two keys name the same entry.  Equal texts, bytes and stamps do, and so do truth values, integers and
doubles of exactly the same number.
-/
def Value.sameKey (left right : Value) : Bool :=
  match left.wholeKey?, right.wholeKey? with
  | some x, some y => x == y
  | none, none =>
      match left, right with
      | .null, .null => true
      | .double x, .double y => x == y
      | .text x, .text y => x == y
      | .illFormed x, .illFormed y => x == y
      | .bytes x, .bytes y => x == y
      | .stamp x, .stamp y => x.same y
      | _, _ => false
  | _, _ => false

/-- Set the value of a key: an old key keeps its place, a new one comes last. -/
def Entries.insert (entries : Entries) (key value : Value) : Entries :=
  match entries with
  | [] => [(key, value)]
  | (old, oldValue) :: rest =>
      if old.sameKey key then (old, value) :: rest
      else (old, oldValue) :: Entries.insert rest key value

/-- The value of a text key. -/
def Entries.get? (entries : Entries) (name : String) : Option Value :=
  match entries with
  | [] => none
  | (.text key, value) :: rest =>
      if key == name then some value.content else Entries.get? rest name
  | _ :: rest => Entries.get? rest name

/-- A mapping has a text key. -/
def Entries.has (entries : Entries) (name : String) : Bool :=
  (Entries.get? entries name).isSome

/-- The value of a text key of a mapping. -/
def Value.get? (value : Value) (name : String) : Option Value :=
  match value.content with
  | .mapping entries => Entries.get? entries name
  | _ => none

/-- Null, no, zero and everything empty count as absent where a field is required. -/
def Value.isTruthy : Value → Bool
  | .null => false
  | .bool value => value
  | .int value => value != 0
  | .double value => !value.isZero
  | .text value => !value.isEmpty
  | .bytes values => !values.isEmpty
  | .list items => !items.isEmpty
  | .set members => !members.isEmpty
  | .mapping entries => !entries.isEmpty
  | .illFormed _ | .stamp _ | .pair _ _ | .again _ => true

end Scaffold.Document
