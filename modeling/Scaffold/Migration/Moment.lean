import Scaffold.Calendar
import Scaffold.Decimal.Written

/-!
# Moments

A moment is a whole second of the calendar.  Moments are ordered by year, month, day, hour, minute
and second, and every moment but the last of the year 9999 has a next one.
-/

namespace Scaffold.Migration

/-- A whole second of the calendar. -/
structure Moment where
  year : Nat
  month : Nat
  day : Nat
  hour : Nat
  minute : Nat
  second : Nat
  deriving DecidableEq, Repr

namespace Moment

/-- A moment names a real date of the years 1 to 9999 and a real time of day. -/
def IsReal (moment : Moment) : Prop :=
  (1 ≤ moment.year ∧ moment.year ≤ 9999) ∧ (1 ≤ moment.month ∧ moment.month ≤ 12) ∧
    (1 ≤ moment.day ∧ moment.day ≤ Calendar.daysInMonth moment.year moment.month) ∧
    moment.hour < 24 ∧ moment.minute < 60 ∧ moment.second < 60

instance (moment : Moment) : Decidable moment.IsReal := by
  unfold IsReal
  infer_instance

/-- The fields of a moment, the largest unit first. -/
def fields (moment : Moment) : List Nat :=
  [moment.year, moment.month, moment.day, moment.hour, moment.minute, moment.second]

/-- A moment comes before another. -/
def before (left right : Moment) : Bool :=
  compare left.fields right.fields == .lt

/-- The moment one second later, unless that lies beyond the year 9999. -/
def next? (moment : Moment) : Option Moment :=
  if moment.second < 59 then some { moment with second := moment.second + 1 }
  else if moment.minute < 59 then some { moment with minute := moment.minute + 1, second := 0 }
  else if moment.hour < 23 then
    some { moment with hour := moment.hour + 1, minute := 0, second := 0 }
  else if moment.day < Calendar.daysInMonth moment.year moment.month then
    some { moment with day := moment.day + 1, hour := 0, minute := 0, second := 0 }
  else if moment.month < 12 then
    some ⟨moment.year, moment.month + 1, 1, 0, 0, 0⟩
  else if moment.year < 9999 then some ⟨moment.year + 1, 1, 1, 0, 0, 0⟩
  else none

/-- A number of at least `width` digits. -/
def padded (width n : Nat) : String :=
  String.ofList (Decimal.paddedNatural width n)

/-- A moment in the notation `2024-01-15T10:30:00`. -/
def iso (moment : Moment) : String :=
  padded 4 moment.year ++ "-" ++ padded 2 moment.month ++ "-" ++ padded 2 moment.day ++ "T" ++
    padded 2 moment.hour ++ ":" ++ padded 2 moment.minute ++ ":" ++ padded 2 moment.second

/-- The number that ASCII digits spell. -/
def number? (digits : List Char) : Option Nat :=
  if digits.isEmpty || !digits.all Char.isDigit then none
  else some (digits.foldl (fun value c => value * 10 + (c.toNat - '0'.toNat)) 0)

/-- The moment at the start of a text such as `2024-01-15T10:30:00.5+01:00`.  A text that ends before
a unit of the time of day has none of it. -/
def ofIso? (text : String) : Option Moment :=
  let characters := text.toList
  let field := fun start count => number? ((characters.drop start).take count)
  let timeField := fun start => if characters.length < start then some 0 else field start 2
  match field 0 4, field 5 2, field 8 2, timeField 11, timeField 14, timeField 17 with
  | some year, some month, some day, some hour, some minute, some second =>
      some ⟨year, month, day, hour, minute, second⟩
  | _, _, _, _, _, _ => none

/-- The moment after a number of seconds since the start of 1970, in universal time. -/
def ofSeconds (seconds : Nat) : Moment :=
  let days := seconds / 86400
  let (year, month, day) := Calendar.dayAfter days 1970 days
  ⟨year, month, day, seconds / 3600 % 24, seconds / 60 % 60, seconds % 60⟩

end Moment

/-- A clock: the moments that it will show in turn; the last one it shows for ever. -/
structure Clock where
  upcoming : List Moment
  last : Moment
  deriving Repr

/-- Read a clock: the moment shown, and the clock afterwards. -/
def Clock.read (clock : Clock) : Moment × Clock :=
  match clock.upcoming with
  | [] => (clock.last, clock)
  | moment :: rest => (moment, { clock with upcoming := rest })

end Scaffold.Migration
