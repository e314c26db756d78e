/-!
# The calendar

The lengths of years and months, and the day on which a number of days has passed.
-/

namespace Scaffold.Calendar

/-- A year has a 29th of February. -/
def isLeapYear (year : Nat) : Bool :=
  year % 4 == 0 && (year % 100 != 0 || year % 400 == 0)

/-- The number of days of a month. -/
def daysInMonth (year month : Nat) : Nat :=
  if month = 2 then (if isLeapYear year then 29 else 28)
  else if month = 4 ∨ month = 6 ∨ month = 9 ∨ month = 11 then 30
  else 31

/-- The number of days of a year. -/
def daysInYear (year : Nat) : Nat :=
  if isLeapYear year then 366 else 365

/-- The number of days from the start of the year 1 to the start of a month. -/
def daysBefore (year month : Nat) : Nat :=
  let past := year - 1
  let months := (List.range (month - 1)).map fun index => daysInMonth year (index + 1)
  past * 365 + past / 4 - past / 100 + past / 400 + months.foldl (· + ·) 0

/-- The month and its day after a number of days since the start of a month, within a year. -/
def monthAfter (year : Nat) : Nat → Nat → Nat → Nat × Nat
  | 0, month, days => (month, days + 1)
  | left + 1, month, days =>
      if days < daysInMonth year month then (month, days + 1)
      else monthAfter year left (month + 1) (days - daysInMonth year month)

/-- The year, month and day after a number of days since the start of a year. -/
def dayAfter : Nat → Nat → Nat → Nat × Nat × Nat
  | 0, year, days => (year, monthAfter year 12 1 days)
  | left + 1, year, days =>
      if days < daysInYear year then (year, monthAfter year 12 1 days)
      else dayAfter left (year + 1) (days - daysInYear year)

end Scaffold.Calendar
