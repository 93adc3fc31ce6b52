/-!
# Dates

Days of the Gregorian calendar from the year one on. A date is the number of days since the first
of January of that year, which was a Monday; year, month and day are views of this number.
-/

namespace WorkoutBoard.Calendar

/-- A day, counted from `0001-01-01`. -/
structure Date where
  dayNumber : Nat
deriving DecidableEq, Repr

def isLeapYear (year : Nat) : Bool :=
  year % 4 == 0 && (year % 100 != 0 || year % 400 == 0)

def daysInYear (year : Nat) : Nat := if isLeapYear year then 366 else 365

def daysInMonth (year month : Nat) : Nat :=
  match month with
  | 1 | 3 | 5 | 7 | 8 | 10 | 12 => 31
  | 4 | 6 | 9 | 11 => 30
  | 2 => if isLeapYear year then 29 else 28
  | _ => 0

def daysBeforeYear (year : Nat) : Nat :=
  let past := year - 1
  past * 365 + past / 4 - past / 100 + past / 400

def daysBeforeMonth (year month : Nat) : Nat :=
  (List.range (month - 1)).foldl (fun days index => days + daysInMonth year (index + 1)) 0

namespace Date

def ofCivil? (year month day : Nat) : Option Date :=
  if 1 ≤ year ∧ 1 ≤ day ∧ day ≤ daysInMonth year month then
    some ⟨daysBeforeYear year + daysBeforeMonth year month + (day - 1)⟩
  else
    none

/-- The year of a date and its day within the year, counted from zero. A century that ends a cycle
of four hundred years and a year that ends a cycle of four are one day longer than the others. -/
def ordinal (date : Date) : Nat × Nat :=
  let cycles := date.dayNumber / 146097
  let inCycle := date.dayNumber % 146097
  let centuries := min 3 (inCycle / 36524)
  let inCentury := inCycle - centuries * 36524
  let spans := inCentury / 1461
  let inSpan := inCentury % 1461
  let years := min 3 (inSpan / 365)
  (400 * cycles + 100 * centuries + 4 * spans + years + 1, inSpan - years * 365)

def year (date : Date) : Nat := date.ordinal.1

def monthFrom (year : Nat) : Nat → Nat → Nat → Nat × Nat
  | 0, month, days => (month, days)
  | later + 1, month, days =>
      if days < daysInMonth year month then (month, days)
      else monthFrom year later (month + 1) (days - daysInMonth year month)

def monthAndDay (date : Date) : Nat × Nat :=
  monthFrom date.year 11 1 date.ordinal.2

def month (date : Date) : Nat := date.monthAndDay.1

def day (date : Date) : Nat := date.monthAndDay.2 + 1

/-- The day of the week, with one for Monday and seven for Sunday. -/
def weekday (date : Date) : Nat := date.dayNumber % 7 + 1

end Date

end WorkoutBoard.Calendar
