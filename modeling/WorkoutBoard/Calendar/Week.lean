import WorkoutBoard.Calendar.Date

/-!
# Weeks

Weeks begin on a Monday and belong to the year of their Thursday. The first week of a year is
therefore the one with the fourth of January, and the last one ends where the next first one begins.
-/

namespace WorkoutBoard.Calendar

def firstMonday (year : Nat) : Nat :=
  let fourth := daysBeforeYear year + 3
  fourth - fourth % 7

def weeksIn (year : Nat) : Nat := (firstMonday (year + 1) - firstMonday year) / 7

def Date.ofWeek? (year week weekday : Nat) : Option Date :=
  if 1 ≤ year ∧ 1 ≤ week ∧ week ≤ weeksIn year ∧ 1 ≤ weekday ∧ weekday ≤ 7 then
    some ⟨firstMonday year + 7 * (week - 1) + (weekday - 1)⟩
  else
    none

/-- The year to which the week of a date belongs: the year of its Thursday. -/
def Date.weekYear (date : Date) : Nat :=
  Date.year ⟨date.dayNumber - date.dayNumber % 7 + 3⟩

def Date.week (date : Date) : Nat :=
  (date.dayNumber - firstMonday date.weekYear) / 7 + 1

end WorkoutBoard.Calendar
