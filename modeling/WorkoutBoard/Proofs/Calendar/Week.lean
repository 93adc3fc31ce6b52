import Mathlib.Data.Nat.Count
import WorkoutBoard.Calendar.Week
import WorkoutBoard.Proofs.Calendar.Date

/-!
# Week dates

A week belongs to the calendar year of its Thursday, and is numbered by how many Thursdays that year
has had. Every date has one week date (`Date.IsWeekDate`), and a year and a week are read as exactly
the days of which they are the week date (`Date.ofWeek?_eq_some_iff`).
-/

namespace WorkoutBoard.Calendar

namespace Date

def thursday (date : Date) : Date := ⟨date.dayNumber - date.dayNumber % 7 + 3⟩

/-- How many Thursdays the calendar year of a date has had with that date. -/
def thursdayCount (date : Date) : Nat :=
  Nat.count (fun number => weekday ⟨number⟩ = 4 ∧ year ⟨number⟩ = date.year) (date.dayNumber + 1)

/-- The year, the week and the day of the week of a date. -/
structure IsWeekDate (date : Date) (year week weekday : Nat) : Prop where
  year : date.thursday.year = year
  week : date.thursday.thursdayCount = week
  weekday : date.weekday = weekday

end Date

/-! ## The Thursdays of a year -/

theorem firstMonday_bounds (year : Nat) :
    daysBeforeYear year ≤ firstMonday year + 3 ∧ firstMonday year + 3 < daysBeforeYear year + 7 ∧
      firstMonday year % 7 = 0 := by
  simp only [firstMonday]
  omega

theorem firstMonday_succ (year : Nat) :
    firstMonday (year + 1) = firstMonday year + 7 * weeksIn year := by
  have ordered := daysBeforeYear_monotone (Nat.le_add_right year 1)
  have first := firstMonday_bounds year
  have next := firstMonday_bounds (year + 1)
  rw [weeksIn]
  omega

theorem count_thursdays {year weeks : Nat}
    (inside : firstMonday year + 3 + 7 * weeks < daysBeforeYear (year + 1)) :
    Nat.count (fun number => Date.weekday ⟨number⟩ = 4 ∧ Date.year ⟨number⟩ = year)
      (firstMonday year + 3 + 7 * weeks + 1) = weeks + 1 := by
  have first := firstMonday_bounds year
  have progression : (Finset.range (firstMonday year + 3 + 7 * weeks + 1)).filter
        (fun number => Date.weekday ⟨number⟩ = 4 ∧ Date.year ⟨number⟩ = year) =
      (Finset.range (weeks + 1)).image fun earlier => firstMonday year + 3 + 7 * earlier := by
    ext number
    simp only [Finset.mem_filter, Finset.mem_range, Finset.mem_image, Date.weekday,
      Date.year_eq_iff]
    constructor
    · intro counted
      exact ⟨(number - (firstMonday year + 3)) / 7, by omega, by omega⟩
    · rintro ⟨earlier, bound, rfl⟩
      omega
  have injective : Function.Injective fun earlier => firstMonday year + 3 + 7 * earlier := by
    intro left right same
    dsimp only at same
    omega
  rw [Nat.count_eq_card_filter_range, progression, Finset.card_image_of_injective _ injective,
    Finset.card_range]

namespace Date

/-- The Thursday of a week is as many weeks after the first one of its year as the number of the
week says. -/
theorem thursday_eq (date : Date) :
    date.thursday.dayNumber = firstMonday date.weekYear + 3 + 7 * (date.week - 1) ∧
      1 ≤ date.week ∧ date.week ≤ weeksIn date.weekYear := by
  obtain ⟨below, above⟩ := (date.thursday.year_eq_iff date.weekYear).mp rfl
  have first := firstMonday_bounds date.weekYear
  have last := firstMonday_bounds (date.weekYear + 1)
  rw [firstMonday_succ] at last
  rw [thursday] at below above ⊢
  rw [week]
  dsimp only at below above ⊢
  omega

theorem thursdayCount_thursday (date : Date) : date.thursday.thursdayCount = date.week := by
  obtain ⟨number, positive, -⟩ := date.thursday_eq
  have inside := ((date.thursday.year_eq_iff date.weekYear).mp rfl).2
  rw [number] at inside
  have counted := count_thursdays inside
  rw [Nat.sub_add_cancel positive] at counted
  rw [thursdayCount, number]
  exact counted

theorem isWeekDate_iff (date : Date) (year week weekday : Nat) :
    date.IsWeekDate year week weekday ↔
      date.weekYear = year ∧ date.week = week ∧ date.weekday = weekday := by
  constructor
  · rintro ⟨sameYear, sameWeek, sameWeekday⟩
    exact ⟨sameYear, date.thursdayCount_thursday.symm.trans sameWeek, sameWeekday⟩
  · rintro ⟨sameYear, sameWeek, sameWeekday⟩
    exact ⟨sameYear, date.thursdayCount_thursday.trans sameWeek, sameWeekday⟩

theorem ofWeek?_eq_some_iff (year week weekday : Nat) (date : Date) :
    ofWeek? year week weekday = some date ↔ date.IsWeekDate year week weekday := by
  rw [isWeekDate_iff]
  constructor
  · intro found
    rw [ofWeek?] at found
    split at found
    next inRange =>
      have first := firstMonday_bounds year
      have last := firstMonday_bounds (year + 1)
      rw [firstMonday_succ] at last
      have number := congrArg dayNumber (Option.some.inj found)
      dsimp only at number
      have sameYear : date.weekYear = year := by
        rw [weekYear, year_eq_iff]
        dsimp only
        omega
      refine ⟨sameYear, ?_, ?_⟩
      · rw [Date.week, sameYear]
        omega
      · rw [Date.weekday]
        omega
    next => cases found
  · rintro ⟨rfl, rfl, rfl⟩
    obtain ⟨number, positive, last⟩ := date.thursday_eq
    have yearPositive : 1 ≤ date.weekYear := year_pos _
    rw [thursday] at number
    dsimp only at number
    rw [ofWeek?, if_pos (by rw [Date.weekday]; omega), Date.weekday]
    congr 2
    omega

theorem exists_ofWeek?_iff (year week : Nat) {weekday : Nat} (first : 1 ≤ weekday)
    (last : weekday ≤ 7) :
    (∃ date, ofWeek? year week weekday = some date) ↔
      ∃ thursday : Date, thursday.weekday = 4 ∧ thursday.year = year ∧
        thursday.thursdayCount = week := by
  constructor
  · rintro ⟨date, found⟩
    have weekDate := (ofWeek?_eq_some_iff year week weekday date).mp found
    refine ⟨date.thursday, ?_, weekDate.year, weekDate.week⟩
    rw [Date.weekday, thursday]
    dsimp only
    omega
  · rintro ⟨thursday, isThursday, rfl, rfl⟩
    have own : thursday.thursday = thursday := by
      rw [Date.weekday] at isThursday
      rw [Date.thursday, Date.mk.injEq]
      omega
    have weekDate : thursday.IsWeekDate thursday.year thursday.thursdayCount 4 :=
      ⟨congrArg Date.year own, congrArg thursdayCount own, isThursday⟩
    have found := (ofWeek?_eq_some_iff _ _ _ thursday).mpr weekDate
    rw [ofWeek?] at found
    split at found
    next inRange =>
      obtain ⟨yearPositive, positive, within, -⟩ := inRange
      exact ⟨_, if_pos ⟨yearPositive, positive, within, first, last⟩⟩
    next => cases found

end Date

end WorkoutBoard.Calendar
