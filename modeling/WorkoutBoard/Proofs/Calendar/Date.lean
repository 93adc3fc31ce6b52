import Mathlib.Order.Monotone.Basic
import WorkoutBoard.Calendar.Date

/-!
# Dates and their views

The year of a date is the one whose days enclose it (`Date.year_eq_iff`), its month and day are
found by counting months off, and together they are the only civil form of the date
(`Date.ofCivil?_eq_some_iff`).
-/

namespace WorkoutBoard.Calendar

theorem eq_of_between {steps : Nat → Nat} (monotone : Monotone steps) {left right : Nat}
    (value : Nat) (leftBelow : steps left ≤ value) (leftAbove : value < steps (left + 1))
    (rightBelow : steps right ≤ value) (rightAbove : value < steps (right + 1)) : left = right := by
  have leftFirst := monotone.reflect_lt (Nat.lt_of_le_of_lt leftBelow rightAbove)
  have rightFirst := monotone.reflect_lt (Nat.lt_of_le_of_lt rightBelow leftAbove)
  omega

/-! ## Years -/

theorem daysBeforeYear_succ {year : Nat} (positive : 1 ≤ year) :
    daysBeforeYear (year + 1) = daysBeforeYear year + daysInYear year := by
  obtain ⟨past, rfl⟩ := Nat.exists_eq_add_of_le' positive
  have fewer : past / 100 ≤ past / 4 := by omega
  simp only [daysBeforeYear, Nat.add_sub_cancel, daysInYear, isLeapYear, Nat.succ_div,
    Nat.dvd_iff_mod_eq_zero]
  by_cases inSpan : (past + 1) % 4 = 0
  · by_cases inCentury : (past + 1) % 100 = 0
    · by_cases inCycle : (past + 1) % 400 = 0
      · simp [inSpan, inCentury, inCycle]
        omega
      · simp [inSpan, inCentury, inCycle]
        omega
    · have notCycle : ¬(past + 1) % 400 = 0 := by omega
      simp [inSpan, inCentury, notCycle]
      omega
  · have notCentury : ¬(past + 1) % 100 = 0 := by omega
    have notCycle : ¬(past + 1) % 400 = 0 := by omega
    simp [inSpan, notCentury, notCycle]
    omega

theorem daysBeforeYear_monotone : Monotone daysBeforeYear := by
  apply monotone_nat_of_le_succ
  intro year
  cases year with
  | zero => exact Nat.le_refl 0
  | succ past =>
      rw [daysBeforeYear_succ (Nat.succ_pos past)]
      exact Nat.le_add_right _ _

namespace Date

/-- A day number is split into cycles, centuries, spans of four years, years and days. The last
day of a leap year is the only one with the number 365. -/
theorem exists_ordinal (date : Date) :
    ∃ cycles centuries spans years rest : Nat,
      date.ordinal = (400 * cycles + 100 * centuries + 4 * spans + years + 1, rest) ∧
      date.dayNumber = 146097 * cycles + 36524 * centuries + 1461 * spans + 365 * years + rest ∧
      centuries ≤ 3 ∧ spans ≤ 24 ∧ years ≤ 3 ∧ rest ≤ 365 ∧
      (rest = 365 → years = 3 ∧ (spans = 24 → centuries = 3)) := by
  refine ⟨_, _, _, _, _, rfl, ?_⟩
  omega

theorem dayNumber_eq (date : Date) :
    date.dayNumber = daysBeforeYear date.year + date.ordinal.2 := by
  obtain ⟨cycles, centuries, spans, years, rest, ordinal, number, bounds⟩ := date.exists_ordinal
  rw [year, ordinal, number]
  simp only [daysBeforeYear, Nat.add_sub_cancel]
  omega

theorem ordinal_lt (date : Date) : date.ordinal.2 < daysInYear date.year := by
  obtain ⟨cycles, centuries, spans, years, rest, ordinal, -, bounds⟩ := date.exists_ordinal
  rw [year, ordinal, daysInYear]
  dsimp only
  split
  next => omega
  next common =>
    simp only [isLeapYear, Bool.and_eq_true, Bool.or_eq_true, beq_iff_eq, bne_iff_ne] at common
    omega

theorem year_pos (date : Date) : 1 ≤ date.year := Nat.le_add_left 1 _

theorem year_eq_iff (date : Date) (year : Nat) :
    date.year = year ↔
      daysBeforeYear year ≤ date.dayNumber ∧ date.dayNumber < daysBeforeYear (year + 1) := by
  have own := date.dayNumber_eq
  have inside := date.ordinal_lt
  have next := daysBeforeYear_succ date.year_pos
  constructor
  · rintro rfl
    omega
  · rintro ⟨below, above⟩
    exact eq_of_between daysBeforeYear_monotone date.dayNumber (by omega) (by omega) below above

end Date

/-! ## Months -/

theorem daysBeforeMonth_succ (year : Nat) {month : Nat} (positive : 1 ≤ month) :
    daysBeforeMonth year (month + 1) = daysBeforeMonth year month + daysInMonth year month := by
  obtain ⟨past, rfl⟩ := Nat.exists_eq_add_of_le' positive
  simp [daysBeforeMonth, List.range_succ]

theorem daysBeforeMonth_monotone (year : Nat) : Monotone (daysBeforeMonth year) := by
  apply monotone_nat_of_le_succ
  intro month
  cases month with
  | zero => exact Nat.le_refl 0
  | succ past =>
      rw [daysBeforeMonth_succ year (Nat.succ_pos past)]
      exact Nat.le_add_right _ _

theorem daysBeforeMonth_thirteen (year : Nat) : daysBeforeMonth year 13 = daysInYear year := by
  have february : daysInMonth year 2 = if isLeapYear year then 29 else 28 := rfl
  simp only [daysBeforeMonth, List.range, List.range.loop, List.foldl, daysInYear, february]
  cases isLeapYear year <;> rfl

theorem month_bounds {year month : Nat} (nonempty : 0 < daysInMonth year month) :
    1 ≤ month ∧ month ≤ 12 := by
  unfold daysInMonth at nonempty
  split at nonempty
  all_goals omega

namespace Date

/-- Counting months off keeps the sum of the days, and ends in a month that has the day. -/
theorem monthFrom_spec (year later : Nat) {month : Nat} (days : Nat) (positive : 1 ≤ month)
    (inside : daysBeforeMonth year month + days < daysBeforeMonth year (month + later + 1)) :
    (monthFrom year later month days).2 < daysInMonth year (monthFrom year later month days).1 ∧
      daysBeforeMonth year (monthFrom year later month days).1 +
          (monthFrom year later month days).2 = daysBeforeMonth year month + days := by
  induction later generalizing month days with
  | zero =>
      rw [Nat.add_zero, daysBeforeMonth_succ year positive] at inside
      exact ⟨Nat.lt_of_add_lt_add_left inside, rfl⟩
  | succ later inductive_step =>
      rw [monthFrom]
      split
      next fits => exact ⟨fits, rfl⟩
      next exceeds =>
        have next := daysBeforeMonth_succ year positive
        have moved : month + 1 + later + 1 = month + (later + 1) + 1 := by omega
        have step := inductive_step (days - daysInMonth year month) (Nat.le_add_left 1 month)
          (by rw [moved]; omega)
        exact ⟨step.1, by omega⟩

theorem monthAndDay_spec (date : Date) :
    date.monthAndDay.2 < daysInMonth date.year date.monthAndDay.1 ∧
      daysBeforeMonth date.year date.monthAndDay.1 + date.monthAndDay.2 = date.ordinal.2 := by
  have first : daysBeforeMonth date.year 1 = 0 := rfl
  have inside := date.ordinal_lt
  rw [← daysBeforeMonth_thirteen] at inside
  have found := monthFrom_spec date.year 11 date.ordinal.2 (Nat.le_refl 1)
    (by rw [first, Nat.zero_add]; exact inside)
  rw [first, Nat.zero_add] at found
  exact found

theorem ofCivil?_eq_some_iff (year month day : Nat) (date : Date) :
    ofCivil? year month day = some date ↔
      date.year = year ∧ date.month = month ∧ date.day = day := by
  obtain ⟨dayInside, days⟩ := date.monthAndDay_spec
  have number := date.dayNumber_eq
  constructor
  · intro found
    rw [ofCivil?] at found
    split at found
    next inRange =>
      obtain ⟨yearPositive, dayPositive, last⟩ := inRange
      obtain ⟨monthPositive, monthLast⟩ := month_bounds (Nat.lt_of_lt_of_le dayPositive last)
      have whole := congrArg dayNumber (Option.some.inj found)
      dsimp only at whole
      have next := daysBeforeMonth_succ year monthPositive
      have withinYear := daysBeforeMonth_monotone year (Nat.add_le_add_right monthLast 1)
      rw [daysBeforeMonth_thirteen] at withinYear
      obtain rfl : date.year = year := by
        rw [year_eq_iff, daysBeforeYear_succ yearPositive]
        omega
      have ownNext := daysBeforeMonth_succ date.year
        (month_bounds (Nat.lt_of_le_of_lt (Nat.zero_le _) dayInside)).1
      have sameMonth : date.monthAndDay.1 = month :=
        eq_of_between (daysBeforeMonth_monotone date.year) date.ordinal.2 (by omega) (by omega)
          (by omega) (by omega)
      refine ⟨rfl, sameMonth, ?_⟩
      rw [sameMonth] at days
      rw [Date.day]
      omega
    next => cases found
  · rintro ⟨rfl, rfl, rfl⟩
    rw [ofCivil?, if_pos ⟨date.year_pos, Nat.le_add_left 1 _, dayInside⟩, month, day]
    congr 2
    omega

end Date

end WorkoutBoard.Calendar
