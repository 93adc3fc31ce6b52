import WorkoutBoard.Calendar.Timestamp
import WorkoutBoard.Proofs.Text.Decimal

/-!
# Spellings of timestamps

A `Spelling` says how a timestamp is written: the form of its date, the character after it, and the
forms of its time and of its distance from universal time. `Spelling.text` writes it out, and
`Spelling.Denotes` says which timestamp it stands for.
-/

namespace WorkoutBoard.Calendar

open Text.Decimal (digits)

/-! ## Dates -/

/-- How a day is written after its year: by month and day, by week, or by week and weekday. -/
inductive DaySpelling where
  | civil (month day : Nat)
  | monday (week : Nat)
  | weekday (week day : Nat)
deriving DecidableEq, Repr

/-- The date of a year and a day, of which an extended form separates the parts by hyphens. -/
structure DateSpelling where
  extended : Bool
  year : Nat
  day : DaySpelling
deriving DecidableEq, Repr

def hyphen (extended : Bool) : List Char := if extended then ['-'] else []

def DaySpelling.text (extended : Bool) : DaySpelling → List Char
  | .civil month day => digits 2 month ++ (hyphen extended ++ digits 2 day)
  | .monday week => 'W' :: digits 2 week
  | .weekday week day =>
      'W' :: (digits 2 week ++ (hyphen extended ++ digits 1 day))

def DaySpelling.date? (year : Nat) : DaySpelling → Option Date
  | .civil month day => Date.ofCivil? year month day
  | .monday week => Date.ofWeek? year week 1
  | .weekday week day => Date.ofWeek? year week day

namespace DateSpelling

def text (spelling : DateSpelling) : List Char :=
  digits 4 spelling.year ++
    (hyphen spelling.extended ++ spelling.day.text spelling.extended)

structure Denotes (spelling : DateSpelling) (date : Date) : Prop where
  year : spelling.year ≤ 9999
  date : spelling.day.date? spelling.year = some date

def isExtendedWeekday (spelling : DateSpelling) : Bool :=
  match spelling.day with
  | .weekday _ _ => spelling.extended
  | _ => false

end DateSpelling

/-! ## Clock readings -/

structure FractionSpelling where
  comma : Bool
  places : List Char
deriving DecidableEq, Repr

namespace FractionSpelling

def mark (comma : Bool) : Char := if comma then ',' else '.'

def text (spelling : FractionSpelling) : List Char := mark spelling.comma :: spelling.places

def micro (spelling : FractionSpelling) : Nat :=
  (Text.Decimal.natural? ((spelling.places ++ List.replicate 6 '0').take 6)).getD 0

structure IsSound (spelling : FractionSpelling) : Prop where
  nonempty : spelling.places ≠ []
  places : ∀ digit ∈ spelling.places, digit.isDigit = true

def optionalText : Option FractionSpelling → List Char
  | none => []
  | some fraction => fraction.text

end FractionSpelling

inductive RestSpelling where
  | nothing
  | minutes (extended : Bool) (minute : Nat)
  | seconds (extended : Bool) (minute second : Nat) (fraction : Option FractionSpelling)
deriving DecidableEq, Repr

def colon (extended : Bool) : List Char := if extended then [':'] else []

namespace RestSpelling

def text : RestSpelling → List Char
  | .nothing => []
  | .minutes extended minute => colon extended ++ digits 2 minute
  | .seconds extended minute second fraction =>
      colon extended ++ (digits 2 minute ++
        (colon extended ++ (digits 2 second ++ FractionSpelling.optionalText fraction)))

def clock (hour : Nat) : RestSpelling → Clock
  | .nothing => ⟨hour, 0, 0, 0⟩
  | .minutes _ minute => ⟨hour, minute, 0, 0⟩
  | .seconds _ minute second fraction =>
      ⟨hour, minute, second, (fraction.map FractionSpelling.micro).getD 0⟩

def IsSound : RestSpelling → Prop
  | .nothing => True
  | .minutes _ minute => minute ≤ 99
  | .seconds _ minute second fraction =>
      minute ≤ 99 ∧ second ≤ 99 ∧ ∀ written ∈ fraction, written.IsSound

end RestSpelling

structure ClockSpelling where
  hour : Nat
  rest : RestSpelling
deriving DecidableEq, Repr

namespace ClockSpelling

def text (spelling : ClockSpelling) : List Char := digits 2 spelling.hour ++ spelling.rest.text

def clock (spelling : ClockSpelling) : Clock := spelling.rest.clock spelling.hour

structure IsSound (spelling : ClockSpelling) : Prop where
  hour : spelling.hour ≤ 99
  rest : spelling.rest.IsSound

end ClockSpelling

/-! ## Timestamps -/

structure Spelling where
  date : DateSpelling
  separator : Char
  time : ClockSpelling
  negative : Bool
  distance : ClockSpelling
deriving DecidableEq, Repr

namespace Spelling

def sign (negative : Bool) : Char := if negative then '-' else '+'

def text (spelling : Spelling) : List Char :=
  spelling.date.text ++ spelling.separator ::
    (spelling.time.text ++ sign spelling.negative :: spelling.distance.text)

/-- What a spelling stands for. A digit may follow every date but one written `YYYY-Www-D`. The
distance has bounds only as a whole. -/
structure Denotes (spelling : Spelling) (timestamp : Timestamp) : Prop where
  date : spelling.date.Denotes timestamp.date
  separator : spelling.date.isExtendedWeekday = true → spelling.separator.isDigit = false
  time : spelling.time.IsSound
  clock : spelling.time.clock = timestamp.clock
  ofDay : timestamp.clock.hour < 24 ∧ timestamp.clock.minute < 60 ∧ timestamp.clock.second < 60
  distance : spelling.distance.IsSound
  short : spelling.distance.clock.micros < Clock.microsPerDay
  offset : timestamp.offset =
    if spelling.negative then -(spelling.distance.clock.micros : Int)
    else spelling.distance.clock.micros

end Spelling

/-! ## What can be written with so many digits -/

theorem le_of_ofCivil? {year month day : Nat} {date : Date}
    (found : Date.ofCivil? year month day = some date) : month ≤ 12 ∧ day ≤ 31 := by
  rw [Date.ofCivil?] at found
  split at found
  next inRange =>
    obtain ⟨-, first, last⟩ := inRange
    unfold daysInMonth at last
    split at last
    all_goals try split at last
    all_goals omega
  next => cases found

theorem weeksIn_le (year : Nat) : weeksIn year ≤ 53 := by
  have length : daysBeforeYear (year + 1) ≤ daysBeforeYear year + 366 := by
    simp only [daysBeforeYear]
    omega
  simp only [weeksIn, firstMonday]
  omega

theorem le_of_ofWeek? {year week day : Nat} {date : Date}
    (found : Date.ofWeek? year week day = some date) : week ≤ 53 ∧ day ≤ 7 := by
  rw [Date.ofWeek?] at found
  split at found
  next inRange =>
    have last := weeksIn_le year
    omega
  next => cases found

def DaySpelling.Fits : DaySpelling → Prop
  | .civil month day => month ≤ 99 ∧ day ≤ 99
  | .monday week => week ≤ 99
  | .weekday week day => week ≤ 99 ∧ day ≤ 9

theorem DateSpelling.Denotes.fits {spelling : DateSpelling} {date : Date}
    (denotes : spelling.Denotes date) : spelling.day.Fits := by
  obtain ⟨extended, year, day⟩ := spelling
  have found := denotes.date
  cases day with
  | civil month day =>
      have bounds := le_of_ofCivil? found
      exact ⟨by omega, by omega⟩
  | monday week =>
      have bounds := le_of_ofWeek? found
      exact (by omega : week ≤ 99)
  | weekday week day =>
      have bounds := le_of_ofWeek? found
      exact ⟨by omega, by omega⟩

/-! ## The characters of a spelling -/

def isDateCharacter (character : Char) : Bool :=
  character.isDigit || character == '-' || character == 'W'

def isClockCharacter (character : Char) : Bool :=
  character.isDigit || character == ':' || character == '.' || character == ','

theorem isDateCharacter_of_mem_digits {width value : Nat} {character : Char}
    (member : character ∈ digits width value) : isDateCharacter character = true := by
  simp [isDateCharacter, Text.Decimal.isDigit_of_mem_digits member]

theorem isDateCharacter_of_mem_hyphen {extended : Bool} {character : Char}
    (member : character ∈ hyphen extended) : isDateCharacter character = true := by
  cases extended with
  | true =>
      rw [List.mem_singleton.mp member]
      decide
  | false => cases member

theorem DateSpelling.isDateCharacter_of_mem_text {spelling : DateSpelling} {character : Char}
    (member : character ∈ spelling.text) : isDateCharacter character = true := by
  obtain ⟨extended, year, day⟩ := spelling
  cases day with
  | civil month day =>
      simp only [text, DaySpelling.text, List.mem_append] at member
      rcases member with inYear | inHyphen | inMonth | inHyphen | inDay
      · exact isDateCharacter_of_mem_digits inYear
      · exact isDateCharacter_of_mem_hyphen inHyphen
      · exact isDateCharacter_of_mem_digits inMonth
      · exact isDateCharacter_of_mem_hyphen inHyphen
      · exact isDateCharacter_of_mem_digits inDay
  | monday week =>
      simp only [text, DaySpelling.text, List.mem_append, List.mem_cons] at member
      rcases member with inYear | inHyphen | rfl | inWeek
      · exact isDateCharacter_of_mem_digits inYear
      · exact isDateCharacter_of_mem_hyphen inHyphen
      · decide
      · exact isDateCharacter_of_mem_digits inWeek
  | weekday week day =>
      simp only [text, DaySpelling.text, List.mem_append, List.mem_cons] at member
      rcases member with inYear | inHyphen | rfl | inWeek | inHyphen | inDay
      · exact isDateCharacter_of_mem_digits inYear
      · exact isDateCharacter_of_mem_hyphen inHyphen
      · decide
      · exact isDateCharacter_of_mem_digits inWeek
      · exact isDateCharacter_of_mem_hyphen inHyphen
      · exact isDateCharacter_of_mem_digits inDay

theorem isClockCharacter_of_isDigit {character : Char} (isDigit : character.isDigit = true) :
    isClockCharacter character = true := by
  simp [isClockCharacter, isDigit]

theorem isClockCharacter_of_mem_digits {width value : Nat} {character : Char}
    (member : character ∈ digits width value) : isClockCharacter character = true :=
  isClockCharacter_of_isDigit (Text.Decimal.isDigit_of_mem_digits member)

theorem isClockCharacter_of_mem_colon {extended : Bool} {character : Char}
    (member : character ∈ colon extended) : isClockCharacter character = true := by
  cases extended with
  | true =>
      rw [List.mem_singleton.mp member]
      decide
  | false => cases member

theorem FractionSpelling.isClockCharacter_of_mem_optionalText {fraction : Option FractionSpelling}
    (sound : ∀ written ∈ fraction, written.IsSound) {character : Char}
    (member : character ∈ optionalText fraction) : isClockCharacter character = true := by
  cases fraction with
  | none => cases member
  | some fraction =>
      rcases List.mem_cons.mp member with mark | place
      · rw [mark]
        cases fraction.comma <;> decide
      · exact isClockCharacter_of_isDigit ((sound fraction rfl).places character place)

theorem ClockSpelling.isClockCharacter_of_mem_text {spelling : ClockSpelling}
    (sound : spelling.IsSound) {character : Char} (member : character ∈ spelling.text) :
    isClockCharacter character = true := by
  obtain ⟨hour, rest⟩ := spelling
  rcases List.mem_append.mp member with inHour | inRest
  · exact isClockCharacter_of_mem_digits inHour
  cases rest with
  | nothing => cases inRest
  | minutes extended minute =>
      rcases List.mem_append.mp inRest with inColon | inMinute
      · exact isClockCharacter_of_mem_colon inColon
      · exact isClockCharacter_of_mem_digits inMinute
  | seconds extended minute second fraction =>
      simp only [RestSpelling.text, List.mem_append] at inRest
      rcases inRest with inColon | inMinute | inColon | inSecond | inFraction
      · exact isClockCharacter_of_mem_colon inColon
      · exact isClockCharacter_of_mem_digits inMinute
      · exact isClockCharacter_of_mem_colon inColon
      · exact isClockCharacter_of_mem_digits inSecond
      · exact FractionSpelling.isClockCharacter_of_mem_optionalText sound.rest.2.2 inFraction

/-! ## No text is spelled in two ways -/

theorem isDigit_ne {character other : Char} (isDigit : character.isDigit = true)
    (different : other.isDigit = false) : character ≠ other := by
  rintro rfl
  rw [isDigit] at different
  cases different

theorem DaySpelling.text_ne_hyphen (day : DaySpelling) (extended : Bool) (later : List Char) :
    day.text extended ≠ '-' :: later := by
  cases day with
  | civil month day => exact Text.Decimal.digits_append_ne (by decide) 2 month _ later
  | monday week => exact fun equal => absurd (List.cons.inj equal).1 (by decide)
  | weekday week day => exact fun equal => absurd (List.cons.inj equal).1 (by decide)

theorem DaySpelling.eq_of_text {extended : Bool} {left right : DaySpelling} (leftFits : left.Fits)
    (rightFits : right.Fits) (equal : left.text extended = right.text extended) : left = right := by
  have notW : 'W'.isDigit = false := by decide
  -- The cases off the diagonal differ in their first letter or in their length.
  cases left with
  | civil month day =>
      cases right with
      | civil otherMonth otherDay =>
          obtain ⟨month, rest⟩ := Text.Decimal.digits_append_inj (by decide)
            (by have := leftFits.1; omega) (by have := rightFits.1; omega) equal
          rw [month, Text.Decimal.digits_injective 2 (List.append_cancel_left rest)]
      | monday => exact absurd equal (Text.Decimal.digits_append_ne notW 2 month _ _)
      | weekday => exact absurd equal (Text.Decimal.digits_append_ne notW 2 month _ _)
  | monday week =>
      cases right with
      | civil month => exact absurd equal.symm (Text.Decimal.digits_append_ne notW 2 month _ _)
      | monday other =>
          rw [Text.Decimal.digits_injective 2 (List.cons.inj equal).2]
      | weekday otherWeek otherDay =>
          have tails := (List.append_nil _).trans (List.cons.inj equal).2
          obtain ⟨-, rest⟩ := Text.Decimal.digits_append_inj (by decide)
            (by have : week ≤ 99 := leftFits; omega) (by have := rightFits.1; omega) tails
          exact absurd (List.append_eq_nil_iff.mp rest.symm).2 (Text.Decimal.digits_ne_nil 1 _)
  | weekday week day =>
      cases right with
      | civil month => exact absurd equal.symm (Text.Decimal.digits_append_ne notW 2 month _ _)
      | monday other =>
          have tails := (List.append_nil _).trans (List.cons.inj equal.symm).2
          obtain ⟨-, rest⟩ := Text.Decimal.digits_append_inj (by decide)
            (by have : other ≤ 99 := rightFits; omega) (by have := leftFits.1; omega) tails
          exact absurd (List.append_eq_nil_iff.mp rest.symm).2 (Text.Decimal.digits_ne_nil 1 _)
      | weekday otherWeek otherDay =>
          obtain ⟨week, rest⟩ := Text.Decimal.digits_append_inj (by decide)
            (by have := leftFits.1; omega) (by have := rightFits.1; omega) (List.cons.inj equal).2
          rw [week, Text.Decimal.digits_injective 1 (List.append_cancel_left rest)]

theorem DateSpelling.eq_of_text {left right : DateSpelling} {date other : Date}
    (leftDenotes : left.Denotes date) (rightDenotes : right.Denotes other)
    (equal : left.text = right.text) : left = right := by
  have leftFits := leftDenotes.fits
  have rightFits := rightDenotes.fits
  obtain ⟨years, rest⟩ := Text.Decimal.digits_append_inj (by decide)
    (by have := leftDenotes.year; omega) (by have := rightDenotes.year; omega) equal
  obtain ⟨extended, year, day⟩ := left
  obtain ⟨otherExtended, otherYear, otherDay⟩ := right
  cases extended with
  | true =>
      cases otherExtended with
      | true =>
          have days := DaySpelling.eq_of_text leftFits rightFits (List.append_cancel_left rest)
          exact DateSpelling.mk.injEq .. ▸ ⟨rfl, years, days⟩
      | false => exact absurd rest.symm (otherDay.text_ne_hyphen false _)
  | false =>
      cases otherExtended with
      | true => exact absurd rest (day.text_ne_hyphen false _)
      | false =>
          have days := DaySpelling.eq_of_text leftFits rightFits (List.append_cancel_left rest)
          exact DateSpelling.mk.injEq .. ▸ ⟨rfl, years, days⟩

theorem FractionSpelling.mark_injective :
    ∀ left right : Bool, mark left = mark right → left = right := by decide

theorem FractionSpelling.optionalText_injective : Function.Injective optionalText := by
  intro left right equal
  cases left with
  | none =>
      cases right with
      | none => rfl
      | some fraction => cases equal
  | some fraction =>
      cases right with
      | none => cases equal
      | some other =>
          obtain ⟨marks, places⟩ := List.cons.inj equal
          have commas := mark_injective _ _ marks
          exact congrArg some (FractionSpelling.mk.injEq .. ▸ ⟨commas, places⟩)

namespace RestSpelling

theorem colon_append_inj {extended other : Bool} {left right : Nat} {rest later : List Char}
    (leftFits : left ≤ 99) (rightFits : right ≤ 99)
    (equal : colon extended ++ (digits 2 left ++ rest) = colon other ++ (digits 2 right ++ later)) :
    extended = other ∧ left = right ∧ rest = later := by
  have notColon : ':'.isDigit = false := by decide
  cases extended with
  | true =>
      cases other with
      | true =>
          exact ⟨rfl, Text.Decimal.digits_append_inj (by decide) (by omega) (by omega)
            (List.append_cancel_left equal)⟩
      | false => exact absurd equal.symm (Text.Decimal.digits_append_ne notColon 2 right _ _)
  | false =>
      cases other with
      | true => exact absurd equal (Text.Decimal.digits_append_ne notColon 2 left _ _)
      | false =>
          exact ⟨rfl, Text.Decimal.digits_append_inj (by decide) (by omega) (by omega)
            (List.append_cancel_left equal)⟩

theorem colon_append_ne_nil (extended : Bool) (value : Nat) (rest : List Char) :
    colon extended ++ (digits 2 value ++ rest) ≠ [] := fun nothing =>
  Text.Decimal.digits_ne_nil 2 value
    (List.append_eq_nil_iff.mp (List.append_eq_nil_iff.mp nothing).2).1

theorem text_minutes (extended : Bool) (minute : Nat) :
    (minutes extended minute).text = colon extended ++ (digits 2 minute ++ []) := by
  rw [List.append_nil, text]

theorem text_minutes_ne {extended other : Bool} {minute otherMinute second : Nat}
    {fraction : Option FractionSpelling} (fits : minute ≤ 99) (otherFits : otherMinute ≤ 99) :
    (minutes extended minute).text ≠ (seconds other otherMinute second fraction).text := by
  intro equal
  rw [text_minutes] at equal
  obtain ⟨-, -, rest⟩ := colon_append_inj fits otherFits equal
  exact colon_append_ne_nil _ _ _ rest.symm

theorem eq_of_text {left right : RestSpelling} (leftSound : left.IsSound)
    (rightSound : right.IsSound) (equal : left.text = right.text) : left = right := by
  cases left with
  | nothing =>
      cases right with
      | nothing => rfl
      | minutes extended minute =>
          rw [text_minutes] at equal
          exact absurd equal.symm (colon_append_ne_nil extended minute _)
      | seconds extended minute => exact absurd equal.symm (colon_append_ne_nil extended minute _)
  | minutes extended minute =>
      cases right with
      | nothing =>
          rw [text_minutes] at equal
          exact absurd equal (colon_append_ne_nil extended minute _)
      | minutes other otherMinute =>
          rw [text_minutes, text_minutes] at equal
          obtain ⟨rfl, rfl, -⟩ := colon_append_inj leftSound rightSound equal
          rfl
      | seconds => exact absurd equal (text_minutes_ne leftSound rightSound.1)
  | seconds extended minute second fraction =>
      cases right with
      | nothing => exact absurd equal (colon_append_ne_nil extended minute _)
      | minutes => exact absurd equal.symm (text_minutes_ne rightSound leftSound.1)
      | seconds other otherMinute otherSecond otherFraction =>
          obtain ⟨rfl, rfl, rest⟩ := colon_append_inj leftSound.1 rightSound.1 equal
          obtain ⟨-, rfl, fractions⟩ := colon_append_inj leftSound.2.1 rightSound.2.1 rest
          rw [FractionSpelling.optionalText_injective fractions]

end RestSpelling

theorem ClockSpelling.eq_of_text {left right : ClockSpelling} (leftSound : left.IsSound)
    (rightSound : right.IsSound) (equal : left.text = right.text) : left = right := by
  obtain ⟨hours, rest⟩ := Text.Decimal.digits_append_inj (by decide)
    (by have := leftSound.hour; omega) (by have := rightSound.hour; omega) equal
  have rests := RestSpelling.eq_of_text leftSound.rest rightSound.rest rest
  exact ClockSpelling.mk.injEq .. ▸ ⟨hours, rests⟩

end WorkoutBoard.Calendar
