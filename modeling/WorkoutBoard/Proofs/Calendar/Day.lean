import WorkoutBoard.Proofs.Calendar.Timestamp
import WorkoutBoard.Proofs.Calendar.Week

/-!
# Days, however they are spelled

The full spellings of a day are read alike in front of the same time of day and distance, and a week
date is read as the day of which it is the week date (`Timestamp.spellings_of_day_agree`). Years
have four digits, but the last week of the last of them ends in the year after it
(`Timestamp.year_of_ofChars?`).
-/

namespace WorkoutBoard.Calendar

/-! ## Dates in front of the same text -/

structure Frame where
  separator : Char
  time : ClockSpelling
  negative : Bool
  distance : ClockSpelling

namespace Frame

/-- A character that is no digit and may therefore follow every date, a time of day, and a distance
of less than a day. -/
structure IsSound (frame : Frame) : Prop where
  separator : frame.separator.isDigit = false
  time : frame.time.IsSound
  ofDay : frame.time.clock.hour < 24 ∧ frame.time.clock.minute < 60 ∧ frame.time.clock.second < 60
  distance : frame.distance.IsSound
  short : frame.distance.clock.micros < Clock.microsPerDay

def around (frame : Frame) (date : DateSpelling) : Spelling :=
  ⟨date, frame.separator, frame.time, frame.negative, frame.distance⟩

def timestamp (frame : Frame) (date : Date) : Timestamp :=
  ⟨date, frame.time.clock,
    if frame.negative then -(frame.distance.clock.micros : Int) else frame.distance.clock.micros⟩

theorem around_denotes {frame : Frame} (sound : frame.IsSound) {spelling : DateSpelling}
    {date : Date} (denotes : spelling.Denotes date) :
    (frame.around spelling).Denotes (frame.timestamp date) :=
  ⟨denotes, fun _ => sound.separator, sound.time, rfl, sound.ofDay, sound.distance, sound.short,
    rfl⟩

/-- Whether a text is read depends only on its date, and nothing else on the date. -/
theorem ofChars?_around {frame : Frame} (sound : frame.IsSound) {spelling : DateSpelling}
    (fourDigits : spelling.year ≤ 9999) (fits : spelling.day.Fits) :
    Timestamp.ofChars? (frame.around spelling).text =
      (spelling.day.date? spelling.year).map frame.timestamp := by
  cases found : spelling.day.date? spelling.year with
  | some date => exact Spelling.ofChars?_text (around_denotes sound ⟨fourDigits, found⟩)
  | none =>
      have written := DateSpelling.isWritten_text fourDigits fits
      have notDigit : (Spelling.sign frame.negative).isDigit = false := by
        cases frame.negative <;> decide
      have width := written.dateWidth (fun _ => sound.separator)
        (ClockSpelling.beginsEvenly_text sound.time notDigit frame.distance.text)
      have noDate := written.date?.trans found
      rw [Timestamp.ofChars?, around, Spelling.text, width, List.drop_left, List.take_left]
      dsimp only
      rw [noDate]
      rfl

end Frame

/-! ## Civil dates and week dates -/

def DaySpelling.week? : DaySpelling → Option (Nat × Nat)
  | .civil _ _ => none
  | .monday week => some (week, 1)
  | .weekday week day => some (week, day)

theorem DaySpelling.date?_of_week? {day : DaySpelling} {week weekday : Nat}
    (written : day.week? = some (week, weekday)) (year : Nat) :
    day.date? year = Date.ofWeek? year week weekday := by
  cases day with
  | civil month day => cases written
  | monday number => cases written; rfl
  | weekday number day => cases written; rfl

theorem DateSpelling.denotes_civil {date : Date} (fourDigits : date.year ≤ 9999)
    (extended : Bool) :
    DateSpelling.Denotes ⟨extended, date.year, .civil date.month date.day⟩ date :=
  ⟨fourDigits, (Date.ofCivil?_eq_some_iff _ _ _ _).mpr ⟨rfl, rfl, rfl⟩⟩

theorem DateSpelling.denotes_week {date : Date} {year week weekday : Nat}
    (fourDigits : year ≤ 9999) (weekDate : date.IsWeekDate year week weekday) (extended : Bool) :
    DateSpelling.Denotes ⟨extended, year, .weekday week weekday⟩ date :=
  ⟨fourDigits, (Date.ofWeek?_eq_some_iff _ _ _ _).mpr weekDate⟩

theorem daysBeforeYear_tenThousand : daysBeforeYear 10000 = 3652059 := rfl

theorem year_le_iff (date : Date) : date.year ≤ 9999 ↔ date.dayNumber < 3652059 := by
  have enclosed := (date.year_eq_iff date.year).mp rfl
  rw [← daysBeforeYear_tenThousand]
  constructor
  · intro fourDigits
    exact Nat.lt_of_lt_of_le enclosed.2 (daysBeforeYear_monotone (Nat.succ_le_succ fourDigits))
  · intro before
    have earlier := daysBeforeYear_monotone.reflect_lt (Nat.lt_of_le_of_lt enclosed.1 before)
    exact Nat.le_of_lt_succ earlier

/-- The first of January of the year 10000 is a Saturday, so the week before it ends in that year,
but its Thursday does not lie there. -/
theorem thursday_year_le_iff (date : Date) :
    date.thursday.year ≤ 9999 ↔ date.year ≤ 9999 ∨ date = ⟨3652059⟩ ∨ date = ⟨3652060⟩ := by
  rw [year_le_iff, year_le_iff, Date.thursday, Date.mk.injEq, Date.mk.injEq]
  dsimp only
  omega

/-- All full spellings of a day are read alike; a week date is read as the one day of which it is
the week date; and of a year exactly those weeks are read that one of its Thursdays has as its
number. -/
theorem Timestamp.spellings_of_day_agree :
    (∀ (frame : Frame) (date : Date) (year week weekday : Nat), frame.IsSound →
      date.year ≤ 9999 → date.IsWeekDate year week weekday →
        ∀ spelling ∈ ([⟨true, date.year, .civil date.month date.day⟩,
            ⟨false, date.year, .civil date.month date.day⟩,
            ⟨true, year, .weekday week weekday⟩,
            ⟨false, year, .weekday week weekday⟩] : List DateSpelling),
          ofChars? (frame.around spelling).text = some (frame.timestamp date)) ∧
    (∀ (text : List Char) (timestamp : Timestamp), ofChars? text = some timestamp →
      ∃ spelling : Spelling, spelling.text = text ∧ spelling.Denotes timestamp ∧
        ∀ week weekday, spelling.date.day.week? = some (week, weekday) →
          ∀ date : Date,
            date.IsWeekDate spelling.date.year week weekday ↔ date = timestamp.date) ∧
    (∀ (frame : Frame) (extended : Bool) (year : Nat) (day : DaySpelling) (week weekday : Nat),
      frame.IsSound → year ≤ 9999 → day.week? = some (week, weekday) → week ≤ 99 →
        1 ≤ weekday → weekday ≤ 7 →
          ((∃ timestamp, ofChars? (frame.around ⟨extended, year, day⟩).text = some timestamp) ↔
            ∃ thursday : Date, thursday.weekday = 4 ∧ thursday.year = year ∧
              thursday.thursdayCount = week)) := by
  refine ⟨?_, ?_, ?_⟩
  · intro frame date year week weekday sound fourDigits weekDate spelling member
    have yearFits : year ≤ 9999 := by
      rw [← weekDate.year, thursday_year_le_iff]
      exact .inl fourDigits
    have denotes : spelling.Denotes date := by
      simp only [List.mem_cons, List.not_mem_nil, or_false] at member
      rcases member with rfl | rfl | rfl | rfl
      · exact DateSpelling.denotes_civil fourDigits true
      · exact DateSpelling.denotes_civil fourDigits false
      · exact DateSpelling.denotes_week yearFits weekDate true
      · exact DateSpelling.denotes_week yearFits weekDate false
    exact Spelling.ofChars?_text (frame.around_denotes sound denotes)
  · intro text timestamp read
    obtain ⟨spelling, same, denotes⟩ := Spelling.exists_of_ofChars? read
    refine ⟨spelling, same, denotes, ?_⟩
    intro week weekday written date
    have found := denotes.date.date
    rw [DaySpelling.date?_of_week? written] at found
    rw [← Date.ofWeek?_eq_some_iff, found]
    exact ⟨fun equal => (Option.some.inj equal).symm, fun equal => congrArg some equal.symm⟩
  · intro frame extended year day week weekday sound fourDigits written weekFits first last
    have fits : day.Fits := by
      cases day with
      | civil month day => cases written
      | monday number => cases written; exact weekFits
      | weekday number day => cases written; exact ⟨weekFits, by omega⟩
    rw [Frame.ofChars?_around sound fourDigits fits, DaySpelling.date?_of_week? written,
      ← Date.exists_ofWeek?_iff year week first last]
    cases Date.ofWeek? year week weekday <;> simp

theorem Timestamp.spellings_of_day_agree_at_new_year :
    let frame : Frame := ⟨'T', ⟨9, .minutes true 30⟩, true, ⟨3, .minutes false 30⟩⟩
    frame.IsSound ∧ Date.IsWeekDate ⟨737790⟩ 2020 53 5 ∧
      ofChars? "2021-01-01T09:30-0330".toList = some (frame.timestamp ⟨737790⟩) ∧
      ofChars? "2020W535T09:30-0330".toList = some (frame.timestamp ⟨737790⟩) ∧
      (∃ timestamp, ofChars? "2020-W53T09:30-0330".toList = some timestamp) := by
  intro frame
  have sound : frame.IsSound :=
    ⟨by decide, ⟨by decide, (by decide : 30 ≤ 99)⟩, by decide, ⟨by decide, (by decide : 30 ≤ 99)⟩,
      by decide⟩
  have weekDate : Date.IsWeekDate ⟨737790⟩ 2020 53 5 :=
    (Date.isWeekDate_iff _ _ _ _).mpr (by decide +kernel)
  have civil : (frame.around ⟨true, 2021, .civil 1 1⟩).text = "2021-01-01T09:30-0330".toList := by
    decide +kernel
  have week : (frame.around ⟨false, 2020, .weekday 53 5⟩).text = "2020W535T09:30-0330".toList := by
    decide +kernel
  have monday : (frame.around ⟨true, 2020, .monday 53⟩).text = "2020-W53T09:30-0330".toList := by
    decide +kernel
  obtain ⟨alike, -, weeks⟩ := spellings_of_day_agree
  have read := alike frame ⟨737790⟩ 2020 53 5 sound (by decide +kernel) weekDate
  refine ⟨sound, weekDate, ?_, ?_, ?_⟩
  · rw [← civil]
    exact read _ (by decide +kernel)
  · rw [← week]
    exact read _ (by decide +kernel)
  · rw [← monday]
    exact (weeks frame true 2020 (.monday 53) 53 1 sound (by decide) rfl (by decide) (by decide)
      (by decide)).mpr ⟨Date.thursday ⟨737790⟩, by decide, weekDate.year, weekDate.week⟩

/-! ## The last year -/

theorem DaySpelling.eq_weekday {day : DaySpelling} {week weekday : Nat}
    (written : day.week? = some (week, weekday)) (notMonday : weekday ≠ 1) :
    day = .weekday week weekday := by
  cases day with
  | civil month number => cases written
  | monday number => cases written; exact absurd rfl notMonday
  | weekday number day => cases written; rfl

theorem DateSpelling.Denotes.year_cases {spelling : DateSpelling} {date : Date}
    (denotes : spelling.Denotes date) :
    date.year ≤ 9999 ∨ date.year = 10000 ∧ spelling.year = 9999 ∧
      (spelling.day = .weekday 52 6 ∨ spelling.day = .weekday 52 7) := by
  obtain ⟨fourDigits, found⟩ := denotes
  cases written : spelling.day.week? with
  | none =>
      obtain ⟨extended, year, day⟩ := spelling
      cases day with
      | civil month day =>
          obtain ⟨sameYear, -⟩ := (Date.ofCivil?_eq_some_iff _ _ _ _).mp found
          exact .inl (sameYear ▸ fourDigits)
      | monday week => cases written
      | weekday week day => cases written
  | some parts =>
      obtain ⟨week, weekday⟩ := parts
      rw [DaySpelling.date?_of_week? written, Date.ofWeek?_eq_some_iff] at found
      rw [← found.year, thursday_year_le_iff] at fourDigits
      obtain ⟨sameYear, rfl, rfl⟩ := (Date.isWeekDate_iff _ _ _ _).mp found
      rcases fourDigits with inside | rfl | rfl
      · exact .inl inside
      · exact .inr ⟨by decide, sameYear.symm.trans (by decide),
          .inl (DaySpelling.eq_weekday written (by decide))⟩
      · exact .inr ⟨by decide, sameYear.symm.trans (by decide),
          .inr (DaySpelling.eq_weekday written (by decide))⟩

/-- The date of a timestamp lies in a year of at most four digits, unless it is written as one of
the last two days of the last week of 9999, which lie in the year after it. -/
theorem Timestamp.year_of_ofChars? {text : List Char} {timestamp : Timestamp}
    (read : ofChars? text = some timestamp) :
    1 ≤ timestamp.date.year ∧ timestamp.date.year ≤ 10000 ∧
      (timestamp.date.year = 10000 ↔ ∃ spelling : Spelling, spelling.text = text ∧
        spelling.Denotes timestamp ∧ spelling.date.year = 9999 ∧
          (spelling.date.day = .weekday 52 6 ∨ spelling.date.day = .weekday 52 7)) := by
  obtain ⟨spelling, same, denotes⟩ := Spelling.exists_of_ofChars? read
  have years := denotes.date.year_cases
  refine ⟨Date.year_pos _, by omega, ?_⟩
  constructor
  · intro fiveDigits
    rcases years with inside | ⟨-, last⟩
    · omega
    · exact ⟨spelling, same, denotes, last⟩
  · rintro ⟨other, -, otherDenotes, lastYear, lastDay⟩
    have found := otherDenotes.date.date
    rw [lastYear] at found
    rcases lastDay with saturday | sunday
    · rw [saturday] at found
      rw [← Option.some.inj found]
      decide
    · rw [sunday] at found
      rw [← Option.some.inj found]
      decide

theorem Timestamp.year_of_ofChars?_on_last_sunday :
    let timestamp : Timestamp := ⟨⟨3652060⟩, ⟨0, 0, 0, 0⟩, 0⟩
    ofChars? "9999-W52-7T00:00:00+00:00".toList = some timestamp ∧ timestamp.date.year = 10000 ∧
      ∃ spelling : Spelling, spelling.text = "9999-W52-7T00:00:00+00:00".toList ∧
        spelling.Denotes timestamp ∧ spelling.date.year = 9999 ∧
          (spelling.date.day = .weekday 52 6 ∨ spelling.date.day = .weekday 52 7) := by
  intro timestamp
  have read : ofChars? "9999-W52-7T00:00:00+00:00".toList = some timestamp := by decide +kernel
  exact ⟨read, by decide, (year_of_ofChars? read).2.2.mp (by decide)⟩

/-- A year of five digits is out of the range of years that can be written for a date. -/
theorem Timestamp.year_exceeds_four_digits :
    ¬∀ (text : String) (timestamp : Timestamp), isAware text = true →
      ofChars? (spellOutZulu text.toList) = some timestamp →
        1 ≤ timestamp.date.year ∧ timestamp.date.year ≤ 9999 := by
  intro inRange
  have last := inRange "9999-W52-7T00:00:00Z" ⟨⟨3652060⟩, ⟨0, 0, 0, 0⟩, 0⟩ (by decide +kernel)
    (by decide +kernel)
  exact absurd last.2 (by decide)

end WorkoutBoard.Calendar
