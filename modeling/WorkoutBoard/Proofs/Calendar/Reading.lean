import WorkoutBoard.Proofs.Calendar.Spelling

/-!
# Dates and clock readings are read as they are spelled

A text is read as a date if and only if a spelling of that date has this text
(`DateSpelling.Denotes.date?_text`, `DateSpelling.exists_of_date?`), and so it is for clock readings
(`ClockSpelling.ofChars?_text`, `ClockSpelling.exists_of_ofChars?`).
-/

namespace WorkoutBoard.Calendar

open Text.Decimal (digits natural?)
open Timestamp (weekday? year?)

/-! ## Numbers of a fixed width -/

theorem digits_one {value : Nat} (fits : value ≤ 9) :
    ∃ digit, digits 1 value = [digit] ∧ digit.isDigit = true ∧ weekday? digit = some value := by
  have length := Text.Decimal.length_digits (by decide : 0 < 1) (by omega : value < 10 ^ 1)
  have read := Text.Decimal.natural?_digits 1 value
  obtain ⟨digit, written⟩ := List.length_eq_one_iff.mp length
  rw [written] at read
  exact ⟨digit, written, Text.Decimal.isDigit_of_mem_digits (written ▸ List.mem_singleton_self _),
    read⟩

theorem digits_two {value : Nat} (fits : value ≤ 99) :
    ∃ tens ones, digits 2 value = [tens, ones] ∧ tens.isDigit = true ∧ ones.isDigit = true ∧
      Clock.twoDigits? tens ones = some value := by
  have length := Text.Decimal.length_digits (by decide : 0 < 2) (by omega : value < 10 ^ 2)
  have read := Text.Decimal.natural?_digits 2 value
  match written : digits 2 value, length with
  | [tens, ones], _ =>
      have isDigit : ∀ digit ∈ [tens, ones], digit.isDigit = true := fun digit member =>
        Text.Decimal.isDigit_of_mem_digits (written ▸ member)
      rw [written] at read
      exact ⟨tens, ones, rfl, isDigit tens (by simp), isDigit ones (by simp), read⟩

theorem digits_four {value : Nat} (fits : value ≤ 9999) :
    ∃ first second third fourth, digits 4 value = [first, second, third, fourth] ∧
      year? first second third fourth = some value := by
  have length := Text.Decimal.length_digits (by decide : 0 < 4) (by omega : value < 10 ^ 4)
  have read := Text.Decimal.natural?_digits 4 value
  match written : digits 4 value, length with
  | [first, second, third, fourth], _ =>
      rw [written] at read
      exact ⟨first, second, third, fourth, rfl, read⟩

theorem of_weekday? {digit : Char} {value : Nat} (read : weekday? digit = some value) :
    digits 1 value = [digit] :=
  ((Text.Decimal.natural?_eq_some_iff (by decide : 0 < 1) rfl value).mp read).2

theorem of_twoDigits? {tens ones : Char} {value : Nat}
    (read : Clock.twoDigits? tens ones = some value) :
    value ≤ 99 ∧ digits 2 value = [tens, ones] := by
  obtain ⟨fits, written⟩ :=
    (Text.Decimal.natural?_eq_some_iff (by decide : 0 < 2) rfl value).mp read
  exact ⟨by omega, written⟩

theorem of_year? {first second third fourth : Char} {value : Nat}
    (read : year? first second third fourth = some value) :
    value ≤ 9999 ∧ digits 4 value = [first, second, third, fourth] := by
  obtain ⟨fits, written⟩ :=
    (Text.Decimal.natural?_eq_some_iff (by decide : 0 < 4) rfl value).mp read
  exact ⟨by omega, written⟩

/-! ## Dates -/

namespace DateSpelling

/-- The characters of a spelling, one by one, and the numbers that they are read as. -/
inductive IsWritten : DateSpelling → List Char → Prop
  | extendedCivil {y1 y2 y3 y4 m1 m2 d1 d2 : Char} {year month day : Nat}
      (yearRead : year? y1 y2 y3 y4 = some year) (monthRead : Clock.twoDigits? m1 m2 = some month)
      (isDigit : m1.isDigit = true) (dayRead : Clock.twoDigits? d1 d2 = some day) :
      IsWritten ⟨true, year, .civil month day⟩ [y1, y2, y3, y4, '-', m1, m2, '-', d1, d2]
  | basicCivil {y1 y2 y3 y4 m1 m2 d1 d2 : Char} {year month day : Nat}
      (yearRead : year? y1 y2 y3 y4 = some year) (monthRead : Clock.twoDigits? m1 m2 = some month)
      (isDigit : m1.isDigit = true) (dayRead : Clock.twoDigits? d1 d2 = some day) :
      IsWritten ⟨false, year, .civil month day⟩ [y1, y2, y3, y4, m1, m2, d1, d2]
  | extendedMonday {y1 y2 y3 y4 w1 w2 : Char} {year week : Nat}
      (yearRead : year? y1 y2 y3 y4 = some year) (weekRead : Clock.twoDigits? w1 w2 = some week) :
      IsWritten ⟨true, year, .monday week⟩ [y1, y2, y3, y4, '-', 'W', w1, w2]
  | basicMonday {y1 y2 y3 y4 w1 w2 : Char} {year week : Nat}
      (yearRead : year? y1 y2 y3 y4 = some year) (weekRead : Clock.twoDigits? w1 w2 = some week) :
      IsWritten ⟨false, year, .monday week⟩ [y1, y2, y3, y4, 'W', w1, w2]
  | extendedWeekday {y1 y2 y3 y4 w1 w2 d : Char} {year week day : Nat}
      (yearRead : year? y1 y2 y3 y4 = some year) (weekRead : Clock.twoDigits? w1 w2 = some week)
      (dayRead : weekday? d = some day) :
      IsWritten ⟨true, year, .weekday week day⟩ [y1, y2, y3, y4, '-', 'W', w1, w2, '-', d]
  | basicWeekday {y1 y2 y3 y4 w1 w2 d : Char} {year week day : Nat}
      (yearRead : year? y1 y2 y3 y4 = some year) (weekRead : Clock.twoDigits? w1 w2 = some week)
      (isDigit : d.isDigit = true) (dayRead : weekday? d = some day) :
      IsWritten ⟨false, year, .weekday week day⟩ [y1, y2, y3, y4, 'W', w1, w2, d]

theorem isWritten_text {spelling : DateSpelling} (fourDigits : spelling.year ≤ 9999)
    (fits : spelling.day.Fits) : spelling.IsWritten spelling.text := by
  obtain ⟨extended, year, day⟩ := spelling
  obtain ⟨y1, y2, y3, y4, yearText, yearRead⟩ := digits_four fourDigits
  cases day with
  | civil month day =>
      obtain ⟨m1, m2, monthText, isDigit, -, monthRead⟩ := digits_two fits.1
      obtain ⟨d1, d2, dayText, -, -, dayRead⟩ := digits_two fits.2
      simp only [text, DaySpelling.text, yearText, monthText, dayText]
      cases extended with
      | true => exact .extendedCivil yearRead monthRead isDigit dayRead
      | false => exact .basicCivil yearRead monthRead isDigit dayRead
  | monday week =>
      obtain ⟨w1, w2, weekText, -, -, weekRead⟩ := digits_two fits
      simp only [text, DaySpelling.text, yearText, weekText]
      cases extended with
      | true => exact .extendedMonday yearRead weekRead
      | false => exact .basicMonday yearRead weekRead
  | weekday week day =>
      obtain ⟨w1, w2, weekText, -, -, weekRead⟩ := digits_two fits.1
      obtain ⟨d, dayText, isDigit, dayRead⟩ := digits_one fits.2
      simp only [text, DaySpelling.text, yearText, weekText, dayText]
      cases extended with
      | true => exact .extendedWeekday yearRead weekRead dayRead
      | false => exact .basicWeekday yearRead weekRead isDigit dayRead

theorem Denotes.isWritten {spelling : DateSpelling} {date : Date}
    (denotes : spelling.Denotes date) : spelling.IsWritten spelling.text :=
  isWritten_text denotes.year denotes.fits

theorem IsWritten.date? {spelling : DateSpelling} {text : List Char}
    (written : spelling.IsWritten text) :
    Timestamp.date? text = spelling.day.date? spelling.year := by
  cases written with
  | extendedCivil yearRead monthRead isDigit dayRead =>
      have notW := isDigit_ne isDigit (by decide : 'W'.isDigit = false)
      rw [Timestamp.date?.eq_5 _ _ _ _ _ _ _ _ fun isW _ => notW isW, yearRead, monthRead, dayRead]
      rfl
  | basicCivil yearRead monthRead isDigit dayRead =>
      have notW := isDigit_ne isDigit (by decide : 'W'.isDigit = false)
      have notHyphen := isDigit_ne isDigit (by decide : '-'.isDigit = false)
      rw [Timestamp.date?.eq_6 _ _ _ _ _ _ _ _ (fun isHyphen _ => notHyphen isHyphen) notW,
        yearRead, monthRead, dayRead]
      rfl
  | extendedMonday yearRead weekRead =>
      rw [Timestamp.date?, yearRead, weekRead]
      rfl
  | basicMonday yearRead weekRead =>
      rw [Timestamp.date?, yearRead, weekRead]
      rfl
  | extendedWeekday yearRead weekRead dayRead =>
      rw [Timestamp.date?, yearRead, weekRead, dayRead]
      rfl
  | basicWeekday yearRead weekRead isDigit dayRead =>
      rw [Timestamp.date?, yearRead, weekRead, dayRead]
      rfl

theorem Denotes.date?_text {spelling : DateSpelling} {date : Date}
    (denotes : spelling.Denotes date) : Timestamp.date? spelling.text = some date :=
  denotes.isWritten.date?.trans denotes.date

end DateSpelling

theorem of_civil {y1 y2 y3 y4 m1 m2 d1 d2 : Char} {date : Date}
    (read : (do
      let year ← year? y1 y2 y3 y4
      Date.ofCivil? year (← Clock.twoDigits? m1 m2) (← Clock.twoDigits? d1 d2)) = some date) :
    ∃ year month day, digits 4 year = [y1, y2, y3, y4] ∧ digits 2 month = [m1, m2] ∧
      digits 2 day = [d1, d2] ∧
        ∀ extended, DateSpelling.Denotes ⟨extended, year, .civil month day⟩ date := by
  obtain ⟨year, yearRead, later⟩ := Option.bind_eq_some_iff.mp read
  obtain ⟨month, monthRead, last⟩ := Option.bind_eq_some_iff.mp later
  obtain ⟨day, dayRead, found⟩ := Option.bind_eq_some_iff.mp last
  obtain ⟨fits, yearText⟩ := of_year? yearRead
  exact ⟨year, month, day, yearText, (of_twoDigits? monthRead).2, (of_twoDigits? dayRead).2,
    fun extended => ⟨fits, found⟩⟩

theorem of_monday {y1 y2 y3 y4 w1 w2 : Char} {date : Date}
    (read : (do
      Date.ofWeek? (← year? y1 y2 y3 y4) (← Clock.twoDigits? w1 w2) 1) = some date) :
    ∃ year week, digits 4 year = [y1, y2, y3, y4] ∧ digits 2 week = [w1, w2] ∧
      ∀ extended, DateSpelling.Denotes ⟨extended, year, .monday week⟩ date := by
  obtain ⟨year, yearRead, later⟩ := Option.bind_eq_some_iff.mp read
  obtain ⟨week, weekRead, found⟩ := Option.bind_eq_some_iff.mp later
  obtain ⟨fits, yearText⟩ := of_year? yearRead
  exact ⟨year, week, yearText, (of_twoDigits? weekRead).2, fun extended => ⟨fits, found⟩⟩

theorem of_weekday {y1 y2 y3 y4 w1 w2 d : Char} {date : Date}
    (read : (do
      Date.ofWeek? (← year? y1 y2 y3 y4) (← Clock.twoDigits? w1 w2) (← weekday? d)) =
        some date) :
    ∃ year week day, digits 4 year = [y1, y2, y3, y4] ∧ digits 2 week = [w1, w2] ∧
      digits 1 day = [d] ∧
        ∀ extended, DateSpelling.Denotes ⟨extended, year, .weekday week day⟩ date := by
  obtain ⟨year, yearRead, later⟩ := Option.bind_eq_some_iff.mp read
  obtain ⟨week, weekRead, last⟩ := Option.bind_eq_some_iff.mp later
  obtain ⟨day, dayRead, found⟩ := Option.bind_eq_some_iff.mp last
  obtain ⟨fits, yearText⟩ := of_year? yearRead
  exact ⟨year, week, day, yearText, (of_twoDigits? weekRead).2, of_weekday? dayRead,
    fun extended => ⟨fits, found⟩⟩

theorem DateSpelling.exists_of_date? {text : List Char} {date : Date}
    (read : Timestamp.date? text = some date) :
    ∃ spelling : DateSpelling, spelling.text = text ∧ spelling.Denotes date := by
  unfold Timestamp.date? at read
  split at read
  next =>
    obtain ⟨year, week, yearText, weekText, denotes⟩ := of_monday read
    refine ⟨_, ?_, denotes true⟩
    simp [DateSpelling.text, DaySpelling.text, yearText, weekText, hyphen]
  next =>
    obtain ⟨year, week, day, yearText, weekText, dayText, denotes⟩ := of_weekday read
    refine ⟨_, ?_, denotes true⟩
    simp [DateSpelling.text, DaySpelling.text, yearText, weekText, dayText, hyphen]
  next =>
    obtain ⟨year, week, yearText, weekText, denotes⟩ := of_monday read
    refine ⟨_, ?_, denotes false⟩
    simp [DateSpelling.text, DaySpelling.text, yearText, weekText, hyphen]
  next =>
    obtain ⟨year, week, day, yearText, weekText, dayText, denotes⟩ := of_weekday read
    refine ⟨_, ?_, denotes false⟩
    simp [DateSpelling.text, DaySpelling.text, yearText, weekText, dayText, hyphen]
  next =>
    obtain ⟨year, month, day, yearText, monthText, dayText, denotes⟩ := of_civil read
    refine ⟨_, ?_, denotes true⟩
    simp [DateSpelling.text, DaySpelling.text, yearText, monthText, dayText, hyphen]
  next =>
    obtain ⟨year, month, day, yearText, monthText, dayText, denotes⟩ := of_civil read
    refine ⟨_, ?_, denotes false⟩
    simp [DateSpelling.text, DaySpelling.text, yearText, monthText, dayText, hyphen]
  next => cases read

/-! ## Clock readings -/

theorem FractionSpelling.micro_lt (spelling : FractionSpelling) : spelling.micro < 1000000 := by
  rw [FractionSpelling.micro]
  cases read : Text.Decimal.natural? ((spelling.places ++ List.replicate 6 '0').take 6) with
  | none => exact Nat.succ_pos _
  | some value =>
      exact ((Text.Decimal.natural?_eq_some_iff (by decide : 0 < 6) (by simp) value).mp read).1

theorem fraction?_eq_some_iff (spelling : FractionSpelling) (micro : Nat) :
    Clock.fraction? spelling.places = some micro ↔
      spelling.IsSound ∧ spelling.micro = micro := by
  rw [Clock.fraction?]
  split
  next malformed =>
    constructor
    · intro absurdity
      cases absurdity
    · rintro ⟨⟨nonempty, places⟩, -⟩
      simp only [Bool.or_eq_true, List.isEmpty_iff, Bool.not_eq_true',
        List.all_eq_false] at malformed
      rcases malformed with empty | ⟨place, member, notDigit⟩
      · exact absurd empty nonempty
      · exact absurd (places place member) notDigit
  next wellFormed =>
    simp only [Bool.or_eq_true, List.isEmpty_iff, Bool.not_eq_true', not_or, Bool.not_eq_false,
      List.all_eq_true] at wellFormed
    obtain ⟨nonempty, places⟩ := wellFormed
    have keptNonempty : spelling.places.take 6 ≠ [] := by simpa using nonempty
    obtain ⟨value, read⟩ := Text.Decimal.exists_extend?
      (fun digit member => places digit (List.mem_of_mem_take member)) 0
    have missing : min (6 - spelling.places.length) 6 = 6 - (spelling.places.take 6).length := by
      rw [List.length_take]
      omega
    have filled : natural? ((spelling.places ++ List.replicate 6 '0').take 6) =
        some (value * 10 ^ (6 - (spelling.places.take 6).length)) := by
      rw [List.take_append, List.take_replicate, missing, Text.Decimal.natural?_of_ne_nil
        (List.append_ne_nil_of_left_ne_nil keptNonempty _), Text.Decimal.extend?_append, read]
      exact Text.Decimal.extend?_replicate_zero _ _
    dsimp only
    rw [FractionSpelling.micro, filled, Text.Decimal.natural?_of_ne_nil keptNonempty, read]
    exact ⟨fun same => ⟨⟨nonempty, places⟩, Option.some.inj same⟩,
      fun sound => congrArg some sound.2⟩

theorem tail?_optionalText {fraction : Option FractionSpelling}
    (sound : ∀ written ∈ fraction, written.IsSound) :
    Clock.tail? (FractionSpelling.optionalText fraction) =
      some ((fraction.map FractionSpelling.micro).getD 0) := by
  cases fraction with
  | none => rfl
  | some written =>
      have read := (fraction?_eq_some_iff written _).mpr ⟨sound written rfl, rfl⟩
      have marked : FractionSpelling.mark written.comma = '.' ∨
          FractionSpelling.mark written.comma = ',' := by
        cases written.comma <;> simp [FractionSpelling.mark]
      rw [FractionSpelling.optionalText, FractionSpelling.text, Clock.tail?, if_pos marked, read]
      rfl

theorem exists_of_tail? {text : List Char} {micro : Nat} (read : Clock.tail? text = some micro) :
    ∃ fraction : Option FractionSpelling, FractionSpelling.optionalText fraction = text ∧
      (∀ written ∈ fraction, written.IsSound) ∧
        (fraction.map FractionSpelling.micro).getD 0 = micro := by
  cases text with
  | nil => exact ⟨none, rfl, fun written absurdity => (by cases absurdity), Option.some.inj read⟩
  | cons mark places =>
      rw [Clock.tail?] at read
      split at read
      next marked =>
        obtain ⟨comma, same⟩ : ∃ comma : Bool, FractionSpelling.mark comma = mark := by
          rcases marked with point | comma
          · exact ⟨false, point.symm⟩
          · exact ⟨true, comma.symm⟩
        obtain ⟨sound, value⟩ := (fraction?_eq_some_iff ⟨comma, places⟩ micro).mp read
        refine ⟨some ⟨comma, places⟩, ?_, fun written member => ?_, value⟩
        · rw [FractionSpelling.optionalText, FractionSpelling.text, same]
        · obtain rfl := Option.some.inj member
          exact sound
      next => cases read

theorem ofChars?_colon {h1 h2 : Char} {hour : Nat} (hourRead : Clock.twoDigits? h1 h2 = some hour)
    (extended : Bool) {first : Char} (isDigit : first.isDigit = true) (later : List Char) :
    Clock.ofChars? (h1 :: h2 :: (colon extended ++ first :: later)) =
      if extended then Clock.extended? hour (first :: later)
      else Clock.basic? hour (first :: later) := by
  cases extended with
  | true =>
      rw [colon, if_pos rfl, List.cons_append, List.nil_append, Clock.ofChars?, hourRead]
      rfl
  | false =>
      have notColon := isDigit_ne isDigit (by decide : ':'.isDigit = false)
      rw [colon, if_neg Bool.false_ne_true, List.nil_append,
        Clock.ofChars?.eq_3 _ _ _ (by simp) (by simp [notColon]), hourRead]
      rfl

theorem ofChars?_text_of_hour {h1 h2 : Char} {hour : Nat}
    (hourRead : Clock.twoDigits? h1 h2 = some hour) {rest : RestSpelling} (sound : rest.IsSound) :
    Clock.ofChars? (h1 :: h2 :: rest.text) = some (rest.clock hour) := by
  cases rest with
  | nothing =>
      rw [RestSpelling.text, Clock.ofChars?, hourRead]
      rfl
  | minutes extended minute =>
      obtain ⟨m1, m2, minuteText, isDigit, -, minuteRead⟩ := digits_two sound
      rw [RestSpelling.text, minuteText, ofChars?_colon hourRead extended isDigit]
      cases extended with
      | true =>
          rw [if_pos rfl, Clock.extended?, minuteRead]
          rfl
      | false =>
          rw [if_neg Bool.false_ne_true, Clock.basic?, minuteRead]
          rfl
  | seconds extended minute second fraction =>
      obtain ⟨minuteFits, secondFits, fractionSound⟩ := sound
      obtain ⟨m1, m2, minuteText, isDigit, -, minuteRead⟩ := digits_two minuteFits
      obtain ⟨s1, s2, secondText, -, -, secondRead⟩ := digits_two secondFits
      have microRead := tail?_optionalText fractionSound
      rw [RestSpelling.text, minuteText, secondText, List.cons_append,
        ofChars?_colon hourRead extended isDigit]
      cases extended with
      | true =>
          simp only [colon, if_true, List.cons_append, List.nil_append]
          rw [Clock.extended?, minuteRead, secondRead, microRead]
          rfl
      | false =>
          simp only [colon, Bool.false_eq_true, if_false, List.cons_append, List.nil_append]
          rw [Clock.basic?, minuteRead, secondRead, microRead]
          rfl

theorem ClockSpelling.ofChars?_text {spelling : ClockSpelling} (sound : spelling.IsSound) :
    Clock.ofChars? spelling.text = some spelling.clock := by
  obtain ⟨h1, h2, hourText, -, -, hourRead⟩ := digits_two sound.hour
  rw [ClockSpelling.text, hourText]
  exact ofChars?_text_of_hour hourRead sound.rest

theorem of_minutes {m1 m2 : Char} {hour : Nat} {clock : Clock}
    (read : (do
      let minute ← Clock.twoDigits? m1 m2
      return ⟨hour, minute, 0, 0⟩) = some clock) :
    ∃ minute, digits 2 minute = [m1, m2] ∧
      ∀ extended, (RestSpelling.minutes extended minute).IsSound ∧
        (RestSpelling.minutes extended minute).clock hour = clock := by
  obtain ⟨minute, minuteRead, last⟩ := Option.bind_eq_some_iff.mp read
  obtain ⟨fits, minuteText⟩ := of_twoDigits? minuteRead
  exact ⟨minute, minuteText, fun extended => ⟨fits, Option.some.inj last⟩⟩

theorem of_seconds {m1 m2 s1 s2 : Char} {rest : List Char} {hour : Nat} {clock : Clock}
    (read : (do
      let minute ← Clock.twoDigits? m1 m2
      let second ← Clock.twoDigits? s1 s2
      let micro ← Clock.tail? rest
      return ⟨hour, minute, second, micro⟩) = some clock) :
    ∃ minute second fraction, digits 2 minute = [m1, m2] ∧ digits 2 second = [s1, s2] ∧
      FractionSpelling.optionalText fraction = rest ∧
        ∀ extended, (RestSpelling.seconds extended minute second fraction).IsSound ∧
          (RestSpelling.seconds extended minute second fraction).clock hour = clock := by
  obtain ⟨minute, minuteRead, later⟩ := Option.bind_eq_some_iff.mp read
  obtain ⟨second, secondRead, fractional⟩ := Option.bind_eq_some_iff.mp later
  obtain ⟨micro, microRead, last⟩ := Option.bind_eq_some_iff.mp fractional
  obtain ⟨minuteFits, minuteText⟩ := of_twoDigits? minuteRead
  obtain ⟨secondFits, secondText⟩ := of_twoDigits? secondRead
  obtain ⟨fraction, fractionText, sound, rfl⟩ := exists_of_tail? microRead
  exact ⟨minute, second, fraction, minuteText, secondText, fractionText,
    fun extended => ⟨⟨minuteFits, secondFits, sound⟩, Option.some.inj last⟩⟩

theorem exists_of_extended? {hour : Nat} {text : List Char} {clock : Clock}
    (read : Clock.extended? hour text = some clock) :
    ∃ rest : RestSpelling, rest.text = ':' :: text ∧ rest.IsSound ∧ rest.clock hour = clock := by
  unfold Clock.extended? at read
  split at read
  next =>
    obtain ⟨minute, minuteText, sound⟩ := of_minutes read
    refine ⟨_, ?_, sound true⟩
    simp [RestSpelling.text, minuteText, colon]
  next =>
    obtain ⟨minute, second, fraction, minuteText, secondText, fractionText, sound⟩ :=
      of_seconds read
    refine ⟨_, ?_, sound true⟩
    simp [RestSpelling.text, minuteText, secondText, fractionText, colon]
  next => cases read

theorem exists_of_basic? {hour : Nat} {text : List Char} {clock : Clock}
    (read : Clock.basic? hour text = some clock) :
    ∃ rest : RestSpelling, rest.text = text ∧ rest.IsSound ∧ rest.clock hour = clock := by
  unfold Clock.basic? at read
  split at read
  next =>
    obtain ⟨minute, minuteText, sound⟩ := of_minutes read
    refine ⟨_, ?_, sound false⟩
    simp [RestSpelling.text, minuteText, colon]
  next =>
    obtain ⟨minute, second, fraction, minuteText, secondText, fractionText, sound⟩ :=
      of_seconds read
    refine ⟨_, ?_, sound false⟩
    simp [RestSpelling.text, minuteText, secondText, fractionText, colon]
  next => cases read

theorem ClockSpelling.exists_of_rest {h1 h2 : Char} {hour : Nat} {text : List Char} {clock : Clock}
    (hourRead : Clock.twoDigits? h1 h2 = some hour)
    (spelled : ∃ rest : RestSpelling, rest.text = text ∧ rest.IsSound ∧ rest.clock hour = clock) :
    ∃ spelling : ClockSpelling, spelling.text = h1 :: h2 :: text ∧ spelling.IsSound ∧
      spelling.clock = clock := by
  obtain ⟨hourFits, hourText⟩ := of_twoDigits? hourRead
  obtain ⟨rest, restText, sound, value⟩ := spelled
  refine ⟨⟨hour, rest⟩, ?_, ⟨hourFits, sound⟩, value⟩
  rw [ClockSpelling.text, hourText, restText]
  rfl

theorem ClockSpelling.exists_of_ofChars? {text : List Char} {clock : Clock}
    (read : Clock.ofChars? text = some clock) :
    ∃ spelling : ClockSpelling, spelling.text = text ∧ spelling.IsSound ∧
      spelling.clock = clock := by
  unfold Clock.ofChars? at read
  split at read
  next =>
    obtain ⟨hour, hourRead, last⟩ := Option.bind_eq_some_iff.mp read
    exact exists_of_rest hourRead ⟨.nothing, rfl, trivial, Option.some.inj last⟩
  next =>
    obtain ⟨hour, hourRead, later⟩ := Option.bind_eq_some_iff.mp read
    exact exists_of_rest hourRead (exists_of_extended? later)
  next =>
    obtain ⟨hour, hourRead, later⟩ := Option.bind_eq_some_iff.mp read
    exact exists_of_rest hourRead (exists_of_basic? later)
  next => cases read

end WorkoutBoard.Calendar
