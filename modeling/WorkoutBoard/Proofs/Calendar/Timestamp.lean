import Mathlib.Logic.ExistsUnique
import WorkoutBoard.Proofs.Calendar.Reading

/-!
# Timestamps are read as they are spelled

A text is read as a timestamp if and only if it is spelled in one of the forms, and then it is
spelled in no other way (`Timestamp.ofChars?_eq_some_iff`). The end of the date is found because a
digit after it begins a run of odd length (`DateSpelling.Denotes.dateWidth_append`), and the first
sign ends the time of day.
-/

namespace WorkoutBoard.Calendar

open Text.Decimal (digits)

/-! ## The end of the date -/

/-- A run of digits that is not empty and has an even length, as a time of day begins with. -/
def BeginsEvenly (text : List Char) : Prop :=
  ∃ pairs, (text.takeWhile Char.isDigit).length = 2 * pairs + 2

theorem BeginsEvenly.digits {text : List Char} (even : BeginsEvenly text) :
    ∃ first second later, text = first :: second :: later ∧ second.isDigit = true := by
  obtain ⟨pairs, length⟩ := even
  match text with
  | [] => simp at length
  | [first] =>
      rw [List.takeWhile_cons] at length
      split at length <;> simp at length
  | first :: second :: later =>
      refine ⟨first, second, later, rfl, ?_⟩
      rw [List.takeWhile_cons, List.takeWhile_cons] at length
      split at length
      next =>
        split at length
        next isDigit => exact isDigit
        next => simp at length
      next => simp at length

theorem basicWeekWidth_cons {rest : List Char} (even : BeginsEvenly rest) (separator : Char) :
    Timestamp.basicWeekWidth (separator :: rest) = 7 := by
  obtain ⟨pairs, length⟩ := even
  cases digit : separator.isDigit with
  | true =>
      rw [Timestamp.basicWeekWidth, List.takeWhile_cons_of_pos digit, List.length_cons, length,
        if_neg (by omega), if_pos (by omega)]
  | false =>
      rw [Timestamp.basicWeekWidth, List.takeWhile_cons_of_neg (by simp [digit])]
      rfl

theorem basicWeekWidth_cons_cons {rest : List Char} (even : BeginsEvenly rest) {day : Char}
    (isDigit : day.isDigit = true) (separator : Char) :
    Timestamp.basicWeekWidth (day :: separator :: rest) = 8 := by
  obtain ⟨pairs, length⟩ := even
  rw [Timestamp.basicWeekWidth, List.takeWhile_cons_of_pos isDigit, List.length_cons]
  cases digit : separator.isDigit with
  | true =>
      rw [List.takeWhile_cons_of_pos digit, List.length_cons, length, if_neg (by omega),
        if_neg (by omega)]
  | false =>
      rw [List.takeWhile_cons_of_neg (by simp [digit])]
      rfl

namespace DateSpelling

theorem IsWritten.dateWidth {spelling : DateSpelling} {text : List Char}
    (written : spelling.IsWritten text) {separator : Char}
    (clear : spelling.isExtendedWeekday = true → separator.isDigit = false) {rest : List Char}
    (even : BeginsEvenly rest) : Timestamp.dateWidth (text ++ separator :: rest) = text.length := by
  cases written with
  | extendedCivil yearRead monthRead isDigit dayRead =>
      have notW := isDigit_ne isDigit (by decide : 'W'.isDigit = false)
      exact Timestamp.dateWidth.eq_2 _ _ _ _ _ fun _ _ _ same => notW (List.cons.inj same).1
  | basicCivil yearRead monthRead isDigit dayRead =>
      have notW := isDigit_ne isDigit (by decide : 'W'.isDigit = false)
      have notHyphen := isDigit_ne isDigit (by decide : '-'.isDigit = false)
      exact Timestamp.dateWidth.eq_4 _ (by simp [notHyphen]) (by simp [notHyphen]) (by simp [notW])
  | extendedMonday yearRead weekRead =>
      -- A hyphen that separates is followed by two digits, one that belongs to the date by one.
      obtain ⟨first, second, later, rfl, isDigit⟩ := even.digits
      simp only [List.cons_append, List.nil_append, Timestamp.dateWidth]
      by_cases same : separator = '-'
      · rw [same, Timestamp.hyphenThenDigit, isDigit]
        rfl
      · rw [Timestamp.hyphenThenDigit.eq_3 _ (by simp [same]) (by simp [same])]
        rfl
  | basicMonday yearRead weekRead => exact basicWeekWidth_cons even separator
  | extendedWeekday yearRead weekRead dayRead =>
      simp only [List.cons_append, List.nil_append, Timestamp.dateWidth, Timestamp.hyphenThenDigit]
      rw [clear rfl]
      rfl
  | basicWeekday yearRead weekRead isDigit dayRead =>
      exact basicWeekWidth_cons_cons even isDigit separator

theorem Denotes.dateWidth_append {spelling : DateSpelling} {date : Date}
    (denotes : spelling.Denotes date) {separator : Char}
    (clear : spelling.isExtendedWeekday = true → separator.isDigit = false) {rest : List Char}
    (even : BeginsEvenly rest) :
    Timestamp.dateWidth (spelling.text ++ separator :: rest) = spelling.text.length :=
  denotes.isWritten.dateWidth clear even

/-- A digit after a date that is written `YYYY-Www-D` makes it end before its last hyphen. -/
theorem Denotes.dateWidth_append_lt {spelling : DateSpelling} {date : Date}
    (denotes : spelling.Denotes date) (extended : spelling.isExtendedWeekday = true)
    {separator : Char} (isDigit : separator.isDigit = true) (rest : List Char) :
    Timestamp.dateWidth (spelling.text ++ separator :: rest) < spelling.text.length := by
  have written := denotes.isWritten
  generalize spelling.text = text at written ⊢
  cases written with
  | extendedWeekday yearRead weekRead dayRead =>
      simp only [List.cons_append, List.nil_append, Timestamp.dateWidth, Timestamp.hyphenThenDigit]
      rw [isDigit]
      exact Nat.lt_add_one_of_le (Nat.le_of_lt (by decide : 8 < 9))
  | _ => cases extended

end DateSpelling

/-! ## The end of the time of day -/

theorem length_takeWhile_digits {value : Nat} (fits : value ≤ 99) (rest : List Char) :
    ((digits 2 value ++ rest).takeWhile Char.isDigit).length =
      2 + (rest.takeWhile Char.isDigit).length := by
  rw [List.takeWhile_append_of_pos fun _ member => Text.Decimal.isDigit_of_mem_digits member,
    List.length_append, Text.Decimal.length_digits (by decide) (by omega)]

theorem RestSpelling.length_takeWhile_text {spelling : RestSpelling} (sound : spelling.IsSound)
    {mark : Char} (notDigit : mark.isDigit = false) (rest : List Char) :
    ∃ pairs, ((spelling.text ++ mark :: rest).takeWhile Char.isDigit).length = 2 * pairs := by
  have stops (other : Char) (later : List Char) (different : other.isDigit = false) :
      ((other :: later).takeWhile Char.isDigit).length = 0 := by
    rw [List.takeWhile_cons_of_neg (by simp [different]), List.length_nil]
  cases spelling with
  | nothing => exact ⟨0, stops mark rest notDigit⟩
  | minutes extended minute =>
      cases extended with
      | true => exact ⟨0, stops ':' _ (by decide)⟩
      | false =>
          refine ⟨1, ?_⟩
          rw [text, colon, if_neg Bool.false_ne_true, List.nil_append,
            length_takeWhile_digits sound, stops mark rest notDigit]
  | seconds extended minute second fraction =>
      cases extended with
      | true => exact ⟨0, stops ':' _ (by decide)⟩
      | false =>
          have tail : ((FractionSpelling.optionalText fraction ++ mark :: rest).takeWhile
              Char.isDigit).length = 0 := by
            cases fraction with
            | none => exact stops mark rest notDigit
            | some fraction =>
                refine stops (FractionSpelling.mark fraction.comma) _ ?_
                cases fraction.comma <;> decide
          refine ⟨2, ?_⟩
          simp only [text, colon, Bool.false_eq_true, if_false, List.nil_append, List.append_assoc]
          rw [length_takeWhile_digits sound.1, length_takeWhile_digits sound.2.1, tail]

theorem ClockSpelling.beginsEvenly_text {spelling : ClockSpelling} (sound : spelling.IsSound)
    {mark : Char} (notDigit : mark.isDigit = false) (rest : List Char) :
    BeginsEvenly (spelling.text ++ mark :: rest) := by
  obtain ⟨pairs, length⟩ := RestSpelling.length_takeWhile_text sound.rest notDigit rest
  refine ⟨pairs, ?_⟩
  rw [text, List.append_assoc, length_takeWhile_digits sound.hour, length]
  omega

theorem isSign_sign (negative : Bool) : Timestamp.isSign (Spelling.sign negative) = true := by
  cases negative <;> decide

theorem exists_of_isSign {character : Char} (isSign : Timestamp.isSign character = true) :
    ∃ negative, Spelling.sign negative = character := by
  simp only [Timestamp.isSign, Bool.or_eq_true, beq_iff_eq] at isSign
  rcases isSign with plus | minus
  · exact ⟨false, plus.symm⟩
  · exact ⟨true, minus.symm⟩

theorem ClockSpelling.isSign_of_mem_text {spelling : ClockSpelling} (sound : spelling.IsSound)
    {character : Char} (member : character ∈ spelling.text) :
    Timestamp.isSign character = false := by
  have inClock := isClockCharacter_of_mem_text sound member
  refine Bool.eq_false_iff.mpr fun isSign => ?_
  obtain ⟨negative, rfl⟩ := exists_of_isSign isSign
  cases negative <;> exact absurd inClock (by decide)

theorem takeWhile_text {spelling : ClockSpelling} (sound : spelling.IsSound) (negative : Bool)
    (rest : List Char) :
    (spelling.text ++ Spelling.sign negative :: rest).takeWhile
      (fun character => !Timestamp.isSign character) = spelling.text := by
  rw [List.takeWhile_append_of_pos fun _ member => by
      rw [ClockSpelling.isSign_of_mem_text sound member]; rfl,
    List.takeWhile_cons_of_neg (by simp [isSign_sign]), List.append_nil]

theorem dropWhile_text {spelling : ClockSpelling} (sound : spelling.IsSound) (negative : Bool)
    (rest : List Char) :
    (spelling.text ++ Spelling.sign negative :: rest).dropWhile
      (fun character => !Timestamp.isSign character) = Spelling.sign negative :: rest := by
  rw [List.dropWhile_append_of_pos fun _ member => by
      rw [ClockSpelling.isSign_of_mem_text sound member]; rfl,
    List.dropWhile_cons_of_neg (by simp [isSign_sign])]

/-! ## The whole -/

theorem Spelling.Denotes.dateWidth_text {spelling : Spelling} {timestamp : Timestamp}
    (denotes : spelling.Denotes timestamp) :
    Timestamp.dateWidth spelling.text = spelling.date.text.length := by
  have notDigit : (Spelling.sign spelling.negative).isDigit = false := by
    cases spelling.negative <;> decide
  exact denotes.date.dateWidth_append denotes.separator
    (ClockSpelling.beginsEvenly_text denotes.time notDigit _)

theorem Spelling.ofChars?_text {spelling : Spelling} {timestamp : Timestamp}
    (denotes : spelling.Denotes timestamp) :
    Timestamp.ofChars? spelling.text = some timestamp := by
  have date := denotes.date.date?_text
  have time : Timestamp.timeOfDay? spelling.time.text = some timestamp.clock := by
    have ofDay : timestamp.clock.isTimeOfDay = true := by
      simpa [Clock.isTimeOfDay, and_assoc] using denotes.ofDay
    rw [Timestamp.timeOfDay?, ClockSpelling.ofChars?_text denotes.time, denotes.clock]
    exact if_pos ofDay
  have offset : Timestamp.offset? (sign spelling.negative :: spelling.distance.text) =
      some timestamp.offset := by
    rw [Timestamp.offset?, ClockSpelling.ofChars?_text denotes.distance]
    dsimp only
    rw [if_pos denotes.short, denotes.offset]
    cases spelling.negative <;> rfl
  rw [Timestamp.ofChars?, denotes.dateWidth_text, text, List.drop_left, List.take_left]
  dsimp only
  rw [takeWhile_text denotes.time, dropWhile_text denotes.time, date, time, offset]
  rfl

theorem exists_of_timeOfDay? {text : List Char} {clock : Clock}
    (read : Timestamp.timeOfDay? text = some clock) :
    ∃ spelling : ClockSpelling, spelling.text = text ∧ spelling.IsSound ∧
      spelling.clock = clock ∧ clock.hour < 24 ∧ clock.minute < 60 ∧ clock.second < 60 := by
  rw [Timestamp.timeOfDay?] at read
  split at read
  next => cases read
  next found clockRead =>
    split at read
    next ofDay =>
      obtain rfl := Option.some.inj read
      obtain ⟨spelling, same, sound, value⟩ := ClockSpelling.exists_of_ofChars? clockRead
      exact ⟨spelling, same, sound, value, by simpa [Clock.isTimeOfDay, and_assoc] using ofDay⟩
    next => cases read

theorem exists_of_offset? {text : List Char} {offset : Int}
    (read : Timestamp.offset? text = some offset) :
    ∃ (first : Char) (distance : ClockSpelling), first :: distance.text = text ∧
      distance.IsSound ∧ distance.clock.micros < Clock.microsPerDay ∧
        offset = if first = '-' then -(distance.clock.micros : Int)
          else distance.clock.micros := by
  cases text with
  | nil => cases read
  | cons first rest =>
      rw [Timestamp.offset?] at read
      split at read
      next => cases read
      next clock clockRead =>
        split at read
        next short =>
          obtain ⟨distance, same, sound, rfl⟩ := ClockSpelling.exists_of_ofChars? clockRead
          exact ⟨first, distance, congrArg (first :: ·) same, sound, short,
            (Option.some.inj read).symm⟩
        next => cases read

theorem Spelling.exists_of_ofChars? {text : List Char} {timestamp : Timestamp}
    (read : Timestamp.ofChars? text = some timestamp) :
    ∃ spelling : Spelling, spelling.text = text ∧ spelling.Denotes timestamp := by
  rw [Timestamp.ofChars?] at read
  split at read
  next => cases read
  next separator rest dropped =>
    obtain ⟨date, dateRead, later⟩ := Option.bind_eq_some_iff.mp read
    obtain ⟨clock, timeRead, last⟩ := Option.bind_eq_some_iff.mp later
    obtain ⟨offset, offsetRead, same⟩ := Option.bind_eq_some_iff.mp last
    obtain rfl := Option.some.inj same
    obtain ⟨dateSpelling, dateText, dateDenotes⟩ := DateSpelling.exists_of_date? dateRead
    obtain ⟨time, timeText, timeSound, timeValue, ofDay⟩ := exists_of_timeOfDay? timeRead
    obtain ⟨first, distance, offsetText, distanceSound, short, offsetValue⟩ :=
      exists_of_offset? offsetRead
    have isSign : Timestamp.isSign first = true := by
      have stopped := List.head?_dropWhile_not (fun character => !Timestamp.isSign character) rest
      rw [← offsetText] at stopped
      simpa using stopped
    obtain ⟨negative, rfl⟩ := exists_of_isSign isSign
    have whole : dateSpelling.text ++ separator :: rest = text := by
      rw [dateText, ← dropped, List.take_append_drop]
    have parted : time.text ++ sign negative :: distance.text = rest := by
      rw [timeText, offsetText, List.takeWhile_append_dropWhile]
    refine ⟨⟨dateSpelling, separator, time, negative, distance⟩, ?_, dateDenotes,
      fun extended => ?_, timeSound, timeValue, ofDay, distanceSound, short, ?_⟩
    · rw [Spelling.text, parted, whole]
    · refine Bool.eq_false_iff.mpr fun isDigit => ?_
      have shorter := dateDenotes.dateWidth_append_lt extended isDigit rest
      rw [whole, dateText, List.length_take] at shorter
      omega
    · rw [offsetValue]
      cases negative <;> rfl

/-! ## No text is spelled in two ways -/

theorem Spelling.sign_injective : Function.Injective sign := by
  intro left right
  cases left <;> cases right <;> decide

theorem Spelling.eq_of_text {left right : Spelling} {timestamp other : Timestamp}
    (leftDenotes : left.Denotes timestamp) (rightDenotes : right.Denotes other)
    (equal : left.text = right.text) : left = right := by
  -- Both dates end where this text says, and both times of day at its first sign.
  have lengths : left.date.text.length = right.date.text.length := by
    rw [← leftDenotes.dateWidth_text, ← rightDenotes.dateWidth_text, equal]
  obtain ⟨dates, tails⟩ := List.append_inj equal lengths
  obtain ⟨separators, rest⟩ := List.cons.inj tails
  have times : left.time.text = right.time.text := by
    rw [← takeWhile_text leftDenotes.time, rest, takeWhile_text rightDenotes.time]
  rw [times] at rest
  obtain ⟨signs, distances⟩ := List.cons.inj (List.append_cancel_left rest)
  exact Spelling.mk.injEq .. ▸
    ⟨DateSpelling.eq_of_text leftDenotes.date rightDenotes.date dates, separators,
      ClockSpelling.eq_of_text leftDenotes.time rightDenotes.time times, sign_injective signs,
      ClockSpelling.eq_of_text leftDenotes.distance rightDenotes.distance distances⟩

/-- A text is read as a timestamp exactly if it is spelled so, and it is spelled so in one way. -/
theorem Timestamp.ofChars?_eq_some_iff (text : List Char) (timestamp : Timestamp) :
    ofChars? text = some timestamp ↔
      ∃! spelling : Spelling, spelling.text = text ∧ spelling.Denotes timestamp := by
  constructor
  · intro read
    obtain ⟨spelling, rfl, denotes⟩ := Spelling.exists_of_ofChars? read
    exact ⟨spelling, ⟨rfl, denotes⟩, fun other ⟨same, otherDenotes⟩ =>
      Spelling.eq_of_text otherDenotes denotes same⟩
  · rintro ⟨spelling, ⟨rfl, denotes⟩, -⟩
    exact Spelling.ofChars?_text denotes

end WorkoutBoard.Calendar
