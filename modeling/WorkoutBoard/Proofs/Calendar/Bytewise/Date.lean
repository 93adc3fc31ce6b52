import WorkoutBoard.Proofs.Calendar.Bytewise.Number

/-!
# Dates read from bytes

A date is read by a machine as its characters are (`date_eq`). What follows the year is compared
part by part: after the mark of a week (`weekDate_append`) and without one (`civilDate_append`).
-/

namespace WorkoutBoard.Calendar.Bytewise

open Machine
open Timestamp (weekday? year?)

/-! ## The forms of a date -/

def dayOfWeek? (extended : Bool) : List Char → Option Nat
  | [] => some 1
  | [d] => if extended then none else weekday? d
  | [mark, d] => if extended ∧ mark = '-' then weekday? d else none
  | _ => none

def weekDate? (extended : Bool) (year : Nat) : List Char → Option Date
  | w1 :: w2 :: rest => do
      Date.ofWeek? year (← Clock.twoDigits? w1 w2) (← dayOfWeek? extended rest)
  | _ => none

def lastTwo? : List Char → Option Nat
  | [tens, ones] => Clock.twoDigits? tens ones
  | _ => none

def dayOfMonth? : (extended : Bool) → List Char → Option Nat
  | false, rest => lastTwo? rest
  | true, mark :: rest => if mark = '-' then lastTwo? rest else none
  | true, [] => none

def civilDate? (extended : Bool) (year : Nat) : List Char → Option Date
  | m1 :: m2 :: rest => do
      Date.ofCivil? year (← Clock.twoDigits? m1 m2) (← dayOfMonth? extended rest)
  | _ => none

theorem length_of_date? {text : List Char} {date : Date} (read : Timestamp.date? text = some date) :
    text.length = 7 ∨ text.length = 8 ∨ text.length = 10 := by
  unfold Timestamp.date? at read
  split at read <;> simp at read ⊢

theorem date?_eq_none {text : List Char}
    (length : text.length ≠ 7 ∧ text.length ≠ 8 ∧ text.length ≠ 10) :
    Timestamp.date? text = none := by
  cases read : Timestamp.date? text with
  | none => rfl
  | some date =>
      have other := length_of_date? read
      omega

theorem twoDigits?_eq_none {tens : Char} (notDigit : tens.isDigit = false) (ones : Char) :
    Clock.twoDigits? tens ones = none := by
  refine natural?_eq_none (.inr ?_)
  rw [List.all_cons, notDigit, Bool.false_and]

section

variable (y1 y2 y3 y4 : Char)

theorem date?_extendedWeek (later : List Char) :
    Timestamp.date? (y1 :: y2 :: y3 :: y4 :: '-' :: 'W' :: later) =
      (year? y1 y2 y3 y4).bind fun year => weekDate? true year later := by
  match later with
  | [] | [_] => simp [Timestamp.date?, weekDate?]
  | [_, _] => rfl
  | [_, _, _] => simp [Timestamp.date?, weekDate?, dayOfWeek?]
  | [w1, w2, mark, d] =>
      by_cases same : mark = '-'
      · subst same
        rfl
      -- Two hyphens so far apart are those of a civil date, whose month begins with a digit.
      · by_cases hyphen : w2 = '-'
        · subst hyphen
          have noMonth := twoDigits?_eq_none (by decide : 'W'.isDigit = false) w1
          simp [Timestamp.date?, weekDate?, dayOfWeek?, same, noMonth]
        · simp [Timestamp.date?, weekDate?, dayOfWeek?, same, hyphen]
  | _ :: _ :: _ :: _ :: _ :: rest =>
      rw [date?_eq_none (by simp only [List.length_cons]; omega)]
      simp [weekDate?, dayOfWeek?]

theorem date?_basicWeek (later : List Char) :
    Timestamp.date? (y1 :: y2 :: y3 :: y4 :: 'W' :: later) =
      (year? y1 y2 y3 y4).bind fun year => weekDate? false year later := by
  match later with
  | [] | [_] => simp [Timestamp.date?, weekDate?]
  | [_, _] | [_, _, _] => rfl
  | [_, _, _, _] => simp [Timestamp.date?, weekDate?, dayOfWeek?]
  | _ :: _ :: _ :: _ :: _ :: _ => simp [Timestamp.date?, weekDate?, dayOfWeek?]

theorem date?_extendedCivil {later : List Char} (noWeek : later.head? ≠ some 'W') :
    Timestamp.date? (y1 :: y2 :: y3 :: y4 :: '-' :: later) =
      (year? y1 y2 y3 y4).bind fun year => civilDate? true year later := by
  match later with
  | [] | [_] => simp [Timestamp.date?, civilDate?]
  | [_, _] => simp [Timestamp.date?, civilDate?, dayOfMonth?]
  | [m1, _, _] =>
      have notW : m1 ≠ 'W' := by simpa using noWeek
      have noMonth := twoDigits?_eq_none (by decide : '-'.isDigit = false) m1
      simp [Timestamp.date?, civilDate?, dayOfMonth?, lastTwo?, notW, noMonth]
  | [_, _, _, _] => simp [Timestamp.date?, civilDate?, dayOfMonth?, lastTwo?]
  | [m1, _, mark, _, _] =>
      have notW : m1 ≠ 'W' := by simpa using noWeek
      by_cases same : mark = '-'
      · simp [Timestamp.date?, civilDate?, dayOfMonth?, lastTwo?, notW, same]
      · simp [Timestamp.date?, civilDate?, dayOfMonth?, notW, same]
  | _ :: _ :: _ :: _ :: _ :: _ :: _ => simp [Timestamp.date?, civilDate?, dayOfMonth?, lastTwo?]

theorem date?_basicCivil {later : List Char} (noWeek : later.head? ≠ some 'W')
    (noHyphen : later.head? ≠ some '-') :
    Timestamp.date? (y1 :: y2 :: y3 :: y4 :: later) =
      (year? y1 y2 y3 y4).bind fun year => civilDate? false year later := by
  obtain _ | ⟨first, _ | ⟨second, _ | ⟨third, rest⟩⟩⟩ := later
  · simp [Timestamp.date?, civilDate?]
  · simp [Timestamp.date?, civilDate?]
  · simp [Timestamp.date?, civilDate?, dayOfMonth?, lastTwo?]
  · have notW : first ≠ 'W' := by simpa using noWeek
    have notHyphen : first ≠ '-' := by simpa using noHyphen
    obtain _ | ⟨fourth, _ | ⟨fifth, _ | ⟨sixth, later⟩⟩⟩ := rest
    · simp [Timestamp.date?, civilDate?, dayOfMonth?, lastTwo?, notW]
    · simp [Timestamp.date?, civilDate?, dayOfMonth?, lastTwo?, notHyphen]
    · simp [Timestamp.date?, civilDate?, dayOfMonth?, lastTwo?]
    · simp [Timestamp.date?, civilDate?, dayOfMonth?, lastTwo?, notHyphen]

end

/-! ## A week and its day -/

theorem charOf_hyphen : charOf hyphen = '-' := by decide

theorem charOf_eq_hyphen_iff (byte : UInt8) : charOf byte = '-' ↔ byte = hyphen := by
  rw [← charOf_hyphen]
  exact charOf_injective.eq_iff

theorem weekday_nil (front : List UInt8) (extended : Bool) :
    weekday front extended front.length = .value (1, front.length) :=
  if_neg (Nat.lt_irrefl _)

theorem weekday_append (front rest : List UInt8) (mark : UInt8) (extended : Bool) :
    weekday (front ++ mark :: rest) extended front.length =
      if (mark == hyphen) != extended then .refused
      else do
        let day ← numberAt (front ++ mark :: rest) (front.length + extended.toNat)
          (front.length + extended.toNat + 1)
        return (day, front.length + extended.toNat + 1) := by
  have inside : front.length < (front ++ mark :: rest).length := by simp
  rw [weekday, if_pos inside, byteAt_append, Course.value_bind]

theorem weekday_basic (front rest : List UInt8) (digit : UInt8) :
    weekday (front ++ digit :: rest) false front.length =
      .ofOption ((weekday? (charOf digit)).map fun day => (day, front.length + 1)) := by
  rw [weekday_append, Bool.toNat_false, Nat.add_zero, numberAt_one]
  by_cases isHyphen : digit = hyphen
  · have noDay : weekday? (charOf hyphen) = none := natural?_eq_none (.inr (by decide))
    rw [isHyphen, noDay]
    rfl
  · have basic : ((digit == hyphen) != false) = false := by simpa using isHyphen
    rw [basic, if_neg Bool.false_ne_true]
    cases weekday? (charOf digit) <;> rfl

theorem weekday_extended (front rest : List UInt8) (digit : UInt8) :
    weekday (front ++ hyphen :: digit :: rest) true front.length =
      .ofOption ((weekday? (charOf digit)).map fun day => (day, front.length + 2)) := by
  have read := numberAt_one (front ++ [hyphen]) rest digit
  simp only [List.length_append, List.length_singleton, List.append_assoc, List.singleton_append]
    at read
  rw [weekday_append, Bool.toNat_true, read]
  cases weekday? (charOf digit) <;> rfl

theorem weekday_of_ne (front rest : List UInt8) {mark : UInt8} (notHyphen : mark ≠ hyphen) :
    weekday (front ++ mark :: rest) true front.length = .refused := by
  rw [weekday_append, if_pos]
  simpa using notHyphen

theorem weekday_of_end (front : List UInt8) :
    weekday (front ++ [hyphen]) true front.length = .refused := by
  rw [weekday_append, numberAt_of_lt (by simp)]
  rfl

theorem dayInWeek_eq (year week day : Nat) :
    dayInWeek year week day = .ofOption (Date.ofWeek? year week day) := by
  by_cases inWeek : 1 ≤ day ∧ day ≤ 7
  · have later : minus day 1 = .value (day - 1) := if_pos inWeek.1
    rw [dayInWeek, if_pos inWeek, later, Date.ofWeek?, Date.ofWeek?]
    by_cases known : 1 ≤ year ∧ 1 ≤ week ∧ week ≤ weeksIn year
    · rw [if_pos (by omega), if_pos (by omega)]
      rfl
    · rw [if_neg (by omega), if_neg (by omega)]
      rfl
  · rw [dayInWeek, if_neg inWeek, Date.ofWeek?, if_neg (by omega)]
    rfl

theorem dayOfWeek_append (front rest : List UInt8) (extended : Bool) (year week : Nat) :
    (do
      let (day, stop) ← weekday (front ++ rest) extended front.length
      if stop ≠ (front ++ rest).length then .refused else dayInWeek year week day) =
      .ofOption ((dayOfWeek? extended (charsOf rest)).bind (Date.ofWeek? year week)) := by
  match extended, rest with
  | _, [] => simp [weekday_nil, dayOfWeek?, dayInWeek_eq]
  | false, [digit] =>
      rw [weekday_basic]
      cases read : weekday? (charOf digit) <;> simp [dayOfWeek?, read, dayInWeek_eq]
  | false, digit :: _ :: more =>
      rw [weekday_basic]
      cases weekday? (charOf digit) <;> cases more <;> simp [dayOfWeek?]
  | true, mark :: more =>
      by_cases isHyphen : mark = hyphen
      · subst isHyphen
        match more with
        | [] => simp [weekday_of_end, dayOfWeek?]
        | [digit] =>
          rw [weekday_extended]
          cases read : weekday? (charOf digit) <;>
            simp [dayOfWeek?, read, dayInWeek_eq, charOf_hyphen]
        | digit :: _ :: _ =>
          rw [weekday_extended]
          cases weekday? (charOf digit) <;> simp [dayOfWeek?]
      · rw [weekday_of_ne front more isHyphen]
        have notHyphen : charOf mark ≠ '-' := mt (charOf_eq_hyphen_iff mark).mp isHyphen
        match more with
        | [] | [_] => simp [dayOfWeek?, notHyphen]
        | _ :: _ :: _ => simp [dayOfWeek?]

theorem weekDate_append (front later : List UInt8) (extended : Bool) (year : Nat) :
    weekDate (front ++ later) extended year front.length =
      .ofOption (weekDate? extended year (charsOf later)) := by
  match later with
  | [] => simp [weekDate, numberAt_of_lt, weekDate?]
  | [_] => simp [weekDate, numberAt_of_lt, weekDate?]
  | w1 :: w2 :: rest =>
      have place : front.length + 2 = (front ++ [w1, w2]).length := by simp
      have whole : front ++ w1 :: w2 :: rest = (front ++ [w1, w2]) ++ rest := by simp
      rw [weekDate, numberAt_two, place, whole, charsOf_cons, charsOf_cons, weekDate?]
      cases read : Clock.twoDigits? (charOf w1) (charOf w2) with
      | none => rfl
      | some week => exact dayOfWeek_append (front ++ [w1, w2]) rest extended year week

theorem lastTwo_append (front rest : List UInt8) (year month : Nat) :
    (do
      let day ← numberAt (front ++ rest) front.length (front.length + 2)
      if front.length + 2 ≠ (front ++ rest).length then .refused
      else Course.ofOption (Date.ofCivil? year month day)) =
      .ofOption ((lastTwo? (charsOf rest)).bind (Date.ofCivil? year month)) := by
  match rest with
  | [] | [_] => simp [lastTwo?, numberAt_of_lt]
  | [d1, d2] =>
      rw [numberAt_two]
      cases read : Clock.twoDigits? (charOf d1) (charOf d2) <;> simp [lastTwo?, read]
  | d1 :: d2 :: _ :: _ =>
      rw [numberAt_two]
      cases Clock.twoDigits? (charOf d1) (charOf d2) <;> simp [lastTwo?]

theorem dayOfMonth_append (front rest : List UInt8) (extended : Bool) (year month : Nat) :
    (if ((front ++ rest)[front.length]? == some hyphen) != extended then .refused
      else do
        let day ← numberAt (front ++ rest) (front.length + extended.toNat)
          (front.length + extended.toNat + 2)
        if front.length + extended.toNat + 2 ≠ (front ++ rest).length then .refused
        else Course.ofOption (Date.ofCivil? year month day)) =
      .ofOption ((dayOfMonth? extended (charsOf rest)).bind (Date.ofCivil? year month)) := by
  rw [List.getElem?_append_right (Nat.le_refl _), Nat.sub_self]
  cases extended with
  | false =>
      rw [Bool.toNat_false, Nat.add_zero, lastTwo_append, dayOfMonth?]
      cases rest with
      | nil => rfl
      | cons first more =>
          by_cases isHyphen : first = hyphen
          · have noDay : lastTwo? (charsOf (first :: more)) = none := by
              have notDigit : (charOf hyphen).isDigit = false := by decide
              match more with
              | [] => rfl
              | [_] => exact isHyphen ▸ twoDigits?_eq_none notDigit _
              | _ :: _ :: _ => rfl
            rw [noDay]
            simp
          · simp [isHyphen]
  | true =>
      match rest with
      | [] => rfl
      | mark :: more =>
          by_cases isHyphen : mark = hyphen
          · subst isHyphen
            have place : front.length + true.toNat = (front ++ [hyphen]).length := by simp
            have whole : front ++ hyphen :: more = (front ++ [hyphen]) ++ more := by simp
            rw [place, whole]
            exact lastTwo_append (front ++ [hyphen]) more year month
          · have notHyphen : charOf mark ≠ '-' := mt (charOf_eq_hyphen_iff mark).mp isHyphen
            simp [dayOfMonth?, isHyphen, notHyphen]

theorem civilDate_append (front later : List UInt8) (extended : Bool) (year : Nat) :
    civilDate (front ++ later) extended year front.length =
      .ofOption (civilDate? extended year (charsOf later)) := by
  match later with
  | [] => simp [civilDate, numberAt_of_lt, civilDate?]
  | [_] => simp [civilDate, numberAt_of_lt, civilDate?]
  | m1 :: m2 :: rest =>
      have place : front.length + 2 = (front ++ [m1, m2]).length := by simp
      have whole : front ++ m1 :: m2 :: rest = (front ++ [m1, m2]) ++ rest := by simp
      rw [civilDate, numberAt_two, place, whole, charsOf_cons, charsOf_cons, civilDate?]
      cases Clock.twoDigits? (charOf m1) (charOf m2) with
      | none => rfl
      | some month => exact dayOfMonth_append (front ++ [m1, m2]) rest extended year month

theorem charOf_weekMark : charOf weekMark = 'W' := by decide

theorem weekDate?_zero (extended : Bool) (later : List Char) :
    weekDate? extended 0 later = none := by
  fun_cases weekDate? extended 0 later <;> simp [Date.ofWeek?]

theorem civilDate?_zero (extended : Bool) (later : List Char) :
    civilDate? extended 0 later = none := by
  fun_cases civilDate? extended 0 later <;> simp [Date.ofCivil?]

/-- The year zero need not be told apart, for the calendar does not have it. -/
theorem date_of_dateOfYear {y1 y2 y3 y4 : UInt8} {later : List UInt8} {read : Nat → Option Date}
    (noZero : read 0 = none)
    (same : ∀ year, dateOfYear (y1 :: y2 :: y3 :: y4 :: later) year = .ofOption (read year)) :
    date (y1 :: y2 :: y3 :: y4 :: later) =
      .ofOption ((year? (charOf y1) (charOf y2) (charOf y3) (charOf y4)).bind read) := by
  rw [date, numberAt_four]
  match year? (charOf y1) (charOf y2) (charOf y3) (charOf y4) with
  | none => rfl
  | some 0 => rw [Option.bind_some, noZero]; rfl
  | some (year + 1) => exact same (year + 1)

theorem head?_charsOf_ne {byte : UInt8} {rest : List UInt8} (other : rest.head? ≠ some byte) :
    (charsOf rest).head? ≠ some (charOf byte) := by
  cases rest with
  | nil =>
      intro same
      cases same
  | cons first more =>
      exact fun same => other (congrArg some (charOf_injective (Option.some.inj same)))

theorem date_eq (bytes : List UInt8) :
    date bytes = .ofOption (Timestamp.date? (charsOf bytes)) := by
  match bytes with
  | [] | [_] | [_, _] | [_, _, _] => simp [date, numberAt_of_lt, Timestamp.date?]
  | y1 :: y2 :: y3 :: y4 :: later =>
      simp only [charsOf_cons]
      by_cases isHyphen : later.head? = some hyphen
      · obtain ⟨rest, rfl⟩ := List.head?_eq_some_iff.mp isHyphen
        rw [charsOf_cons, charOf_hyphen]
        by_cases isWeek : rest.head? = some weekMark
        · obtain ⟨last, rfl⟩ := List.head?_eq_some_iff.mp isWeek
          rw [charsOf_cons, charOf_weekMark, date?_extendedWeek]
          exact date_of_dateOfYear (weekDate?_zero true _) fun year =>
            weekDate_append [y1, y2, y3, y4, hyphen, weekMark] last true year
        · rw [date?_extendedCivil _ _ _ _ (head?_charsOf_ne isWeek)]
          refine date_of_dateOfYear (civilDate?_zero true _) fun year => ?_
          have civil := civilDate_append [y1, y2, y3, y4, hyphen] rest true year
          rw [List.head?_eq_getElem?] at isWeek
          exact (if_neg (by simpa using isWeek)).trans civil
      · by_cases isWeek : later.head? = some weekMark
        · obtain ⟨last, rfl⟩ := List.head?_eq_some_iff.mp isWeek
          rw [charsOf_cons, charOf_weekMark, date?_basicWeek]
          exact date_of_dateOfYear (weekDate?_zero false _) fun year =>
            weekDate_append [y1, y2, y3, y4, weekMark] last false year
        · rw [date?_basicCivil _ _ _ _ (head?_charsOf_ne isWeek) (head?_charsOf_ne isHyphen)]
          refine date_of_dateOfYear (civilDate?_zero false _) fun year => ?_
          have civil := civilDate_append [y1, y2, y3, y4] later false year
          rw [List.head?_eq_getElem?] at isWeek isHyphen
          have basic : ((y1 :: y2 :: y3 :: y4 :: later)[4]? == some hyphen) = false := by
            simpa using isHyphen
          rw [dateOfYear, basic]
          exact (if_neg (by simpa using isWeek)).trans civil

end WorkoutBoard.Calendar.Bytewise
