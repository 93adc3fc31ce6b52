import Mathlib.Data.List.Basic
import WorkoutBoard.Proofs.Calendar.Timestamp

/-!
# Where a `Z` may stand

Every `Z` is written out as the distance zero before a text is read, wherever it stands. What is
written out may be read as a distance, which further seconds prolong, but also as a separator and a
time of day. `Timestamp.isAware_iff_of_zulu` lists the forms of a text with a `Z` in it.
-/

namespace WorkoutBoard.Calendar

open Text.Decimal (digits)

/-- What may follow a `Z`, which ends in minutes when it is written out. -/
inductive ZuluTail where
  | nothing
  | seconds (second : Nat) (fraction : Option FractionSpelling)

namespace ZuluTail

def text : ZuluTail → List Char
  | .nothing => []
  | .seconds second fraction =>
      ':' :: (digits 2 second ++ FractionSpelling.optionalText fraction)

def second : ZuluTail → Nat
  | .nothing => 0
  | .seconds second _ => second

def IsSound : ZuluTail → Prop
  | .nothing => True
  | .seconds second fraction => second ≤ 99 ∧ ∀ written ∈ fraction, written.IsSound

def clock : ZuluTail → ClockSpelling
  | .nothing => ⟨0, .minutes true 0⟩
  | .seconds second fraction => ⟨0, .seconds true 0 second fraction⟩

theorem clock_text (tail : ZuluTail) :
    tail.clock.text = '0' :: '0' :: ':' :: '0' :: '0' :: tail.text := by
  have zeros : digits 2 0 = ['0', '0'] := rfl
  cases tail with
  | nothing => rfl
  | seconds second fraction =>
      simp [clock, text, ClockSpelling.text, RestSpelling.text, colon, zeros]

theorem clock_sound {tail : ZuluTail} (sound : tail.IsSound) : tail.clock.IsSound := by
  cases tail with
  | nothing => exact ⟨Nat.zero_le 99, Nat.zero_le 99⟩
  | seconds second fraction => exact ⟨Nat.zero_le 99, Nat.zero_le 99, sound⟩

theorem isClockCharacter_of_mem_text {tail : ZuluTail} (sound : tail.IsSound) {character : Char}
    (member : character ∈ tail.text) : isClockCharacter character = true := by
  refine ClockSpelling.isClockCharacter_of_mem_text (clock_sound sound) ?_
  rw [clock_text]
  exact List.mem_append_right ['0', '0', ':', '0', '0'] member

theorem exists_of_clock {spelling : ClockSpelling} (sound : spelling.IsSound) {later : List Char}
    (rest : List Char) (noColon : ∀ others, rest ≠ ':' :: others)
    (equal : '0' :: '0' :: ':' :: '0' :: '0' :: later = spelling.text ++ rest) :
    ∃ tail : ZuluTail, tail.IsSound ∧ spelling = tail.clock ∧ later = tail.text ++ rest := by
  obtain ⟨hour, spelled⟩ := spelling
  have hours : digits 2 0 ++ (colon true ++ (digits 2 0 ++ later)) =
      digits 2 hour ++ (spelled.text ++ rest) := by
    rw [← List.append_assoc (digits 2 hour)]
    exact equal
  obtain ⟨rfl, minutes⟩ := Text.Decimal.digits_append_inj (by decide) (by decide)
    (Nat.lt_succ_of_le sound.hour) hours
  cases spelled with
  | nothing => exact absurd minutes.symm (noColon _)
  | minutes extended minute =>
      rw [RestSpelling.text_minutes, List.append_assoc, List.append_assoc] at minutes
      obtain ⟨rfl, rfl, tails⟩ := RestSpelling.colon_append_inj (by decide) sound.rest minutes
      exact ⟨.nothing, trivial, rfl, tails⟩
  | seconds extended minute second fraction =>
      obtain ⟨minuteFits, secondFits, fractionSound⟩ := sound.rest
      simp only [RestSpelling.text, List.append_assoc] at minutes
      obtain ⟨rfl, rfl, tails⟩ := RestSpelling.colon_append_inj (by decide) minuteFits minutes
      refine ⟨.seconds second fraction, ⟨secondFits, fractionSound⟩, rfl, ?_⟩
      rw [tails, text]
      simp [colon]

end ZuluTail

/-! ## Texts that are written out -/

namespace Timestamp

theorem spellOutZulu_cons_zulu (later : List Char) :
    spellOutZulu ('Z' :: later) =
      '+' :: '0' :: '0' :: ':' :: '0' :: '0' :: spellOutZulu later := rfl

theorem spellOutZulu_cons_of_ne {character : Char} (notZulu : character ≠ 'Z')
    (later : List Char) : spellOutZulu (character :: later) = character :: spellOutZulu later := by
  rw [spellOutZulu, List.flatMap_cons, if_neg notZulu]
  rfl

theorem spellOutZulu_append (front back : List Char) :
    spellOutZulu (front ++ back) = spellOutZulu front ++ spellOutZulu back :=
  List.flatMap_append

theorem spellOutZulu_eq_self {text : List Char} (noZulu : 'Z' ∉ text) :
    spellOutZulu text = text := by
  induction text with
  | nil => rfl
  | cons character later inductive_step =>
      rw [List.mem_cons, not_or] at noZulu
      rw [spellOutZulu_cons_of_ne (Ne.symm noZulu.1), inductive_step noZulu.2]

theorem of_spellOutZulu_eq_cons {text rest : List Char} {first : Char}
    (written : spellOutZulu text = first :: rest) :
    (∃ later, text = 'Z' :: later ∧ first = '+' ∧
        rest = '0' :: '0' :: ':' :: '0' :: '0' :: spellOutZulu later) ∨
      (first ≠ 'Z' ∧ ∃ later, text = first :: later ∧ rest = spellOutZulu later) := by
  cases text with
  | nil => cases written
  | cons character later =>
      by_cases zulu : character = 'Z'
      · rw [zulu, spellOutZulu_cons_zulu] at written
        obtain ⟨rfl, rfl⟩ := List.cons.inj written
        exact .inl ⟨later, congrArg (· :: later) zulu, rfl, rfl⟩
      · rw [spellOutZulu_cons_of_ne zulu] at written
        obtain ⟨rfl, rfl⟩ := List.cons.inj written
        exact .inr ⟨zulu, later, rfl, rfl⟩

theorem of_spellOutZulu_eq_append {text front back : List Char} (noPlus : '+' ∉ front)
    (written : spellOutZulu text = front ++ back) :
    ∃ later, text = front ++ later ∧ spellOutZulu later = back := by
  induction front generalizing text with
  | nil => exact ⟨text, rfl, written⟩
  | cons character others inductive_step =>
      rw [List.mem_cons, not_or] at noPlus
      rcases of_spellOutZulu_eq_cons written with ⟨later, -, plus, -⟩ | ⟨-, later, rfl, rest⟩
      · exact absurd plus.symm noPlus.1
      · obtain ⟨last, rfl, same⟩ := inductive_step noPlus.2 rest.symm
        exact ⟨last, rfl, same⟩

theorem eq_nil_of_spellOutZulu {text : List Char} (written : spellOutZulu text = []) :
    text = [] := by
  cases text with
  | nil => rfl
  | cons character later =>
      by_cases zulu : character = 'Z'
      · rw [zulu, spellOutZulu_cons_zulu] at written
        cases written
      · rw [spellOutZulu_cons_of_ne zulu] at written
        cases written

theorem of_spellOutZulu_eq {text written : List Char} (noPlus : '+' ∉ written)
    (same : spellOutZulu text = written) : text = written := by
  obtain ⟨later, rfl, nothing⟩ := of_spellOutZulu_eq_append noPlus
    (same.trans (List.append_nil written).symm)
  rw [eq_nil_of_spellOutZulu nothing, List.append_nil]

end Timestamp

/-! ## The forms of a text with a Z -/

/-- A `Z` is the distance, or separator and time of day in one, or there are two that are both. -/
inductive HasZulu : List Char → Prop
  | distance {date : DateSpelling} {day : Date} {separator : Char} {time : ClockSpelling}
      {tail : ZuluTail} (denotes : date.Denotes day) (notZulu : separator ≠ 'Z')
      (clear : date.isExtendedWeekday = true → separator.isDigit = false) (sound : time.IsSound)
      (ofDay : time.clock.hour < 24 ∧ time.clock.minute < 60 ∧ time.clock.second < 60)
      (tailSound : tail.IsSound) :
      HasZulu (date.text ++ separator :: (time.text ++ 'Z' :: tail.text))
  | time {date : DateSpelling} {day : Date} {tail : ZuluTail} {distance : ClockSpelling}
      (denotes : date.Denotes day) (tailSound : tail.IsSound) (inMinute : tail.second < 60)
      (negative : Bool) (sound : distance.IsSound)
      (short : distance.clock.micros < Clock.microsPerDay) :
      HasZulu (date.text ++ 'Z' :: (tail.text ++ Spelling.sign negative :: distance.text))
  | both {date : DateSpelling} {day : Date} {tail last : ZuluTail} (denotes : date.Denotes day)
      (tailSound : tail.IsSound) (inMinute : tail.second < 60) (lastSound : last.IsSound) :
      HasZulu (date.text ++ 'Z' :: (tail.text ++ 'Z' :: last.text))

namespace ZuluTail

theorem micros_lt {tail : ZuluTail} (sound : tail.IsSound) :
    tail.clock.clock.micros < Clock.microsPerDay := by
  cases tail with
  | nothing => decide
  | seconds second fraction =>
      have micro : (fraction.map FractionSpelling.micro).getD 0 < 1000000 := by
        cases fraction with
        | none => exact Nat.succ_pos _
        | some written => exact written.micro_lt
      have bound := sound.1
      change ((0 * 60 + 0) * 60 + second) * 1000000 +
        (fraction.map FractionSpelling.micro).getD 0 < 24 * 60 * 60 * 1000000
      omega

theorem ofDay_iff (tail : ZuluTail) :
    (tail.clock.clock.hour < 24 ∧ tail.clock.clock.minute < 60 ∧ tail.clock.clock.second < 60) ↔
      tail.second < 60 := by
  cases tail <;> simp [clock, ClockSpelling.clock, RestSpelling.clock, second]

end ZuluTail

theorem DateSpelling.not_mem_text {spelling : DateSpelling} {character : Char}
    (outside : isDateCharacter character = false) : character ∉ spelling.text := by
  intro member
  rw [isDateCharacter_of_mem_text member] at outside
  cases outside

theorem ClockSpelling.not_mem_text {spelling : ClockSpelling} (sound : spelling.IsSound)
    {character : Char} (outside : isClockCharacter character = false) :
    character ∉ spelling.text := by
  intro member
  rw [isClockCharacter_of_mem_text sound member] at outside
  cases outside

theorem ZuluTail.not_mem_text {tail : ZuluTail} (sound : tail.IsSound) {character : Char}
    (outside : isClockCharacter character = false) : character ∉ tail.text := by
  intro member
  rw [isClockCharacter_of_mem_text sound member] at outside
  cases outside

theorem Spelling.sign_ne_zulu (negative : Bool) : Spelling.sign negative ≠ 'Z' := by
  cases negative <;> decide

namespace Timestamp

theorem spellOutZulu_append_of_not_mem {front : List Char} (noZulu : 'Z' ∉ front)
    (back : List Char) : spellOutZulu (front ++ back) = front ++ spellOutZulu back := by
  rw [spellOutZulu_append, spellOutZulu_eq_self noZulu]

theorem spellOutZulu_zulu_append {tail : ZuluTail} (sound : tail.IsSound) (back : List Char) :
    spellOutZulu ('Z' :: (tail.text ++ back)) = '+' :: (tail.clock.text ++ spellOutZulu back) := by
  rw [spellOutZulu_cons_zulu, spellOutZulu_append_of_not_mem (tail.not_mem_text sound (by decide)),
    ZuluTail.clock_text]
  rfl

theorem spellOutZulu_zulu {tail : ZuluTail} (sound : tail.IsSound) :
    spellOutZulu ('Z' :: tail.text) = '+' :: tail.clock.text := by
  have written := spellOutZulu_zulu_append sound []
  rw [List.append_nil] at written
  rw [written]
  exact congrArg ('+' :: ·) (List.append_nil _)

end Timestamp

theorem HasZulu.exists_spelling {text : List Char} (hasZulu : HasZulu text) :
    ∃ (spelling : Spelling) (timestamp : Timestamp),
      spelling.text = Timestamp.spellOutZulu text ∧ spelling.Denotes timestamp := by
  have notDigit : '+'.isDigit = false := by decide
  cases hasZulu with
  | @distance date day separator time tail denotes notZulu clear sound ofDay tailSound =>
      refine ⟨⟨date, separator, time, false, tail.clock⟩, ⟨day, time.clock, _⟩, ?_, denotes, clear,
        sound, rfl, ofDay, ZuluTail.clock_sound tailSound, ZuluTail.micros_lt tailSound, rfl⟩
      rw [Timestamp.spellOutZulu_append_of_not_mem (date.not_mem_text (by decide)),
        Timestamp.spellOutZulu_cons_of_ne notZulu,
        Timestamp.spellOutZulu_append_of_not_mem (time.not_mem_text sound (by decide)),
        Timestamp.spellOutZulu_zulu tailSound]
      rfl
  | @time date day tail distance denotes tailSound inMinute negative sound short =>
      refine ⟨⟨date, '+', tail.clock, negative, distance⟩, ⟨day, tail.clock.clock, _⟩, ?_, denotes,
        fun _ => notDigit, ZuluTail.clock_sound tailSound, rfl, tail.ofDay_iff.mpr inMinute, sound,
        short, rfl⟩
      rw [Timestamp.spellOutZulu_append_of_not_mem (date.not_mem_text (by decide)),
        Timestamp.spellOutZulu_zulu_append tailSound,
        Timestamp.spellOutZulu_cons_of_ne (Spelling.sign_ne_zulu negative),
        Timestamp.spellOutZulu_eq_self (distance.not_mem_text sound (by decide))]
      rfl
  | @both date day tail last denotes tailSound inMinute lastSound =>
      refine ⟨⟨date, '+', tail.clock, false, last.clock⟩, ⟨day, tail.clock.clock, _⟩, ?_, denotes,
        fun _ => notDigit, ZuluTail.clock_sound tailSound, rfl, tail.ofDay_iff.mpr inMinute,
        ZuluTail.clock_sound lastSound, ZuluTail.micros_lt lastSound, rfl⟩
      rw [Timestamp.spellOutZulu_append_of_not_mem (date.not_mem_text (by decide)),
        Timestamp.spellOutZulu_zulu_append tailSound, Timestamp.spellOutZulu_zulu lastSound]
      rfl

theorem HasZulu.of_spelling {text : List Char} (zulu : 'Z' ∈ text) {spelling : Spelling}
    {timestamp : Timestamp} (denotes : spelling.Denotes timestamp)
    (written : Timestamp.spellOutZulu text = spelling.text) : HasZulu text := by
  obtain ⟨date, separator, time, negative, distance⟩ := spelling
  obtain ⟨dateDenotes, clear, timeSound, clock, ofDay, distanceSound, short, -⟩ := denotes
  dsimp only at dateDenotes clear timeSound clock distanceSound short
  rw [← clock] at ofDay
  have dateLiteral : '+' ∉ date.text := date.not_mem_text (by decide)
  have timeLiteral : '+' ∉ time.text := time.not_mem_text timeSound (by decide)
  have distanceLiteral : '+' ∉ distance.text := distance.not_mem_text distanceSound (by decide)
  obtain ⟨afterDate, rfl, rest⟩ := Timestamp.of_spellOutZulu_eq_append dateLiteral written
  rcases Timestamp.of_spellOutZulu_eq_cons rest with ⟨later, rfl, -, begun⟩ |
    ⟨notZulu, later, rfl, begun⟩
  · -- The separator is the sign of a `Z`, so the time of day begins with what it is written out as.
    have noColon : ∀ others, Spelling.sign negative :: distance.text ≠ ':' :: others := by
      cases negative <;> simp [Spelling.sign]
    obtain ⟨tail, tailSound, rfl, more⟩ := ZuluTail.exists_of_clock timeSound _ noColon begun.symm
    have inMinute := tail.ofDay_iff.mp ofDay
    have tailLiteral : '+' ∉ tail.text := tail.not_mem_text tailSound (by decide)
    obtain ⟨afterTail, rfl, signed⟩ := Timestamp.of_spellOutZulu_eq_append tailLiteral more
    rcases Timestamp.of_spellOutZulu_eq_cons signed with ⟨last, rfl, -, distanceBegun⟩ |
      ⟨-, last, rfl, distanceText⟩
    · obtain ⟨lastTail, lastSound, rfl, ended⟩ := ZuluTail.exists_of_clock distanceSound []
        (by simp) (distanceBegun.symm.trans (List.append_nil _).symm)
      rw [List.append_nil] at ended
      obtain rfl := Timestamp.of_spellOutZulu_eq (lastTail.not_mem_text lastSound (by decide)) ended
      exact .both dateDenotes tailSound inMinute lastSound
    · obtain rfl := Timestamp.of_spellOutZulu_eq distanceLiteral distanceText.symm
      exact .time dateDenotes tailSound inMinute negative distanceSound short
  · obtain ⟨afterTime, rfl, signed⟩ := Timestamp.of_spellOutZulu_eq_append timeLiteral begun.symm
    rcases Timestamp.of_spellOutZulu_eq_cons signed with ⟨last, rfl, -, distanceBegun⟩ |
      ⟨signNotZulu, last, rfl, distanceText⟩
    · obtain ⟨tail, tailSound, rfl, ended⟩ := ZuluTail.exists_of_clock distanceSound []
        (by simp) (distanceBegun.symm.trans (List.append_nil _).symm)
      rw [List.append_nil] at ended
      obtain rfl := Timestamp.of_spellOutZulu_eq (tail.not_mem_text tailSound (by decide)) ended
      exact .distance dateDenotes notZulu clear timeSound ofDay tailSound
    · -- No character of the text is a `Z`.
      obtain rfl := Timestamp.of_spellOutZulu_eq distanceLiteral distanceText.symm
      simp only [List.mem_append, List.mem_cons] at zulu
      rcases zulu with inDate | isSeparator | inTime | isSign | inDistance
      · exact absurd inDate (date.not_mem_text (by decide))
      · exact absurd isSeparator.symm notZulu
      · exact absurd inTime (time.not_mem_text timeSound (by decide))
      · exact absurd isSign.symm signNotZulu
      · exact absurd inDistance (distance.not_mem_text distanceSound (by decide))

/-! ## How many there are -/

theorem HasZulu.count_le {text : List Char} (hasZulu : HasZulu text) : text.count 'Z' ≤ 2 := by
  have inDate (date : DateSpelling) : date.text.count 'Z' = 0 :=
    List.count_eq_zero.mpr (date.not_mem_text (by decide))
  have inClock {clock : ClockSpelling} (sound : clock.IsSound) : clock.text.count 'Z' = 0 :=
    List.count_eq_zero.mpr (clock.not_mem_text sound (by decide))
  have inTail {tail : ZuluTail} (sound : tail.IsSound) : tail.text.count 'Z' = 0 :=
    List.count_eq_zero.mpr (tail.not_mem_text sound (by decide))
  cases hasZulu with
  | distance denotes notZulu clear sound ofDay tailSound =>
      simp [inDate, inClock sound, inTail tailSound, notZulu]
  | time denotes tailSound inMinute negative sound short =>
      simp [inDate, inTail tailSound, inClock sound,
        Spelling.sign_ne_zulu negative]
  | both denotes tailSound inMinute lastSound =>
      simp [inDate, inTail tailSound, inTail lastSound]

/-- A single `Z` that is not the last character separates the date, or is followed by seconds. -/
theorem HasZulu.of_single {text front back : List Char} (hasZulu : HasZulu text)
    (parted : text = front ++ 'Z' :: back) (noneBefore : 'Z' ∉ front) (noneAfter : 'Z' ∉ back)
    (notLast : back ≠ []) :
    (∃ (date : DateSpelling) (day : Date), date.Denotes day ∧ front = date.text) ∨
      ∃ second fraction, (ZuluTail.seconds second fraction).IsSound ∧
        back = (ZuluTail.seconds second fraction).text := by
  cases hasZulu with
  | @distance date day separator time tail denotes notZulu clear sound ofDay tailSound =>
      have regrouped : front ++ 'Z' :: back =
          (date.text ++ separator :: time.text) ++ 'Z' :: tail.text := by
        rw [← parted, List.append_assoc, List.cons_append]
      obtain ⟨-, -, rfl⟩ := (List.append_cons_inj_of_notMem noneBefore noneAfter).mp regrouped
      cases tail with
      | nothing => exact absurd rfl notLast
      | seconds second fraction => exact .inr ⟨second, fraction, tailSound, rfl⟩
  | time denotes tailSound inMinute negative sound short =>
      obtain ⟨same, -⟩ := (List.append_cons_inj_of_notMem noneBefore noneAfter).mp parted.symm
      exact .inl ⟨_, _, denotes, same⟩
  | both denotes tailSound inMinute lastSound =>
      obtain ⟨-, -, rfl⟩ := (List.append_cons_inj_of_notMem noneBefore noneAfter).mp parted.symm
      exact absurd (List.mem_append_right _ List.mem_cons_self) noneAfter

/-- The forms of a timestamp that is written with `Z`. At most two stand in it, and one that stands
alone before other characters ends the date or begins the seconds of a distance. -/
theorem Timestamp.isAware_iff_of_zulu (text : String) :
    ('Z' ∈ text.toList → (isAware text = true ↔ HasZulu text.toList)) ∧
      (isAware text = true → text.toList.count 'Z' ≤ 2 ∧
        ∀ front back, text.toList = front ++ 'Z' :: back → 'Z' ∉ front → 'Z' ∉ back → back ≠ [] →
          (∃ (date : DateSpelling) (day : Date), date.Denotes day ∧ front = date.text) ∨
            ∃ second fraction, (ZuluTail.seconds second fraction).IsSound ∧
              back = (ZuluTail.seconds second fraction).text) := by
  have forms (zulu : 'Z' ∈ text.toList) (aware : isAware text = true) : HasZulu text.toList := by
    obtain ⟨timestamp, read⟩ := Option.isSome_iff_exists.mp aware
    obtain ⟨spelling, same, denotes⟩ := Spelling.exists_of_ofChars? read
    exact HasZulu.of_spelling zulu denotes same.symm
  refine ⟨?_, ?_⟩
  · intro zulu
    constructor
    · exact forms zulu
    · intro hasZulu
      obtain ⟨spelling, timestamp, same, denotes⟩ := hasZulu.exists_spelling
      rw [isAware, ← same, Spelling.ofChars?_text denotes]
      rfl
  · intro aware
    by_cases zulu : 'Z' ∈ text.toList
    · refine ⟨(forms zulu aware).count_le, ?_⟩
      intro front back parted noneBefore noneAfter notLast
      exact (forms zulu aware).of_single parted noneBefore noneAfter notLast
    · refine ⟨?_, ?_⟩
      · rw [List.count_eq_zero.mpr zulu]
        exact Nat.zero_le 2
      · intro front back parted
        rw [parted] at zulu
        exact absurd (List.mem_append_right front List.mem_cons_self) zulu

theorem Timestamp.isAware_iff_of_zulu_twice :
    'Z' ∈ "2025-W01Z:59Z:99.5".toList ∧ HasZulu "2025-W01Z:59Z:99.5".toList ∧
      "2025-W01Z:59Z:99.5".toList.count 'Z' ≤ 2 := by
  have zulu : 'Z' ∈ "2025-W01Z:59Z:99.5".toList := by decide
  have aware : isAware "2025-W01Z:59Z:99.5" = true := by decide +kernel
  obtain ⟨forms, number⟩ := isAware_iff_of_zulu "2025-W01Z:59Z:99.5"
  exact ⟨zulu, (forms zulu).mp aware, (number aware).1⟩

end WorkoutBoard.Calendar
