import WorkoutBoard.Proofs.Calendar.Bytewise.Text

/-!
# What follows the separator, read by a machine

A time of day and a distance are read as their characters are (`timeAndOffset_eq`). The sign between
them is one byte, so that both cuts of the text are made between characters, and two digits for each
part keep the distance in a word of 64 bits (`micros_eq`).
-/

namespace WorkoutBoard.Calendar.Bytewise

open Machine
open Text.Utf8 (encode encode_append encode_cons)

/-! ## The distance -/

theorem le_of_ofChars? {text : List Char} {clock : Clock}
    (read : Clock.ofChars? text = some clock) :
    clock.hour ≤ 99 ∧ clock.minute ≤ 99 ∧ clock.second ≤ 99 ∧ clock.micro < 1000000 := by
  obtain ⟨⟨hour, rest⟩, -, sound, rfl⟩ := ClockSpelling.exists_of_ofChars? read
  obtain ⟨hourFits, restSound⟩ := sound
  cases rest with
  | nothing => exact ⟨hourFits, Nat.zero_le _, Nat.zero_le _, Nat.succ_pos _⟩
  | minutes extended minute => exact ⟨hourFits, restSound, Nat.zero_le _, Nat.succ_pos _⟩
  | seconds extended minute second fraction =>
      refine ⟨hourFits, restSound.1, restSound.2.1, ?_⟩
      cases fraction with
      | none => exact Nat.succ_pos _
      | some written => exact written.micro_lt

theorem longWord_of_le {value : Int} (lower : -10 ^ 18 ≤ value) (upper : value ≤ 10 ^ 18) :
    longWord value = .value value :=
  if_pos (by omega)

theorem micros_eq {text : List Char} {clock : Clock}
    (read : Clock.ofChars? text = some clock) : micros clock = .value (clock.micros : Int) := by
  obtain ⟨hour, minute, second, micro⟩ := le_of_ofChars? read
  have whole : (clock.micros : Int) =
      ((clock.hour * 60 + clock.minute) * 60 + clock.second) * 1000000 + clock.micro := by
    simp [Clock.micros]
  rw [micros, longWord_of_le (by omega) (by omega), Course.value_bind,
    longWord_of_le (by omega) (by omega), Course.value_bind,
    longWord_of_le (by omega) (by omega), Course.value_bind,
    longWord_of_le (by omega) (by omega), Course.value_bind,
    longWord_of_le (by omega) (by omega), Course.value_bind,
    longWord_of_le (by omega) (by omega), whole]

theorem offset_eq {sign : Char} (text : List Char) :
    offset (sign == '-') text = .ofOption (Timestamp.offset? (sign :: text)) := by
  rw [offset, clock_encode, Timestamp.offset?]
  cases read : Clock.ofChars? text with
  | none => rfl
  | some clock =>
      rw [Course.ofOption_some, Course.value_bind, micros_eq read, Course.value_bind]
      dsimp only
      by_cases short : clock.micros < Clock.microsPerDay
      · have below : ¬(Clock.microsPerDay : Int) ≤ clock.micros := by omega
        have small : clock.micros < 10 ^ 18 := Nat.lt_trans short (by decide)
        rw [if_neg below, if_pos short]
        by_cases minus : sign = '-'
        · rw [if_pos minus, if_pos (beq_iff_eq.mpr minus), longWord_of_le (by omega) (by omega),
            Int.neg_one_mul]
          rfl
        · rw [if_neg minus, if_neg (mt beq_iff_eq.mp minus),
            longWord_of_le (by omega) (by omega), Int.one_mul]
          rfl
      · have above : (Clock.microsPerDay : Int) ≤ clock.micros := by omega
        rw [if_pos above, if_neg short]
        rfl

/-! ## The sign -/

theorem signOffset?_append {before : List Char}
    (noSign : ∀ character ∈ before, Timestamp.isSign character = false) {sign : Char}
    (isSign : Timestamp.isSign sign = true) (after : List Char) :
    signOffset? (before ++ sign :: after) = some (encode before).length := by
  induction before with
  | nil => exact if_pos isSign
  | cons character rest inductive_step =>
      obtain ⟨first, later⟩ := List.forall_mem_cons.mp noSign
      rw [List.cons_append, signOffset?, if_neg (by simp [first]), inductive_step later,
        length_encode_cons]
      rfl

theorem signOffset?_eq_none {text : List Char}
    (noSign : ∀ character ∈ text, Timestamp.isSign character = false) :
    signOffset? text = none := by
  induction text with
  | nil => rfl
  | cons character rest inductive_step =>
      obtain ⟨first, later⟩ := List.forall_mem_cons.mp noSign
      rw [signOffset?, if_neg (by simp [first]), inductive_step later]
      rfl

def timeAndOffset? (date : Date) (text : List Char) : Option Timestamp := do
  let clock ← Timestamp.timeOfDay? (text.takeWhile fun character => !Timestamp.isSign character)
  let offset ← Timestamp.offset? (text.dropWhile fun character => !Timestamp.isSign character)
  return ⟨date, clock, offset⟩

theorem exists_sign (text : List Char) :
    (∀ character ∈ text, Timestamp.isSign character = false) ∨
      ∃ before sign after, text = before ++ sign :: after ∧
        (∀ character ∈ before, Timestamp.isSign character = false) ∧
          Timestamp.isSign sign = true := by
  induction text with
  | nil => exact .inl (by simp)
  | cons character rest inductive_step =>
      cases isSign : Timestamp.isSign character with
      | true => exact .inr ⟨[], character, rest, rfl, by simp, isSign⟩
      | false =>
          rcases inductive_step with none | ⟨before, sign, after, rfl, noSign, found⟩
          · exact .inl (List.forall_mem_cons.mpr ⟨isSign, none⟩)
          · exact .inr ⟨character :: before, sign, after, rfl,
              List.forall_mem_cons.mpr ⟨isSign, noSign⟩, found⟩

theorem timeAndOffset?_append (date : Date) {before : List Char}
    (noSign : ∀ character ∈ before, Timestamp.isSign character = false) {sign : Char}
    (isSign : Timestamp.isSign sign = true) (after : List Char) :
    timeAndOffset? date (before ++ sign :: after) = do
      let clock ← Timestamp.timeOfDay? before
      let offset ← Timestamp.offset? (sign :: after)
      return ⟨date, clock, offset⟩ := by
  have passed : ∀ character ∈ before, (!Timestamp.isSign character) = true := by
    simpa using noSign
  have taken : (sign :: after).takeWhile (fun character => !Timestamp.isSign character) = [] :=
    List.takeWhile_cons_of_neg (by simp [isSign])
  have dropped : (sign :: after).dropWhile (fun character => !Timestamp.isSign character) =
      sign :: after :=
    List.dropWhile_cons_of_neg (by simp [isSign])
  rw [timeAndOffset?, List.takeWhile_append_of_pos passed, taken, List.append_nil,
    List.dropWhile_append_of_pos passed, dropped]

/-- A sign is one byte, so that a cut after it is one byte further. -/
theorem cut_sign (before after : List Char) {sign : Char}
    (isSign : Timestamp.isSign sign = true) :
    cut ((encode before).length + 1) (before ++ sign :: after) =
      .value (before ++ [sign], after) := by
  have ascii : sign.toNat < 0x80 := by
    simp only [Timestamp.isSign, Bool.or_eq_true, beq_iff_eq] at isSign
    rcases isSign with rfl | rfl <;> decide
  have length : (encode (before ++ [sign])).length = (encode before).length + 1 := by
    rw [encode_append, List.length_append, encode_cons, Text.Utf8.encodeChar_of_lt ascii]
    rfl
  have parts := cut?_append (before ++ [sign]) after
  rw [length, List.append_assoc, List.singleton_append] at parts
  rw [cut, parts]

theorem timeAndOffset?_eq_none (date : Date) {text : List Char}
    (noSign : ∀ character ∈ text, Timestamp.isSign character = false) :
    timeAndOffset? date text = none := by
  have passed : ∀ character ∈ text, (!Timestamp.isSign character) = true := by
    simpa using noSign
  have dropped : (text ++ []).dropWhile (fun character => !Timestamp.isSign character) = [] :=
    List.dropWhile_append_of_pos passed
  rw [List.append_nil] at dropped
  rw [timeAndOffset?, dropped]
  cases Timestamp.timeOfDay? _ <;> rfl

theorem timeAndOffset_eq (date : Date) (text : List Char) :
    timeAndOffset date text = .ofOption (timeAndOffset? date text) := by
  rcases exists_sign text with noSign | ⟨before, sign, after, rfl, noSign, isSign⟩
  · rw [timeAndOffset, signOffset?_eq_none noSign, timeAndOffset?_eq_none date noSign]
    rfl
  · have whole : cut (encode before).length (before ++ sign :: after) =
        .value (before, sign :: after) := by
      rw [cut, cut?_append]
    have negative : ((sign :: after).head? == some '-') = (sign == '-') := rfl
    rw [timeAndOffset, signOffset?_append noSign isSign, Course.ofOption_some, Course.value_bind,
      whole, Course.value_bind, timeAndOffset?_append date noSign isSign, Timestamp.timeOfDay?]
    dsimp only
    rw [clock_encode, cut_sign before after isSign]
    cases Clock.ofChars? before with
    | none => rfl
    | some clock =>
        cases ofDay : clock.isTimeOfDay with
        | false => simp [ofDay]
        | true =>
            simp only [Course.ofOption_some, Course.value_bind, ofDay, negative, offset_eq]
            cases Timestamp.offset? (sign :: after) <;> rfl

end WorkoutBoard.Calendar.Bytewise
