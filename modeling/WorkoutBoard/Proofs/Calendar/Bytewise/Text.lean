import WorkoutBoard.Proofs.Calendar.Bytewise.Clock
import WorkoutBoard.Proofs.Calendar.Bytewise.Date

/-!
# Texts cut at a byte

Only ASCII characters make up dates and clock readings, so that these are read from the bytes of a
text as from the text (`date_encode`, `clock_encode`). A text that is cut after the bytes of some
characters is cut after these characters (`cut?_append`, `of_cut?`).
-/

namespace WorkoutBoard.Calendar.Bytewise

open Machine
open Text.Utf8 (encode encode_cons encodeChar)

/-! ## ASCII -/

def IsAscii (text : List Char) : Prop := ∀ character ∈ text, character.toNat < 0x80

theorem charOf_of_lt {character : Char} (ascii : character.toNat < 0x80) :
    charOf character.toNat.toUInt8 = character := by
  rw [charOf, Text.Utf8.toNat_toUInt8_of_lt (by omega), Char.ofNat_toNat]

theorem charsOf_encode {text : List Char} (ascii : IsAscii text) :
    charsOf (encode text) = text := by
  induction text with
  | nil => rfl
  | cons character rest inductive_step =>
      obtain ⟨first, later⟩ := List.forall_mem_cons.mp ascii
      rw [encode_cons, Text.Utf8.encodeChar_of_lt first, List.singleton_append, charsOf_cons,
        charOf_of_lt first, inductive_step later]

theorem not_isAscii_charsOf_encode {text : List Char} (beyond : ¬IsAscii text) :
    ¬IsAscii (charsOf (encode text)) := by
  intro ascii
  refine beyond fun character member => ?_
  obtain ⟨first, following, bytes, -⟩ := Text.Utf8.decodeChar?_encodeChar character
  have isByte : first ∈ encode text :=
    List.mem_flatMap.mpr ⟨character, member, bytes ▸ List.mem_cons_self⟩
  have small := ascii (charOf first) (List.mem_map_of_mem isByte)
  rw [toNat_charOf] at small
  rcases Text.Utf8.toNat_head_encodeChar bytes with same | large
  · omega
  · omega

/-- What reads nothing but ASCII reads the bytes of a text like the text. -/
theorem read_charsOf_encode {α : Type} {read : List Char → Option α}
    (onlyAscii : ∀ text result, read text = some result → IsAscii text) (text : List Char) :
    read (charsOf (encode text)) = read text := by
  have refused (other : List Char) (beyond : ¬IsAscii other) : read other = none :=
    Option.eq_none_iff_forall_ne_some.mpr fun result found => beyond (onlyAscii other result found)
  by_cases ascii : IsAscii text
  · rw [charsOf_encode ascii]
  · rw [refused text ascii, refused _ (not_isAscii_charsOf_encode ascii)]

theorem toNat_lt_of_isDigit {character : Char} (digit : character.isDigit = true) :
    character.toNat < 0x80 := by
  have range : 48 ≤ character.val.toNat ∧ character.val.toNat ≤ 57 := by
    simpa [Char.isDigit, UInt32.le_iff_toNat_le] using digit
  exact Nat.lt_of_le_of_lt range.2 (by decide)

theorem isAscii_of_date? {text : List Char} {date : Date}
    (read : Timestamp.date? text = some date) : IsAscii text := by
  obtain ⟨spelling, rfl, -⟩ := DateSpelling.exists_of_date? read
  intro character member
  have inDate := DateSpelling.isDateCharacter_of_mem_text member
  simp only [isDateCharacter, Bool.or_eq_true, beq_iff_eq] at inDate
  rcases inDate with (digit | rfl) | rfl
  · exact toNat_lt_of_isDigit digit
  · decide
  · decide

theorem isAscii_of_ofChars? {text : List Char} {clock : Clock}
    (read : Clock.ofChars? text = some clock) : IsAscii text := by
  obtain ⟨spelling, rfl, sound, -⟩ := ClockSpelling.exists_of_ofChars? read
  intro character member
  have inClock := ClockSpelling.isClockCharacter_of_mem_text sound member
  simp only [isClockCharacter, Bool.or_eq_true, beq_iff_eq] at inClock
  rcases inClock with ((digit | rfl) | rfl) | rfl
  · exact toNat_lt_of_isDigit digit
  · decide
  · decide
  · decide

theorem date_encode (text : List Char) :
    date (encode text) = .ofOption (Timestamp.date? text) := by
  rw [date_eq, read_charsOf_encode fun _ _ => isAscii_of_date?]

theorem clock_encode (text : List Char) :
    clock (encode text) = .ofOption (Clock.ofChars? text) := by
  rw [clock_eq, read_charsOf_encode fun _ _ => isAscii_of_ofChars?]

/-! ## Cuts -/

theorem width_pos (character : Char) : 0 < width character := by
  obtain ⟨first, following, bytes, -⟩ := Text.Utf8.decodeChar?_encodeChar character
  rw [width, bytes]
  exact Nat.succ_pos _

theorem length_encode_cons (character : Char) (rest : List Char) :
    (encode (character :: rest)).length = width character + (encode rest).length := by
  rw [encode_cons, List.length_append, width]

theorem cut?_append (before after : List Char) :
    cut? (encode before).length (before ++ after) = some (before, after) := by
  induction before with
  | nil => exact cut?.eq_1 after
  | cons character rest inductive_step =>
      have positive := width_pos character
      have length := length_encode_cons character rest
      obtain ⟨less, successor⟩ :=
        Nat.exists_eq_add_one_of_ne_zero (by omega : (encode (character :: rest)).length ≠ 0)
      rw [successor, List.cons_append, cut?]
      rw [if_pos (by omega)]
      have remaining : less + 1 - width character = (encode rest).length := by omega
      rw [remaining, inductive_step]
      rfl

theorem of_cut? {offset : Nat} {text front back : List Char}
    (parts : cut? offset text = some (front, back)) :
    text = front ++ back ∧ (encode front).length = offset := by
  induction text generalizing offset front back with
  | nil =>
      cases offset with
      | zero =>
          obtain ⟨rfl, rfl⟩ := Prod.mk.inj (Option.some.inj parts)
          exact ⟨rfl, rfl⟩
      | succ less => cases parts
  | cons character rest inductive_step =>
      cases offset with
      | zero =>
          obtain ⟨rfl, rfl⟩ := Prod.mk.inj (Option.some.inj parts)
          exact ⟨rfl, rfl⟩
      | succ less =>
          rw [cut?] at parts
          split at parts
          next fits =>
            obtain ⟨⟨before, after⟩, found, same⟩ := Option.map_eq_some_iff.mp parts
            obtain ⟨rfl, rfl⟩ := Prod.mk.inj same
            obtain ⟨rfl, length⟩ := inductive_step found
            refine ⟨rfl, ?_⟩
            rw [length_encode_cons, length]
            omega
          next => cases parts

end WorkoutBoard.Calendar.Bytewise
