import WorkoutBoard.Json.Printer
import WorkoutBoard.Proofs.Json.Text
import WorkoutBoard.Proofs.Text.Percent

/-!
# String literals

A literal spells the text for which it is written (`spellsText_literal`). It has no escapes but
those that are needed, and no string of the text is shorter (`literalSize_le_of_spellsText`).
-/

namespace WorkoutBoard.Json

open Text.Utf8 (encode encode_append)

theorem lowerHexDigit_lt : ∀ value < 16, (lowerHexDigit value).toNat < 0x80 := by decide

theorem hexValue?_lowerHexDigit :
    ∀ value < 16, Text.Percent.hexValue? (lowerHexDigit value).toNat.toUInt8 = some value := by
  decide

/-! ## Literals spell texts -/

theorem spells_control {character : Char} (control : character.toNat < 0x20) :
    SpellsCharacter (encode ['\\', 'u', '0', '0', lowerHexDigit (character.toNat / 16),
      lowerHexDigit (character.toNat % 16)]) character := by
  have high : character.toNat / 16 < 16 := by omega
  have low : character.toNat % 16 < 16 := Nat.mod_lt _ (by decide)
  have digits : fourDigits? 0x30 0x30 (lowerHexDigit (character.toNat / 16)).toNat.toUInt8
      (lowerHexDigit (character.toNat % 16)).toNat.toUInt8 = some character.toNat := by
    have zero : Text.Percent.hexValue? 0x30 = some 0 := by decide
    have sum : 0 * 0x1000 + 0 * 0x100 + character.toNat / 16 * 0x10 + character.toNat % 16 =
        character.toNat := by omega
    simp only [fourDigits?, zero, hexValue?_lowerHexDigit _ high, hexValue?_lowerHexDigit _ low,
      Option.bind_eq_bind, Option.bind_some, sum]
  have bytes : encode ['\\', 'u', '0', '0', lowerHexDigit (character.toNat / 16),
      lowerHexDigit (character.toNat % 16)] =
        [0x5C, 0x75, 0x30, 0x30, (lowerHexDigit (character.toNat / 16)).toNat.toUInt8,
          (lowerHexDigit (character.toNat % 16)).toNat.toUInt8] := by
    simp only [encode, List.flatMap_cons, List.flatMap_nil,
      Text.Utf8.encodeChar_of_lt (lowerHexDigit_lt _ high),
      Text.Utf8.encodeChar_of_lt (lowerHexDigit_lt _ low)]
    rfl
  have spelled := SpellsCharacter.unit digits
    (by simp [isTrailingSurrogate]; omega) (by simp [isLeadingSurrogate]; omega)
  rw [bytes]
  rwa [Char.ofNat_toNat] at spelled

theorem spells_escapeChar (character : Char) :
    SpellsCharacter (encode (escapeChar character)) character := by
  rw [escapeChar]
  split
  next quote =>
    rw [quote]
    exact .short rfl
  split
  next backslash =>
    rw [backslash]
    exact .short rfl
  split
  next backspace =>
    rw [backspace]
    exact .short rfl
  split
  next formFeed =>
    rw [formFeed]
    exact .short rfl
  split
  next lineFeed =>
    rw [lineFeed]
    exact .short rfl
  split
  next carriageReturn =>
    rw [carriageReturn]
    exact .short rfl
  split
  next tab =>
    rw [tab]
    exact .short rfl
  split
  next control => exact spells_control control
  next visible =>
    rw [encode, List.flatMap_singleton]
    exact .plain ‹_› ‹_› visible

theorem spells_flatMap_escapeChar (characters : List Char) :
    SpellsCharacters (encode (characters.flatMap escapeChar)) characters := by
  induction characters with
  | nil => exact .nil
  | cons character later inductive_step =>
      rw [List.flatMap_cons, encode_append]
      exact .cons (spells_escapeChar character) inductive_step

theorem spellsText_literal (text : String) : SpellsText (encode (literal text)) text := by
  refine ⟨encode (text.toList.flatMap escapeChar), ?_, spells_flatMap_escapeChar text.toList⟩
  rw [literal, encode, List.flatMap_cons, List.flatMap_append]
  rfl

/-! ## No string is shorter than its literal -/

def literalSize (text : String) : Nat := (encode (text.toList.flatMap escapeChar)).length + 2

theorem length_encode_literal (text : String) :
    (encode (literal text)).length = literalSize text := by
  have quote : encode ['"'] = [0x22] := rfl
  have split : encode (literal text) =
      encode ['"'] ++ (encode (text.toList.flatMap escapeChar) ++ encode ['"']) := by
    rw [← encode_append, ← encode_append]
    rfl
  simp only [split, quote, literalSize, List.length_append, List.length_singleton]
  omega

theorem length_encodeChar_le (character : Char) :
    (Text.Utf8.encodeChar character).length ≤ 4 := by
  rw [Text.Utf8.encodeChar]
  split
  · exact Nat.le_add_left 1 3
  split
  · exact Nat.le_add_left 2 2
  split
  · exact Nat.le_add_left 3 1
  · exact Nat.le_refl 4

def escapedSize (character : Char) : Nat := (encode (escapeChar character)).length

theorem escapedSize_le (character : Char) : escapedSize character ≤ 6 := by
  rw [escapedSize, escapeChar]
  iterate 7
    split
    · exact Nat.le_add_left 2 4
  split
  next control =>
    have high := lowerHexDigit_lt (character.toNat / 16) (by omega)
    have low := lowerHexDigit_lt (character.toNat % 16) (Nat.mod_lt _ (by decide))
    simp only [encode, List.flatMap_cons, List.flatMap_nil, Text.Utf8.encodeChar_of_lt high,
      Text.Utf8.encodeChar_of_lt low]
    exact Nat.le_refl 6
  next =>
    rw [encode, List.flatMap_singleton]
    exact Nat.le_trans (length_encodeChar_le character) (by decide)

theorem escapeChar_eq_self {character : Char} (notQuote : character ≠ '"')
    (notBackslash : character ≠ '\\') (visible : ¬character.toNat < 0x20) :
    escapeChar character = [character] := by
  have differs : ∀ control : Char, control.toNat < 0x20 → character ≠ control := by
    rintro control small rfl
    exact visible small
  rw [escapeChar, if_neg notQuote, if_neg notBackslash, if_neg (differs _ (by decide)),
    if_neg (differs _ (by decide)), if_neg (differs _ (by decide)), if_neg (differs _ (by decide)),
    if_neg (differs _ (by decide)), if_neg visible]

theorem escapedSize_of_shortEscape? {letter : UInt8} {character : Char}
    (short : shortEscape? letter = some character) : escapedSize character ≤ 2 := by
  unfold shortEscape? at short
  repeat' split at short
  all_goals
    cases short
    try decide

theorem SpellsCharacter.escapedSize_le {bytes : List UInt8} {character : Char}
    (spells : SpellsCharacter bytes character) : escapedSize character ≤ bytes.length := by
  cases spells with
  | plain notQuote notBackslash visible =>
      have same : escapedSize character = (Text.Utf8.encodeChar character).length := by
        rw [escapedSize, escapeChar_eq_self notQuote notBackslash visible, encode,
          List.flatMap_singleton]
      exact Nat.le_of_eq same
  | short short => exact escapedSize_of_shortEscape? short
  | unit _ _ _ => exact Json.escapedSize_le _
  | pair _ _ _ _ => exact Nat.le_trans (Json.escapedSize_le _) (Nat.le_add_left 6 6)

theorem SpellsCharacters.length_le {bytes : List UInt8} {characters : List Char}
    (spells : SpellsCharacters bytes characters) :
    (encode (characters.flatMap escapeChar)).length ≤ bytes.length := by
  induction spells with
  | nil => exact Nat.le_refl 0
  | cons first _ inductive_step =>
      rw [List.flatMap_cons, encode_append, List.length_append, List.length_append]
      exact Nat.add_le_add first.escapedSize_le inductive_step

theorem literalSize_le_of_spellsText {bytes : List UInt8} {text : String}
    (spells : SpellsText bytes text) : literalSize text ≤ bytes.length := by
  obtain ⟨inner, rfl, spells⟩ := spells
  have shorter := spells.length_le
  rw [literalSize, List.length_cons, List.length_append, List.length_singleton]
  omega

end WorkoutBoard.Json
