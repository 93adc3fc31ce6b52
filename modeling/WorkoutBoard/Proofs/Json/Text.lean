import WorkoutBoard.Json.Literal
import WorkoutBoard.Proofs.Text.Utf8

/-!
# How strings are written

`SpellsText` says which bytes are a string, and of which text, without regard to how they are read.
A text is read if and only if its string is there (`text_eq_ok_iff`).
-/

namespace WorkoutBoard.Json

/-- The bytes of one character in a string: the character as it is, an escape by a letter, the
number of its code unit, or those of its two halves. -/
inductive SpellsCharacter : List UInt8 → Char → Prop where
  | plain {character : Char} (notQuote : character ≠ '"') (notBackslash : character ≠ '\\')
      (visible : ¬character.toNat < 0x20) :
      SpellsCharacter (Text.Utf8.encodeChar character) character
  | short {letter : UInt8} {character : Char} (short : shortEscape? letter = some character) :
      SpellsCharacter [0x5C, letter] character
  | unit {first second third fourth : UInt8} {unit : Nat}
      (digits : fourDigits? first second third fourth = some unit)
      (notTrailing : isTrailingSurrogate unit = false)
      (notLeading : isLeadingSurrogate unit = false) :
      SpellsCharacter [0x5C, 0x75, first, second, third, fourth] (Char.ofNat unit)
  | pair {first second third fourth : UInt8} {leading : Nat}
      (digits : fourDigits? first second third fourth = some leading)
      (isLeading : isLeadingSurrogate leading = true)
      {fifth sixth seventh eighth : UInt8} {trailing : Nat}
      (otherDigits : fourDigits? fifth sixth seventh eighth = some trailing)
      (isTrailing : isTrailingSurrogate trailing = true) :
      SpellsCharacter
        [0x5C, 0x75, first, second, third, fourth, 0x5C, 0x75, fifth, sixth, seventh, eighth]
        (pairedCharacter leading trailing)

inductive SpellsCharacters : List UInt8 → List Char → Prop where
  | nil : SpellsCharacters [] []
  | cons {front back : List UInt8} {character : Char} {later : List Char}
      (first : SpellsCharacter front character) (rest : SpellsCharacters back later) :
      SpellsCharacters (front ++ back) (character :: later)

def SpellsText (bytes : List UInt8) (text : String) : Prop :=
  ∃ inner, bytes = 0x22 :: (inner ++ [0x22]) ∧ SpellsCharacters inner text.toList

theorem textFrom_plain {character : Char} (notQuote : character ≠ '"')
    (notBackslash : character ≠ '\\') (visible : ¬character.toNat < 0x20) (reversed : List Char)
    (rest : List UInt8) :
    textFrom none reversed (Text.Utf8.encodeChar character ++ rest) =
      textFrom none (character :: reversed) rest := by
  obtain ⟨first, following, bytes, read⟩ := Text.Utf8.decodeChar?_encodeChar character
  have value := Text.Utf8.toNat_head_encodeChar bytes
  have quote : character.toNat ≠ 0x22 := fun same => notQuote (Char.toNat_inj.mp same)
  have backslash : character.toNat ≠ 0x5C := fun same => notBackslash (Char.toNat_inj.mp same)
  have firstQuote : ¬first = 0x22 := by
    rintro rfl
    have number : (0x22 : UInt8).toNat = 0x22 := rfl
    omega
  have firstBackslash : ¬first = 0x5C := by
    rintro rfl
    have number : (0x5C : UInt8).toNat = 0x5C := rfl
    omega
  have firstVisible : ¬first < 0x20 := by
    rw [UInt8.lt_iff_toNat_lt]
    have number : (0x20 : UInt8).toNat = 0x20 := rfl
    omega
  rw [bytes, List.cons_append, textFrom, if_neg firstQuote, if_neg firstBackslash,
    if_neg firstVisible, read rest]
  dsimp only
  rw [List.drop_left, Option.map_none]

theorem not_isTrailingSurrogate_of_isLeadingSurrogate {unit : Nat}
    (leading : isLeadingSurrogate unit = true) : isTrailingSurrogate unit = false := by
  simp only [isLeadingSurrogate, isTrailingSurrogate, Bool.and_eq_true, decide_eq_true_eq,
    Bool.and_eq_false_iff, decide_eq_false_iff_not] at leading ⊢
  omega

theorem SpellsCharacter.textFrom {bytes : List UInt8} {character : Char}
    (spells : SpellsCharacter bytes character) (reversed : List Char) (rest : List UInt8) :
    textFrom none reversed (bytes ++ rest) = textFrom none (character :: reversed) rest := by
  have long : shortEscape? 0x75 = none := by decide
  cases spells with
  | plain notQuote notBackslash visible => exact textFrom_plain notQuote notBackslash visible ..
  | short short =>
      simp only [List.cons_append, List.nil_append]
      rw [Json.textFrom]
      simp [escape, short]
  | unit digits notTrailing notLeading =>
      simp only [List.cons_append, List.nil_append]
      rw [Json.textFrom]
      simp [escape, long, codeUnitEscape, codeUnit, digits, notTrailing, notLeading, Except.map]
  | pair digits isLeading otherDigits isTrailing =>
      have notTrailing := not_isTrailingSurrogate_of_isLeadingSurrogate isLeading
      simp only [List.cons_append, List.nil_append]
      rw [Json.textFrom]
      simp [escape, long, codeUnitEscape, codeUnit, digits, notTrailing, isLeading, trailingHalf,
        otherDigits, isTrailing, Except.map]

theorem SpellsCharacters.textFrom {bytes : List UInt8} {characters : List Char}
    (spells : SpellsCharacters bytes characters) (reversed : List Char) (rest : List UInt8) :
    textFrom none reversed (bytes ++ 0x22 :: rest) =
      .ok (String.ofList (reversed.reverse ++ characters), rest) := by
  induction spells generalizing reversed with
  | nil =>
      rw [List.nil_append, Json.textFrom, if_pos rfl, List.append_nil]
  | cons first later inductive_step =>
      rw [List.append_assoc, first.textFrom, inductive_step, List.reverse_cons, List.append_assoc,
        List.singleton_append]

theorem exists_of_codeUnit {input : List UInt8} {unit : Nat} (read : codeUnit input = .ok unit) :
    ∃ first second third fourth rest, input = first :: second :: third :: fourth :: rest ∧
      fourDigits? first second third fourth = some unit := by
  unfold codeUnit at read
  split at read
  next first second third fourth rest =>
    split at read
    next found =>
      obtain rfl := Except.ok.inj read
      exact ⟨first, second, third, fourth, rest, rfl, found⟩
    next => cases read
  next => cases read

theorem exists_of_trailingHalf {leading : Nat} {input : List UInt8} {character : Char}
    (read : trailingHalf leading input = .ok character) :
    ∃ first second third fourth trailing rest,
      input = 0x5C :: 0x75 :: first :: second :: third :: fourth :: rest ∧
        fourDigits? first second third fourth = some trailing ∧
        isTrailingSurrogate trailing = true ∧ character = pairedCharacter leading trailing := by
  unfold trailingHalf at read
  split at read
  next => cases read
  next =>
    split at read <;> cases read
  next byte letter rest =>
    split at read
    next => cases read
    next backslash =>
      split at read
      next => cases read
      next isUnit =>
        split at read
        next => cases read
        next trailing unit =>
          split at read
          next isTrailing =>
            obtain ⟨first, second, third, fourth, later, rfl, digits⟩ := exists_of_codeUnit unit
            exact ⟨first, second, third, fourth, trailing, later,
              by rw [Classical.not_not.mp backslash, Classical.not_not.mp isUnit], digits,
              isTrailing, (Except.ok.inj read).symm⟩
          next => cases read

theorem spells_of_codeUnitEscape {input : List UInt8} {character : Char} {width : Nat}
    (read : codeUnitEscape input = .ok (character, width)) :
    ∃ bytes, input = bytes ++ input.drop width ∧
      SpellsCharacter (0x5C :: 0x75 :: bytes) character := by
  unfold codeUnitEscape at read
  split at read
  next => cases read
  next unit found =>
    obtain ⟨first, second, third, fourth, later, rfl, digits⟩ := exists_of_codeUnit found
    have dropped : (first :: second :: third :: fourth :: later).drop 4 = later := rfl
    rw [dropped] at read
    split at read
    next => cases read
    next notTrailing =>
      split at read
      next isLeading =>
        cases half : trailingHalf unit later with
        | error fault =>
            rw [half] at read
            cases read
        | ok other =>
            rw [half] at read
            obtain ⟨rfl, rfl⟩ := Prod.mk.inj (Except.ok.inj read)
            obtain ⟨fifth, sixth, seventh, eighth, trailing, rest, rfl, otherDigits, isTrailing,
              isPair⟩ := exists_of_trailingHalf half
            rw [isPair]
            exact ⟨[first, second, third, fourth, 0x5C, 0x75, fifth, sixth, seventh, eighth],
              by simp, .pair digits isLeading otherDigits isTrailing⟩
      next notLeading =>
        obtain ⟨rfl, rfl⟩ := Prod.mk.inj (Except.ok.inj read)
        exact ⟨[first, second, third, fourth], rfl,
          .unit digits (Bool.eq_false_iff.mpr notTrailing) (Bool.eq_false_iff.mpr notLeading)⟩

theorem spells_of_escape {input : List UInt8} {character : Char} {width : Nat}
    (read : escape input = .ok (character, width)) :
    ∃ bytes, input = bytes ++ input.drop width ∧ SpellsCharacter (0x5C :: bytes) character := by
  unfold escape at read
  split at read
  next => cases read
  next letter rest =>
    split at read
    next short =>
      obtain ⟨rfl, rfl⟩ := Prod.mk.inj (Except.ok.inj read)
      exact ⟨[letter], rfl, .short short⟩
    next =>
      split at read
      next isUnit =>
        subst isUnit
        cases unit : codeUnitEscape rest with
        | error fault =>
            rw [unit] at read
            cases read
        | ok result =>
            rw [unit] at read
            obtain ⟨rfl, rfl⟩ := Prod.mk.inj (Except.ok.inj read)
            obtain ⟨bytes, front, spells⟩ := spells_of_codeUnitEscape unit
            exact ⟨0x75 :: bytes, congrArg _ front, spells⟩
      next => cases read

theorem spells_of_decodeChar? {byte : UInt8} {rest : List UInt8} {character : Char} {width : Nat}
    (notQuote : ¬byte = 0x22) (notBackslash : ¬byte = 0x5C) (visible : ¬byte < 0x20)
    (read : Text.Utf8.decodeChar? byte rest = some (character, width)) :
    SpellsCharacter (byte :: rest.take width) character := by
  obtain ⟨-, bytes⟩ := Text.Utf8.encodeChar_of_decodeChar? read
  have value := Text.Utf8.toNat_head_encodeChar bytes
  rw [← UInt8.toNat_inj] at notQuote notBackslash
  rw [UInt8.lt_iff_toNat_lt] at visible
  rw [← bytes]
  refine .plain ?_ ?_ ?_
  · rintro rfl
    exact notQuote (by simpa using value)
  · rintro rfl
    exact notBackslash (by simpa using value)
  · intro control
    have number : (0x20 : UInt8).toNat = 0x20 := rfl
    omega

/-- A text is read from characters that are spelled up to its closing quote; no byte may spoil
it. -/
theorem spells_of_textFrom {spoiled : Option Nat} {reversed : List Char} {input rest : List UInt8}
    {value : String} (read : textFrom spoiled reversed input = .ok (value, rest)) :
    spoiled = none ∧ ∃ inner characters, input = inner ++ 0x22 :: rest ∧
      SpellsCharacters inner characters ∧
        value = String.ofList (reversed.reverse ++ characters) := by
  fun_induction textFrom spoiled reversed input with
  | case1 => cases read
  | case2 reversed after =>
      obtain ⟨rfl, rfl⟩ := Prod.mk.inj (Except.ok.inj read)
      exact ⟨rfl, [], [], rfl, .nil, by rw [List.append_nil]⟩
  | case3 => cases read
  | case4 => cases read
  | case5 spoiled reversed after character width escaped notQuote inductive_step =>
      obtain ⟨unspoiled, inner, characters, same, spells, rfl⟩ := inductive_step read
      obtain ⟨bytes, front, first⟩ := spells_of_escape escaped
      refine ⟨Option.map_eq_none_iff.mp unspoiled, 0x5C :: bytes ++ inner, character :: characters,
        ?_, .cons first spells, ?_⟩
      · rw [List.append_assoc, ← same, List.cons_append, ← front]
      · rw [List.reverse_cons, List.append_assoc, List.singleton_append]
  | case6 => cases read
  | case7 spoiled reversed byte after notQuote notBackslash visible character width plain
      inductive_step =>
      obtain ⟨unspoiled, inner, characters, same, spells, rfl⟩ := inductive_step read
      refine ⟨Option.map_eq_none_iff.mp unspoiled, byte :: after.take width ++ inner,
        character :: characters, ?_,
        .cons (spells_of_decodeChar? notQuote notBackslash visible plain) spells, ?_⟩
      · rw [List.append_assoc, ← same, List.cons_append, List.take_append_drop]
      · rw [List.reverse_cons, List.append_assoc, List.singleton_append]
  | case8 spoiled reversed byte after notQuote notBackslash visible noText inductive_step =>
      cases (inductive_step read).1

theorem text_eq_ok_iff {input rest : List UInt8} {value : String} :
    text input = .ok (value, rest) ↔
      ∃ bytes, 0x22 :: input = bytes ++ rest ∧ SpellsText bytes value := by
  constructor
  · intro read
    obtain ⟨-, inner, characters, same, spells, rfl⟩ := spells_of_textFrom read
    refine ⟨0x22 :: (inner ++ [0x22]), ?_, inner, rfl, ?_⟩
    · rw [same, List.cons_append, List.append_assoc, List.singleton_append]
    · rwa [List.reverse_nil, List.nil_append, String.toList_ofList]
  · rintro ⟨_, same, inner, rfl, spells⟩
    rw [List.cons_append, List.append_assoc, List.singleton_append] at same
    rw [(List.cons.inj same).2, text, spells.textFrom, List.reverse_nil, List.nil_append,
      String.ofList_toList]

theorem SpellsText.exists_cons {bytes : List UInt8} {value : String}
    (spells : SpellsText bytes value) :
    ∃ later, bytes = 0x22 :: later ∧ ∀ rest, text (later ++ rest) = .ok (value, rest) := by
  obtain ⟨inner, rfl, _⟩ := id spells
  exact ⟨inner ++ [0x22], rfl, fun rest => text_eq_ok_iff.mpr ⟨_, rfl, spells⟩⟩

end WorkoutBoard.Json
