import WorkoutBoard.Config.Duration
import WorkoutBoard.Proofs.Text.Decimal

/-!
# How durations are written

A sum of parts is read from left to right, one character at a time. What has been read of a part is
held by the position of the reader (`Holds`), from which follows that exactly the texts of
`SpellsParts` are read (`partsFrom_eq_some_iff`).
-/

namespace WorkoutBoard.Config.Duration

/-! ## Numbers with blanks in them -/

def digitsIn (text : List Char) : List Char := text.filter Char.isDigit

/-- The number that the digits of a text denote, whatever stands between them. -/
def numberIn (text : List Char) : Nat := Nat.ofDigitChars 10 (digitsIn text) 0

def IsBlanks (text : List Char) : Prop := ∀ character ∈ text, Text.isBlank character = true

/-- Digits with blanks anywhere among them. -/
def IsSpaced (text : List Char) : Prop :=
  ∀ character ∈ text, character.isDigit = true ∨ Text.isBlank character = true

structure SpellsWhole (text : List Char) (whole : Nat) : Prop where
  begins : ∃ digit later, text = digit :: later ∧ digit.isDigit = true
  spaced : IsSpaced text
  value : numberIn text = whole
  fits : whole ≤ largestWord

/-- A fraction, which may be left out, as a numerator and a denominator of 64 bits. -/
inductive SpellsFraction : List Char → Nat → Nat → Prop where
  | absent : SpellsFraction [] 0 1
  | present {text : List Char} (spaced : IsSpaced text) (nonempty : digitsIn text ≠ [])
      (fits : 10 ^ (digitsIn text).length ≤ largestWord) :
      SpellsFraction ('.' :: text) (numberIn text) (10 ^ (digitsIn text).length)

inductive SpellsPart : List Char → Part → Prop where
  | mk {number fraction : List Char} {name : String} {part : Part}
      (whole : SpellsWhole number part.whole)
      (decimals : SpellsFraction fraction part.numerator part.denominator)
      (named : unit? name = some part.unit) :
      SpellsPart (number ++ (fraction ++ name.toList)) part

inductive SpellsParts : List Char → List Part → Prop where
  | nil {blanks : List Char} (blank : IsBlanks blanks) : SpellsParts blanks []
  | cons {blanks text rest : List Char} {part : Part} {later : List Part} (blank : IsBlanks blanks)
      (first : SpellsPart text part) (others : SpellsParts rest later) :
      SpellsParts (blanks ++ (text ++ rest)) (part :: later)

/-! ## Classes of characters -/

theorem toNat_of_isUnitLetter {character : Char} (letter : isUnitLetter character = true) :
    (65 ≤ character.toNat ∧ character.toNat ≤ 90) ∨ (97 ≤ character.toNat ∧ character.toNat ≤ 122) ∨
      character.toNat = 181 := by
  rw [isUnitLetter, Bool.or_eq_true, beq_iff_eq] at letter
  rcases letter with alphabetic | rfl
  · rcases Bool.or_eq_true_iff.mp alphabetic with upper | lower
    · exact .inl (of_decide_eq_true upper)
    · rcases Bool.and_eq_true_iff.mp lower with ⟨least, most⟩
      exact .inr (.inl ⟨of_decide_eq_true least, of_decide_eq_true most⟩)
  · exact .inr (.inr rfl)

theorem toNat_of_isDigit {character : Char} (digit : character.isDigit = true) :
    48 ≤ character.toNat ∧ character.toNat ≤ 57 := by
  simp only [Char.isDigit, Bool.and_eq_true, decide_eq_true_eq, ge_iff_le,
    UInt32.le_iff_toNat_le] at digit
  exact digit

theorem isDigit_eq_false_of_isBlank {character : Char} (blank : Text.isBlank character = true) :
    character.isDigit = false := by
  rw [Bool.eq_false_iff]
  intro digit
  have bounds := toNat_of_isDigit digit
  simp only [Text.isBlank, Bool.or_eq_true, Bool.and_eq_true, decide_eq_true_eq, beq_iff_eq]
    at blank
  omega

theorem isDigit_eq_false_of_isUnitLetter {character : Char}
    (letter : isUnitLetter character = true) : character.isDigit = false := by
  rw [Bool.eq_false_iff]
  intro digit
  have bounds := toNat_of_isDigit digit
  have letters := toNat_of_isUnitLetter letter
  omega

theorem isBlank_eq_false_of_isUnitLetter {character : Char}
    (letter : isUnitLetter character = true) : Text.isBlank character = false := by
  rw [Bool.eq_false_iff]
  intro blank
  have letters := toNat_of_isUnitLetter letter
  simp only [Text.isBlank, Bool.or_eq_true, Bool.and_eq_true, decide_eq_true_eq, beq_iff_eq]
    at blank
  omega

theorem letters_of_unit? {name : String} {unit : Unit} (named : unit? name = some unit) :
    name.toList ≠ [] ∧ ∀ letter ∈ name.toList, isUnitLetter letter = true := by
  have lettered : (units.all fun entry => entry.1.all fun name =>
      !name.toList.isEmpty && name.toList.all isUnitLetter) = true := by
    decide +kernel
  rw [unit?, Option.map_eq_some_iff] at named
  rcases named with ⟨entry, found, -⟩
  have contained := List.find?_some found
  have checked := List.all_eq_true.mp
    (List.all_eq_true.mp lettered entry (List.mem_of_find?_eq_some found)) name
    (List.contains_iff_mem.mp contained)
  rw [Bool.and_eq_true, Bool.not_eq_true', List.isEmpty_eq_false_iff, List.all_eq_true] at checked
  exact checked

/-! ## Numbers by their digits -/

section

variable {character : Char}

theorem digitsIn_cons_of_isDigit (digit : character.isDigit = true) (rest : List Char) :
    digitsIn (character :: rest) = character :: digitsIn rest :=
  List.filter_cons_of_pos digit

theorem digitsIn_cons_of_isBlank (blank : Text.isBlank character = true) (rest : List Char) :
    digitsIn (character :: rest) = digitsIn rest :=
  List.filter_cons_of_neg (by simp [isDigit_eq_false_of_isBlank blank])

theorem digitsIn_append (text rest : List Char) :
    digitsIn (text ++ rest) = digitsIn text ++ digitsIn rest :=
  List.filter_append ..

theorem le_ofDigitChars (digits : List Char) (start : Nat) :
    start ≤ Nat.ofDigitChars 10 digits start := by
  rw [Nat.ofDigitChars_eq_ofDigitChars_zero]
  have positive : 0 < 10 ^ digits.length := Nat.pow_pos (by decide)
  have scaled := Nat.le_mul_of_pos_left start positive
  omega

end

/-! ## What is spelled is read -/

theorem partsFrom_blanks {blanks : List Char} (blank : IsBlanks blanks) (isFirst : Bool)
    (rest : List Char) :
    partsFrom (.beforeNumber isFirst) (blanks ++ rest) =
      partsFrom (.beforeNumber isFirst) rest := by
  induction blanks with
  | nil => rfl
  | cons character later inductive_step =>
      rcases List.forall_mem_cons.mp blank with ⟨isBlank, laterBlank⟩
      rw [List.cons_append, partsFrom,
        Text.Decimal.digit?_of_not_isDigit (isDigit_eq_false_of_isBlank isBlank)]
      dsimp only
      rw [if_pos isBlank]
      exact inductive_step laterBlank

theorem partsFrom_spaced {text : List Char} (spaced : IsSpaced text) {whole : Nat}
    (bounded : whole ≤ largestWord) (rest : List Char) :
    partsFrom (.inNumber whole) (text ++ rest) =
      if Nat.ofDigitChars 10 (digitsIn text) whole ≤ largestWord then
        partsFrom (.inNumber (Nat.ofDigitChars 10 (digitsIn text) whole)) rest
      else none := by
  induction text generalizing whole with
  | nil =>
      have value : Nat.ofDigitChars 10 (digitsIn []) whole = whole := Nat.ofDigitChars_nil
      rw [value, if_pos bounded, List.nil_append]
  | cons character later inductive_step =>
      rcases List.forall_mem_cons.mp spaced with ⟨digit | blank, laterSpaced⟩
      · rw [List.cons_append, partsFrom, Text.Decimal.digit?_of_isDigit digit,
          digitsIn_cons_of_isDigit digit, Text.Decimal.ofDigitChars_cons]
        dsimp only [word?]
        by_cases fits : whole * 10 + (character.toNat - '0'.toNat) ≤ largestWord
        · rw [if_pos fits]
          exact inductive_step laterSpaced fits
        · have further := le_ofDigitChars (digitsIn later)
            (whole * 10 + (character.toNat - '0'.toNat))
          rw [if_neg fits, if_neg (fun small => fits (Nat.le_trans further small))]
      · rw [List.cons_append, partsFrom,
          Text.Decimal.digit?_of_not_isDigit (isDigit_eq_false_of_isBlank blank),
          digitsIn_cons_of_isBlank blank]
        dsimp only
        rw [if_pos blank]
        exact inductive_step laterSpaced bounded

theorem partsFrom_number {digit : Char} (isDigit : digit.isDigit = true) {later : List Char}
    (spaced : IsSpaced later) (isFirst : Bool) (rest : List Char) :
    partsFrom (.beforeNumber isFirst) (digit :: later ++ rest) =
      if numberIn (digit :: later) ≤ largestWord then
        partsFrom (.inNumber (numberIn (digit :: later))) rest
      else none := by
  have bounds := toNat_of_isDigit isDigit
  have zero : '0'.toNat = 48 := rfl
  have largest : 9 ≤ largestWord := by decide
  rw [numberIn, digitsIn_cons_of_isDigit isDigit, Text.Decimal.ofDigitChars_cons, Nat.zero_mul,
    Nat.zero_add, List.cons_append, partsFrom, Text.Decimal.digit?_of_isDigit isDigit]
  exact partsFrom_spaced spaced (by omega) rest

theorem SpellsWhole.read {text : List Char} {whole : Nat} (spells : SpellsWhole text whole)
    (isFirst : Bool) (rest : List Char) :
    partsFrom (.beforeNumber isFirst) (text ++ rest) = partsFrom (.inNumber whole) rest := by
  rcases spells with ⟨⟨digit, later, rfl, isDigit⟩, spaced, rfl, fits⟩
  rw [partsFrom_number isDigit (List.forall_mem_cons.mp spaced).2, if_pos fits]

theorem partsFrom_places {text : List Char} (spaced : IsSpaced text) (whole : Nat)
    {numerator denominator : Nat} (below : numerator < denominator)
    (fits : denominator * 10 ^ (digitsIn text).length ≤ largestWord) (rest : List Char) :
    partsFrom (.inFraction whole numerator denominator) (text ++ rest) =
      partsFrom (.inFraction whole (Nat.ofDigitChars 10 (digitsIn text) numerator)
        (denominator * 10 ^ (digitsIn text).length)) rest := by
  induction text generalizing numerator denominator with
  | nil =>
      have value : Nat.ofDigitChars 10 (digitsIn []) numerator = numerator := Nat.ofDigitChars_nil
      have scale : denominator * 10 ^ (digitsIn []).length = denominator := Nat.mul_one denominator
      rw [value, scale, List.nil_append]
  | cons character later inductive_step =>
      rcases List.forall_mem_cons.mp spaced with ⟨digit | blank, laterSpaced⟩
      · rw [digitsIn_cons_of_isDigit digit, List.length_cons, Nat.pow_succ',
          ← Nat.mul_assoc] at fits ⊢
        have larger : denominator * 10 ≤ largestWord :=
          Nat.le_trans (Nat.le_mul_of_pos_right _ (Nat.pow_pos (by decide))) fits
        have bounds := toNat_of_isDigit digit
        have zero : '0'.toNat = 48 := rfl
        have longer : numerator * 10 + (character.toNat - '0'.toNat) < denominator * 10 := by
          omega
        rw [List.cons_append, partsFrom, Text.Decimal.digit?_of_isDigit digit]
        dsimp only [word?]
        rw [if_pos larger, if_pos (Nat.le_trans (Nat.le_of_lt longer) larger),
          Text.Decimal.ofDigitChars_cons]
        exact inductive_step laterSpaced longer fits
      · rw [digitsIn_cons_of_isBlank blank] at fits ⊢
        rw [List.cons_append, partsFrom,
          Text.Decimal.digit?_of_not_isDigit (isDigit_eq_false_of_isBlank blank)]
        dsimp only
        rw [if_pos blank]
        exact inductive_step laterSpaced below fits

theorem partsFrom_letters {letters : List Char}
    (lettered : ∀ letter ∈ letters, isUnitLetter letter = true) (whole numerator denominator : Nat)
    (held rest : List Char) :
    partsFrom (.inUnit whole numerator denominator held) (letters ++ rest) =
      partsFrom (.inUnit whole numerator denominator (letters.reverse ++ held)) rest := by
  induction letters generalizing held with
  | nil => rfl
  | cons letter later inductive_step =>
      rcases List.forall_mem_cons.mp lettered with ⟨isLetter, laterLettered⟩
      rw [List.cons_append, partsFrom,
        Text.Decimal.digit?_of_not_isDigit (isDigit_eq_false_of_isUnitLetter isLetter)]
      dsimp only
      rw [isBlank_eq_false_of_isUnitLetter isLetter, if_neg Bool.false_ne_true, if_pos isLetter,
        inductive_step laterLettered, List.reverse_cons, List.append_assoc]
      rfl

theorem partsFrom_inUnit {rest : List Char}
    (ends : ∀ next ∈ rest.head?, isUnitLetter next = false) (whole numerator denominator : Nat)
    (letters : List Char) :
    partsFrom (.inUnit whole numerator denominator letters) rest =
      (part? whole numerator denominator letters).bind fun part =>
        (partsFrom (.beforeNumber false) rest).map (part :: ·) := by
  cases rest with
  | nil =>
      rw [partsFrom, partsFrom]
      cases part? whole numerator denominator letters <;> rfl
  | cons next later =>
      have notLetter := ends next rfl
      rw [partsFrom, partsFrom]
      cases Text.Decimal.digit? next with
      | some digit => cases part? whole numerator denominator letters <;> rfl
      | none =>
          dsimp only
          split
          next => cases part? whole numerator denominator letters <;> rfl
          next =>
            rw [notLetter, if_neg Bool.false_ne_true]
            cases part? whole numerator denominator letters <;> rfl

section

variable {name : String} {unit : Unit}

theorem partsFrom_name_of_first (named : unit? name = some unit) {position : Position}
    {whole numerator denominator : Nat}
    (first : ∀ letter later, isUnitLetter letter = true →
      partsFrom position (letter :: later) =
        partsFrom (.inUnit whole numerator denominator [letter]) later) (rest : List Char) :
    partsFrom position (name.toList ++ rest) =
      partsFrom (.inUnit whole numerator denominator name.toList.reverse) rest := by
  rcases letters_of_unit? named with ⟨nonempty, lettered⟩
  generalize name.toList = letters at nonempty lettered
  cases letters with
  | nil => exact absurd rfl nonempty
  | cons letter later =>
      rcases List.forall_mem_cons.mp lettered with ⟨isLetter, laterLettered⟩
      rw [List.cons_append, first letter _ isLetter, partsFrom_letters laterLettered,
        List.reverse_cons]

theorem partsFrom_name (named : unit? name = some unit) (whole : Nat) (rest : List Char) :
    partsFrom (.inNumber whole) (name.toList ++ rest) =
      partsFrom (.inUnit whole 0 1 name.toList.reverse) rest := by
  apply partsFrom_name_of_first named
  intro letter later isLetter
  rw [partsFrom, Text.Decimal.digit?_of_not_isDigit (isDigit_eq_false_of_isUnitLetter isLetter)]
  dsimp only
  rw [isBlank_eq_false_of_isUnitLetter isLetter, if_neg Bool.false_ne_true, if_pos isLetter]

theorem partsFrom_name_of_fraction (named : unit? name = some unit) (whole numerator : Nat)
    {denominator : Nat} (divided : denominator ≠ 1) (rest : List Char) :
    partsFrom (.inFraction whole numerator denominator) (name.toList ++ rest) =
      partsFrom (.inUnit whole numerator denominator name.toList.reverse) rest := by
  apply partsFrom_name_of_first named
  intro letter later isLetter
  rw [partsFrom, Text.Decimal.digit?_of_not_isDigit (isDigit_eq_false_of_isUnitLetter isLetter)]
  dsimp only
  rw [isBlank_eq_false_of_isUnitLetter isLetter, if_neg Bool.false_ne_true,
    if_pos ⟨isLetter, divided⟩]

theorem part?_reverse (named : unit? name = some unit) (whole numerator denominator : Nat) :
    part? whole numerator denominator name.toList.reverse =
      some ⟨whole, numerator, denominator, unit⟩ := by
  rw [part?, List.reverse_reverse, String.ofList_toList, named, Option.map_some]

end

theorem pow_ten_ne_one {digits : List Char} (nonempty : digits ≠ []) : 10 ^ digits.length ≠ 1 := by
  intro one
  have empty := (Nat.pow_eq_one.mp one).resolve_left (by decide)
  exact nonempty (List.length_eq_zero_iff.mp empty)

theorem SpellsFraction.read {text : List Char} {numerator denominator : Nat}
    (spells : SpellsFraction text numerator denominator) {name : String} {unit : Unit}
    (named : unit? name = some unit) (whole : Nat) (rest : List Char) :
    partsFrom (.inNumber whole) (text ++ (name.toList ++ rest)) =
      partsFrom (.inUnit whole numerator denominator name.toList.reverse) rest := by
  cases spells with
  | absent => exact partsFrom_name named whole rest
  | present spaced nonempty fits =>
      have point : Text.Decimal.digit? '.' = none := by decide
      have visible : Text.isBlank '.' = false := by decide
      have noLetter : isUnitLetter '.' = false := by decide
      rw [List.cons_append, partsFrom, point]
      dsimp only
      rw [visible, if_neg Bool.false_ne_true, noLetter, if_neg Bool.false_ne_true, if_pos rfl,
        partsFrom_places spaced whole Nat.zero_lt_one (by rwa [Nat.one_mul]), Nat.one_mul]
      exact partsFrom_name_of_fraction named whole _ (pow_ten_ne_one nonempty) rest

theorem SpellsPart.read {text rest : List Char} {part : Part} (spells : SpellsPart text part)
    (ends : ∀ next ∈ rest.head?, isUnitLetter next = false) (isFirst : Bool) :
    partsFrom (.beforeNumber isFirst) (text ++ rest) =
      (partsFrom (.beforeNumber false) rest).map (part :: ·) := by
  rcases spells with ⟨whole, decimals, named⟩
  rw [List.append_assoc, List.append_assoc, whole.read, decimals.read named,
    partsFrom_inUnit ends, part?_reverse named, Option.bind_some]

theorem SpellsPart.begins {text : List Char} {part : Part} (spells : SpellsPart text part) :
    ∃ digit rest, text = digit :: rest ∧ digit.isDigit = true := by
  rcases spells with ⟨⟨⟨digit, later, rfl, isDigit⟩, -, -, -⟩, -, -⟩
  exact ⟨digit, _, rfl, isDigit⟩

theorem SpellsParts.begins {text : List Char} {parts : List Part}
    (spells : SpellsParts text parts) :
    ∀ next ∈ text.head?, isUnitLetter next = false := by
  intro next first
  rw [Bool.eq_false_iff]
  intro letter
  have notBlank := isBlank_eq_false_of_isUnitLetter letter
  have notDigit := isDigit_eq_false_of_isUnitLetter letter
  cases spells with
  | nil blank =>
      rw [blank next (List.mem_of_mem_head? first)] at notBlank
      cases notBlank
  | @cons blanks text rest part later blank spelled others =>
      cases blanks with
      | nil =>
          rcases spelled.begins with ⟨digit, later, rfl, isDigit⟩
          obtain rfl := Option.some.inj first
          rw [isDigit] at notDigit
          cases notDigit
      | cons character later =>
          obtain rfl := Option.some.inj first
          rw [blank character List.mem_cons_self] at notBlank
          cases notBlank

theorem SpellsParts.read {text : List Char} {parts : List Part} (spells : SpellsParts text parts)
    {isFirst : Bool} (nonempty : isFirst = true → parts ≠ []) :
    partsFrom (.beforeNumber isFirst) text = some parts := by
  induction spells generalizing isFirst with
  | nil blank =>
      have later : isFirst = false := by
        cases isFirst with
        | false => rfl
        | true => exact absurd rfl (nonempty rfl)
      have read := partsFrom_blanks blank isFirst []
      rw [List.append_nil] at read
      rw [read, later]
      rfl
  | cons blank first others inductive_step =>
      have later : partsFrom (.beforeNumber false) _ = some _ := inductive_step nofun
      rw [partsFrom_blanks blank, first.read others.begins, later, Option.map_some]

/-! ## What is read is spelled -/

/-- The text of a part as far as a position has come. -/
inductive Holds : Position → List Char → Prop where
  | beforeNumber (isFirst : Bool) : Holds (.beforeNumber isFirst) []
  | inNumber {number : List Char} {whole : Nat} (spells : SpellsWhole number whole) :
      Holds (.inNumber whole) number
  | inFraction {number places : List Char} {whole : Nat} (spells : SpellsWhole number whole)
      (spaced : IsSpaced places) (fits : 10 ^ (digitsIn places).length ≤ largestWord) :
      Holds (.inFraction whole (numberIn places) (10 ^ (digitsIn places).length))
        (number ++ '.' :: places)
  | inUnit {number fraction letters : List Char} {whole numerator denominator : Nat}
      (spells : SpellsWhole number whole)
      (decimals : SpellsFraction fraction numerator denominator) :
      Holds (.inUnit whole numerator denominator letters) (number ++ (fraction ++ letters.reverse))

section

variable {character : Char}

theorem IsSpaced.concat {text : List Char} (spaced : IsSpaced text)
    (next : character.isDigit = true ∨ Text.isBlank character = true) :
    IsSpaced (text ++ [character]) :=
  List.forall_mem_append.mpr ⟨spaced, List.forall_mem_singleton.mpr next⟩

theorem digitsIn_concat_digit (digit : character.isDigit = true) (text : List Char) :
    digitsIn (text ++ [character]) = digitsIn text ++ [character] := by
  rw [digitsIn_append, digitsIn_cons_of_isDigit digit]
  rfl

theorem digitsIn_concat_blank (blank : Text.isBlank character = true) (text : List Char) :
    digitsIn (text ++ [character]) = digitsIn text := by
  rw [digitsIn_append, digitsIn_cons_of_isBlank blank]
  exact List.append_nil _

theorem numberIn_concat_digit (digit : character.isDigit = true) (text : List Char) :
    numberIn (text ++ [character]) = numberIn text * 10 + (character.toNat - '0'.toNat) := by
  rw [numberIn, digitsIn_concat_digit digit, Nat.ofDigitChars_append,
    Text.Decimal.ofDigitChars_cons, Nat.ofDigitChars_nil, numberIn]

theorem numberIn_concat_blank (blank : Text.isBlank character = true) (text : List Char) :
    numberIn (text ++ [character]) = numberIn text := by
  rw [numberIn, digitsIn_concat_blank blank, numberIn]

theorem SpellsWhole.of_digit (digit : character.isDigit = true) :
    SpellsWhole [character] (character.toNat - '0'.toNat) := by
  have bounds := toNat_of_isDigit digit
  have zero : '0'.toNat = 48 := rfl
  have largest : 9 ≤ largestWord := by decide
  refine ⟨⟨character, [], rfl, digit⟩, List.forall_mem_singleton.mpr (.inl digit), ?_, by omega⟩
  have value := numberIn_concat_digit digit []
  have none : numberIn [] = 0 := rfl
  rwa [List.nil_append, none, Nat.zero_mul, Nat.zero_add] at value

theorem SpellsWhole.concat_digit {text : List Char} {whole : Nat} (spells : SpellsWhole text whole)
    (digit : character.isDigit = true)
    (fits : whole * 10 + (character.toNat - '0'.toNat) ≤ largestWord) :
    SpellsWhole (text ++ [character]) (whole * 10 + (character.toNat - '0'.toNat)) := by
  rcases spells with ⟨⟨first, later, rfl, isDigit⟩, spaced, rfl, -⟩
  exact ⟨⟨first, _, rfl, isDigit⟩, spaced.concat (.inl digit), numberIn_concat_digit digit _, fits⟩

theorem SpellsWhole.concat_blank {text : List Char} {whole : Nat} (spells : SpellsWhole text whole)
    (blank : Text.isBlank character = true) : SpellsWhole (text ++ [character]) whole := by
  rcases spells with ⟨⟨first, later, rfl, isDigit⟩, spaced, rfl, fits⟩
  exact ⟨⟨first, _, rfl, isDigit⟩, spaced.concat (.inr blank), numberIn_concat_blank blank _, fits⟩

end

theorem SpellsPart.of_part? {number fraction letters : List Char}
    {whole numerator denominator : Nat} {part : Part} (spells : SpellsWhole number whole)
    (decimals : SpellsFraction fraction numerator denominator)
    (ended : part? whole numerator denominator letters = some part) :
    SpellsPart (number ++ (fraction ++ letters.reverse)) part := by
  rw [part?, Option.map_eq_some_iff] at ended
  rcases ended with ⟨unit, named, rfl⟩
  rw [← String.toList_ofList (l := letters.reverse)]
  exact ⟨spells, decimals, named⟩

theorem SpellsParts.blank_cons {text : List Char} {parts : List Part}
    (spells : SpellsParts text parts) {character : Char}
    (blank : Text.isBlank character = true) : SpellsParts (character :: text) parts := by
  cases spells with
  | nil blanks => exact .nil (List.forall_mem_cons.mpr ⟨blank, blanks⟩)
  | cons blanks first others => exact .cons (List.forall_mem_cons.mpr ⟨blank, blanks⟩) first others

theorem SpellsPart.followed {text rest : List Char} {part : Part} {later : List Part}
    (first : SpellsPart text part) (others : SpellsParts rest later) :
    SpellsParts (text ++ rest) (part :: later) :=
  @SpellsParts.cons [] text rest part later nofun first others

theorem word?_eq_some_iff {value result : Nat} :
    word? value = some result ↔ value ≤ largestWord ∧ value = result := by
  rw [word?, Option.ite_none_right_eq_some, Option.some.injEq]

section

variable {character : Char} {rest : List Char} {parts : List Part}

theorem step_beforeNumber {isFirst : Bool}
    (read : partsFrom (.beforeNumber isFirst) (character :: rest) = some parts) :
    (∃ whole, Holds (.inNumber whole) [character] ∧
        partsFrom (.inNumber whole) rest = some parts) ∨
      Text.isBlank character = true ∧ partsFrom (.beforeNumber isFirst) rest = some parts := by
  rw [partsFrom] at read
  split at read
  next value digit =>
    rcases Text.Decimal.digit?_eq_some_iff.mp digit with ⟨isDigit, rfl⟩
    exact .inl ⟨_, .inNumber (.of_digit isDigit), read⟩
  next =>
    split at read
    next blank => exact .inr ⟨blank, read⟩
    next => cases read

theorem step_inNumber {number : List Char} {whole : Nat} (spells : SpellsWhole number whole)
    (read : partsFrom (.inNumber whole) (character :: rest) = some parts) :
    ∃ next, Holds next (number ++ [character]) ∧ partsFrom next rest = some parts ∧
      next ≠ .beforeNumber false := by
  rw [partsFrom] at read
  split at read
  next value digit =>
    rcases Text.Decimal.digit?_eq_some_iff.mp digit with ⟨isDigit, rfl⟩
    split at read
    next longer isLonger =>
      rcases word?_eq_some_iff.mp isLonger with ⟨fits, rfl⟩
      exact ⟨_, .inNumber (spells.concat_digit isDigit fits), read, nofun⟩
    next => cases read
  next =>
    split at read
    next blank => exact ⟨_, .inNumber (spells.concat_blank blank), read, nofun⟩
    split at read
    next letter => exact ⟨_, .inUnit spells .absent, read, nofun⟩
    split at read
    next point =>
      rw [point]
      exact ⟨_, @Holds.inFraction number [] whole spells nofun (by decide), read, nofun⟩
    next => cases read

theorem step_inFraction {number places : List Char} {whole : Nat}
    (spells : SpellsWhole number whole) (spaced : IsSpaced places)
    (fits : 10 ^ (digitsIn places).length ≤ largestWord)
    (read : partsFrom (.inFraction whole (numberIn places) (10 ^ (digitsIn places).length))
      (character :: rest) = some parts) :
    ∃ next, Holds next (number ++ '.' :: (places ++ [character])) ∧
      partsFrom next rest = some parts ∧ next ≠ .beforeNumber false := by
  rw [partsFrom] at read
  split at read
  next value digit =>
    rcases Text.Decimal.digit?_eq_some_iff.mp digit with ⟨isDigit, rfl⟩
    split at read
    next longer larger isLonger isLarger =>
      rcases word?_eq_some_iff.mp isLonger with ⟨-, rfl⟩
      rcases word?_eq_some_iff.mp isLarger with ⟨larger, rfl⟩
      have length : 10 ^ (digitsIn (places ++ [character])).length =
          10 ^ (digitsIn places).length * 10 := by
        rw [digitsIn_concat_digit isDigit, List.length_append, Nat.pow_add]
        rfl
      have held : Holds _ (number ++ '.' :: (places ++ [character])) :=
        .inFraction spells (spaced.concat (.inl isDigit)) (by rwa [length])
      rw [numberIn_concat_digit isDigit, length] at held
      exact ⟨_, held, read, nofun⟩
    next => cases read
  next =>
    split at read
    next blank =>
      have held : Holds _ (number ++ '.' :: (places ++ [character])) :=
        .inFraction spells (spaced.concat (.inr blank))
          (by rwa [digitsIn_concat_blank blank])
      rw [numberIn_concat_blank blank, digitsIn_concat_blank blank] at held
      exact ⟨_, held, read, nofun⟩
    split at read
    next letter =>
      have nonempty : digitsIn places ≠ [] := by
        intro empty
        rw [empty] at letter
        exact letter.2 rfl
      exact ⟨_, .inUnit spells (.present spaced nonempty fits), read, nofun⟩
    next => cases read

theorem step_inUnit {number fraction letters : List Char} {whole numerator denominator : Nat}
    (spells : SpellsWhole number whole) (decimals : SpellsFraction fraction numerator denominator)
    (read : partsFrom (.inUnit whole numerator denominator letters) (character :: rest) =
      some parts) :
    (∃ next, Holds next (number ++ (fraction ++ letters.reverse) ++ [character]) ∧
        partsFrom next rest = some parts ∧ next ≠ .beforeNumber false) ∨
      ∃ part later, parts = part :: later ∧
        SpellsPart (number ++ (fraction ++ letters.reverse)) part ∧
        partsFrom (.beforeNumber false) (character :: rest) = some later := by
  cases letter : isUnitLetter character with
  | true =>
      have held : Holds (.inUnit whole numerator denominator (character :: letters)) _ :=
        .inUnit spells decimals
      rw [List.reverse_cons, ← List.append_assoc fraction, ← List.append_assoc number] at held
      rw [partsFrom, Text.Decimal.digit?_of_not_isDigit (isDigit_eq_false_of_isUnitLetter letter)]
        at read
      dsimp only at read
      rw [isBlank_eq_false_of_isUnitLetter letter, if_neg Bool.false_ne_true, if_pos letter] at read
      exact .inl ⟨_, held, read, nofun⟩
  | false =>
      have ends : ∀ next ∈ (character :: rest).head?, isUnitLetter next = false := by
        rintro _ ⟨⟩
        exact letter
      rw [partsFrom_inUnit ends, Option.bind_eq_some_iff] at read
      rcases read with ⟨part, ended, others⟩
      rcases Option.map_eq_some_iff.mp others with ⟨later, read, rfl⟩
      exact .inr ⟨part, later, rfl, .of_part? spells decimals ended, read⟩

end

/-- Only the very first number may not be missing. -/
theorem spells_of_partsFrom {position : Position} {before text : List Char} {parts : List Part}
    (holds : Holds position before) (read : partsFrom position text = some parts) :
    SpellsParts (before ++ text) parts ∧ (position = .beforeNumber false ∨ parts ≠ []) := by
  induction text generalizing position before parts with
  | nil =>
      cases holds with
      | beforeNumber isFirst =>
          cases isFirst with
          | true => cases read
          | false =>
              obtain rfl := Option.some.inj read
              exact ⟨.nil nofun, .inl rfl⟩
      | inNumber spells => cases read
      | inFraction spells spaced fits => cases read
      | inUnit spells decimals =>
          rw [partsFrom, Option.map_eq_some_iff] at read
          rcases read with ⟨part, ended, rfl⟩
          exact ⟨(SpellsPart.of_part? spells decimals ended).followed (.nil nofun), .inr nofun⟩
  | cons character rest inductive_step =>
      have between : ∀ {isFirst : Bool} {parts : List Part},
          partsFrom (.beforeNumber isFirst) (character :: rest) = some parts →
            SpellsParts (character :: rest) parts ∧
              (Position.beforeNumber isFirst = .beforeNumber false ∨ parts ≠ []) := by
        intro isFirst parts read
        rcases step_beforeNumber read with ⟨whole, holds, read⟩ | ⟨blank, read⟩
        · rcases inductive_step holds read with ⟨spells, same | nonempty⟩
          · cases same
          · exact ⟨spells, .inr nonempty⟩
        · rcases inductive_step (.beforeNumber isFirst) read with ⟨spells, isLater⟩
          exact ⟨spells.blank_cons blank, isLater⟩
      have onward : ∀ {next : Position}, Holds next (before ++ [character]) →
          partsFrom next rest = some parts → next ≠ .beforeNumber false →
            SpellsParts (before ++ character :: rest) parts ∧ parts ≠ [] := by
        intro next holds read elsewhere
        rcases inductive_step holds read with ⟨spells, isLater⟩
        rw [List.append_assoc] at spells
        exact ⟨spells, isLater.resolve_left elsewhere⟩
      cases holds with
      | beforeNumber isFirst => exact between read
      | inNumber spells =>
          rcases step_inNumber spells read with ⟨next, holds, read, elsewhere⟩
          exact (onward holds read elsewhere).imp_right .inr
      | inFraction spells spaced fits =>
          rcases step_inFraction spells spaced fits read with ⟨next, holds, read, elsewhere⟩
          rw [← List.cons_append, ← List.append_assoc] at holds
          exact (onward holds read elsewhere).imp_right .inr
      | inUnit spells decimals =>
          rcases step_inUnit spells decimals read with
            ⟨next, holds, read, elsewhere⟩ | ⟨part, later, rfl, ended, read⟩
          · exact (onward holds read elsewhere).imp_right .inr
          · exact ⟨ended.followed (between read).1, .inr nofun⟩

theorem partsFrom_eq_some_iff {text : List Char} {parts : List Part} :
    partsFrom (.beforeNumber true) text = some parts ↔ SpellsParts text parts ∧ parts ≠ [] := by
  constructor
  · intro read
    rcases spells_of_partsFrom (.beforeNumber true) read with ⟨spells, same | nonempty⟩
    · cases same
    · exact ⟨spells, nonempty⟩
  · rintro ⟨spells, nonempty⟩
    exact spells.read fun _ => nonempty

end WorkoutBoard.Config.Duration
