import Mathlib.Data.List.Forall2
import WorkoutBoard.Json.Numeral

/-!
# How numerals are written

`SpellsNumeral` says which bytes are a numeral. What is read as one is spelled so, and is read up to
the first byte that cannot belong to it (`Numeral.spells_of_read`, `SpellsNumeral.read`).
-/

namespace WorkoutBoard.Json

def SpellsDigits (bytes : List UInt8) (digits : List Nat) : Prop :=
  List.Forall₂ (fun byte digit => digitValue? byte = some digit) bytes digits

inductive SpellsSign : List UInt8 → Bool → Prop where
  | absent : SpellsSign [] false
  | minus : SpellsSign [0x2D] true

/-- At least one digit, and no zero in front of others. -/
structure SpellsWhole (bytes : List UInt8) (digits : List Nat) : Prop where
  spelled : SpellsDigits bytes digits
  nonempty : digits ≠ []
  unpadded : digits.head? = some 0 → digits = [0]

inductive SpellsFraction : List UInt8 → List Nat → Prop where
  | absent : SpellsFraction [] []
  | present {bytes : List UInt8} {digits : List Nat} (spelled : SpellsDigits bytes digits)
      (nonempty : digits ≠ []) : SpellsFraction (0x2E :: bytes) digits

inductive SpellsExponentSign : List UInt8 → Bool → Prop where
  | absent : SpellsExponentSign [] false
  | plus : SpellsExponentSign [0x2B] false
  | minus : SpellsExponentSign [0x2D] true

inductive SpellsExponent : List UInt8 → Option Exponent → Prop where
  | absent : SpellsExponent [] none
  | present {letter : UInt8} (isLetter : letter = 0x65 ∨ letter = 0x45)
      {sign bytes : List UInt8} {exponent : Exponent}
      (signed : SpellsExponentSign sign exponent.negative)
      (spelled : SpellsDigits bytes exponent.digits) (nonempty : exponent.digits ≠ []) :
      SpellsExponent (letter :: (sign ++ bytes)) (some exponent)

def SpellsNumeral (bytes : List UInt8) (numeral : Numeral) : Prop :=
  ∃ sign whole fraction exponent, bytes = sign ++ (whole ++ (fraction ++ exponent)) ∧
    SpellsSign sign numeral.negative ∧ SpellsWhole whole numeral.whole ∧
    SpellsFraction fraction numeral.fraction ∧ SpellsExponent exponent numeral.exponent

def EndsDigits (rest : List UInt8) : Prop := ∀ byte ∈ rest.head?, isDigit byte = false

/-- Nothing that could belong to a numeral is next. -/
def EndsNumeral (rest : List UInt8) : Prop :=
  ∀ byte ∈ rest.head?, isDigit byte = false ∧ byte ≠ 0x2E ∧ byte ≠ 0x65 ∧ byte ≠ 0x45

theorem EndsNumeral.endsDigits {rest : List UInt8} (ends : EndsNumeral rest) : EndsDigits rest :=
  fun byte next => (ends byte next).1

theorem isDigit_of_digitValue? {byte : UInt8} {digit : Nat}
    (value : digitValue? byte = some digit) : isDigit byte = true := by
  rw [isDigit, value]
  rfl

theorem SpellsDigits.read {bytes : List UInt8} {digits : List Nat}
    (spells : SpellsDigits bytes digits) {rest : List UInt8} (ends : EndsDigits rest) :
    leadingDigits (bytes ++ rest) = digits ∧ afterDigits (bytes ++ rest) = rest := by
  induction spells with
  | nil =>
      rw [List.nil_append, leadingDigits, afterDigits]
      cases rest with
      | nil => exact ⟨rfl, rfl⟩
      | cons byte later =>
          have other : ¬isDigit byte = true := Bool.eq_false_iff.mp (ends byte rfl)
          rw [List.takeWhile_cons, if_neg other, List.dropWhile_cons, if_neg other]
          exact ⟨rfl, rfl⟩
  | cons value _ inductive_step =>
      have digit := isDigit_of_digitValue? value
      rw [leadingDigits, afterDigits] at inductive_step ⊢
      rw [List.cons_append, List.takeWhile_cons, if_pos digit, List.dropWhile_cons, if_pos digit,
        List.filterMap_cons, value]
      exact ⟨congrArg _ inductive_step.1, inductive_step.2⟩

theorem spells_leadingDigits (input : List UInt8) :
    ∃ bytes, input = bytes ++ afterDigits input ∧ SpellsDigits bytes (leadingDigits input) := by
  induction input with
  | nil => exact ⟨[], rfl, .nil⟩
  | cons byte rest inductive_step =>
      rw [leadingDigits, afterDigits] at inductive_step ⊢
      rw [List.takeWhile_cons, List.dropWhile_cons]
      split
      next digit =>
        obtain ⟨bytes, same, spells⟩ := inductive_step
        obtain ⟨value, isValue⟩ := Option.isSome_iff_exists.mp digit
        rw [List.filterMap_cons, isValue]
        exact ⟨byte :: bytes, congrArg _ same, .cons isValue spells⟩
      next => exact ⟨[], rfl, .nil⟩

theorem spells_leadingDigits_cons {byte : UInt8} {digit : Nat}
    (value : digitValue? byte = some digit) (rest : List UInt8) :
    ∃ bytes later, byte :: rest = bytes ++ afterDigits (byte :: rest) ∧
      leadingDigits (byte :: rest) = digit :: later ∧ SpellsDigits bytes (digit :: later) := by
  obtain ⟨bytes, same, spells⟩ := spells_leadingDigits rest
  have isDigit := isDigit_of_digitValue? value
  refine ⟨byte :: bytes, leadingDigits rest, ?_, ?_, .cons value spells⟩
  · rw [afterDigits, List.dropWhile_cons, if_pos isDigit]
    exact congrArg _ same
  · rw [leadingDigits, List.takeWhile_cons, if_pos isDigit, List.filterMap_cons, value]
    rfl

namespace Numeral

variable {atEnd : Reason} {negative : Bool} {input rest : List UInt8}

theorem spells_of_readWhole {whole : List Nat} (read : readWhole atEnd input = .ok (whole, rest)) :
    ∃ bytes, input = bytes ++ rest ∧ SpellsWhole bytes whole := by
  unfold readWhole at read
  split at read
  next => cases read
  next byte later =>
    split at read
    next => cases read
    next zero =>
      have alone : SpellsWhole [byte] [0] := ⟨.cons zero .nil, by simp, fun _ => rfl⟩
      split at read
      next =>
        obtain ⟨rfl, rfl⟩ := Prod.mk.inj (Except.ok.inj read)
        exact ⟨[byte], rfl, alone⟩
      next =>
        split at read
        next => cases read
        next =>
          obtain ⟨rfl, rfl⟩ := Prod.mk.inj (Except.ok.inj read)
          exact ⟨[byte], rfl, alone⟩
    next digit notZero value =>
      obtain ⟨rfl, rfl⟩ := Prod.mk.inj (Except.ok.inj read)
      obtain ⟨bytes, others, same, digits, spells⟩ := spells_leadingDigits_cons value later
      rw [digits]
      exact ⟨bytes, same, spells, by simp, fun zero => absurd (Option.some.inj zero) notZero⟩

theorem spells_of_readFraction {fraction : List Nat}
    (read : readFraction atEnd input = .ok (fraction, rest)) :
    ∃ bytes, 0x2E :: input = bytes ++ rest ∧ SpellsFraction bytes fraction := by
  unfold readFraction at read
  split at read
  next => cases read
  next byte later =>
    split at read
    next digit =>
      obtain ⟨rfl, rfl⟩ := Prod.mk.inj (Except.ok.inj read)
      obtain ⟨value, isValue⟩ := Option.isSome_iff_exists.mp digit
      obtain ⟨bytes, others, same, digits, spells⟩ := spells_leadingDigits_cons isValue later
      rw [digits]
      exact ⟨0x2E :: bytes, congrArg _ same, .present spells (by simp)⟩
    next => cases read

theorem spells_of_readExponentDigits {exponent : Exponent}
    (read : readExponentDigits atEnd negative input = .ok (exponent, rest)) :
    exponent.negative = negative ∧ exponent.digits ≠ [] ∧
      ∃ bytes, input = bytes ++ rest ∧ SpellsDigits bytes exponent.digits := by
  unfold readExponentDigits at read
  split at read
  next => cases read
  next byte later =>
    split at read
    next digit =>
      obtain ⟨rfl, rfl⟩ := Prod.mk.inj (Except.ok.inj read)
      obtain ⟨value, isValue⟩ := Option.isSome_iff_exists.mp digit
      obtain ⟨bytes, others, same, digits, spells⟩ := spells_leadingDigits_cons isValue later
      rw [digits]
      exact ⟨rfl, by simp, bytes, same, spells⟩
    next => cases read

theorem spells_of_readExponent {letter : UInt8} (isLetter : letter = 0x65 ∨ letter = 0x45)
    {exponent : Exponent} (read : readExponent atEnd input = .ok (exponent, rest)) :
    ∃ bytes, letter :: input = bytes ++ rest ∧ SpellsExponent bytes (some exponent) := by
  unfold readExponent at read
  split at read
  next => cases read
  next byte later =>
    split at read
    next plus =>
      obtain ⟨positive, nonempty, bytes, rfl, spells⟩ := spells_of_readExponentDigits read
      refine ⟨letter :: ([0x2B] ++ bytes), by rw [plus]; rfl, .present isLetter ?_ spells nonempty⟩
      rw [positive]
      exact .plus
    split at read
    next minus =>
      obtain ⟨negative, nonempty, bytes, rfl, spells⟩ := spells_of_readExponentDigits read
      refine ⟨letter :: ([0x2D] ++ bytes), by rw [minus]; rfl, .present isLetter ?_ spells nonempty⟩
      rw [negative]
      exact .minus
    next =>
      obtain ⟨positive, nonempty, bytes, same, spells⟩ := spells_of_readExponentDigits read
      refine ⟨letter :: ([] ++ bytes), congrArg _ same, .present isLetter ?_ spells nonempty⟩
      rw [positive]
      exact .absent

theorem spells_of_readTail {whole fraction : List Nat} {numeral : Numeral}
    (read : readTail atEnd negative whole fraction input = .ok (numeral, rest)) :
    numeral.negative = negative ∧ numeral.whole = whole ∧ numeral.fraction = fraction ∧
      ∃ bytes, input = bytes ++ rest ∧ SpellsExponent bytes numeral.exponent := by
  unfold readTail at read
  split at read
  next =>
    obtain ⟨rfl, rfl⟩ := Prod.mk.inj (Except.ok.inj read)
    exact ⟨rfl, rfl, rfl, [], rfl, .absent⟩
  next byte later =>
    split at read
    next isLetter =>
      split at read
      next => cases read
      next exponent after found =>
        obtain ⟨rfl, rfl⟩ := Prod.mk.inj (Except.ok.inj read)
        exact ⟨rfl, rfl, rfl, spells_of_readExponent isLetter found⟩
    next =>
      obtain ⟨rfl, rfl⟩ := Prod.mk.inj (Except.ok.inj read)
      exact ⟨rfl, rfl, rfl, [], rfl, .absent⟩

theorem spells_of_readUnsigned {sign : List UInt8} (signed : SpellsSign sign negative)
    {numeral : Numeral} (read : readUnsigned atEnd negative input = .ok (numeral, rest)) :
    ∃ bytes, sign ++ input = bytes ++ rest ∧ SpellsNumeral bytes numeral := by
  unfold readUnsigned at read
  split at read
  next => cases read
  next whole later first =>
    obtain ⟨wholeBytes, rfl, isWhole⟩ := spells_of_readWhole first
    split at read
    next => cases read
    next fraction after second =>
      obtain ⟨fractionBytes, point, isFraction⟩ := spells_of_readFraction second
      obtain ⟨rfl, rfl, rfl, exponentBytes, rfl, isExponent⟩ := spells_of_readTail read
      refine ⟨_, ?_, sign, wholeBytes, fractionBytes, exponentBytes, rfl, signed, isWhole,
        isFraction, isExponent⟩
      rw [point]
      simp only [List.append_assoc]
  next whole later noPoint first =>
    obtain ⟨wholeBytes, rfl, isWhole⟩ := spells_of_readWhole first
    obtain ⟨rfl, rfl, noFraction, exponentBytes, rfl, isExponent⟩ := spells_of_readTail read
    have isFraction : SpellsFraction [] numeral.fraction := by
      rw [noFraction]
      exact .absent
    refine ⟨_, ?_, sign, wholeBytes, [], exponentBytes, rfl, signed, isWhole, isFraction,
      isExponent⟩
    simp only [List.append_assoc, List.nil_append]

theorem spells_of_read {numeral : Numeral} (read : Numeral.read atEnd input = .ok (numeral, rest)) :
    ∃ bytes, input = bytes ++ rest ∧ SpellsNumeral bytes numeral := by
  unfold Numeral.read at read
  split at read
  next => exact spells_of_readUnsigned .minus read
  next => exact spells_of_readUnsigned .absent read

end Numeral

section

variable {bytes rest : List UInt8} {digits : List Nat}

theorem SpellsDigits.exists_cons (spells : SpellsDigits bytes digits) (nonempty : digits ≠ []) :
    ∃ byte later, bytes = byte :: later ∧ isDigit byte = true := by
  cases spells with
  | nil => exact absurd rfl nonempty
  | cons value _ => exact ⟨_, _, rfl, isDigit_of_digitValue? value⟩

theorem SpellsWhole.read (spells : SpellsWhole bytes digits) (ends : EndsDigits rest)
    (atEnd : Reason) : Numeral.readWhole atEnd (bytes ++ rest) = .ok (digits, rest) := by
  obtain ⟨spelled, nonempty, unpadded⟩ := spells
  cases spelled with
  | nil => exact absurd rfl nonempty
  | @cons byte digit others later value spelled =>
      obtain ⟨all, after⟩ := SpellsDigits.read (.cons value spelled) ends
      rw [List.cons_append] at all after ⊢
      unfold Numeral.readWhole
      dsimp only
      rw [value]
      cases digit with
      | succ value =>
          rw [all, after]
          rfl
      | zero =>
          obtain ⟨-, rfl⟩ := List.cons.inj (unpadded rfl)
          cases spelled
          rw [List.nil_append]
          cases rest with
          | nil => rfl
          | cons next later =>
              have other : ¬isDigit next = true := Bool.eq_false_iff.mp (ends next rfl)
              dsimp only
              rw [if_neg other]
              rfl

theorem SpellsDigits.readFraction (spells : SpellsDigits bytes digits) (nonempty : digits ≠ [])
    (ends : EndsDigits rest) (atEnd : Reason) :
    Numeral.readFraction atEnd (bytes ++ rest) = .ok (digits, rest) := by
  obtain ⟨all, after⟩ := spells.read ends
  obtain ⟨byte, later, rfl, isDigit⟩ := spells.exists_cons nonempty
  rw [List.cons_append] at all after ⊢
  rw [Numeral.readFraction, if_pos isDigit, all, after]

theorem SpellsDigits.readExponentDigits (spells : SpellsDigits bytes digits)
    (nonempty : digits ≠ []) (ends : EndsDigits rest) (atEnd : Reason) (negative : Bool) :
    Numeral.readExponentDigits atEnd negative (bytes ++ rest) = .ok (⟨negative, digits⟩, rest) := by
  obtain ⟨all, after⟩ := spells.read ends
  obtain ⟨byte, later, rfl, isDigit⟩ := spells.exists_cons nonempty
  rw [List.cons_append] at all after ⊢
  rw [Numeral.readExponentDigits, if_pos isDigit, all, after]

theorem SpellsExponentSign.readExponent {sign : List UInt8} {negative : Bool}
    (spells : SpellsExponentSign sign negative) {byte : UInt8} (digit : isDigit byte = true)
    (atEnd : Reason) (later : List UInt8) :
    Numeral.readExponent atEnd (sign ++ byte :: later) =
      Numeral.readExponentDigits atEnd negative (byte :: later) := by
  cases spells with
  | absent =>
      have notPlus : ¬byte = 0x2B := by
        rintro rfl
        exact absurd digit (by decide)
      have notMinus : ¬byte = 0x2D := by
        rintro rfl
        exact absurd digit (by decide)
      rw [List.nil_append, Numeral.readExponent, if_neg notPlus, if_neg notMinus]
  | plus => rfl
  | minus => rfl

theorem SpellsExponent.readTail {exponent : Option Exponent}
    (spells : SpellsExponent bytes exponent) (ends : EndsNumeral rest) (atEnd : Reason)
    (negative : Bool) (whole fraction : List Nat) :
    Numeral.readTail atEnd negative whole fraction (bytes ++ rest) =
      .ok (⟨negative, whole, fraction, exponent⟩, rest) := by
  cases spells with
  | absent =>
      rw [List.nil_append]
      cases rest with
      | nil => rfl
      | cons byte later =>
          obtain ⟨-, -, notSmall, notLarge⟩ := ends byte rfl
          rw [Numeral.readTail, if_neg (not_or.mpr ⟨notSmall, notLarge⟩)]
  | @present letter isLetter sign bytes exponent signed spelled nonempty =>
      have digits := spelled.readExponentDigits nonempty ends.endsDigits atEnd exponent.negative
      obtain ⟨byte, later, rfl, digit⟩ := spelled.exists_cons nonempty
      rw [List.cons_append] at digits
      rw [List.cons_append, List.append_assoc, List.cons_append, Numeral.readTail, if_pos isLetter,
        signed.readExponent digit, digits]

theorem SpellsExponent.head {exponent : Option Exponent} (spells : SpellsExponent bytes exponent)
    (ends : EndsNumeral rest) :
    ∀ byte ∈ (bytes ++ rest).head?, isDigit byte = false ∧ byte ≠ 0x2E := by
  cases spells with
  | absent => exact fun byte next => ⟨(ends byte next).1, (ends byte next).2.1⟩
  | present isLetter _ _ _ =>
      rintro byte next
      obtain rfl := Option.some.inj next
      rcases isLetter with rfl | rfl <;> exact ⟨rfl, by decide⟩

theorem SpellsFraction.readUnsigned {fraction exponent : List UInt8} {numeral : Numeral}
    (isFraction : SpellsFraction fraction numeral.fraction)
    (isWhole : SpellsWhole bytes numeral.whole)
    (isExponent : SpellsExponent exponent numeral.exponent) (ends : EndsNumeral rest)
    (atEnd : Reason) :
    Numeral.readUnsigned atEnd numeral.negative (bytes ++ (fraction ++ (exponent ++ rest))) =
      .ok (numeral, rest) := by
  obtain ⟨negative, whole, fractionDigits, exponentDigits⟩ := numeral
  dsimp only at isWhole isFraction isExponent ⊢
  have tail := isExponent.readTail ends atEnd negative whole fractionDigits
  have head := isExponent.head ends
  have ended : EndsDigits (exponent ++ rest) := fun byte next => (head byte next).1
  rw [Numeral.readUnsigned]
  cases isFraction with
  | absent =>
      rw [List.nil_append, isWhole.read ended atEnd]
      split
      next absurdity => cases absurdity
      next other later same =>
        obtain ⟨-, point⟩ := Prod.mk.inj (Except.ok.inj same)
        rw [point] at head
        exact absurd rfl (head 0x2E rfl).2
      next same =>
        obtain ⟨rfl, rfl⟩ := Prod.mk.inj (Except.ok.inj same)
        exact tail
  | @present others _ spelled nonempty =>
      have point : EndsDigits (0x2E :: (others ++ (exponent ++ rest))) := by
        rintro byte next
        obtain rfl := Option.some.inj next
        rfl
      rw [List.cons_append, isWhole.read point atEnd]
      split
      next absurdity => cases absurdity
      next later same =>
        obtain ⟨rfl, follows⟩ := Prod.mk.inj (Except.ok.inj same)
        rw [← (List.cons.inj follows).2, spelled.readFraction nonempty ended atEnd]
        exact tail
      next noPoint same =>
        obtain ⟨rfl, rfl⟩ := Prod.mk.inj (Except.ok.inj same)
        exact (noPoint _ rfl).elim

theorem SpellsNumeral.read {numeral : Numeral} (spells : SpellsNumeral bytes numeral)
    (ends : EndsNumeral rest) (atEnd : Reason) :
    Numeral.read atEnd (bytes ++ rest) = .ok (numeral, rest) := by
  obtain ⟨sign, whole, fraction, exponent, rfl, signed, isWhole, isFraction, isExponent⟩ := spells
  have unsigned := isFraction.readUnsigned isWhole isExponent ends atEnd
  obtain ⟨byte, later, rfl, digit⟩ := isWhole.spelled.exists_cons isWhole.nonempty
  obtain ⟨negative, digits, others, power⟩ := numeral
  simp only [List.append_assoc]
  cases signed with
  | minus => exact unsigned
  | absent =>
      rw [List.nil_append, Numeral.read]
      · exact unsigned
      -- The minus of another numeral is no digit.
      · rintro rest same
        obtain rfl : byte = 0x2D := (List.cons.inj same).1
        exact absurd digit (by decide)

theorem SpellsNumeral.exists_cons {numeral : Numeral} (spells : SpellsNumeral bytes numeral) :
    ∃ byte later, bytes = byte :: later ∧ (byte = 0x2D ∨ isDigit byte = true) := by
  obtain ⟨sign, whole, fraction, exponent, rfl, signed, isWhole, -, -⟩ := spells
  obtain ⟨byte, later, rfl, digit⟩ := isWhole.spelled.exists_cons isWhole.nonempty
  generalize numeral.negative = negative at signed
  cases signed with
  | absent => exact ⟨byte, _, rfl, .inr digit⟩
  | minus => exact ⟨0x2D, _, rfl, .inl rfl⟩

theorem ne_of_isMinus_or_isDigit {byte : UInt8} (first : byte = 0x2D ∨ isDigit byte = true)
    (other : UInt8) (differs : other ≠ 0x2D ∧ isDigit other = false) : byte ≠ other := by
  rintro rfl
  rcases first with minus | digit
  · exact differs.1 minus
  · exact absurd (differs.2.symm.trans digit) (by decide)

end

end WorkoutBoard.Json
