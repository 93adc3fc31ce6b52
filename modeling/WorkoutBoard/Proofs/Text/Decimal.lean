import WorkoutBoard.Text.Decimal

/-!
# Decimal texts are read back

Digits are read from left to right (`extend?`), so that texts are best taken apart at their ends: a
text and one more digit is ten times as much and the digit. From this the shortest text of a number,
the text of an integer of 64 bits and the texts of a fixed width are read back.
-/

namespace WorkoutBoard.Text.Decimal

theorem digit?_digitChar {value : Nat} (small : value < 10) :
    digit? value.digitChar = some value := by
  rw [digit?, Nat.isDigit_digitChar, if_pos (by simpa using small)]
  exact congrArg some (Nat.toNat_digitChar_sub_48_of_lt_ten small)

theorem eq_digitChar_of_digit? {character : Char} {value : Nat}
    (read : digit? character = some value) : value < 10 ∧ character = value.digitChar := by
  rw [digit?] at read
  split at read
  next isDigit =>
    have bounds : '0'.toNat ≤ character.toNat ∧ character.toNat ≤ '9'.toNat := by
      simpa [Char.isDigit, Char.le_def, UInt32.le_iff_toNat_le] using isDigit
    have zero : '0'.toNat = 48 := rfl
    have nine : '9'.toNat = 57 := rfl
    obtain rfl := Option.some.inj read
    refine ⟨by omega, Char.toNat_inj.mp ?_⟩
    rw [Nat.toNat_digitChar_of_lt_ten (by omega)]
    omega
  next => cases read

theorem extend?_append (value : Nat) (left right : List Char) :
    extend? value (left ++ right) = (extend? value left).bind fun next => extend? next right := by
  induction left generalizing value with
  | nil => rfl
  | cons character rest inductive_step =>
      rw [List.cons_append, extend?, extend?]
      cases digit? character with
      | none => rfl
      | some digit => exact inductive_step _

theorem extend?_singleton (value : Nat) {character : Char} {digit : Nat}
    (read : digit? character = some digit) :
    extend? value [character] = some (value * 10 + digit) := by
  simp [extend?, read]

theorem extend?_toDigits (value : Nat) : extend? 0 (Nat.toDigits 10 value) = some value := by
  induction value using Nat.strongRecOn with
  | _ value inductive_step =>
      rw [Nat.toDigits_eq_if (by decide)]
      split
      next small => rw [extend?_singleton 0 (digit?_digitChar small), Nat.zero_mul, Nat.zero_add]
      next large =>
        have last := digit?_digitChar (Nat.mod_lt value (by decide : 0 < 10))
        rw [extend?_append, inductive_step _ (by omega), Option.bind_some, extend?_singleton _ last]
        exact congrArg some (by omega)

theorem le_of_extend? {value result : Nat} {text : List Char}
    (read : extend? value text = some result) : value ≤ result := by
  induction text generalizing value with
  | nil => exact Nat.le_of_eq (Option.some.inj read)
  | cons character rest inductive_step =>
      rw [extend?] at read
      obtain ⟨digit, -, later⟩ := Option.bind_eq_some_iff.mp read
      have further := inductive_step later
      omega

/-- A number that stays at or below a bound is reached without passing it. -/
theorem climb_of_extend? {high value result : Nat} {text : List Char}
    (read : extend? value text = some result) (bounded : result ≤ high) :
    climb high value text = .ok result := by
  induction text generalizing value with
  | nil => rw [climb, Option.some.inj read]
  | cons character rest inductive_step =>
      rw [extend?] at read
      obtain ⟨digit, isDigit, later⟩ := Option.bind_eq_some_iff.mp read
      have below := le_of_extend? later
      rw [climb, isDigit]
      dsimp only
      rw [if_pos (by omega), inductive_step later]

/-! ## A fixed width -/

def digits (width value : Nat) : List Char := (padded width value).toList

theorem digits_eq (width value : Nat) :
    digits width value =
      List.replicate (width - (Nat.toDigits 10 value).length) '0' ++ Nat.toDigits 10 value := by
  rw [digits, padded, String.toList_ofList]

theorem digits_ne_nil (width value : Nat) : digits width value ≠ [] := by
  rw [digits_eq]
  exact List.append_ne_nil_of_right_ne_nil _ Nat.toDigits_ne_nil

theorem extend?_replicate_zero (start count : Nat) :
    extend? start (List.replicate count '0') = some (start * 10 ^ count) := by
  induction count generalizing start with
  | zero =>
      rw [Nat.pow_zero, Nat.mul_one]
      rfl
  | succ count inductive_step =>
      have zero : digit? '0' = some 0 := by decide
      rw [List.replicate_succ, extend?, zero, Nat.pow_succ', ← Nat.mul_assoc]
      exact inductive_step _

theorem exists_extend? {text : List Char} (digits : ∀ digit ∈ text, digit.isDigit = true)
    (start : Nat) : ∃ value, extend? start text = some value := by
  induction text generalizing start with
  | nil => exact ⟨start, rfl⟩
  | cons first rest inductive_step =>
      obtain ⟨isDigit, restDigits⟩ := List.forall_mem_cons.mp digits
      rw [extend?, digit?, if_pos isDigit]
      exact inductive_step restDigits _

theorem natural?_of_ne_nil {text : List Char} (nonempty : text ≠ []) :
    natural? text = extend? 0 text :=
  natural?.eq_2 text nonempty

theorem natural?_digits (width value : Nat) : natural? (digits width value) = some value := by
  rw [natural?_of_ne_nil (digits_ne_nil width value), digits_eq, extend?_append,
    extend?_replicate_zero, Option.bind_some, Nat.zero_mul, extend?_toDigits]

theorem length_digits {width value : Nat} (positive : 0 < width) (fits : value < 10 ^ width) :
    (digits width value).length = width := by
  have short := (Nat.length_toDigits_le_iff (by decide) positive).mpr fits
  rw [digits_eq, List.length_append, List.length_replicate]
  omega

theorem isDigit_of_mem_digits {width value : Nat} {character : Char}
    (member : character ∈ digits width value) : character.isDigit = true := by
  rw [digits_eq] at member
  rcases List.mem_append.mp member with filling | digit
  · rw [List.eq_of_mem_replicate filling]
    decide
  · exact Nat.isDigit_of_mem_toDigits (by decide) (by decide) digit

theorem digits_injective (width : Nat) : Function.Injective (digits width) := by
  intro left right equal
  have read := natural?_digits width left
  rw [equal, natural?_digits] at read
  exact (Option.some.inj read).symm

theorem digits_append_inj {width left right : Nat} {rest later : List Char} (positive : 0 < width)
    (leftFits : left < 10 ^ width) (rightFits : right < 10 ^ width)
    (equal : digits width left ++ rest = digits width right ++ later) :
    left = right ∧ rest = later := by
  have lengths := (length_digits positive leftFits).trans (length_digits positive rightFits).symm
  obtain ⟨written, same⟩ := List.append_inj equal lengths
  exact ⟨digits_injective width written, same⟩

theorem digits_append_ne {other : Char} (notDigit : other.isDigit = false) (width value : Nat)
    (rest later : List Char) : digits width value ++ rest ≠ other :: later := by
  intro equal
  cases written : digits width value with
  | nil => exact digits_ne_nil width value written
  | cons first more =>
      rw [written, List.cons_append] at equal
      have isDigit : first.isDigit = true :=
        isDigit_of_mem_digits (written ▸ List.mem_cons_self)
      rw [(List.cons.inj equal).1, notDigit] at isDigit
      cases isDigit

theorem eq_of_extend? {left right : Nat} {text other : List Char} {value : Nat}
    (lengths : text.length = other.length) (read : extend? left text = some value)
    (otherRead : extend? right other = some value) : left = right ∧ text = other := by
  induction text generalizing left right other with
  | nil =>
      obtain rfl := List.length_eq_zero_iff.mp lengths.symm
      exact ⟨Option.some.inj (read.trans otherRead.symm), rfl⟩
  | cons character rest inductive_step =>
      cases other with
      | nil => cases lengths
      | cons otherCharacter later =>
          rw [extend?] at read otherRead
          obtain ⟨digit, isDigit, restRead⟩ := Option.bind_eq_some_iff.mp read
          obtain ⟨otherDigit, otherIsDigit, laterRead⟩ := Option.bind_eq_some_iff.mp otherRead
          obtain ⟨equal, rfl⟩ := inductive_step (Nat.succ.inj lengths) restRead laterRead
          obtain ⟨small, rfl⟩ := eq_digitChar_of_digit? isDigit
          obtain ⟨otherSmall, rfl⟩ := eq_digitChar_of_digit? otherIsDigit
          obtain rfl : digit = otherDigit := by omega
          exact ⟨by omega, rfl⟩

theorem lt_of_extend? {start value : Nat} {text : List Char}
    (read : extend? start text = some value) : value < (start + 1) * 10 ^ text.length := by
  induction text generalizing start with
  | nil =>
      obtain rfl := Option.some.inj read
      simp
  | cons character rest inductive_step =>
      rw [extend?] at read
      obtain ⟨digit, isDigit, restRead⟩ := Option.bind_eq_some_iff.mp read
      have small := (eq_digitChar_of_digit? isDigit).1
      calc value < (start * 10 + digit + 1) * 10 ^ rest.length := inductive_step restRead
        _ ≤ (start + 1) * 10 * 10 ^ rest.length := Nat.mul_le_mul_right _ (by omega)
        _ = (start + 1) * 10 ^ (rest.length + 1) := by rw [Nat.pow_succ', Nat.mul_assoc]

theorem natural?_eq_some_iff {width : Nat} {text : List Char} (positive : 0 < width)
    (lengths : text.length = width) (value : Nat) :
    natural? text = some value ↔ value < 10 ^ width ∧ digits width value = text := by
  constructor
  · intro read
    have whole : extend? 0 text = some value := by
      cases text with
      | nil => cases read
      | cons first rest => exact read
    have fits : value < 10 ^ width := by
      have bound := lt_of_extend? whole
      rwa [Nat.zero_add, Nat.one_mul, lengths] at bound
    refine ⟨fits, ?_⟩
    have back := natural?_digits width value
    have length := length_digits positive fits
    generalize digits width value = written at back length ⊢
    cases written with
    | nil => cases back
    | cons first rest => exact (eq_of_extend? (length.trans lengths.symm) back whole).2
  · rintro ⟨-, rfl⟩
    exact natural?_digits width value

/-! ## Numbers up to a bound -/

theorem digit?_of_isDigit {character : Char} (isDigit : character.isDigit = true) :
    digit? character = some (character.toNat - '0'.toNat) :=
  if_pos isDigit

theorem digit?_of_not_isDigit {character : Char} (other : character.isDigit = false) :
    digit? character = none := by
  rw [digit?, other]
  rfl

theorem digit?_eq_some_iff {character : Char} {value : Nat} :
    digit? character = some value ↔
      character.isDigit = true ∧ character.toNat - '0'.toNat = value := by
  rw [digit?]
  split
  next isDigit => rw [Option.some.injEq, and_iff_right isDigit]
  next other => exact ⟨nofun, fun digit => absurd digit.1 other⟩

theorem ofDigitChars_cons (digit : Char) (rest : List Char) (start : Nat) :
    Nat.ofDigitChars 10 (digit :: rest) start =
      Nat.ofDigitChars 10 rest (start * 10 + (digit.toNat - '0'.toNat)) := by
  rw [Nat.ofDigitChars_cons, Nat.mul_comm]

theorem extend?_of_digits {text : List Char} (digits : ∀ digit ∈ text, digit.isDigit = true)
    (start : Nat) : extend? start text = some (Nat.ofDigitChars 10 text start) := by
  induction text generalizing start with
  | nil => rw [extend?, Nat.ofDigitChars_nil]
  | cons first rest inductive_step =>
      obtain ⟨isDigit, restDigits⟩ := List.forall_mem_cons.mp digits
      rw [extend?, digit?_of_isDigit isDigit, ofDigitChars_cons]
      exact inductive_step restDigits _

theorem climb_eq_ok_iff {high value result : Nat} {text : List Char} (bounded : value ≤ high) :
    climb high value text = .ok result ↔
      (∀ digit ∈ text, digit.isDigit = true) ∧ Nat.ofDigitChars 10 text value = result ∧
        result ≤ high := by
  constructor
  · intro read
    induction text generalizing value with
    | nil =>
        obtain rfl := Except.ok.inj read
        exact ⟨nofun, Nat.ofDigitChars_nil, bounded⟩
    | cons first rest inductive_step =>
        rw [climb] at read
        split at read
        next => cases read
        next digit isDigit =>
          split at read
          next fits =>
            obtain ⟨decimal, rfl⟩ := digit?_eq_some_iff.mp isDigit
            obtain ⟨digits, value, within⟩ := inductive_step fits read
            refine ⟨List.forall_mem_cons.mpr ⟨decimal, digits⟩, ?_, within⟩
            rw [ofDigitChars_cons, value]
          next => cases read
  · rintro ⟨digits, rfl, within⟩
    exact climb_of_extend? (extend?_of_digits digits value) within

theorem unsigned_of_signed {text digits : List Char} (signed : text = digits ∨ text = '+' :: digits)
    (nonempty : digits ≠ []) (decimal : ∀ digit ∈ digits, digit.isDigit = true) (high : Nat) :
    unsigned high text = climb high 0 digits := by
  cases digits with
  | nil => exact absurd rfl nonempty
  | cons first rest =>
      rcases signed with rfl | rfl
      · have isDigit := decimal first List.mem_cons_self
        unfold unsigned
        split
        next empty => cases empty
        next plus => simp [(List.cons.inj plus).1] at isDigit
        next plus => simp [(List.cons.inj plus).1] at isDigit
        next => rfl
      · rfl

theorem unsigned_eq_ok_iff {high value : Nat} {text : List Char} :
    unsigned high text = .ok value ↔
      ∃ digits : List Char, (text = digits ∨ text = '+' :: digits) ∧ digits ≠ [] ∧
        (∀ digit ∈ digits, digit.isDigit = true) ∧ Nat.ofDigitChars 10 digits 0 = value ∧
          value ≤ high := by
  constructor
  · intro read
    unfold unsigned at read
    split at read
    next => cases read
    next => cases read
    next digits nonempty =>
      exact ⟨digits, .inr rfl, fun empty => nonempty (by rw [empty]),
        (climb_eq_ok_iff (Nat.zero_le high)).mp read⟩
    next nonempty notPlus noPlus =>
      exact ⟨text, .inl rfl, nonempty, (climb_eq_ok_iff (Nat.zero_le high)).mp read⟩
  · rintro ⟨digits, signed, nonempty, decimal, denotes⟩
    rw [unsigned_of_signed signed nonempty decimal]
    exact (climb_eq_ok_iff (Nat.zero_le high)).mpr ⟨decimal, denotes⟩

theorem toOption_climb {digits : List Char} (decimal : ∀ digit ∈ digits, digit.isDigit = true)
    (high : Nat) :
    (climb high 0 digits).toOption =
      if Nat.ofDigitChars 10 digits 0 ≤ high then some (Nat.ofDigitChars 10 digits 0)
      else none := by
  split
  next fits =>
    rw [(climb_eq_ok_iff (Nat.zero_le high)).mpr ⟨decimal, rfl, fits⟩]
    rfl
  next large =>
    cases read : climb high 0 digits with
    | error fault => rfl
    | ok value =>
        rcases (climb_eq_ok_iff (Nat.zero_le high)).mp read with ⟨-, rfl, fits⟩
        exact absurd fits large

/-! ## Integers of 64 bits -/

theorem int64_of_digits {text : List Char} {value : Nat} (digits : ∀ letter ∈ text, letter.isDigit)
    (nonempty : text ≠ []) (read : extend? 0 text = some value) (bounded : value ≤ 2 ^ 63 - 1) :
    int64 text = .ok (Int64.ofInt value) := by
  cases text with
  | nil => exact absurd rfl nonempty
  | cons first rest =>
      have isDigit := digits first List.mem_cons_self
      unfold int64
      split
      · next empty => cases empty
      · next plus => simp [(List.cons.inj plus).1] at isDigit
      · next minus => simp [(List.cons.inj minus).1] at isDigit
      · next plus => simp [(List.cons.inj plus).1] at isDigit
      · next minus => simp [(List.cons.inj minus).1] at isDigit
      · rw [climb_of_extend? read bounded]
        rfl

theorem int64_of_minus {text : List Char} {value : Nat} (nonempty : text ≠ [])
    (read : extend? 0 text = some value) (bounded : value ≤ 2 ^ 63) :
    int64 ('-' :: text) = .ok (Int64.ofInt (-value)) := by
  cases text with
  | nil => exact absurd rfl nonempty
  | cons first rest =>
      simp only [int64]
      rw [climb_of_extend? read bounded]

theorem int64_ofInt (value : Int64) : int64 (ofInt value.toInt).toList = .ok value := by
  have upper := value.toInt_lt
  have lower := value.le_toInt
  have restored : Int64.ofInt value.toInt = value := Int64.ofInt_toInt value
  generalize value.toInt = number at upper lower restored ⊢
  subst restored
  cases number with
  | ofNat magnitude =>
      have bounded : (magnitude : Int) < 2 ^ 63 := upper
      rw [ofInt, ofNat, String.toList_ofList]
      exact int64_of_digits
        (fun letter member => Nat.isDigit_of_mem_toDigits (by decide) (by decide) member)
        Nat.toDigits_ne_nil (extend?_toDigits magnitude) (by omega)
  | negSucc before =>
      have written : (ofInt (.negSucc before)).toList = '-' :: Nat.toDigits 10 (before + 1) := by
        rw [ofInt, ofNat, String.toList_append, String.toList_ofList, String.toList_ofList]
        rfl
      rw [written, int64_of_minus Nat.toDigits_ne_nil (extend?_toDigits _) (by omega)]
      rfl

end WorkoutBoard.Text.Decimal
