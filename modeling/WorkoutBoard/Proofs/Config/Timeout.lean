import WorkoutBoard.Proofs.Config.Duration

/-!
# How timeouts are written

A timeout is longer than zero and is written as a sum of parts, or as a whole number of seconds
(`timeout?_eq_some_iff`). No text is both, and whole seconds are the same in both forms, up to the
largest number of 64 bits (`whole_seconds_agree`).
-/

namespace WorkoutBoard.Config.Duration

inductive SpellsDuration (text : List Char) : Duration → Prop where
  | sum {parts : List Part} {duration : Duration} (spells : SpellsParts text parts)
      (nonempty : parts ≠ []) (total : sum? zero parts = some duration) :
      SpellsDuration text duration
  | seconds {digits : List Char} (signed : text = digits ∨ text = '+' :: digits)
      (nonempty : digits ≠ []) (decimal : ∀ digit ∈ digits, digit.isDigit = true)
      (fits : Nat.ofDigitChars 10 digits 0 ≤ largestWord) :
      SpellsDuration text (ofSeconds (Nat.ofDigitChars 10 digits 0))

theorem isZero_eq_false_iff (duration : Duration) :
    duration.isZero = false ↔ 0 < duration.toNanos := by
  rcases duration with ⟨seconds, nanos⟩
  simp only [isZero, toNanos, nanosPerSecond, Bool.and_eq_false_iff, beq_eq_false_iff_ne]
  omega

section

variable {digits : List Char} (nonempty : digits ≠ [])
  (decimal : ∀ digit ∈ digits, digit.isDigit = true)

include decimal

theorem isSpaced_of_digits : IsSpaced digits :=
  fun digit inside => .inl (decimal digit inside)

theorem numberIn_of_digits : numberIn digits = Nat.ofDigitChars 10 digits 0 := by
  rw [numberIn, digitsIn, List.filter_eq_self.mpr decimal]

include nonempty

theorem partsFrom_digits (rest : List Char) :
    partsFrom (.beforeNumber true) (digits ++ rest) =
      if Nat.ofDigitChars 10 digits 0 ≤ largestWord then
        partsFrom (.inNumber (Nat.ofDigitChars 10 digits 0)) rest
      else none := by
  rw [← numberIn_of_digits decimal]
  cases digits with
  | nil => exact absurd rfl nonempty
  | cons digit later =>
      rcases List.forall_mem_cons.mp decimal with ⟨isDigit, laterDecimal⟩
      exact partsFrom_number isDigit (isSpaced_of_digits laterDecimal) true rest

theorem partsFrom_digits_eq_none : partsFrom (.beforeNumber true) digits = none := by
  have read := partsFrom_digits nonempty decimal []
  rw [List.append_nil] at read
  rw [read]
  split
  next => rfl
  next => rfl

end

theorem ofText?_of_ne {text : String} (named : text ≠ "0") :
    ofText? text = (partsFrom (.beforeNumber true) text.toList).bind fun parts => sum? zero parts :=
  if_neg named

theorem ofWholeSeconds?_eq_some_iff {text : String} {duration : Duration} :
    ofWholeSeconds? text = some duration ↔
      ∃ digits : List Char, (text.toList = digits ∨ text.toList = '+' :: digits) ∧ digits ≠ [] ∧
        (∀ digit ∈ digits, digit.isDigit = true) ∧ Nat.ofDigitChars 10 digits 0 ≤ largestWord ∧
          ofSeconds (Nat.ofDigitChars 10 digits 0) = duration := by
  rw [ofWholeSeconds?]
  constructor
  · intro read
    cases counted : Text.Decimal.unsigned largestWord text.toList with
    | error fault =>
        rw [counted] at read
        cases read
    | ok seconds =>
        rw [counted] at read
        rcases Text.Decimal.unsigned_eq_ok_iff.mp counted with
          ⟨digits, signed, nonempty, decimal, rfl, fits⟩
        exact ⟨digits, signed, nonempty, decimal, fits, Option.some.inj read⟩
  · rintro ⟨digits, signed, nonempty, decimal, fits, rfl⟩
    rw [Text.Decimal.unsigned_eq_ok_iff.mpr ⟨digits, signed, nonempty, decimal, rfl, fits⟩]
    rfl

theorem partsFrom_eq_none_of_signed {text digits : List Char}
    (signed : text = digits ∨ text = '+' :: digits) (nonempty : digits ≠ [])
    (decimal : ∀ digit ∈ digits, digit.isDigit = true) :
    partsFrom (.beforeNumber true) text = none := by
  rcases signed with rfl | rfl
  · exact partsFrom_digits_eq_none nonempty decimal
  · rfl

theorem ofText?_of_signed {text : String} {digits : List Char}
    (signed : text.toList = digits ∨ text.toList = '+' :: digits) (nonempty : digits ≠ [])
    (decimal : ∀ digit ∈ digits, digit.isDigit = true) :
    ofText? text = if text = "0" then some zero else none := by
  rw [ofText?, partsFrom_eq_none_of_signed signed nonempty decimal, Option.bind_none]

theorem ofText?_of_parts {text : String} {parts : List Part}
    (spells : SpellsParts text.toList parts) (nonempty : parts ≠ []) :
    ofText? text = sum? zero parts := by
  have read := partsFrom_eq_some_iff.mpr ⟨spells, nonempty⟩
  have named : text ≠ "0" := by
    rintro rfl
    have none : partsFrom (.beforeNumber true) "0".toList = none := by decide +kernel
    rw [none] at read
    cases read
  rw [ofText?, if_neg named, read, Option.bind_some]

theorem eq_zero_of_signed {digits : List Char}
    (signed : "0".toList = digits ∨ "0".toList = '+' :: digits) :
    Nat.ofDigitChars 10 digits 0 = 0 := by
  rcases signed with rfl | plus
  · decide +kernel
  · have zero : "0".toList = ['0'] := by decide +kernel
    rw [zero] at plus
    exact absurd (List.cons.inj plus).1 (by decide)

/-- Exactly what is written as a duration is a timeout, unless it is zero. -/
theorem timeout?_eq_some_iff {text : String} {duration : Duration} :
    timeout? text = some duration ↔
      SpellsDuration text.toList duration ∧ 0 < duration.toNanos := by
  rw [timeout?, Option.filter_eq_some_iff, Bool.not_eq_true', isZero_eq_false_iff,
    Option.orElse_apply, Option.orElse_eq_or, Option.or_eq_some_iff]
  apply and_congr_left
  intro positive
  constructor
  · rintro (sum | ⟨-, seconds⟩)
    · rw [ofText?] at sum
      split at sum
      next =>
        obtain rfl := Option.some.inj sum
        exact absurd positive (by decide)
      next =>
        rcases Option.bind_eq_some_iff.mp sum with ⟨parts, read, total⟩
        rcases partsFrom_eq_some_iff.mp read with ⟨spells, nonempty⟩
        exact .sum spells nonempty total
    · rcases ofWholeSeconds?_eq_some_iff.mp seconds with
        ⟨digits, signed, nonempty, decimal, fits, rfl⟩
      exact .seconds signed nonempty decimal fits
  · rintro (⟨spells, nonempty, total⟩ | ⟨signed, nonempty, decimal, fits⟩)
    · rw [ofText?_of_parts spells nonempty]
      exact .inl total
    · refine .inr ⟨?_, ofWholeSeconds?_eq_some_iff.mpr
        ⟨_, signed, nonempty, decimal, fits, rfl⟩⟩
      rw [ofText?_of_signed signed nonempty decimal, if_neg]
      rintro rfl
      rw [eq_zero_of_signed signed] at positive
      exact absurd positive (by decide)

/-! ## Whole seconds -/

theorem add?_seconds {duration : Duration} {seconds : Nat}
    (normal : duration.nanos < nanosPerSecond) (fits : duration.seconds + seconds ≤ largestWord) :
    duration.add? seconds 0 = some ⟨duration.seconds + seconds, duration.nanos⟩ := by
  have small : duration.nanos ≤ largestWord :=
    Nat.le_trans (Nat.le_of_lt normal) (by decide)
  have whole : seconds ≤ largestWord := Nat.le_trans (Nat.le_add_left ..) fits
  have nanos : word? (duration.nanos + 0) = some duration.nanos := if_pos small
  have carried : word? (seconds + duration.nanos / nanosPerSecond) = some seconds := by
    rw [Nat.div_eq_of_lt normal]
    exact if_pos whole
  have all : word? (duration.seconds + seconds) = some (duration.seconds + seconds) := if_pos fits
  rw [add?, nanos]
  dsimp only [Option.bind_eq_bind, Option.bind_some]
  rw [carried]
  dsimp only [Option.bind_some]
  rw [all, Nat.mod_eq_of_lt normal]
  rfl

theorem sum?_seconds {count : Nat} (fits : count ≤ largestWord) {unit : Unit}
    (named : unit? "s" = some unit) :
    sum? zero [⟨count, 0, 1, unit⟩] = some (ofSeconds count) := by
  have seconds : unit? "s" = some ⟨.seconds 1, some (.nanos 1000000000)⟩ := by decide +kernel
  obtain rfl := Option.some.inj (seconds.symm.trans named)
  have counted : word? (count * 1) = some count := by
    rw [Nat.mul_one]
    exact if_pos fits
  have whole : zero.addScaled? count (.seconds 1) = some (ofSeconds count) := by
    rw [addScaled?, counted]
    have added : zero.add? count 0 = some ⟨0 + count, 0⟩ := add?_seconds (by decide) (by
      rwa [zero, Nat.zero_add])
    rw [Nat.zero_add] at added
    exact added
  have fraction : (ofSeconds count).addFraction? 0 1 (.nanos 1000000000) =
      some (ofSeconds count) :=
    @add?_seconds (ofSeconds count) 0 (by decide : 0 < nanosPerSecond) fits
  rw [sum?, addPart?, whole]
  dsimp only [Option.bind_eq_bind, Option.bind_some]
  rw [fraction]
  rfl

theorem eq_of_both_forms {text : String} {sum seconds : Duration}
    (asSum : ofText? text = some sum) (asSeconds : ofWholeSeconds? text = some seconds) :
    sum = seconds := by
  rcases ofWholeSeconds?_eq_some_iff.mp asSeconds with
    ⟨digits, signed, nonempty, decimal, -, -⟩
  rw [ofText?_of_signed signed nonempty decimal] at asSum
  split at asSum
  next isZero =>
    have read : ofWholeSeconds? "0" = some zero := by decide +kernel
    rw [isZero, read] at asSeconds
    exact (Option.some.inj asSum).symm.trans (Option.some.inj asSeconds)
  next => cases asSum

theorem ofWholeSeconds?_of_signed {text : String} {digits : List Char}
    (signed : text.toList = digits ∨ text.toList = '+' :: digits) (nonempty : digits ≠ [])
    (decimal : ∀ digit ∈ digits, digit.isDigit = true) :
    ofWholeSeconds? text =
      if Nat.ofDigitChars 10 digits 0 ≤ largestWord then
        some (ofSeconds (Nat.ofDigitChars 10 digits 0))
      else none := by
  rw [ofWholeSeconds?, Text.Decimal.unsigned_of_signed signed nonempty decimal,
    Text.Decimal.toOption_climb decimal, apply_ite (Option.map ofSeconds)]
  rfl

theorem ofWholeSeconds?_eq_none {text : String} {character : Char}
    (inside : character ∈ text.toList) (notDigit : character.isDigit = false)
    (notPlus : character ≠ '+') : ofWholeSeconds? text = none := by
  cases read : ofWholeSeconds? text with
  | none => rfl
  | some duration =>
      rcases ofWholeSeconds?_eq_some_iff.mp read with ⟨digits, signed, -, decimal, -, -⟩
      have isDigit : character ∈ digits := by
        rcases signed with same | same
        · rwa [same] at inside
        · rw [same] at inside
          exact (List.mem_cons.mp inside).resolve_left notPlus
      rw [decimal character isDigit] at notDigit
      cases notDigit

theorem timeout?_of_count {text : String} {count : Nat}
    (read : (ofText? text <|> ofWholeSeconds? text) =
      if count ≤ largestWord then some (ofSeconds count) else none) :
    timeout? text = if 1 ≤ count ∧ count < 2 ^ 64 then some (ofSeconds count) else none := by
  have word : count ≤ largestWord ↔ count < 2 ^ 64 := Nat.le_sub_one_iff_lt (by decide)
  rw [timeout?, read]
  by_cases fits : count < 2 ^ 64
  · rw [if_pos (word.mpr fits)]
    cases count with
    | zero => decide
    | succ before =>
        rw [if_pos ⟨Nat.le_add_left 1 before, fits⟩]
        rfl
  · rw [if_neg (mt word.mp fits), if_neg fun within => fits within.2]
    rfl

theorem timeout?_of_signed {text : String} {digits : List Char}
    (signed : text.toList = digits ∨ text.toList = '+' :: digits) (nonempty : digits ≠ [])
    (decimal : ∀ digit ∈ digits, digit.isDigit = true) :
    timeout? text =
      if 1 ≤ Nat.ofDigitChars 10 digits 0 ∧ Nat.ofDigitChars 10 digits 0 < 2 ^ 64 then
        some (ofSeconds (Nat.ofDigitChars 10 digits 0))
      else none := by
  apply timeout?_of_count
  rw [ofText?_of_signed signed nonempty decimal, ofWholeSeconds?_of_signed signed nonempty decimal]
  split
  next isZero =>
    rw [isZero] at signed
    rw [eq_zero_of_signed signed]
    rfl
  next => rfl

theorem partsFrom_seconds {digits : List Char} (nonempty : digits ≠ [])
    (decimal : ∀ digit ∈ digits, digit.isDigit = true) {unit : Unit}
    (named : unit? "s" = some unit) :
    partsFrom (.beforeNumber true) (digits ++ ['s']) =
      if Nat.ofDigitChars 10 digits 0 ≤ largestWord then
        some [⟨Nat.ofDigitChars 10 digits 0, 0, 1, unit⟩]
      else none := by
  rw [partsFrom_digits nonempty decimal]
  split
  next =>
    have letters : "s".toList = ['s'] := by decide +kernel
    have read := partsFrom_name named (Nat.ofDigitChars 10 digits 0) []
    rw [partsFrom, part?_reverse named, letters] at read
    exact read
  next => rfl

theorem timeout?_of_unit {text : String} {digits : List Char}
    (spelled : text.toList = digits ++ ['s']) (nonempty : digits ≠ [])
    (decimal : ∀ digit ∈ digits, digit.isDigit = true) :
    timeout? text =
      if 1 ≤ Nat.ofDigitChars 10 digits 0 ∧ Nat.ofDigitChars 10 digits 0 < 2 ^ 64 then
        some (ofSeconds (Nat.ofDigitChars 10 digits 0))
      else none := by
  have named : text ≠ "0" := by
    rintro rfl
    have zero : "0".toList = [] ++ ['0'] := by decide +kernel
    rw [zero] at spelled
    exact absurd (List.append_inj' spelled rfl).2 (by decide)
  have unitInside : 's' ∈ text.toList := by
    rw [spelled]
    exact List.mem_concat_self
  have noSeconds := ofWholeSeconds?_eq_none unitInside (by decide) (by decide)
  have isSome : (unit? "s").isSome = true := by decide +kernel
  rcases Option.isSome_iff_exists.mp isSome with ⟨unit, isUnit⟩
  apply timeout?_of_count
  rw [ofText?_of_ne named, spelled, partsFrom_seconds nonempty decimal isUnit, noSeconds]
  split
  next fits =>
    rw [Option.bind_some, sum?_seconds fits isUnit]
    rfl
  next => rfl

/-- A number of seconds is the same with and without a plus sign and with its unit, however many
digits it has, and no timeout if it is zero or has more than 64 bits. -/
theorem whole_seconds_agree {digits : String} (nonempty : digits ≠ "")
    (decimal : ∀ digit ∈ digits.toList, digit.isDigit = true) :
    let count := Nat.ofDigitChars 10 digits.toList 0
    let timeout := if 1 ≤ count ∧ count < 2 ^ 64 then some (ofSeconds count) else none
    timeout? digits = timeout ∧ timeout? ("+" ++ digits) = timeout ∧
      timeout? (digits ++ "s") = timeout ∧
        ∀ text sum seconds, ofText? text = some sum → ofWholeSeconds? text = some seconds →
          sum = seconds := by
  intro count timeout
  have filled : digits.toList ≠ [] := mt String.toList_eq_nil_iff.mp nonempty
  refine ⟨?_, ?_, ?_, fun text sum seconds => eq_of_both_forms⟩
  · exact timeout?_of_signed (.inl rfl) filled decimal
  · exact timeout?_of_signed (.inr String.toList_append) filled decimal
  · exact timeout?_of_unit String.toList_append filled decimal

theorem whole_seconds_agree_at_largest :
    (timeout? "018446744073709551615" = some (ofSeconds 18446744073709551615) ∧
      timeout? ("+" ++ "018446744073709551615") = some (ofSeconds 18446744073709551615) ∧
      timeout? ("018446744073709551615" ++ "s") = some (ofSeconds 18446744073709551615)) ∧
    timeout? "18446744073709551616" = none ∧
      timeout? ("+" ++ "18446744073709551616") = none ∧
      timeout? ("18446744073709551616" ++ "s") = none := by
  have largest : Nat.ofDigitChars 10 "018446744073709551615".toList 0 = 18446744073709551615 := by
    decide +kernel
  have tooLarge : Nat.ofDigitChars 10 "18446744073709551616".toList 0 = 18446744073709551616 := by
    decide +kernel
  have within := @whole_seconds_agree "018446744073709551615" (by decide)
    (List.all_eq_true.mp (by decide +kernel))
  have beyond := @whole_seconds_agree "18446744073709551616" (by decide)
    (List.all_eq_true.mp (by decide +kernel))
  simp only [largest] at within
  simp only [tooLarge] at beyond
  exact ⟨⟨within.1, within.2.1, within.2.2.1⟩, beyond.1, beyond.2.1, beyond.2.2.1⟩

end WorkoutBoard.Config.Duration
