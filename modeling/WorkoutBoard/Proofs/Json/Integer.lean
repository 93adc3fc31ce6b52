import WorkoutBoard.Proofs.Json.Numeral
import WorkoutBoard.Proofs.Text.Decimal
import WorkoutBoard.Proofs.Text.Utf8

/-!
# Whole numbers in decimal

The decimal text of a whole number is a numeral, which denotes this number if it has 64 bits
(`numberAt_ofInt`).
-/

namespace WorkoutBoard.Json

open Text.Decimal (digit? extend?)
open Text.Utf8 (encode encodeChar encode_cons)

theorem digitValue?_digitChar : ∀ digit, digit < 10 →
    encodeChar digit.digitChar = [(0x30 + digit).toUInt8] ∧
      digitValue? (0x30 + digit).toUInt8 = some digit := by
  decide

theorem exists_digits {characters : List Char} {start value : Nat}
    (read : extend? start characters = some value) :
    ∃ digits,
      List.Forall₂ (fun character digit => digit? character = some digit) characters digits ∧
      SpellsDigits (encode characters) digits ∧
      ∀ high, value ≤ high → Numeral.accumulate high start digits = (value, []) := by
  induction characters generalizing start with
  | nil =>
      obtain rfl := Option.some.inj read
      exact ⟨[], .nil, .nil, fun _ _ => rfl⟩
  | cons character rest inductive_step =>
      obtain ⟨digit, isDigit, further⟩ := Option.bind_eq_some_iff.mp read
      obtain ⟨digits, areDigits, spells, total⟩ := inductive_step further
      obtain ⟨small, rfl⟩ := Text.Decimal.eq_digitChar_of_digit? isDigit
      obtain ⟨byte, spelled⟩ := digitValue?_digitChar digit small
      refine ⟨digit :: digits, .cons isDigit areDigits, ?_, fun high bounded => ?_⟩
      · rw [encode_cons, byte]
        exact .cons spelled spells
      · have step := Nat.le_trans (Text.Decimal.le_of_extend? further) bounded
        rw [Numeral.accumulate, if_pos step, total high bounded]

theorem head?_toDigits {value : Nat} (positive : 0 < value) :
    (Nat.toDigits 10 value).head? ≠ some '0' := by
  induction value using Nat.strongRecOn with
  | _ value inductive_step =>
      rw [Nat.toDigits_eq_if (by decide)]
      split
      next small =>
        intro zero
        have differs : ∀ digit, digit < 10 → digit.digitChar = '0' → digit = 0 := by decide
        exact Nat.ne_of_gt positive (differs value small (Option.some.inj zero))
      next large =>
        have shorter := inductive_step (value / 10) (by omega) (by omega)
        rw [List.head?_append_of_ne_nil _ Nat.toDigits_ne_nil]
        exact shorter

theorem exists_whole (value : Nat) :
    ∃ digits, SpellsWhole (encode (Nat.toDigits 10 value)) digits ∧
      ∀ high, value ≤ high → Numeral.accumulate high 0 digits = (value, []) := by
  obtain ⟨digits, areDigits, spells, total⟩ := exists_digits (Text.Decimal.extend?_toDigits value)
  refine ⟨digits, ⟨spells, ?_, fun zero => ?_⟩, total⟩
  · rintro rfl
    exact Nat.toDigits_ne_nil (List.forall₂_nil_right_iff.mp areDigits)
  · rcases Nat.eq_zero_or_pos value with rfl | positive
    · rw [show Nat.toDigits 10 0 = ['0'] from rfl] at areDigits
      cases areDigits with
      | cons _ none =>
          cases none
          rw [Option.some.inj zero]
    · have first := head?_toDigits positive
      generalize Nat.toDigits 10 value = characters at areDigits first
      cases areDigits with
      | nil => cases zero
      | cons isDigit _ =>
          obtain rfl := Option.some.inj zero
          exact absurd (congrArg some (Text.Decimal.eq_digitChar_of_digit? isDigit).2) first

/-- A numeral without fraction and exponent denotes a whole number, if its digits are one. The cases
are split by hand, because the scaling of other numerals must stay closed. -/
theorem Numeral.number_of_whole {negative : Bool} {digits : List Nat} {significand : Nat}
    {value : Int} (total : accumulate largestSignificand 0 digits = (significand, []))
    (whole : integer? negative significand = some value) :
    (Numeral.mk negative digits [] none).number = .ok (.integer value) := by
  unfold number
  split
  next _ _ same =>
    obtain ⟨rfl, rfl⟩ := Prod.mk.inj (total.symm.trans same)
    split
    next _ _ sameToo =>
      obtain ⟨rfl, rfl⟩ := Prod.mk.inj sameToo
      extract_lets point real
      split
      next absurdity => cases absurdity
      next => rw [if_pos ⟨rfl, rfl⟩, whole]

def decimalBytes (value : Int) : List UInt8 := Text.Utf8.bytes (Text.Decimal.ofInt value)

theorem le_largestSignificand {value : Nat} (bounded : value ≤ 2 ^ 63) :
    value ≤ Numeral.largestSignificand := by
  rw [Numeral.largestSignificand]
  omega

theorem exists_numeral {value : Int} (lower : -2 ^ 63 ≤ value) (upper : value < 2 ^ 63) :
    ∃ numeral, SpellsNumeral (decimalBytes value) numeral ∧
      numeral.number = .ok (.integer value) := by
  cases value with
  | ofNat magnitude =>
      have bounded : (magnitude : Int) < 2 ^ 63 := upper
      obtain ⟨digits, isWhole, total⟩ := exists_whole magnitude
      refine ⟨⟨false, digits, [], none⟩, ⟨[], _, [], [], ?_, .absent, isWhole, .absent, .absent⟩,
        Numeral.number_of_whole (total _ (le_largestSignificand (by omega))) rfl⟩
      rw [decimalBytes, Text.Decimal.ofInt, Text.Decimal.ofNat, Text.Utf8.bytes,
        String.toList_ofList, List.append_nil, List.append_nil, List.nil_append]
  | negSucc before =>
      have bounded : before + 1 ≤ 2 ^ 63 := by omega
      have whole : Numeral.integer? true (before + 1) = some (.negSucc before) := by
        rw [Numeral.integer?, if_pos rfl, if_pos ⟨Nat.succ_pos before, bounded⟩]
        rfl
      obtain ⟨digits, isWhole, total⟩ := exists_whole (before + 1)
      refine ⟨⟨true, digits, [], none⟩, ⟨[0x2D], _, [], [], ?_, .minus, isWhole, .absent, .absent⟩,
        Numeral.number_of_whole (total _ (le_largestSignificand bounded)) whole⟩
      rw [decimalBytes, Text.Decimal.ofInt, Text.Decimal.ofNat, Text.Utf8.bytes,
        String.toList_append, String.toList_ofList, String.toList_ofList, List.append_nil,
        List.append_nil]
      rfl

theorem numberAt_decimalBytes {value : Int} (lower : -2 ^ 63 ≤ value) (upper : value < 2 ^ 63)
    {rest : List UInt8} (ends : EndsNumeral rest) :
    numberAt (decimalBytes value ++ rest) = .ok (.integer value, rest) := by
  obtain ⟨numeral, spells, denotes⟩ := exists_numeral lower upper
  rw [numberAt, spells.read ends]
  dsimp only
  rw [denotes]

end WorkoutBoard.Json
