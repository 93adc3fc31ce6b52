import WorkoutBoard.Calendar.Bytewise
import WorkoutBoard.Proofs.Calendar.Reading
import WorkoutBoard.Proofs.Text.Utf8

/-!
# Numbers read from bytes

A byte is compared with the character of its value. Up to six bytes are read as the number that
their characters denote, and it fits in a word at every step (`number_eq`); so are the bytes between
two positions (`numberAt_append`).
-/

namespace WorkoutBoard.Calendar.Bytewise

open Machine
open Text.Decimal (natural?)
open Timestamp (weekday? year?)

def charOf (byte : UInt8) : Char := Char.ofNat byte.toNat

def charsOf (bytes : List UInt8) : List Char := bytes.map charOf

@[simp] theorem charsOf_nil : charsOf [] = [] := rfl

@[simp] theorem charsOf_cons (byte : UInt8) (rest : List UInt8) :
    charsOf (byte :: rest) = charOf byte :: charsOf rest := rfl

theorem toNat_charOf (byte : UInt8) : (charOf byte).toNat = byte.toNat :=
  Text.Utf8.toNat_ofNat byte.toNat (.inl (Nat.lt_trans byte.toNat_lt (by decide)))

theorem charOf_injective : Function.Injective charOf := by
  intro left right same
  have values := congrArg Char.toNat same
  rw [toNat_charOf, toNat_charOf] at values
  exact UInt8.toNat_inj.mp values

theorem isDigit_charOf (byte : UInt8) : (charOf byte).isDigit = isDigit byte := by
  have value : (charOf byte).val.toNat = byte.toNat := toNat_charOf byte
  rw [Bool.eq_iff_iff]
  simp [Char.isDigit, isDigit, UInt32.le_iff_toNat_le, UInt8.le_iff_toNat_le, value]

theorem le_of_isDigit {byte : UInt8} (digit : isDigit byte = true) :
    48 ≤ byte.toNat ∧ byte.toNat ≤ 57 := by
  simpa [isDigit, UInt8.le_iff_toNat_le] using digit

theorem digit?_charOf {byte : UInt8} (digit : isDigit byte = true) :
    Text.Decimal.digit? (charOf byte) = some (byte.toNat - 48) := by
  rw [Text.Decimal.digit?, isDigit_charOf, if_pos digit, toNat_charOf]
  rfl

/-! ## Numbers -/

theorem appendDigit_of_lt {value : Nat} (small : value < 10 ^ 8) {byte : UInt8}
    (digit : isDigit byte = true) :
    appendDigit value byte = .value (value * 10 + (byte.toNat - 48)) := by
  have range := le_of_isDigit digit
  have tens : word (value * 10) = .value (value * 10) := if_pos (by omega)
  have ones : minus byte.toNat 0x30 = .value (byte.toNat - 48) := if_pos range.1
  have sum : word (value * 10 + (byte.toNat - 48)) = .value (value * 10 + (byte.toNat - 48)) :=
    if_pos (by omega)
  rw [appendDigit, tens, Course.value_bind, ones, Course.value_bind, sum]

theorem foldlM_appendDigit {bytes : List UInt8} (digits : ∀ byte ∈ bytes, isDigit byte = true)
    {value limit : Nat} (small : value < 10 ^ limit) (few : limit + bytes.length ≤ 8) :
    bytes.foldlM appendDigit value =
      .ofOption (Text.Decimal.extend? value (charsOf bytes)) := by
  induction bytes generalizing value limit with
  | nil => rfl
  | cons byte rest inductive_step =>
      obtain ⟨digit, restDigits⟩ := List.forall_mem_cons.mp digits
      have range := le_of_isDigit digit
      have bound : 10 ^ limit ≤ 10 ^ 8 := Nat.pow_le_pow_right (by decide) (by omega)
      have next : value * 10 + (byte.toNat - 48) < 10 ^ (limit + 1) := by
        rw [Nat.pow_succ]
        omega
      rw [List.foldlM_cons, appendDigit_of_lt (by omega) digit, Course.value_bind, charsOf_cons,
        Text.Decimal.extend?, digit?_charOf digit]
      rw [List.length_cons] at few
      exact inductive_step restDigits next (by omega)

theorem all_isDigit_charsOf (bytes : List UInt8) :
    (charsOf bytes).all Char.isDigit = bytes.all isDigit := by
  rw [charsOf, List.all_map]
  exact congrArg bytes.all (funext isDigit_charOf)

theorem natural?_eq_none {text : List Char} (malformed : text.isEmpty = true ∨
    text.all Char.isDigit = false) : natural? text = none := by
  cases text with
  | nil => rfl
  | cons first rest =>
      cases read : natural? (first :: rest) with
      | none => rfl
      | some value =>
          have written := ((Text.Decimal.natural?_eq_some_iff (Nat.succ_pos _) rfl value).mp read).2
          have digits : (first :: rest).all Char.isDigit = true := List.all_eq_true.mpr
            fun digit member => Text.Decimal.isDigit_of_mem_digits (written ▸ member)
          rcases malformed with empty | other
          · cases empty
          · rw [digits] at other
            cases other

theorem number_eq {bytes : List UInt8} (few : bytes.length ≤ 6) :
    number bytes = .ofOption (natural? (charsOf bytes)) := by
  rw [number]
  split
  next malformed =>
    have notNumber : natural? (charsOf bytes) = none := by
      refine natural?_eq_none ?_
      rw [all_isDigit_charsOf, charsOf, List.isEmpty_map]
      simpa using malformed
    rw [notNumber]
    rfl
  next wellFormed =>
    simp only [Bool.or_eq_true, List.isEmpty_iff, Bool.not_eq_true', not_or, Bool.not_eq_false,
      List.all_eq_true] at wellFormed
    obtain ⟨nonempty, digits⟩ := wellFormed
    have written : charsOf bytes ≠ [] := by simpa [charsOf] using nonempty
    rw [if_neg (by omega), Text.Decimal.natural?_of_ne_nil written]
    exact foldlM_appendDigit digits (by decide : 0 < 10 ^ 1) (by omega)

/-! ## Positions -/

theorem byteAt_append (front rest : List UInt8) (byte : UInt8) :
    byteAt (front ++ byte :: rest) front.length = .value byte := by
  rw [byteAt, List.getElem?_append_right (Nat.le_refl _), Nat.sub_self, List.getElem?_cons_zero]

theorem slice?_append (front middle rest : List UInt8) :
    slice? (front ++ (middle ++ rest)) front.length (front.length + middle.length) =
      some middle := by
  have inside : front.length ≤ front.length + middle.length ∧
      front.length + middle.length ≤ (front ++ (middle ++ rest)).length := by
    simp only [List.length_append]
    omega
  rw [slice?, if_pos inside, ← List.append_assoc, ← List.length_append, List.take_left,
    List.drop_left]

theorem slice?_eq_none {bytes : List UInt8} {stop : Nat} (short : bytes.length < stop)
    (start : Nat) : slice? bytes start stop = none := by
  rw [slice?, if_neg]
  omega

theorem numberAt_append (front middle rest : List UInt8) (few : middle.length ≤ 6) :
    numberAt (front ++ (middle ++ rest)) front.length (front.length + middle.length) =
      .ofOption (natural? (charsOf middle)) := by
  rw [numberAt, slice?_append, Course.ofOption_some, Course.value_bind, number_eq few]

theorem numberAt_of_lt {bytes : List UInt8} {stop : Nat} (short : bytes.length < stop)
    (start : Nat) : numberAt bytes start stop = .refused := by
  rw [numberAt, slice?_eq_none short]
  rfl

theorem numberAt_two (front rest : List UInt8) (tens ones : UInt8) :
    numberAt (front ++ tens :: ones :: rest) front.length (front.length + 2) =
      .ofOption (Clock.twoDigits? (charOf tens) (charOf ones)) :=
  numberAt_append front [tens, ones] rest (Nat.le_of_lt_succ (by decide : 2 < 7))

theorem numberAt_one (front rest : List UInt8) (digit : UInt8) :
    numberAt (front ++ digit :: rest) front.length (front.length + 1) =
      .ofOption (weekday? (charOf digit)) :=
  numberAt_append front [digit] rest (Nat.le_of_lt_succ (by decide : 1 < 7))

theorem numberAt_four (y1 y2 y3 y4 : UInt8) (rest : List UInt8) :
    numberAt (y1 :: y2 :: y3 :: y4 :: rest) 0 4 =
      .ofOption (year? (charOf y1) (charOf y2) (charOf y3) (charOf y4)) :=
  numberAt_append [] [y1, y2, y3, y4] rest (Nat.le_of_lt_succ (by decide : 4 < 7))

end WorkoutBoard.Calendar.Bytewise
