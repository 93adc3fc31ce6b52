import WorkoutBoard.Proofs.Calendar.Bytewise.Offset

/-!
# The width of a date in bytes

The search for the end of a date looks at single bytes. All positions that it looks at are there, so
that a machine finds a width or refuses the text (`dateWidth_finds`); and a byte that it looks at is
the first of a character, or is not told from other bytes inside characters.
-/

namespace WorkoutBoard.Calendar.Bytewise

open Machine
open Text.Utf8 (encode encode_append encode_cons encodeChar)

/-! ## The first byte of a character -/

theorem charOf_first {character : Char} {first : UInt8} {following : List UInt8}
    (bytes : encodeChar character = first :: following) :
    charOf first = character ∨ 0x80 ≤ character.toNat ∧ 0x80 ≤ (charOf first).toNat := by
  rcases Text.Utf8.toNat_head_encodeChar bytes with same | ⟨beyond, large⟩
  · refine .inl ?_
    rw [charOf, same, Char.ofNat_toNat]
  · refine .inr ⟨beyond, ?_⟩
    rw [toNat_charOf]
    omega

theorem isDigit_of_beyond {character : Char} (beyond : 0x80 ≤ character.toNat) :
    character.isDigit = false := by
  refine Bool.eq_false_iff.mpr fun digit => ?_
  have small := toNat_lt_of_isDigit digit
  omega

theorem isDigit_first {character : Char} {first : UInt8} {following : List UInt8}
    (bytes : encodeChar character = first :: following) :
    isDigit first = character.isDigit := by
  rw [← isDigit_charOf]
  rcases charOf_first bytes with same | ⟨beyond, large⟩
  · rw [same]
  · rw [isDigit_of_beyond beyond, isDigit_of_beyond large]

theorem first_beq {character : Char} {first : UInt8} {following : List UInt8}
    (bytes : encodeChar character = first :: following) {mark : UInt8}
    (ascii : (charOf mark).toNat < 0x80) : (first == mark) = (character == charOf mark) := by
  rw [Bool.eq_iff_iff, beq_iff_eq, beq_iff_eq, ← charOf_injective.eq_iff]
  rcases charOf_first bytes with same | ⟨beyond, large⟩
  · rw [same]
  · constructor
    · intro isMark
      rw [isMark] at large
      omega
    · intro isMark
      rw [isMark] at beyond
      omega

theorem isDigit_following {character : Char} {first second : UInt8} {following : List UInt8}
    (bytes : encodeChar character = first :: second :: following) : isDigit second = false := by
  have high (value : Nat) : isDigit (Text.Utf8.continuation value) = false := by
    refine Bool.eq_false_iff.mpr fun digit => ?_
    have range := le_of_isDigit digit
    rw [Text.Utf8.toNat_continuation] at range
    omega
  unfold encodeChar at bytes
  dsimp only at bytes
  split at bytes
  next => cases (List.cons.inj bytes).2
  next =>
    split at bytes
    next => exact (List.cons.inj (List.cons.inj bytes).2).1 ▸ high _
    next =>
      split at bytes
      next => exact (List.cons.inj (List.cons.inj bytes).2).1 ▸ high _
      next => exact (List.cons.inj (List.cons.inj bytes).2).1 ▸ high _

theorem exists_second {character : Char} (beyond : 0x80 ≤ character.toNat) :
    ∃ first second following, encodeChar character = first :: second :: following := by
  unfold encodeChar
  dsimp only
  rw [if_neg (by omega)]
  split
  next => exact ⟨_, _, _, rfl⟩
  next =>
    split
    next => exact ⟨_, _, _, rfl⟩
    next => exact ⟨_, _, _, rfl⟩

/-! A week without hyphens. -/

theorem findIdx?_encode (text : List Char) :
    ((encode text).findIdx? fun byte => !isDigit byte).getD (encode text).length =
      (text.takeWhile Char.isDigit).length := by
  induction text with
  | nil => rfl
  | cons character rest inductive_step =>
      cases digit : character.isDigit with
      | true =>
          have bytes := Text.Utf8.encodeChar_of_lt (toNat_lt_of_isDigit digit)
          have isDigit := (isDigit_first bytes).trans digit
          rw [encode_cons, bytes, List.singleton_append, List.findIdx?_cons, isDigit,
            List.takeWhile_cons_of_pos digit, List.length_cons, List.length_cons,
            ← inductive_step]
          cases (encode rest).findIdx? fun byte => !Bytewise.isDigit byte <;> rfl
      | false =>
          obtain ⟨first, following, bytes, -⟩ := Text.Utf8.decodeChar?_encodeChar character
          have notDigit := (isDigit_first bytes).trans digit
          rw [encode_cons, bytes, List.cons_append, List.findIdx?_cons, notDigit,
            List.takeWhile_cons_of_neg (by simp [digit])]
          rfl

theorem basicWeekWidth_eq {front : List UInt8} (seven : front.length = 7) (rest : List Char) :
    basicWeekWidth (front ++ encode rest) = .value (Timestamp.basicWeekWidth rest) := by
  have after : bytesFrom (front ++ encode rest) 7 = .value (encode rest) :=
    seven ▸ bytesFrom_append front (encode rest)
  have digitsEnd : (((encode rest).findIdx? fun byte => !isDigit byte).map (· + 7)).getD
      (front ++ encode rest).length = 7 + (rest.takeWhile Char.isDigit).length := by
    rw [← findIdx?_encode, List.length_append, seven]
    cases (encode rest).findIdx? fun byte => !isDigit byte with
    | none => rfl
    | some index => exact Nat.add_comm index 7
  rw [basicWeekWidth, after, Course.value_bind, Timestamp.basicWeekWidth]
  dsimp only
  rw [digitsEnd]
  generalize (rest.takeWhile Char.isDigit).length = run
  by_cases few : run < 2
  · rw [if_pos (by omega), if_pos few]
    rfl
  · rw [if_neg (by omega), if_neg few]
    by_cases odd : run % 2 = 1
    · rw [if_pos (by omega), if_pos odd]
      rfl
    · rw [if_neg (by omega), if_neg odd]
      rfl

/-! A year and a hyphen. -/

theorem passesAt_append (front rest : List UInt8) (test : UInt8 → Bool) :
    passesAt (front ++ rest) front.length test = .value (rest.head?.any test) := by
  cases rest with
  | nil => exact if_neg (by simp)
  | cons byte rest =>
      rw [passesAt, if_pos (by simp), byteAt_append]
      rfl

theorem extendedWidth_append {front : List UInt8} (eight : front.length = 8)
    (week : front[5]? = some weekMark) (later : List UInt8) :
    extendedWidth (front ++ later) =
      if later.head?.any (· == hyphen) then
        if later.length = 1 then .refused
        else if (later.drop 2).head?.any isDigit then .value 8 else .value 10
      else .value 8 := by
  have mark : byteAt (front ++ later) 5 = .value weekMark := by
    rw [byteAt, List.getElem?_append_left (by omega), week]
  have next : passesAt (front ++ later) 8 (· == hyphen) =
      .value (later.head?.any (· == hyphen)) := eight ▸ passesAt_append front later _
  rw [extendedWidth, mark, Course.value_bind, if_neg (by simp), next, Course.value_bind]
  rcases later with _ | ⟨first, _ | ⟨second, last⟩⟩
  · rfl
  · simp [eight]
  · have digit : passesAt (front ++ first :: second :: last) 10 isDigit =
        .value (last.head?.any isDigit) := by
      have place : (front ++ [first, second]).length = 10 := by simp [eight]
      have found := passesAt_append (front ++ [first, second]) last isDigit
      rwa [place, List.append_assoc] at found
    have longer : 8 + (last.length + 1 + 1) ≠ 9 := by omega
    rw [digit]
    simp [eight, longer]

/-! ## No position is missed -/

/-- A machine that finds a width or refuses has not been trapped. -/
def FindsAtLeast (least : Nat) (course : Course Nat) : Prop :=
  course = .refused ∨ ∃ width, least ≤ width ∧ course = .value width

theorem exists_byteAt {bytes : List UInt8} {position : Nat} (inside : position < bytes.length) :
    ∃ byte, byteAt bytes position = .value byte := by
  refine ⟨bytes[position], ?_⟩
  rw [byteAt, List.getElem?_eq_getElem inside]

theorem exists_passesAt (bytes : List UInt8) (position : Nat) (test : UInt8 → Bool) :
    ∃ passes, passesAt bytes position test = .value passes := by
  rw [passesAt]
  split
  next inside =>
    obtain ⟨byte, found⟩ := exists_byteAt inside
    exact ⟨test byte, by rw [found]; rfl⟩
  next => exact ⟨false, rfl⟩

theorem extendedWidth_finds {bytes : List UInt8} (long : 7 < bytes.length) :
    FindsAtLeast 8 (extendedWidth bytes) := by
  obtain ⟨mark, found⟩ := exists_byteAt (by omega : 5 < bytes.length)
  obtain ⟨separated, second⟩ := exists_passesAt bytes 8 (· == hyphen)
  obtain ⟨digit, third⟩ := exists_passesAt bytes 10 isDigit
  rw [extendedWidth, found, Course.value_bind, second, Course.value_bind, third, Course.value_bind]
  split
  next => exact .inr ⟨10, by decide, rfl⟩
  next =>
    split
    next =>
      split
      next => exact .inl rfl
      next =>
        cases digit with
        | true => exact .inr ⟨8, by decide, rfl⟩
        | false => exact .inr ⟨10, by decide, rfl⟩
    next => exact .inr ⟨8, by decide, rfl⟩

theorem basicWeekWidth_finds {bytes : List UInt8} (long : 7 < bytes.length) :
    FindsAtLeast 7 (basicWeekWidth bytes) := by
  have after : bytesFrom bytes 7 = .value (bytes.drop 7) := if_pos (by omega)
  rw [basicWeekWidth, after, Course.value_bind]
  dsimp only
  split
  next =>
    refine .inr ⟨_, ?_, rfl⟩
    cases (bytes.drop 7).findIdx? fun byte => !isDigit byte with
    | none => exact Nat.le_of_lt long
    | some index => exact Nat.le_add_left 7 index
  next =>
    split
    next => exact .inr ⟨7, by decide, rfl⟩
    next => exact .inr ⟨8, by decide, rfl⟩

theorem dateWidth_finds (bytes : List UInt8) : FindsAtLeast 7 (dateWidth bytes) := by
  rw [dateWidth]
  split
  next => exact .inl rfl
  next =>
    split
    next => exact .inr ⟨7, by decide, rfl⟩
    next =>
      obtain ⟨mark, found⟩ := exists_byteAt (by omega : 4 < bytes.length)
      rw [found, Course.value_bind, Course.value_bind]
      split
      next =>
        have long : 7 < bytes.length := by omega
        rcases extendedWidth_finds long with refused | ⟨width, least, value⟩
        · exact .inl refused
        · exact .inr ⟨width, by omega, value⟩
      next =>
        split
        next => exact basicWeekWidth_finds (by omega)
        next => exact .inr ⟨8, by decide, rfl⟩

/-! ## ASCII characters at the front -/

def byteOf (character : Char) : UInt8 := character.toNat.toUInt8

theorem encode_of_isAscii {text : List Char} (ascii : IsAscii text) :
    encode text = text.map byteOf := by
  induction text with
  | nil => rfl
  | cons character rest inductive_step =>
      obtain ⟨first, later⟩ := List.forall_mem_cons.mp ascii
      rw [encode_cons, Text.Utf8.encodeChar_of_lt first, inductive_step later]
      rfl

theorem byteOf_beq {character : Char} (ascii : character.toNat < 0x80) {mark : UInt8}
    (markAscii : (charOf mark).toNat < 0x80) :
    (byteOf character == mark) = (character == charOf mark) :=
  first_beq (Text.Utf8.encodeChar_of_lt ascii) markAscii

theorem dateWidth_append {front later : List UInt8} (seven : front.length = 7) {mark : UInt8}
    (found : front[4]? = some mark) (nonempty : later ≠ []) :
    dateWidth (front ++ later) =
      if mark == hyphen then extendedWidth (front ++ later)
      else if mark == weekMark then basicWeekWidth (front ++ later)
      else .value 8 := by
  have long : 0 < later.length := List.length_pos_iff.mpr nonempty
  have length : (front ++ later).length = 7 + later.length := by
    rw [List.length_append, seven]
  have fourth : byteAt (front ++ later) 4 = .value mark := by
    rw [byteAt, List.getElem?_append_left (by omega), found]
  rw [dateWidth, if_neg (by omega), if_neg (by omega), fourth]
  rfl

theorem encode_ne_nil (character : Char) (rest : List Char) :
    encode (character :: rest) ≠ [] := by
  obtain ⟨first, following, bytes, -⟩ := Text.Utf8.decodeChar?_encodeChar character
  rw [encode_cons, bytes]
  exact List.cons_ne_nil _ _

theorem extendedWidth_of_ne {bytes : List UInt8} {mark : UInt8} (found : bytes[5]? = some mark)
    (other : (mark == weekMark) = false) : extendedWidth bytes = .value 10 := by
  have fifth : byteAt bytes 5 = .value mark := by
    rw [byteAt, found]
  have differs : (mark != weekMark) = true := by
    rw [bne, other]
    rfl
  rw [extendedWidth, fifth, Course.value_bind, if_pos differs]
  rfl

theorem head?_encode_any (text : List Char) {test : UInt8 → Bool} {charTest : Char → Bool}
    (same : ∀ character first following, encodeChar character = first :: following →
      test first = charTest character) :
    (encode text).head?.any test = text.head?.any charTest := by
  cases text with
  | nil => rfl
  | cons character rest =>
      obtain ⟨first, following, bytes, -⟩ := Text.Utf8.decodeChar?_encodeChar character
      rw [encode_cons, bytes]
      exact same character first following bytes

theorem encode_front {front : List Char} (ascii : IsAscii front) (rest : List Char) :
    encode (front ++ rest) = front.map byteOf ++ encode rest := by
  rw [encode_append, encode_of_isAscii ascii]

end WorkoutBoard.Calendar.Bytewise
