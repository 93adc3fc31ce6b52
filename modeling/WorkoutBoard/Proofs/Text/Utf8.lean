import WorkoutBoard.Text.Utf8

/-!
# UTF-8 is read back

The bytes of a character tell it apart from whatever follows them (`decodeChar?_encodeChar`), so
that `decode` undoes `encode` and different texts have different bytes. No other bytes are read as
that character (`encodeChar_of_decodeChar?`).
-/

namespace WorkoutBoard.Text.Utf8

theorem toNat_toUInt8_of_lt {value : Nat} (small : value < 256) : value.toUInt8.toNat = value :=
  Nat.mod_eq_of_lt small

theorem toUInt8_of_toNat_eq {value : Nat} (byte : UInt8) (same : byte.toNat = value) :
    value.toUInt8 = byte := by
  rw [← same]
  exact UInt8.ofNat_toNat

theorem toNat_continuation (value : Nat) : (continuation value).toNat = 0x80 + value % 0x40 :=
  toNat_toUInt8_of_lt (by omega)

theorem continuationBits?_continuation (value : Nat) :
    continuationBits? (continuation value) = some (value % 0x40) := by
  rw [continuationBits?, toNat_continuation, if_pos (by omega), Nat.add_sub_cancel_left]

theorem of_continuationBits? {byte : UInt8} {bits : Nat}
    (carried : continuationBits? byte = some bits) : bits < 0x40 ∧ byte.toNat = 0x80 + bits := by
  rw [continuationBits?] at carried
  split at carried
  next range =>
    obtain rfl := Option.some.inj carried
    omega
  next => cases carried

theorem continuation_eq {value bits : Nat} {byte : UInt8} (same : byte.toNat = 0x80 + bits)
    (lowest : value % 0x40 = bits) : continuation value = byte :=
  toUInt8_of_toNat_eq byte (by omega)

theorem toNat_ofNat (value : Nat)
    (valid : value < 0xD800 ∨ 0xDFFF < value ∧ value < 0x110000) :
    (Char.ofNat value).toNat = value := by
  rw [Char.ofNat, dif_pos valid]
  rfl

theorem encodeChar_of_lt {character : Char} (small : character.toNat < 0x80) :
    encodeChar character = [character.toNat.toUInt8] := by
  rw [encodeChar, if_pos small]

theorem decodeChar?_encodeChar (character : Char) :
    ∃ first following, encodeChar character = first :: following ∧
      ∀ rest, decodeChar? first (following ++ rest) = some (character, following.length) := by
  have valid : character.toNat < 0xD800 ∨
      0xDFFF < character.toNat ∧ character.toNat < 0x110000 := character.valid
  have restored := Char.ofNat_toNat character
  unfold encodeChar
  generalize character.toNat = value at valid restored ⊢
  subst restored
  dsimp only
  -- One case for each number of bytes; in each of them the bits add up to the value.
  split
  next one =>
    refine ⟨_, _, rfl, fun rest => ?_⟩
    have lead : value.toUInt8.toNat = value := toNat_toUInt8_of_lt (by omega)
    simp [decodeChar?, lead, one]
  next notOne =>
    split
    next two =>
      refine ⟨_, _, rfl, fun rest => ?_⟩
      have lead : (0xC0 + value / 0x40).toUInt8.toNat = 0xC0 + value / 0x40 :=
        toNat_toUInt8_of_lt (by omega)
      have parts : (0xC0 + value / 0x40 - 0xC0) * 0x40 + value % 0x40 = value := by omega
      simp only [decodeChar?, lead, List.cons_append]
      rw [if_neg (by omega), if_neg (by omega), if_pos (by omega)]
      refine Option.bind_eq_some_iff.mpr ⟨_, continuationBits?_continuation _, ?_⟩
      rw [parts]
      rfl
    next notTwo =>
      split
      next three =>
        refine ⟨_, _, rfl, fun rest => ?_⟩
        have lead : (0xE0 + value / 0x1000).toUInt8.toNat = 0xE0 + value / 0x1000 :=
          toNat_toUInt8_of_lt (by omega)
        have parts : (0xE0 + value / 0x1000 - 0xE0) * 0x1000 + value / 0x40 % 0x40 * 0x40 +
            value % 0x40 = value := by omega
        simp only [decodeChar?, lead, List.cons_append]
        rw [if_neg (by omega), if_neg (by omega), if_neg (by omega), if_pos (by omega)]
        refine Option.bind_eq_some_iff.mpr ⟨_, continuationBits?_continuation _, ?_⟩
        refine Option.bind_eq_some_iff.mpr ⟨_, continuationBits?_continuation _, ?_⟩
        rw [parts, if_pos (by omega)]
        rfl
      next four =>
        refine ⟨_, _, rfl, fun rest => ?_⟩
        have lead : (0xF0 + value / 0x40000).toUInt8.toNat = 0xF0 + value / 0x40000 :=
          toNat_toUInt8_of_lt (by omega)
        have parts : (0xF0 + value / 0x40000 - 0xF0) * 0x40000 +
            value / 0x1000 % 0x40 * 0x1000 + value / 0x40 % 0x40 * 0x40 +
            value % 0x40 = value := by omega
        simp only [decodeChar?, lead, List.cons_append]
        rw [if_neg (by omega), if_neg (by omega), if_neg (by omega), if_neg (by omega),
          if_pos (by omega)]
        refine Option.bind_eq_some_iff.mpr ⟨_, continuationBits?_continuation _, ?_⟩
        refine Option.bind_eq_some_iff.mpr ⟨_, continuationBits?_continuation _, ?_⟩
        refine Option.bind_eq_some_iff.mpr ⟨_, continuationBits?_continuation _, ?_⟩
        rw [parts, if_pos (by omega)]
        rfl

theorem encodeChar_of_decodeChar? {first : UInt8} {following : List UInt8} {character : Char}
    {width : Nat} (read : decodeChar? first following = some (character, width)) :
    width ≤ following.length ∧ encodeChar character = first :: following.take width := by
  unfold decodeChar? at read
  dsimp only at read
  -- The cases of the reader; in each of them the value lies where the writer takes as many bytes.
  split at read
  next one =>
    obtain ⟨rfl, rfl⟩ := Prod.mk.inj (Option.some.inj read)
    have number := toNat_ofNat first.toNat (by omega)
    refine ⟨Nat.zero_le _, ?_⟩
    rw [encodeChar_of_lt (by omega), number, toUInt8_of_toNat_eq first rfl, List.take_zero]
  split at read
  next => cases read
  split at read
  next two =>
    split at read
    next second rest =>
      obtain ⟨low, lowRead, same⟩ := Option.bind_eq_some_iff.mp read
      obtain ⟨rfl, rfl⟩ := Prod.mk.inj (Option.some.inj same)
      obtain ⟨lowRange, lowByte⟩ := of_continuationBits? lowRead
      have number := toNat_ofNat ((first.toNat - 0xC0) * 0x40 + low) (by omega)
      refine ⟨Nat.le_add_left 1 _, ?_⟩
      rw [encodeChar, number]
      rw [if_neg (by omega), if_pos (by omega), toUInt8_of_toNat_eq first (by omega),
        continuation_eq lowByte (by omega)]
      rfl
    next => cases read
  split at read
  next three =>
    split at read
    next second third rest =>
      obtain ⟨middle, middleRead, later⟩ := Option.bind_eq_some_iff.mp read
      obtain ⟨low, lowRead, same⟩ := Option.bind_eq_some_iff.mp later
      obtain ⟨middleRange, middleByte⟩ := of_continuationBits? middleRead
      obtain ⟨lowRange, lowByte⟩ := of_continuationBits? lowRead
      split at same
      next range =>
        obtain ⟨rfl, rfl⟩ := Prod.mk.inj (Option.some.inj same)
        have number := toNat_ofNat
          ((first.toNat - 0xE0) * 0x1000 + middle * 0x40 + low) (by omega)
        refine ⟨Nat.le_add_left 2 _, ?_⟩
        rw [encodeChar, number]
        rw [if_neg (by omega), if_neg (by omega), if_pos (by omega),
          toUInt8_of_toNat_eq first (by omega), continuation_eq middleByte (by omega),
          continuation_eq lowByte (by omega)]
        rfl
      next => cases same
    next => cases read
  split at read
  next four =>
    split at read
    next second third fourth rest =>
      obtain ⟨high, highRead, later⟩ := Option.bind_eq_some_iff.mp read
      obtain ⟨middle, middleRead, later⟩ := Option.bind_eq_some_iff.mp later
      obtain ⟨low, lowRead, same⟩ := Option.bind_eq_some_iff.mp later
      obtain ⟨highRange, highByte⟩ := of_continuationBits? highRead
      obtain ⟨middleRange, middleByte⟩ := of_continuationBits? middleRead
      obtain ⟨lowRange, lowByte⟩ := of_continuationBits? lowRead
      split at same
      next range =>
        obtain ⟨rfl, rfl⟩ := Prod.mk.inj (Option.some.inj same)
        have number := toNat_ofNat
          ((first.toNat - 0xF0) * 0x40000 + high * 0x1000 + middle * 0x40 + low)
          (by omega)
        refine ⟨Nat.le_add_left 3 _, ?_⟩
        rw [encodeChar, number]
        rw [if_neg (by omega), if_neg (by omega), if_neg (by omega),
          toUInt8_of_toNat_eq first (by omega), continuation_eq highByte (by omega),
          continuation_eq middleByte (by omega), continuation_eq lowByte (by omega)]
        rfl
      next => cases same
    next => cases read
  next => cases read

/-- The first byte of a character is the character itself, or lies above ASCII. -/
theorem toNat_head_encodeChar {character : Char} {first : UInt8} {following : List UInt8}
    (bytes : encodeChar character = first :: following) :
    first.toNat = character.toNat ∨ 0x80 ≤ character.toNat ∧ 0xC0 ≤ first.toNat := by
  have valid : character.toNat < 0xD800 ∨
      0xDFFF < character.toNat ∧ character.toNat < 0x110000 := character.valid
  unfold encodeChar at bytes
  dsimp only at bytes
  split at bytes
  next one =>
    rw [← (List.cons.inj bytes).1]
    exact .inl (toNat_toUInt8_of_lt (by omega))
  next notOne =>
    refine .inr ⟨by omega, ?_⟩
    split at bytes
    next two =>
      rw [← (List.cons.inj bytes).1, toNat_toUInt8_of_lt (by omega)]
      omega
    next notTwo =>
      split at bytes
      next three =>
        rw [← (List.cons.inj bytes).1, toNat_toUInt8_of_lt (by omega)]
        omega
      next four =>
        rw [← (List.cons.inj bytes).1, toNat_toUInt8_of_lt (by omega)]
        omega

theorem encode_cons (character : Char) (rest : List Char) :
    encode (character :: rest) = encodeChar character ++ encode rest :=
  List.flatMap_cons

theorem encode_append (front back : List Char) :
    encode (front ++ back) = encode front ++ encode back :=
  List.flatMap_append

theorem decode_encodeChar_append (character : Char) (rest : List UInt8) :
    decode (encodeChar character ++ rest) = (decode rest).map (character :: ·) := by
  obtain ⟨first, following, bytes, read⟩ := decodeChar?_encodeChar character
  rw [bytes, List.cons_append, decode, read rest]
  dsimp only
  rw [List.drop_left]

theorem decode_encode (text : List Char) : decode (encode text) = some text := by
  induction text with
  | nil => simp [encode, decode]
  | cons character rest inductive_step =>
      rw [encode_cons, decode_encodeChar_append, inductive_step, Option.map_some]

@[simp] theorem text?_bytes (text : String) : text? (bytes text) = some text := by
  rw [text?, bytes, decode_encode, Option.map_some, String.ofList_toList]

theorem bytes_injective : Function.Injective bytes := by
  intro left right equal
  have texts := congrArg text? equal
  rw [text?_bytes, text?_bytes] at texts
  exact Option.some.inj texts

theorem bytes_eq_nil_iff (text : String) : bytes text = [] ↔ text = "" :=
  ⟨fun equal => bytes_injective equal, fun equal => by rw [equal]; rfl⟩

theorem eq_nil_of_text? {input : List UInt8} (read : text? input = some "") : input = [] := by
  obtain ⟨characters, decoded, empty⟩ := Option.map_eq_some_iff.mp read
  obtain rfl : characters = [] := String.ofList_eq_empty_iff.mp empty
  cases input with
  | nil => rfl
  | cons first following =>
      rw [decode] at decoded
      split at decoded
      next => cases decoded
      next =>
        obtain ⟨later, -, absurdity⟩ := Option.map_eq_some_iff.mp decoded
        cases absurdity

end WorkoutBoard.Text.Utf8
