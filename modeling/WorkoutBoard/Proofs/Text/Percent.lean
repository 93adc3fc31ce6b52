import WorkoutBoard.Proofs.Text.Utf8
import WorkoutBoard.Text.Percent

/-!
# Percent escapes are read back

`decode` undoes `encode`, and an escaped text holds none of the characters that end a segment, a
path or a query.
-/

namespace WorkoutBoard.Text.Percent

theorem decodeBytes_cons_of_ne {byte : UInt8} (plain : byte ≠ 0x25) (rest : List UInt8) :
    decodeBytes (byte :: rest) = byte :: decodeBytes rest := by
  match rest with
  | [] => rfl
  | [next] => rfl
  | high :: low :: later => rw [decodeBytes, if_neg plain]

theorem decodeBytes_escape {high low value : UInt8} (found : escaped? high low = some value)
    (rest : List UInt8) :
    decodeBytes (0x25 :: high :: low :: rest) = value :: decodeBytes rest := by
  rw [decodeBytes, if_pos rfl, found]

theorem hexDigit_lt : ∀ value < 16, (hexDigit value).toNat < 0x80 := by decide

theorem hexValue?_hexDigit :
    ∀ value < 16, hexValue? (hexDigit value).toNat.toUInt8 = some value := by
  decide

theorem lt_and_ne_of_isUnreserved {byte : UInt8} (unreserved : isUnreserved byte = true) :
    byte.toNat < 0x80 ∧ byte ≠ 0x25 := by
  simp only [isUnreserved, Bool.or_eq_true, Bool.and_eq_true, decide_eq_true_eq,
    beq_iff_eq] at unreserved
  constructor
  · omega
  · rintro rfl
    have value : (0x25 : UInt8).toNat = 0x25 := rfl
    omega

theorem escaped?_hexDigits (byte : UInt8) :
    escaped? (hexDigit (byte.toNat / 16)).toNat.toUInt8
      (hexDigit (byte.toNat % 16)).toNat.toUInt8 = some byte := by
  have small : byte.toNat < 256 := byte.toNat_lt
  rw [escaped?, hexValue?_hexDigit _ (by omega), hexValue?_hexDigit _ (by omega)]
  have parts : byte.toNat / 16 * 16 + byte.toNat % 16 = byte.toNat := by omega
  simp only [Option.bind_eq_bind, Option.bind_some, parts]
  exact congrArg some (UInt8.ofNat_toNat)

theorem decodeBytes_encodeByte (byte : UInt8) (rest : List UInt8) :
    decodeBytes (Utf8.encode (encodeByte byte) ++ rest) = byte :: decodeBytes rest := by
  have small : byte.toNat < 256 := byte.toNat_lt
  rw [encodeByte]
  split
  next unreserved =>
    obtain ⟨ascii, plain⟩ := lt_and_ne_of_isUnreserved unreserved
    have value : (Char.ofNat byte.toNat).toNat = byte.toNat :=
      Utf8.toNat_ofNat _ (.inl (by omega))
    have bytes : Utf8.encode [Char.ofNat byte.toNat] = [byte] := by
      rw [Utf8.encode, List.flatMap_singleton, Utf8.encodeChar_of_lt (by omega), value]
      exact congrArg (fun one => [one]) UInt8.ofNat_toNat
    rw [bytes, List.singleton_append, decodeBytes_cons_of_ne plain]
  next reserved =>
    have bytes : Utf8.encode
        ['%', hexDigit (byte.toNat / 16), hexDigit (byte.toNat % 16)] =
          [0x25, (hexDigit (byte.toNat / 16)).toNat.toUInt8,
            (hexDigit (byte.toNat % 16)).toNat.toUInt8] := by
      simp only [Utf8.encode, List.flatMap_cons, List.flatMap_nil]
      rw [Utf8.encodeChar_of_lt (by decide), Utf8.encodeChar_of_lt (hexDigit_lt _ (by omega)),
        Utf8.encodeChar_of_lt (hexDigit_lt _ (by omega))]
      rfl
    rw [bytes]
    exact decodeBytes_escape (escaped?_hexDigits byte) rest

theorem decodeBytes_flatMap_encodeByte (bytes : List UInt8) :
    decodeBytes (Utf8.encode (bytes.flatMap encodeByte)) = bytes := by
  induction bytes with
  | nil => rfl
  | cons byte rest inductive_step =>
      rw [List.flatMap_cons, Utf8.encode_append, decodeBytes_encodeByte, inductive_step]

@[simp] theorem decode_encode (text : String) : decode (encode text) = some text := by
  rw [decode, encode, decodeBytes_flatMap_encodeByte, Utf8.text?_bytes]

def delimiters : List Char := ['/', '?', '#']

theorem hexDigit_not_mem_delimiters : ∀ value < 16, hexDigit value ∉ delimiters := by decide

theorem ne_of_mem_delimiters {byte : UInt8} (unreserved : isUnreserved byte = true) :
    ∀ delimiter ∈ delimiters, byte.toNat ≠ delimiter.toNat := by
  simp only [isUnreserved, Bool.or_eq_true, Bool.and_eq_true, decide_eq_true_eq,
    beq_iff_eq] at unreserved
  intro delimiter member same
  have values : delimiter.toNat = 0x2F ∨ delimiter.toNat = 0x3F ∨ delimiter.toNat = 0x23 := by
    simp only [delimiters, List.mem_cons, List.not_mem_nil, or_false] at member
    rcases member with rfl | rfl | rfl
    · exact .inl rfl
    · exact .inr (.inl rfl)
    · exact .inr (.inr rfl)
  omega

theorem not_mem_encodeByte {byte : UInt8} {character : Char}
    (member : character ∈ encodeByte byte) : character ∉ delimiters := by
  have small : byte.toNat < 256 := byte.toNat_lt
  rw [encodeByte] at member
  split at member
  next unreserved =>
    intro delimiter
    refine ne_of_mem_delimiters unreserved character delimiter ?_
    rw [List.mem_singleton.mp member, Utf8.toNat_ofNat _ (.inl (by omega))]
  next =>
    simp only [List.mem_cons, List.not_mem_nil, or_false] at member
    rcases member with rfl | rfl | rfl
    · decide
    · exact hexDigit_not_mem_delimiters _ (by omega)
    · exact hexDigit_not_mem_delimiters _ (by omega)

theorem not_mem_delimiters_of_mem_encode {text : String} {character : Char}
    (member : character ∈ encode text) : character ∉ delimiters := by
  obtain ⟨byte, _, inByte⟩ := List.mem_flatMap.mp member
  exact not_mem_encodeByte inByte

theorem encode_ne_nil {text : String} (nonempty : text ≠ "") : encode text ≠ [] := by
  intro empty
  have read := decode_encode text
  rw [empty] at read
  exact nonempty (Option.some.inj (read.symm.trans (by decide +kernel)))

theorem decodeBytes_cons_ne_nil (byte : UInt8) (rest : List UInt8) :
    decodeBytes (byte :: rest) ≠ [] := by
  by_cases percent : byte = 0x25
  · match rest with
    | [] => exact List.cons_ne_nil _ _
    | [next] => exact List.cons_ne_nil _ _
    | high :: low :: later =>
        rw [decodeBytes, if_pos percent]
        split <;> exact List.cons_ne_nil _ _
  · rw [decodeBytes_cons_of_ne percent]
    exact List.cons_ne_nil _ _

theorem ne_empty_of_decode {segment : List Char} {text : String} (nonempty : segment ≠ [])
    (read : decode segment = some text) : text ≠ "" := by
  rintro rfl
  obtain ⟨character, rest, rfl⟩ := List.exists_cons_of_ne_nil nonempty
  obtain ⟨first, following, bytes, -⟩ := Utf8.decodeChar?_encodeChar character
  have escaped : Utf8.encode (character :: rest) = first :: (following ++ Utf8.encode rest) := by
    rw [Utf8.encode_cons, bytes, List.cons_append]
  rw [decode, escaped] at read
  exact decodeBytes_cons_ne_nil _ _ (Utf8.eq_nil_of_text? read)

end WorkoutBoard.Text.Percent
