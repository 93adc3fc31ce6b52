/-!
# UTF-8

The bytes of a character, and the character at the head of a byte sequence. `decode` accepts
shortest forms only and refuses surrogates, so that every byte sequence is the spelling of at most
one text and `decode` undoes `encode`.
-/

namespace WorkoutBoard.Text.Utf8

def continuation (value : Nat) : UInt8 := (0x80 + value % 0x40).toUInt8

def continuationBits? (byte : UInt8) : Option Nat :=
  if 0x80 ≤ byte.toNat ∧ byte.toNat < 0xC0 then some (byte.toNat - 0x80) else none

def encodeChar (character : Char) : List UInt8 :=
  let value := character.toNat
  if value < 0x80 then
    [value.toUInt8]
  else if value < 0x800 then
    [(0xC0 + value / 0x40).toUInt8, continuation value]
  else if value < 0x10000 then
    [(0xE0 + value / 0x1000).toUInt8, continuation (value / 0x40), continuation value]
  else
    [(0xF0 + value / 0x40000).toUInt8, continuation (value / 0x1000),
      continuation (value / 0x40), continuation value]

def encode (text : List Char) : List UInt8 := text.flatMap encodeChar

def bytes (text : String) : List UInt8 := encode text.toList

/-- The character that begins with the byte `first`, and the number of bytes of `following` that
belong to it. -/
def decodeChar? (first : UInt8) (following : List UInt8) : Option (Char × Nat) :=
  let lead := first.toNat
  if lead < 0x80 then
    some (Char.ofNat lead, 0)
  else if lead < 0xC2 then
    none
  else if lead < 0xE0 then
    match following with
    | second :: _ => do
        let low ← continuationBits? second
        some (Char.ofNat ((lead - 0xC0) * 0x40 + low), 1)
    | _ => none
  else if lead < 0xF0 then
    match following with
    | second :: third :: _ => do
        let middle ← continuationBits? second
        let low ← continuationBits? third
        let value := (lead - 0xE0) * 0x1000 + middle * 0x40 + low
        if 0x800 ≤ value ∧ ¬(0xD800 ≤ value ∧ value < 0xE000) then
          some (Char.ofNat value, 2)
        else
          none
    | _ => none
  else if lead < 0xF5 then
    match following with
    | second :: third :: fourth :: _ => do
        let high ← continuationBits? second
        let middle ← continuationBits? third
        let low ← continuationBits? fourth
        let value := (lead - 0xF0) * 0x40000 + high * 0x1000 + middle * 0x40 + low
        if 0x10000 ≤ value ∧ value < 0x110000 then some (Char.ofNat value, 3) else none
    | _ => none
  else
    none

def decode : List UInt8 → Option (List Char)
  | [] => some []
  | first :: following =>
      match decodeChar? first following with
      | none => none
      | some (character, width) => (decode (following.drop width)).map (character :: ·)
termination_by input => input.length
decreasing_by simp only [List.length_drop, List.length_cons]; omega

def text? (input : List UInt8) : Option String := (decode input).map String.ofList

end WorkoutBoard.Text.Utf8
