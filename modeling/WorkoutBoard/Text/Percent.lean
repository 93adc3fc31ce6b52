import WorkoutBoard.Text.Utf8

/-!
# Percent escapes

`%` and two hexadecimal digits stand for one byte of a text's UTF-8 form. In `decode` a `%` that no
two digits follow stands for itself. `encode` escapes every byte outside the unreserved characters,
so its result holds no `/`, `?`, `#` or stray `%`.
-/

namespace WorkoutBoard.Text.Percent

def hexValue? (byte : UInt8) : Option Nat :=
  let value := byte.toNat
  if 0x30 ≤ value ∧ value ≤ 0x39 then some (value - 0x30)
  else if 0x41 ≤ value ∧ value ≤ 0x46 then some (value - 0x41 + 10)
  else if 0x61 ≤ value ∧ value ≤ 0x66 then some (value - 0x61 + 10)
  else none

def escaped? (high low : UInt8) : Option UInt8 := do
  let upper ← hexValue? high
  let lower ← hexValue? low
  some (upper * 16 + lower).toUInt8

def decodeBytes : List UInt8 → List UInt8
  | [] => []
  | [byte] => [byte]
  | [first, second] => [first, second]
  | byte :: high :: low :: rest =>
      if byte = 0x25 then
        match escaped? high low with
        | some value => value :: decodeBytes rest
        | none => byte :: decodeBytes (high :: low :: rest)
      else
        byte :: decodeBytes (high :: low :: rest)

/-- The text that an escaped text stands for, unless its bytes are no UTF-8. -/
def decode (segment : List Char) : Option String :=
  Utf8.text? (decodeBytes (Utf8.encode segment))

def isUnreserved (byte : UInt8) : Bool :=
  let value := byte.toNat
  (0x30 ≤ value && value ≤ 0x39) || (0x41 ≤ value && value ≤ 0x5A) ||
    (0x61 ≤ value && value ≤ 0x7A) || value == 0x2D || value == 0x2E || value == 0x5F ||
    value == 0x7E

def hexDigit (value : Nat) : Char :=
  if value < 10 then Char.ofNat (0x30 + value) else Char.ofNat (0x41 + (value - 10))

def encodeByte (byte : UInt8) : List Char :=
  if isUnreserved byte then [Char.ofNat byte.toNat]
  else ['%', hexDigit (byte.toNat / 16), hexDigit (byte.toNat % 16)]

def encode (text : String) : List Char := (Utf8.bytes text).flatMap encodeByte

example : decode "a%2Fb%zz%4".toList = some "a/b%zz%4" := by decide +kernel

example : decode "%ff".toList = none := by decide +kernel

end WorkoutBoard.Text.Percent
