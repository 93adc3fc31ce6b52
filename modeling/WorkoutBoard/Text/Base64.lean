import WorkoutBoard.Numeric.Power

/-!
# Base64

Bytes written with an alphabet of sixty-four characters, four of them for three bytes. Two or three
characters at the end are filled up with `=` to four, and the bits that belong to no byte are zero,
so that every byte sequence is written in one way.
-/

namespace WorkoutBoard.Text.Base64

def bits? (character : Char) : Option Nat :=
  if character.isUpper then some (character.toNat - 'A'.toNat)
  else if character.isLower then some (character.toNat - 'a'.toNat + 26)
  else if character.isDigit then some (character.toNat - '0'.toNat + 52)
  else if character = '+' then some 62
  else if character = '/' then some 63
  else none

def isLetter (character : Char) : Bool := (bits? character).isSome

/-- Whether a character belongs to the alphabet and some of its lowest bits are zero. -/
def isLastLetter (unused : Nat) (character : Char) : Bool :=
  match bits? character with
  | some bits => bits % 2 ^ unused = 0
  | none => false

def isEncoded : List Char → Bool
  | [] => true
  | [first, second, '=', '='] => isLetter first && isLastLetter 4 second
  | [first, second, third, '='] => isLetter first && isLetter second && isLastLetter 2 third
  | first :: second :: third :: fourth :: rest =>
      isLetter first && isLetter second && isLetter third && isLetter fourth && isEncoded rest
  | _ => false

example : isEncoded "YWJj".toList = true ∧ isEncoded "YQ==".toList = true := by decide +kernel

example : isEncoded "YQ".toList = false ∧ isEncoded "YR==".toList = false := by decide +kernel

end WorkoutBoard.Text.Base64
