import WorkoutBoard.Text.Invisible

/-!
# Quoted text in messages

A text between double quotes, with its quotes, backslashes and invisible characters escaped, so
that a message shows exactly which characters a rejected value holds.
-/

namespace WorkoutBoard.Text.Quoted

def hexadecimal (value : Nat) : List Char := Nat.toDigits 16 value

def encodeChar (character : Char) : List Char :=
  if character = '\x00' then ['\\', '0']
  else if character = '\t' then ['\\', 't']
  else if character = '\n' then ['\\', 'n']
  else if character = '\r' then ['\\', 'r']
  else if character = '"' then ['\\', '"']
  else if character = '\\' then ['\\', '\\']
  else if isInvisible character then
    ['\\', 'u', '{'] ++ hexadecimal character.toNat ++ ['}']
  else [character]

def encode (text : String) : String :=
  String.ofList (['"'] ++ text.toList.flatMap encodeChar ++ ['"'])

example : encode "a\t\"é\x7f" = "\"a\\t\\\"é\\u\x7b7f\x7d\"" := by decide +kernel

end WorkoutBoard.Text.Quoted
