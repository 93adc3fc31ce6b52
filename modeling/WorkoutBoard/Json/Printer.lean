import WorkoutBoard.Json.Value
import WorkoutBoard.Numeric.Shortest

/-!
# Compact JSON texts

`Value.compact` writes a value without blanks, its members in their order. Strings are written
with short escapes where there are any, other controls by their code, and everything else as it is.
-/

namespace WorkoutBoard.Json

def lowerHexDigit (value : Nat) : Char :=
  if value < 10 then Char.ofNat (0x30 + value) else Char.ofNat (0x61 + (value - 10))

def escapeChar (character : Char) : List Char :=
  if character = '"' then ['\\', '"']
  else if character = '\\' then ['\\', '\\']
  else if character = '\x08' then ['\\', 'b']
  else if character = '\x0C' then ['\\', 'f']
  else if character = '\n' then ['\\', 'n']
  else if character = '\r' then ['\\', 'r']
  else if character = '\t' then ['\\', 't']
  else if character.toNat < 0x20 then
    ['\\', 'u', '0', '0', lowerHexDigit (character.toNat / 16),
      lowerHexDigit (character.toNat % 16)]
  else [character]

def literal (text : String) : List Char := '"' :: (text.toList.flatMap escapeChar ++ ['"'])

def Number.characters : Number → List Char
  | .integer value => (Text.Decimal.ofInt value).toList
  | .real negative magnitude => (if negative then ['-'] else []) ++ magnitude.text.toList

namespace Value

mutual

def characters : Value → List Char
  | .null => ['n', 'u', 'l', 'l']
  | .boolean true => ['t', 'r', 'u', 'e']
  | .boolean false => ['f', 'a', 'l', 's', 'e']
  | .number value => value.characters
  | .text value => literal value
  | .list elements => '[' :: (elementCharacters elements ++ [']'])
  | .object members => '{' :: (memberCharacters members ++ ['}'])

def elementCharacters : List Value → List Char
  | [] => []
  | [value] => value.characters
  | value :: rest => value.characters ++ ',' :: elementCharacters rest

def memberCharacters : List (String × Value) → List Char
  | [] => []
  | [(name, value)] => literal name ++ ':' :: value.characters
  | (name, value) :: rest =>
      literal name ++ ':' :: (value.characters ++ ',' :: memberCharacters rest)

end

def compact (value : Value) : String := String.ofList value.characters

end Value

end WorkoutBoard.Json
