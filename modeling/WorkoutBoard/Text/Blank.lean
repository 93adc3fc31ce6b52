/-!
# Blank characters

The characters with the Unicode property White_Space.
-/

namespace WorkoutBoard.Text

def isBlank (character : Char) : Bool :=
  let value := character.toNat
  (0x09 ≤ value && value ≤ 0x0D) || value == 0x20 || value == 0x85 || value == 0xA0 ||
    value == 0x1680 || (0x2000 ≤ value && value ≤ 0x200A) || value == 0x2028 ||
    value == 0x2029 || value == 0x202F || value == 0x205F || value == 0x3000

end WorkoutBoard.Text
