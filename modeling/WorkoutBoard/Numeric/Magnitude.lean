import WorkoutBoard.Text.Decimal

/-!
# Magnitudes

The size of a real number as it is written: by a word, or by digits with a point and an exponent. A
sign may stand in front of either; it says nothing of the size and is not kept.
-/

namespace WorkoutBoard.Numeric

/-- A size: none at all, beyond all numbers, or `digits * 10 ^ exponent`. -/
inductive Magnitude where
  | notANumber
  | infinite
  | decimal (digits : Nat) (exponent : Int)
deriving DecidableEq, Repr

namespace Magnitude

inductive Fault where
  | empty
  | invalid
deriving DecidableEq, Repr

def Fault.message : Fault → String
  | .empty => "cannot parse float from empty string"
  | .invalid => "invalid float literal"

def integer? : List Char → Option Int
  | '+' :: digits => (Text.Decimal.natural? digits).map fun value => (value : Int)
  | '-' :: digits => (Text.Decimal.natural? digits).map fun value => -(value : Int)
  | digits => (Text.Decimal.natural? digits).map fun value => (value : Int)

def exponent? : List Char → Option Int
  | [] => some 0
  | letter :: rest => if letter = 'e' ∨ letter = 'E' then integer? rest else none

def scaled? (digits : List Char) (places : Nat) (rest : List Char) : Option Magnitude := do
  let value ← Text.Decimal.natural? digits
  let exponent ← exponent? rest
  return .decimal value (exponent - places)

def positional? (text : List Char) : Option Magnitude :=
  let whole := text.takeWhile Char.isDigit
  match text.dropWhile Char.isDigit with
  | '.' :: rest =>
      let fraction := rest.takeWhile Char.isDigit
      scaled? (whole ++ fraction) fraction.length (rest.dropWhile Char.isDigit)
  | rest => scaled? whole 0 rest

def words : List (List Char × Magnitude) :=
  [("nan".toList, .notANumber), ("inf".toList, .infinite), ("infinity".toList, .infinite)]

def ofUnsigned? (text : List Char) : Option Magnitude :=
  words.lookup (text.map Char.toLower) <|> positional? text

def ofChars (text : List Char) : Except Fault Magnitude :=
  let unsigned := match text with
    | '+' :: rest => rest
    | '-' :: rest => rest
    | _ => text
  match text, ofUnsigned? unsigned with
  | [], _ => .error .empty
  | _, some magnitude => .ok magnitude
  | _, none => .error .invalid

/-- The least number for which the nearest one of 64 bits would be too large. -/
def overflow : Nat := 2 ^ 1024 - 2 ^ 970

def overflowingPower : Nat := 309

def isFinite : Magnitude → Bool
  | .notANumber => false
  | .infinite => false
  | .decimal digits exponent =>
      let length := (Nat.toDigits 10 digits).length
      if digits = 0 then true
      else if overflowingPower < length + exponent then false
      else
        match exponent with
        | .ofNat power => digits * 10 ^ power < overflow
        | .negSucc power =>
            length ≤ power || digits < overflow * 10 ^ (power + 1)

example :
    (ofChars "-.5".toList).toOption = some (.decimal 5 (-1)) ∧
      (ofChars "5.".toList).toOption = some (.decimal 5 0) ∧
        (ofChars ".".toList).toOption = none := by
  decide +kernel

example :
    (ofChars "1.7976931348623158e308".toList).toOption.map isFinite = some true ∧
      (ofChars "1.7976931348623159e308".toList).toOption.map isFinite = some false := by
  decide +kernel

end Magnitude

end WorkoutBoard.Numeric
