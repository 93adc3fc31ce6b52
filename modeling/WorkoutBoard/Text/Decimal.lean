import WorkoutBoard.Numeric.Power

/-!
# Decimal integers

Digits, and whole numbers written with them. A signed number may carry `+` or `-`; its digits are
taken from left to right, and the first one that cannot be taken decides the fault.
-/

namespace WorkoutBoard.Text.Decimal

def digit? (character : Char) : Option Nat :=
  if character.isDigit then some (character.toNat - '0'.toNat) else none

def extend? : Nat → List Char → Option Nat
  | value, [] => some value
  | value, character :: rest => do
      let digit ← digit? character
      extend? (value * 10 + digit) rest

def natural? : List Char → Option Nat
  | [] => none
  | text => extend? 0 text

def ofNat (value : Nat) : String := String.ofList (Nat.toDigits 10 value)

def ofInt : Int → String
  | .ofNat value => ofNat value
  | .negSucc value => "-" ++ ofNat (value + 1)

def padded (width value : Nat) : String :=
  let digits := Nat.toDigits 10 value
  String.ofList (List.replicate (width - digits.length) '0' ++ digits)

inductive Fault where
  | empty
  | invalidDigit
  | tooLarge
  | tooSmall
deriving DecidableEq, Repr

def Fault.message : Fault → String
  | .empty => "cannot parse integer from empty string"
  | .invalidDigit => "invalid digit found in string"
  | .tooLarge => "number too large to fit in target type"
  | .tooSmall => "number too small to fit in target type"

/-- Appends decimal digits to `value` and stays at or below `high`. -/
def climb (high : Nat) : Nat → List Char → Except Fault Nat
  | value, [] => .ok value
  | value, character :: rest =>
      match digit? character with
      | none => .error .invalidDigit
      | some digit =>
          if value * 10 + digit ≤ high then climb high (value * 10 + digit) rest
          else .error .tooLarge

def unsigned (high : Nat) : List Char → Except Fault Nat
  | [] => .error .empty
  | ['+'] => .error .invalidDigit
  | '+' :: digits => climb high 0 digits
  | digits => climb high 0 digits

def int64 : List Char → Except Fault Int64
  | [] => .error .empty
  | ['+'] => .error .invalidDigit
  | ['-'] => .error .invalidDigit
  | '+' :: digits => (climb (2 ^ 63 - 1) 0 digits).map fun value => Int64.ofInt value
  | '-' :: digits =>
      match climb (2 ^ 63) 0 digits with
      | .ok magnitude => .ok (Int64.ofInt (-magnitude))
      | .error .tooLarge => .error .tooSmall
      | .error fault => .error fault
  | digits => (climb (2 ^ 63 - 1) 0 digits).map fun value => Int64.ofInt value

end WorkoutBoard.Text.Decimal
