import WorkoutBoard.Numeric.Power

/-!
# Binary floating-point numbers

Finite numbers of 53 significant bits and 11 exponent bits, without a sign. A number is a whole
multiple of `2 ^ -1074`, so all arithmetic here is exact arithmetic of natural numbers followed by
one rounding to the nearest number; a tie goes to the even significand.
-/

namespace WorkoutBoard.Numeric

/-- The number `significand * 2 ^ shift` in units of `2 ^ -1074`. -/
structure Binary64 where
  significand : Nat
  shift : Nat
deriving DecidableEq, Repr, Inhabited

namespace Binary64

def precision : Nat := 53

def largestShift : Nat := 2045

/-- The quotient of two numbers rounded to a whole number; a half goes to the even one. -/
def divideToEven (numerator denominator : Nat) : Nat :=
  let below := numerator / denominator
  let twice := 2 * (numerator % denominator)
  if twice < denominator then below
  else if denominator < twice then below + 1
  else if below % 2 = 0 then below
  else below + 1

def nearestUnits (numerator denominator : Nat) : Option Binary64 :=
  let bits := (numerator / denominator).log2 + 1
  let shift := bits - precision
  let significand := divideToEven numerator (denominator * 2 ^ shift)
  let number :=
    if significand = 2 ^ precision then ⟨2 ^ (precision - 1), shift + 1⟩
    else ⟨significand, shift⟩
  if number.shift ≤ largestShift then some number else none

def units (number : Binary64) : Nat := number.significand * 2 ^ number.shift

def unitsOfOne : Nat := 2 ^ 1074

def ofNat? (value : Nat) : Option Binary64 := nearestUnits (value * unitsOfOne) 1

def multiply? (left right : Binary64) : Option Binary64 :=
  nearestUnits (left.units * right.units) unitsOfOne

def divide? (left right : Binary64) : Option Binary64 :=
  nearestUnits (left.units * unitsOfOne) right.units

def isZero (number : Binary64) : Bool := number.significand = 0

end Binary64

end WorkoutBoard.Numeric
