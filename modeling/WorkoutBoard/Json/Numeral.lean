import WorkoutBoard.Json.Fault

/-!
# Numerals

A numeral is a sign, whole digits without leading zeros, a fraction and an exponent.
`Numeral.number` gives what it denotes: a whole number if it is written as one and has 64 bits,
and otherwise a floating-point number. The latter takes its leading digits as a whole number of 64
bits, rounds that, and then scales it by one rounded power of ten.
-/

namespace WorkoutBoard.Json

def digitValue? (byte : UInt8) : Option Nat :=
  if 0x30 ≤ byte.toNat ∧ byte.toNat ≤ 0x39 then some (byte.toNat - 0x30) else none

def isDigit (byte : UInt8) : Bool := (digitValue? byte).isSome

def leadingDigits (input : List UInt8) : List Nat := (input.takeWhile isDigit).filterMap digitValue?

def afterDigits (input : List UInt8) : List UInt8 := input.dropWhile isDigit

structure Exponent where
  negative : Bool
  digits : List Nat
deriving DecidableEq, Repr

structure Numeral where
  negative : Bool
  whole : List Nat
  fraction : List Nat
  exponent : Option Exponent
deriving DecidableEq, Repr

namespace Numeral

def readWhole (atEnd : Reason) : Reader (List Nat)
  | [] => failHere atEnd []
  | byte :: rest =>
      match digitValue? byte with
      | none => failHere .invalidNumber rest
      | some 0 =>
          match rest with
          | [] => .ok ([0], [])
          | next :: _ => if isDigit next then failAtNext .invalidNumber rest else .ok ([0], rest)
      | some _ => .ok (leadingDigits (byte :: rest), afterDigits (byte :: rest))

def readFraction (atEnd : Reason) (input : List UInt8) : Except Fault (List Nat × List UInt8) :=
  match input with
  | [] => failHere atEnd []
  | byte :: rest =>
      if isDigit byte then .ok (leadingDigits (byte :: rest), afterDigits (byte :: rest))
      else failAtNext .invalidNumber (byte :: rest)

def readExponentDigits (atEnd : Reason) (negative : Bool) : Reader Exponent
  | [] => failHere atEnd []
  | byte :: rest =>
      if isDigit byte then
        .ok (⟨negative, leadingDigits (byte :: rest)⟩, afterDigits (byte :: rest))
      else failHere .invalidNumber rest

def readExponent (atEnd : Reason) : Reader Exponent
  | [] => failHere atEnd []
  | byte :: rest =>
      if byte = 0x2B then readExponentDigits atEnd false rest
      else if byte = 0x2D then readExponentDigits atEnd true rest
      else readExponentDigits atEnd false (byte :: rest)

def readTail (atEnd : Reason) (negative : Bool) (whole fraction : List Nat) : Reader Numeral
  | [] => .ok (⟨negative, whole, fraction, none⟩, [])
  | byte :: rest =>
      if byte = 0x65 ∨ byte = 0x45 then
        match readExponent atEnd rest with
        | .error fault => .error fault
        | .ok (exponent, rest) => .ok (⟨negative, whole, fraction, some exponent⟩, rest)
      else .ok (⟨negative, whole, fraction, none⟩, byte :: rest)

def readUnsigned (atEnd : Reason) (negative : Bool) : Reader Numeral := fun input =>
  match readWhole atEnd input with
  | .error fault => .error fault
  | .ok (whole, 0x2E :: rest) =>
      match readFraction atEnd rest with
      | .error fault => .error fault
      | .ok (fraction, rest) => readTail atEnd negative whole fraction rest
  | .ok (whole, rest) => readTail atEnd negative whole [] rest

/-- A numeral, from its sign or first digit on. A missing digit at the end of the input has the
reason `atEnd`. -/
def read (atEnd : Reason) : Reader Numeral
  | 0x2D :: rest => readUnsigned atEnd true rest
  | input => readUnsigned atEnd false input

def largestSignificand : Nat := 2 ^ 64 - 1

def accumulate (high : Nat) : Nat → List Nat → Nat × List Nat
  | value, [] => (value, [])
  | value, digit :: rest =>
      if value * 10 + digit ≤ high then accumulate high (value * 10 + digit) rest
      else (value, digit :: rest)

def power (exponent : Nat) : Numeric.Binary64 :=
  (Numeric.Binary64.ofNat? (10 ^ exponent)).getD default

def largestPower : Nat := 308

/-- Scales by a power of ten, in one step upwards and in steps of at most `10 ^ -308` downwards. -/
def scale (number : Numeric.Binary64) (exponent : Int) : Option Numeric.Binary64 :=
  if number.isZero then some number
  else if 0 ≤ exponent then
    if exponent ≤ largestPower then number.multiply? (power exponent.toNat) else none
  else if -largestPower ≤ exponent then number.divide? (power exponent.natAbs)
  else
    (number.divide? (power largestPower)).bind fun smaller =>
      scale smaller (exponent + largestPower)
termination_by exponent.natAbs
decreasing_by
  simp only [largestPower] at *
  omega

def largestExponent : Nat := 2 ^ 31 - 1

def magnitude? (significand : Nat) (exponent : Int) : Option Numeric.Binary64 :=
  (Numeric.Binary64.ofNat? significand).bind fun number => scale number exponent

def integer? (negative : Bool) (significand : Nat) : Option Int :=
  if negative then
    if 0 < significand ∧ significand ≤ 2 ^ 63 then some (-significand) else none
  else some significand

/-- What a numeral denotes. If that is too large, the answer is the number of bytes of the numeral
that follow the place where this shows. -/
def number (numeral : Numeral) : Except Nat Number :=
  let (wholePart, dropped) := accumulate largestSignificand 0 numeral.whole
  let (significand, ignored) := accumulate largestSignificand wholePart numeral.fraction
  let point : Int := dropped.length - (numeral.fraction.length - ignored.length : Nat)
  let real (exponent : Int) : Except Nat Number :=
    match magnitude? significand exponent with
    | some magnitude => .ok (.real numeral.negative magnitude)
    | none => .error 0
  match numeral.exponent with
  | some ⟨negative, digits⟩ =>
      match accumulate largestExponent 0 digits with
      | (shift, []) => real (if negative then point - shift else point + shift)
      | (_, _ :: rest) =>
          if significand ≠ 0 ∧ negative = false then .error rest.length
          else .ok (.real numeral.negative default)
  | none =>
      if numeral.fraction.isEmpty ∧ dropped.isEmpty then
        match integer? numeral.negative significand with
        | some value => .ok (.integer value)
        | none => real point
      else real point

end Numeral

def numberAt : Reader Number := fun input =>
  match Numeral.read .endOfValue input with
  | .error fault => .error fault
  | .ok (numeral, rest) =>
      match numeral.number with
      | .ok number => .ok (number, rest)
      | .error unread => .error ⟨.numberOutOfRange, rest.length + unread⟩

def skippedNumber : Reader Unit := fun input =>
  match Numeral.read .invalidNumber input with
  | .error fault => .error fault
  | .ok (_, rest) => .ok ((), rest)

end WorkoutBoard.Json
