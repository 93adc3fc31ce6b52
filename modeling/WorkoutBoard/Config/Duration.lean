import WorkoutBoard.Text.Blank
import WorkoutBoard.Text.Decimal

/-!
# Durations

A span of time is written as a sum of parts, each a number and a unit, such as `1m 30s` or `2.5h`;
`timeout?` also takes a whole number of seconds without a unit. All intermediate numbers have 64
bits. A fraction must come out exact: in nanoseconds for units up to the minute, in seconds for
longer ones. A nanosecond has no fractions.
-/

namespace WorkoutBoard.Config

structure Duration where
  seconds : Nat
  nanos : Nat
deriving DecidableEq, Repr

def largestWord : Nat := 2 ^ 64 - 1

def word? (value : Nat) : Option Nat := if value ≤ largestWord then some value else none

namespace Duration

def nanosPerSecond : Nat := 1000000000

def zero : Duration := ⟨0, 0⟩

def ofSeconds (seconds : Nat) : Duration := ⟨seconds, 0⟩

def isZero (duration : Duration) : Bool := duration.seconds == 0 && duration.nanos == 0

def toNanos (duration : Duration) : Nat := duration.seconds * nanosPerSecond + duration.nanos

def add? (duration : Duration) (seconds nanos : Nat) : Option Duration := do
  let allNanos ← word? (duration.nanos + nanos)
  let carried ← word? (seconds + allNanos / nanosPerSecond)
  let allSeconds ← word? (duration.seconds + carried)
  return ⟨allSeconds, allNanos % nanosPerSecond⟩

inductive Scale where
  | nanos (count : Nat)
  | seconds (count : Nat)
deriving DecidableEq, Repr

/-- A unit: what one of it counts, and in what its fractions are taken, if it has any. -/
structure Unit where
  whole : Scale
  fraction : Option Scale
deriving DecidableEq, Repr

def Unit.short (nanos : Nat) : Unit := ⟨.nanos nanos, some (.nanos nanos)⟩

def Unit.long (seconds : Nat) : Unit := ⟨.seconds seconds, some (.seconds seconds)⟩

def units : List (List String × Unit) :=
  [(["ns", "nsec", "nanos"], ⟨.nanos 1, none⟩),
    (["us", "usec", "µs"], .short 1000),
    (["ms", "msec", "millis"], .short 1000000),
    (["s", "sec", "secs", "second", "seconds"], ⟨.seconds 1, some (.nanos 1000000000)⟩),
    (["m", "min", "mins", "minute", "minutes"], ⟨.seconds 60, some (.nanos 60000000000)⟩),
    (["h", "hr", "hrs", "hour", "hours"], .long 3600),
    (["d", "day", "days"], .long 86400),
    (["w", "wk", "wks", "week", "weeks"], .long 604800),
    (["M", "month", "months"], .long 2630016),
    (["y", "yr", "yrs", "year", "years"], .long 31557600)]

def unit? (name : String) : Option Unit :=
  (units.find? fun entry => entry.1.contains name).map Prod.snd

/-- A number with a fraction `numerator / denominator` and a unit. The denominator is one if no
fraction is written. -/
structure Part where
  whole : Nat
  numerator : Nat
  denominator : Nat
  unit : Unit
deriving DecidableEq, Repr

def addScaled? (duration : Duration) (count : Nat) : Scale → Option Duration
  | .nanos each => do
      let nanos ← word? (count * each)
      duration.add? 0 nanos
  | .seconds each => do
      let seconds ← word? (count * each)
      duration.add? seconds 0

def addFraction? (duration : Duration) (numerator denominator : Nat) : Scale → Option Duration
  | .nanos each => do
      let product ← word? (numerator * each)
      if product % denominator = 0 then duration.add? 0 (product / denominator) else none
  | .seconds each => do
      let product ← word? (numerator * each)
      if product % denominator = 0 then duration.add? (product / denominator) 0 else none

def addPart? (duration : Duration) (part : Part) : Option Duration := do
  let withWhole ← duration.addScaled? part.whole part.unit.whole
  match part.unit.fraction with
  | some scale => withWhole.addFraction? part.numerator part.denominator scale
  | none => if part.denominator = 1 then some withWhole else none

def sum? : Duration → List Part → Option Duration
  | duration, [] => some duration
  | duration, part :: later => (duration.addPart? part).bind fun next => sum? next later

/-- Where the reader of parts stands: before a number, in it, in its fraction or in a unit, whose
letters are held in reverse. -/
inductive Position where
  | beforeNumber (isFirst : Bool)
  | inNumber (whole : Nat)
  | inFraction (whole numerator denominator : Nat)
  | inUnit (whole numerator denominator : Nat) (letters : List Char)
deriving DecidableEq, Repr

def isUnitLetter (character : Char) : Bool := character.isAlpha || character == 'µ'

def part? (whole numerator denominator : Nat) (letters : List Char) : Option Part :=
  (unit? (String.ofList letters.reverse)).map fun unit => ⟨whole, numerator, denominator, unit⟩

/-- The parts of a text. A unit ends at a blank, at the next number or at the end. -/
def partsFrom : Position → List Char → Option (List Part)
  | .beforeNumber isFirst, [] => if isFirst then none else some []
  | .inNumber _, [] => none
  | .inFraction _ _ _, [] => none
  | .inUnit whole numerator denominator letters, [] =>
      (part? whole numerator denominator letters).map fun part => [part]
  | .beforeNumber isFirst, character :: rest =>
      match Text.Decimal.digit? character with
      | some digit => partsFrom (.inNumber digit) rest
      | none => if Text.isBlank character then partsFrom (.beforeNumber isFirst) rest else none
  | .inNumber whole, character :: rest =>
      match Text.Decimal.digit? character with
      | some digit =>
          match word? (whole * 10 + digit) with
          | some longer => partsFrom (.inNumber longer) rest
          | none => none
      | none =>
          if Text.isBlank character then partsFrom (.inNumber whole) rest
          else if isUnitLetter character then partsFrom (.inUnit whole 0 1 [character]) rest
          else if character = '.' then partsFrom (.inFraction whole 0 1) rest
          else none
  | .inFraction whole numerator denominator, character :: rest =>
      match Text.Decimal.digit? character with
      | some digit =>
          match word? (numerator * 10 + digit), word? (denominator * 10) with
          | some longer, some larger => partsFrom (.inFraction whole longer larger) rest
          | _, _ => none
      | none =>
          if Text.isBlank character then
            partsFrom (.inFraction whole numerator denominator) rest
          else if isUnitLetter character ∧ denominator ≠ 1 then
            partsFrom (.inUnit whole numerator denominator [character]) rest
          else none
  | .inUnit whole numerator denominator letters, character :: rest =>
      match Text.Decimal.digit? character with
      | some digit =>
          match part? whole numerator denominator letters with
          | some part => (partsFrom (.inNumber digit) rest).map (part :: ·)
          | none => none
      | none =>
          if Text.isBlank character then
            match part? whole numerator denominator letters with
            | some part => (partsFrom (.beforeNumber false) rest).map (part :: ·)
            | none => none
          else if isUnitLetter character then
            partsFrom (.inUnit whole numerator denominator (character :: letters)) rest
          else none

def ofText? (text : String) : Option Duration :=
  if text = "0" then some zero
  else (partsFrom (.beforeNumber true) text.toList).bind fun parts => sum? zero parts

def ofWholeSeconds? (text : String) : Option Duration :=
  (Text.Decimal.unsigned largestWord text.toList).toOption.map ofSeconds

def timeout? (text : String) : Option Duration :=
  (ofText? text <|> ofWholeSeconds? text).filter fun duration => !duration.isZero

example : timeout? "1m 30s" = some ⟨90, 0⟩ := by decide +kernel

example : timeout? "0.5ms" = some ⟨0, 500000⟩ ∧ timeout? "0.0001h" = none := by decide +kernel

/-- A nanosecond is never divided, not even into a whole number. -/
example : timeout? "8ns" = some ⟨0, 8⟩ ∧ timeout? "8.0ns" = none := by decide +kernel

example : timeout? "+7" = some ⟨7, 0⟩ ∧ timeout? "0" = none := by decide +kernel

end Duration

end WorkoutBoard.Config
