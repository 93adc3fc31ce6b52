import WorkoutBoard.Text.Decimal

/-!
# Clock readings

Hours, minutes, seconds and microseconds, written `HH`, `HH:MM`, `HHMM`, `HH:MM:SS` or `HHMMSS`;
after seconds a point or a comma and a fraction may follow. A reading alone sets no bounds, because
it serves as a time of day and as a distance from universal time.
-/

namespace WorkoutBoard.Calendar

structure Clock where
  hour : Nat
  minute : Nat
  second : Nat
  micro : Nat
deriving DecidableEq, Repr

namespace Clock

def twoDigits? (tens ones : Char) : Option Nat := Text.Decimal.natural? [tens, ones]

/-- The microseconds of a fraction: its first six digits, filled with zeros on the right. -/
def fraction? (digits : List Char) : Option Nat :=
  if digits.isEmpty || !digits.all Char.isDigit then none
  else
    let kept := digits.take 6
    (Text.Decimal.natural? kept).map fun value => value * 10 ^ (6 - kept.length)

def tail? : List Char → Option Nat
  | [] => some 0
  | mark :: digits => if mark = '.' ∨ mark = ',' then fraction? digits else none

def extended? (hour : Nat) : List Char → Option Clock
  | [tens, ones] => do
      let minute ← twoDigits? tens ones
      return ⟨hour, minute, 0, 0⟩
  | tens :: ones :: ':' :: secondTens :: secondOnes :: rest => do
      let minute ← twoDigits? tens ones
      let second ← twoDigits? secondTens secondOnes
      let micro ← tail? rest
      return ⟨hour, minute, second, micro⟩
  | _ => none

def basic? (hour : Nat) : List Char → Option Clock
  | [tens, ones] => do
      let minute ← twoDigits? tens ones
      return ⟨hour, minute, 0, 0⟩
  | tens :: ones :: secondTens :: secondOnes :: rest => do
      let minute ← twoDigits? tens ones
      let second ← twoDigits? secondTens secondOnes
      let micro ← tail? rest
      return ⟨hour, minute, second, micro⟩
  | _ => none

def ofChars? : List Char → Option Clock
  | [tens, ones] => do
      let hour ← twoDigits? tens ones
      return ⟨hour, 0, 0, 0⟩
  | tens :: ones :: ':' :: rest => do
      let hour ← twoDigits? tens ones
      extended? hour rest
  | tens :: ones :: rest => do
      let hour ← twoDigits? tens ones
      basic? hour rest
  | _ => none

def isTimeOfDay (clock : Clock) : Bool :=
  decide (clock.hour < 24) && decide (clock.minute < 60) && decide (clock.second < 60)

def micros (clock : Clock) : Nat :=
  ((clock.hour * 60 + clock.minute) * 60 + clock.second) * 1000000 + clock.micro

def microsPerDay : Nat := 24 * 60 * 60 * 1000000

end Clock

end WorkoutBoard.Calendar
