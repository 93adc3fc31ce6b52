import WorkoutBoard.Calendar.Clock
import WorkoutBoard.Calendar.Week

/-!
# Timestamps

A date, any one character, a time of day, and a signed distance from universal time. The date has
no fixed width, so `dateWidth` finds out from a few characters where it ends. `isAware` also takes
`Z` for the distance zero.
-/

namespace WorkoutBoard.Calendar

/-- A date and time of day at a place `offset` microseconds ahead of universal time. -/
structure Timestamp where
  date : Date
  clock : Clock
  offset : Int
deriving DecidableEq, Repr

namespace Timestamp

def year? (first second third fourth : Char) : Option Nat :=
  Text.Decimal.natural? [first, second, third, fourth]

def weekday? (digit : Char) : Option Nat := Text.Decimal.natural? [digit]

/-- The date that a text denotes: `YYYY-Www`, `YYYY-Www-D`, `YYYYWww`, `YYYYWwwD`, `YYYY-MM-DD` or
`YYYYMMDD`. Without a day of the week, Monday is meant. -/
def date? : List Char → Option Date
  | [y1, y2, y3, y4, '-', 'W', w1, w2] => do
      Date.ofWeek? (← year? y1 y2 y3 y4) (← Clock.twoDigits? w1 w2) 1
  | [y1, y2, y3, y4, '-', 'W', w1, w2, '-', d] => do
      Date.ofWeek? (← year? y1 y2 y3 y4) (← Clock.twoDigits? w1 w2) (← weekday? d)
  | [y1, y2, y3, y4, 'W', w1, w2] => do
      Date.ofWeek? (← year? y1 y2 y3 y4) (← Clock.twoDigits? w1 w2) 1
  | [y1, y2, y3, y4, 'W', w1, w2, d] => do
      Date.ofWeek? (← year? y1 y2 y3 y4) (← Clock.twoDigits? w1 w2) (← weekday? d)
  | [y1, y2, y3, y4, '-', m1, m2, '-', d1, d2] => do
      let year ← year? y1 y2 y3 y4
      Date.ofCivil? year (← Clock.twoDigits? m1 m2) (← Clock.twoDigits? d1 d2)
  | [y1, y2, y3, y4, m1, m2, d1, d2] => do
      let year ← year? y1 y2 y3 y4
      Date.ofCivil? year (← Clock.twoDigits? m1 m2) (← Clock.twoDigits? d1 d2)
  | _ => none

def hyphenThenDigit : List Char → Bool × Bool
  | '-' :: _ :: next :: _ => (true, next.isDigit)
  | '-' :: _ => (true, false)
  | _ => (false, false)

/-- The width of a date that begins with `YYYYW`: an odd run of digits after the week number leaves
one of them to the date. -/
def basicWeekWidth (afterWeek : List Char) : Nat :=
  let run := (afterWeek.takeWhile Char.isDigit).length
  if run < 2 then 7 + run else if run % 2 = 1 then 7 else 8

def dateWidth : List Char → Nat
  | _ :: _ :: _ :: _ :: '-' :: 'W' :: _ :: _ :: rest =>
      match hyphenThenDigit rest with
      | (true, false) => 10
      | _ => 8
  | _ :: _ :: _ :: _ :: '-' :: _ => 10
  | _ :: _ :: _ :: _ :: 'W' :: _ :: _ :: rest => basicWeekWidth rest
  | _ => 8

def isSign (character : Char) : Bool := character == '+' || character == '-'

def offset? : List Char → Option Int
  | [] => none
  | sign :: rest =>
      match Clock.ofChars? rest with
      | none => none
      | some clock =>
          if clock.micros < Clock.microsPerDay then
            some (if sign = '-' then -clock.micros else clock.micros)
          else none

def timeOfDay? (text : List Char) : Option Clock :=
  match Clock.ofChars? text with
  | none => none
  | some clock => if clock.isTimeOfDay then some clock else none

def ofChars? (text : List Char) : Option Timestamp :=
  let width := dateWidth text
  match text.drop width with
  | [] => none
  | _ :: rest => do
      let date ← date? (text.take width)
      let clock ← timeOfDay? (rest.takeWhile fun character => !isSign character)
      let offset ← offset? (rest.dropWhile fun character => !isSign character)
      return ⟨date, clock, offset⟩

/-- Every `Z` written out as the distance zero. -/
def spellOutZulu (text : List Char) : List Char :=
  text.flatMap fun character =>
    if character = 'Z' then ['+', '0', '0', ':', '0', '0'] else [character]

def isAware (text : String) : Bool := (ofChars? (spellOutZulu text.toList)).isSome

example : isAware "2025-W01T12:00Z" = true := by decide +kernel

/-- Of three digits after a basic week, the first one separates and the others are the hour. -/
example : (ofChars? "2025W01309+00".toList).map (·.clock.hour) = some 9 := by decide +kernel

example : isAware "2025-01-01T24:00Z" = false ∧ isAware "2025-01-01T00:00+24:00" = false := by
  decide +kernel

example : (ofChars? "20250101 00+00:99".toList).map (·.offset) = some 5940000000 := by
  decide +kernel

/-- A year of at least four digits; a fifth one brings a sign with it. -/
def yearText (year : Nat) : String :=
  if year < 10000 then Text.Decimal.padded 4 year else "+" ++ Text.Decimal.ofNat year

def localText (timestamp : Timestamp) : String :=
  yearText timestamp.date.year ++ "-" ++ Text.Decimal.padded 2 timestamp.date.month ++ "-" ++
    Text.Decimal.padded 2 timestamp.date.day ++ "T" ++
    Text.Decimal.padded 2 timestamp.clock.hour ++ ":" ++
    Text.Decimal.padded 2 timestamp.clock.minute ++ ":" ++
    Text.Decimal.padded 2 timestamp.clock.second ++ "." ++
    Text.Decimal.padded 6 timestamp.clock.micro

end Timestamp

end WorkoutBoard.Calendar
