import WorkoutBoard.Calendar.Timestamp
import WorkoutBoard.Machine.Course

/-!
# Timestamps read by a machine

The reading of timestamps as a machine does it: bytes are found by their positions, the width of a
date is a number of bytes, and all numbers are gathered in words. Only the search for a separator
and a sign goes by characters. `Bytewise.isAware` tells whether a text denotes a timestamp, or what
trapped the machine.
-/

namespace WorkoutBoard.Calendar.Bytewise

open Machine

def hyphen : UInt8 := 0x2D

def colon : UInt8 := 0x3A

def point : UInt8 := 0x2E

def comma : UInt8 := 0x2C

def weekMark : UInt8 := 0x57

def isDigit (byte : UInt8) : Bool := decide (0x30 ≤ byte) && decide (byte ≤ 0x39)

/-! ## Numbers -/

def appendDigit (value : Nat) (byte : UInt8) : Course Nat := do
  let tens ← word (value * 10)
  let digit ← minus byte.toNat 0x30
  word (tens + digit)

/-- The number that some digits denote. There must never be more than six of them. -/
def number (bytes : List UInt8) : Course Nat :=
  if bytes.isEmpty || !bytes.all isDigit then .refused
  else if 6 < bytes.length then .trapped .tooManyDigits
  else bytes.foldlM appendDigit 0

def numberAt (bytes : List UInt8) (start stop : Nat) : Course Nat := do
  number (← Course.ofOption (slice? bytes start stop))

/-! ## Dates -/

def passesAt (bytes : List UInt8) (position : Nat) (test : UInt8 → Bool) : Course Bool :=
  if position < bytes.length then do return test (← byteAt bytes position) else return false

def extendedWidth (bytes : List UInt8) : Course Nat := do
  if (← byteAt bytes 5) != weekMark then return 10
  else if ← passesAt bytes 8 (· == hyphen) then
    if bytes.length = 9 then .refused
    else if ← passesAt bytes 10 isDigit then return 8
    else return 10
  else return 8

def basicWeekWidth (bytes : List UInt8) : Course Nat := do
  let afterWeek ← bytesFrom bytes 7
  let firstOther := afterWeek.findIdx? fun byte => !isDigit byte
  let digitsEnd := (firstOther.map (· + 7)).getD bytes.length
  if digitsEnd < 9 then return digitsEnd
  else if digitsEnd % 2 = 0 then return 7
  else return 8

def dateWidth (bytes : List UInt8) : Course Nat := do
  if bytes.length < 7 then .refused
  else if bytes.length = 7 then return 7
  else if (← byteAt bytes 4) == hyphen then extendedWidth bytes
  else if (← byteAt bytes 4) == weekMark then basicWeekWidth bytes
  else return 8

def weekday (bytes : List UInt8) (extended : Bool) (position : Nat) : Course (Nat × Nat) :=
  if position < bytes.length then do
    if ((← byteAt bytes position) == hyphen) != extended then .refused
    else
      let start := position + extended.toNat
      let day ← numberAt bytes start (start + 1)
      return (day, start + 1)
  else return (1, position)

def dayInWeek (year week day : Nat) : Course Date :=
  if 1 ≤ day ∧ day ≤ 7 then do
    let monday ← Course.ofOption (Date.ofWeek? year week 1)
    let later ← minus day 1
    return ⟨monday.dayNumber + later⟩
  else .refused

def weekDate (bytes : List UInt8) (extended : Bool) (year position : Nat) : Course Date := do
  let week ← numberAt bytes position (position + 2)
  let (day, stop) ← weekday bytes extended (position + 2)
  if stop ≠ bytes.length then .refused else dayInWeek year week day

def civilDate (bytes : List UInt8) (extended : Bool) (year position : Nat) : Course Date := do
  let month ← numberAt bytes position (position + 2)
  if (bytes[position + 2]? == some hyphen) != extended then .refused
  else
    let start := position + 2 + extended.toNat
    let day ← numberAt bytes start (start + 2)
    if start + 2 ≠ bytes.length then .refused
    else Course.ofOption (Date.ofCivil? year month day)

def dateOfYear (bytes : List UInt8) (year : Nat) : Course Date :=
  let extended := bytes[4]? == some hyphen
  let start := 4 + extended.toNat
  if bytes[start]? == some weekMark then weekDate bytes extended year (start + 1)
  else civilDate bytes extended year start

def date (bytes : List UInt8) : Course Date := do
  let year ← numberAt bytes 0 4
  if year < 1 then .refused else dateOfYear bytes year

/-! ## Clock readings -/

/-- The two-digit parts of a clock reading from a position on, one and at most `more` others, and
where they end. The first part tells whether colons separate them. -/
def parts (bytes : List UInt8) : (more : Nat) → (colons : Option Bool) → (position : Nat) →
    Course (List Nat × Nat)
  | 0, _, position => do return ([← numberAt bytes position (position + 2)], position + 2)
  | more + 1, colons, position => do
      let part ← numberAt bytes position (position + 2)
      match bytes[position + 2]? with
      | none => return ([part], position + 2)
      | some next =>
          let separated := colons.getD (next == colon)
          if separated && next != colon then .refused
          else
            let later ← parts bytes more (some separated) (position + 2 + separated.toNat)
            return (part :: later.1, later.2)

def fraction (bytes : List UInt8) (position : Nat) : Course Nat :=
  if position < bytes.length then do
    let mark ← byteAt bytes position
    if mark != point && mark != comma then .refused
    else
      let places ← bytesFrom bytes (position + 1)
      if places.isEmpty || !places.all isDigit then .refused
      else
        let kept ← bytesUpTo places (min places.length 6)
        let value ← number kept
        let missing ← minus 6 kept.length
        let scale ← word (10 ^ missing)
        word (value * scale)
  else return 0

def reading (bytes : List UInt8) (more : Nat) (colons : Option Bool) (position : Nat)
    (make : List Nat → Nat → Clock) : Course Clock := do
  let found ← parts bytes more colons position
  let micro ← fraction bytes found.2
  return make found.1 micro

def clock (bytes : List UInt8) : Course Clock :=
  reading bytes 2 none 0 fun found micro =>
    ⟨found.getD 0 0, found.getD 1 0, found.getD 2 0, micro⟩

def micros (clock : Clock) : Course Int := do
  let hours ← longWord (clock.hour * 60)
  let minutes ← longWord (hours + clock.minute)
  let inSeconds ← longWord (minutes * 60)
  let seconds ← longWord (inSeconds + clock.second)
  let inMicros ← longWord (seconds * 1000000)
  longWord (inMicros + clock.micro)

/-! ## Timestamps -/

def signOffset? : List Char → Option Nat
  | [] => none
  | character :: rest =>
      if Timestamp.isSign character then some 0
      else (signOffset? rest).map (width character + ·)

def offset (negative : Bool) (text : List Char) : Course Int := do
  let distance ← micros (← clock (Text.Utf8.encode text))
  if (Clock.microsPerDay : Int) ≤ distance then .refused
  else longWord ((if negative then -1 else 1) * distance)

def timeAndOffset (date : Date) (text : List Char) : Course Timestamp := do
  let signAt ← Course.ofOption (signOffset? text)
  let (before, signed) ← cut signAt text
  let time ← clock (Text.Utf8.encode before)
  if !time.isTimeOfDay then .refused
  else
    let (_, after) ← cut (signAt + 1) text
    let offset ← offset (signed.head? == some '-') after
    return ⟨date, time, offset⟩

def timestampAt (width : Nat) (text : List Char) : Course Timestamp := do
  let (front, back) ← Course.ofOption (cut? width text)
  let date ← date (Text.Utf8.encode front)
  match back with
  | [] => .refused
  | _ :: rest => timeAndOffset date rest

def timestamp (text : List Char) : Course Timestamp := do
  timestampAt (← dateWidth (Text.Utf8.encode text)) text

/-- Whether a text denotes a timestamp once `Z` is written out. -/
def isAware (text : String) : Course Bool :=
  match timestamp (Timestamp.spellOutZulu text.toList) with
  | .value _ => .value true
  | .refused => .value false
  | .trapped trap => .trapped trap

end WorkoutBoard.Calendar.Bytewise
