import WorkoutBoard.Json.Fault
import WorkoutBoard.Text.Percent
import WorkoutBoard.Text.Utf8

/-!
# Blanks, words and string literals

The parts of a JSON text without structure of their own. `text` reads the rest of a string literal
after its opening quote, and `skippedText` passes over it without asking which characters it holds.
-/

namespace WorkoutBoard.Json

def isBlank (byte : UInt8) : Bool :=
  byte == 0x20 || byte == 0x09 || byte == 0x0A || byte == 0x0D

def skipBlanks (input : List UInt8) : List UInt8 := input.dropWhile isBlank

def word : List UInt8 → List UInt8 → Except Fault (List UInt8)
  | [], input => .ok input
  | _ :: _, [] => failHere .endOfValue []
  | letter :: letters, byte :: rest =>
      if byte = letter then word letters rest else failHere .expectedWord rest

def nullTail : List UInt8 := [0x75, 0x6C, 0x6C]

def trueTail : List UInt8 := [0x72, 0x75, 0x65]

def falseTail : List UInt8 := [0x61, 0x6C, 0x73, 0x65]

def fourDigits? (first second third fourth : UInt8) : Option Nat := do
  let high ← Text.Percent.hexValue? first
  let upper ← Text.Percent.hexValue? second
  let lower ← Text.Percent.hexValue? third
  let low ← Text.Percent.hexValue? fourth
  some (high * 0x1000 + upper * 0x100 + lower * 0x10 + low)

def codeUnit : List UInt8 → Except Fault Nat
  | first :: second :: third :: fourth :: rest =>
      match fourDigits? first second third fourth with
      | some unit => .ok unit
      | none => failHere .invalidEscape rest
  | _ => failHere .endOfText []

def isLeadingSurrogate (unit : Nat) : Bool := 0xD800 ≤ unit && unit < 0xDC00

def isTrailingSurrogate (unit : Nat) : Bool := 0xDC00 ≤ unit && unit < 0xE000

def pairedCharacter (leading trailing : Nat) : Char :=
  Char.ofNat ((leading - 0xD800) * 0x400 + (trailing - 0xDC00) + 0x10000)

def trailingHalf (leading : Nat) : List UInt8 → Except Fault Char
  | [] => failHere .endOfText []
  | [byte] =>
      if byte = 0x5C then failHere .endOfText [] else failHere .unfinishedSurrogatePair []
  | byte :: letter :: rest =>
      if byte ≠ 0x5C then failHere .unfinishedSurrogatePair (letter :: rest)
      else if letter ≠ 0x75 then failHere .unfinishedSurrogatePair rest
      else
        match codeUnit rest with
        | .error fault => .error fault
        | .ok trailing =>
            if isTrailingSurrogate trailing then .ok (pairedCharacter leading trailing)
            else failHere .loneSurrogate (rest.drop 4)

/-- The character of an escape with a code unit, and the number of bytes after its `u`. -/
def codeUnitEscape (input : List UInt8) : Except Fault (Char × Nat) :=
  match codeUnit input with
  | .error fault => .error fault
  | .ok unit =>
      if isTrailingSurrogate unit then failHere .loneSurrogate (input.drop 4)
      else if isLeadingSurrogate unit then
        (trailingHalf unit (input.drop 4)).map fun character => (character, 10)
      else .ok (Char.ofNat unit, 4)

def shortEscape? (letter : UInt8) : Option Char :=
  if letter = 0x22 then some '"'
  else if letter = 0x5C then some '\\'
  else if letter = 0x2F then some '/'
  else if letter = 0x62 then some '\x08'
  else if letter = 0x66 then some '\x0C'
  else if letter = 0x6E then some '\n'
  else if letter = 0x72 then some '\r'
  else if letter = 0x74 then some '\t'
  else none

def escape : List UInt8 → Except Fault (Char × Nat)
  | [] => failHere .endOfText []
  | letter :: rest =>
      match shortEscape? letter with
      | some character => .ok (character, 1)
      | none =>
          if letter = 0x75 then
            (codeUnitEscape rest).map fun (character, width) => (character, width + 1)
          else failHere .invalidEscape rest

/-- Appends the characters of a string literal to those already read. The first byte that is no
UTF-8 spoils the literal, which is told when its end is found: as many bytes before the closing
quote as the text has from that byte on. -/
def textFrom (spoiled : Option Nat) (reversed : List Char) : Reader String
  | [] => failHere .endOfText []
  | byte :: rest =>
      if byte = 0x22 then
        match spoiled with
        | none => .ok (String.ofList reversed.reverse, rest)
        | some size => .error ⟨.invalidCodePoint, rest.length + size⟩
      else if byte = 0x5C then
        match escape rest with
        | .error fault => .error fault
        | .ok (character, width) =>
            textFrom (spoiled.map (· + character.utf8Size)) (character :: reversed)
              (rest.drop width)
      else if byte < 0x20 then failHere .controlCharacter rest
      else
        match Text.Utf8.decodeChar? byte rest with
        | some (character, width) =>
            textFrom (spoiled.map (· + character.utf8Size)) (character :: reversed)
              (rest.drop width)
        | none => textFrom (some (spoiled.getD 0 + 1)) reversed rest
termination_by input => input.length
decreasing_by all_goals (simp only [List.length_drop, List.length_cons]; omega)

def text : Reader String := textFrom none []

def skippedEscape : List UInt8 → Except Fault Nat
  | [] => failHere .endOfText []
  | letter :: rest =>
      match shortEscape? letter with
      | some _ => .ok 1
      | none =>
          if letter = 0x75 then (codeUnit rest).map fun _ => 5 else failHere .invalidEscape rest

def skippedText : Reader Unit
  | [] => failHere .endOfText []
  | byte :: rest =>
      if byte = 0x22 then .ok ((), rest)
      else if byte = 0x5C then
        match skippedEscape rest with
        | .error fault => .error fault
        | .ok width => skippedText (rest.drop width)
      else if byte < 0x20 then failHere .controlCharacter (byte :: rest)
      else skippedText rest
termination_by input => input.length
decreasing_by all_goals (simp only [List.length_drop, List.length_cons]; omega)

end WorkoutBoard.Json
