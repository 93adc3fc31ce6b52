import WorkoutBoard.Json.Value
import WorkoutBoard.Numeric.Shortest
import WorkoutBoard.Text.Quoted

/-!
# Faults of JSON texts

Why a byte sequence cannot be read, and where. A fault knows how many bytes follow its place, and
`Fault.place` turns that into a line and a column: lines are counted from one, and the column is
the number of bytes since the last line feed.
-/

namespace WorkoutBoard.Json

inductive Found where
  | null
  | boolean (value : Bool)
  | number (value : Number)
  | text (value : String)
  | list
  | object
deriving DecidableEq, Repr

def Found.message : Found → String
  | .null => "null"
  | .boolean true => "boolean `true`"
  | .boolean false => "boolean `false`"
  | .number (.integer value) => "integer `" ++ Text.Decimal.ofInt value ++ "`"
  | .number (.real negative magnitude) =>
      "floating point `" ++ (if negative then "-" else "") ++ magnitude.text ++ "`"
  | .text value => "string " ++ Text.Quoted.encode value
  | .list => "sequence"
  | .object => "map"

inductive Reason where
  | endOfList
  | endOfObject
  | endOfText
  | endOfValue
  | expectedColon
  | expectedListSeparator
  | expectedObjectSeparator
  | expectedWord
  | expectedValue
  | invalidEscape
  | invalidNumber
  | numberOutOfRange
  | invalidCodePoint
  | controlCharacter
  | nameMustBeText
  | loneSurrogate
  | unfinishedSurrogatePair
  | trailingComma
  | trailingCharacters
  | nestedTooDeep
  | unexpectedKind (found : Found) (expected : String)
  | unexpectedValue (found : Found) (expected : String)
  | wrongLength (length : Nat) (expected : String)
  | missingField (name : String)
  | repeatedField (name : String)
deriving DecidableEq, Repr

def Reason.message : Reason → String
  | .endOfList => "EOF while parsing a list"
  | .endOfObject => "EOF while parsing an object"
  | .endOfText => "EOF while parsing a string"
  | .endOfValue => "EOF while parsing a value"
  | .expectedColon => "expected `:`"
  | .expectedListSeparator => "expected `,` or `]`"
  | .expectedObjectSeparator => "expected `,` or `\x7d`"
  | .expectedWord => "expected ident"
  | .expectedValue => "expected value"
  | .invalidEscape => "invalid escape"
  | .invalidNumber => "invalid number"
  | .numberOutOfRange => "number out of range"
  | .invalidCodePoint => "invalid unicode code point"
  | .controlCharacter => "control character (\\u0000-\\u001F) found while parsing a string"
  | .nameMustBeText => "key must be a string"
  | .loneSurrogate => "lone leading surrogate in hex escape"
  | .unfinishedSurrogatePair => "unexpected end of hex escape"
  | .trailingComma => "trailing comma"
  | .trailingCharacters => "trailing characters"
  | .nestedTooDeep => "recursion limit exceeded"
  | .unexpectedKind found expected => "invalid type: " ++ found.message ++ ", expected " ++ expected
  | .unexpectedValue found expected =>
      "invalid value: " ++ found.message ++ ", expected " ++ expected
  | .wrongLength length expected =>
      "invalid length " ++ Text.Decimal.ofNat length ++ ", expected " ++ expected
  | .missingField name => "missing field `" ++ name ++ "`"
  | .repeatedField name => "duplicate field `" ++ name ++ "`"

/-- A reason and the number of bytes after the place it belongs to. -/
structure Fault where
  reason : Reason
  remaining : Nat
deriving DecidableEq, Repr

namespace Fault

def advance : Nat × Nat → List UInt8 → Nat × Nat
  | place, [] => place
  | (line, column), byte :: rest =>
      if byte = 0x0A then advance (line + 1, 0) rest else advance (line, column + 1) rest

def place (fault : Fault) (document : List UInt8) : Nat × Nat :=
  advance (1, 0) (document.take (document.length - fault.remaining))

def message (fault : Fault) (document : List UInt8) : String :=
  let (line, column) := fault.place document
  fault.reason.message ++ " at line " ++ Text.Decimal.ofNat line ++ " column " ++
    Text.Decimal.ofNat column

end Fault

/-- Takes a value from the front of the input and leaves the rest. -/
abbrev Reader (α : Type) := List UInt8 → Except Fault (α × List UInt8)

def failHere {α : Type} (reason : Reason) (input : List UInt8) : Except Fault α :=
  .error ⟨reason, input.length⟩

def failAtNext {α : Type} (reason : Reason) (input : List UInt8) : Except Fault α :=
  .error ⟨reason, input.length - 1⟩

end WorkoutBoard.Json
