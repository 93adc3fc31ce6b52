import WorkoutBoard.Json.Printer
import WorkoutBoard.Json.Tree
import WorkoutBoard.Numeric.Magnitude

/-!
# Documents as they are written

A `Document` is a JSON text that is read with less care than a `Value`. A string keeps its spelling,
and an escape that stands for nothing is a fault only for those who ask for the text; numbers stay
as they are written, which may be with zeros in front or without a fraction after the point.
`Document.ofValue` gives the document of the compact text of a value. `Document.depth` counts the
containers in one another, by which a reader decides what it may pass over.
-/

namespace WorkoutBoard.Json

/-- What is written between the quotes of a string, and the text that it stands for, unless an
escape is bad. -/
structure Spelling where
  written : String
  text? : Option String
deriving DecidableEq, Repr, Inhabited

inductive Document where
  | null
  | boolean (value : Bool)
  | number (written : String)
  | text (spelling : Spelling)
  | list (elements : List Document)
  | object (members : List (Spelling × Document))
deriving Inhabited

/-- The bytes of a string after its opening quote, and what follows its closing quote. Whatever
stands after a backslash belongs to the string. -/
def spelledBytes : Reader (List UInt8)
  | [] => failHere .endOfText []
  | [byte] => if byte = 0x22 then .ok ([], []) else failHere .endOfText []
  | byte :: next :: rest =>
      if byte = 0x22 then .ok ([], next :: rest)
      else if byte < 0x20 then failHere .controlCharacter (next :: rest)
      else if byte = 0x5C then
        (spelledBytes rest).map fun (bytes, rest) => (byte :: next :: bytes, rest)
      else (spelledBytes (next :: rest)).map fun (bytes, rest) => (byte :: bytes, rest)

def unescaped? (bytes : List UInt8) : Option String :=
  match Json.text (bytes ++ [0x22]) with
  | .ok (text, []) => some text
  | _ => none

def spelling : Reader Spelling := fun input =>
  match spelledBytes input with
  | .error fault => .error fault
  | .ok (bytes, rest) =>
      match Text.Utf8.text? bytes with
      | none => failHere .invalidCodePoint rest
      | some written => .ok (⟨written, unescaped? bytes⟩, rest)

def Spelling.ofText (text : String) : Spelling :=
  ⟨String.ofList (text.toList.flatMap escapeChar), some text⟩

def isNumberByte (byte : UInt8) : Bool :=
  isDigit byte || byte == 0x2B || byte == 0x2D || byte == 0x2E || byte == 0x45 || byte == 0x65

def isNumber (written : List Char) : Bool :=
  (Numeric.Magnitude.ofChars written).toOption.isSome

def writtenNumber : Reader String := fun input =>
  let written := (input.takeWhile isNumberByte).map fun byte => Char.ofNat byte.toNat
  let rest := input.dropWhile isNumberByte
  if isNumber written then .ok (String.ofList written, rest) else failHere .invalidNumber rest

def Form.document : Form Spelling Document where
  name := spelling
  text := fun input => (spelling input).map fun (spelled, rest) => (.text spelled, rest)
  number := fun input => (writtenNumber input).map fun (written, rest) => (.number written, rest)
  null := .null
  boolean := .boolean
  list := .list
  object := .object
  bracketAfterComma := .trailingComma
  braceAfterComma := .trailingComma
  endAfterComma := .endOfValue

namespace Document

def ofBytes? (depth : Nat) (bytes : List UInt8) : Option Document :=
  (readDocument (Form.document.read bytes.length depth) bytes).toOption

mutual

def ofValue : Value → Document
  | .null => .null
  | .boolean value => .boolean value
  | .number value => .number (String.ofList value.characters)
  | .text value => .text (.ofText value)
  | .list elements => .list (ofElements elements)
  | .object members => .object (ofMembers members)

def ofElements : List Value → List Document
  | [] => []
  | value :: rest => ofValue value :: ofElements rest

def ofMembers : List (String × Value) → List (Spelling × Document)
  | [] => []
  | (name, value) :: rest => (.ofText name, ofValue value) :: ofMembers rest

end

mutual

def depth : Document → Nat
  | .list elements => depthOfElements elements + 1
  | .object members => depthOfMembers members + 1
  | _ => 0

def depthOfElements : List Document → Nat
  | [] => 0
  | value :: rest => max value.depth (depthOfElements rest)

def depthOfMembers : List (Spelling × Document) → Nat
  | [] => 0
  | (_, value) :: rest => max value.depth (depthOfMembers rest)

end

/-- A value that nobody asks for may be this deep. -/
def deepestIgnored : Nat := 512

def isIgnorable (value : Document) : Bool := value.depth ≤ deepestIgnored

def isNull : Document → Bool
  | .null => true
  | _ => false

def text? : Document → Option String
  | .text spelling => spelling.text?
  | _ => none

def named? : List (Spelling × Document) → Option (List (String × Document))
  | [] => some []
  | (name, value) :: rest => do
      let text ← name.text?
      let later ← named? rest
      return (text, value) :: later

def members? : Document → Option (List (String × Document))
  | .object members => named? members
  | _ => none

end Document

/-- A bad escape is a fault of the text only. -/
example :
    (spelling [0x61, 0x5C, 0x71, 0x22]).toOption = some (⟨"a\\q", none⟩, []) ∧
      (spelling [0x5C, 0x74, 0x22]).toOption = some (⟨"\\t", some "\t"⟩, []) := by
  decide +kernel

example :
    isNumber "-007".toList = true ∧ isNumber "1e999".toList = true ∧
      isNumber "1-2".toList = false := by
  decide +kernel

example : (Document.list [.list [], .null, .object []]).depth = 2 := by decide +kernel

end WorkoutBoard.Json
