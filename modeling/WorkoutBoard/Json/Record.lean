import WorkoutBoard.Json.Tree

/-!
# Records in JSON texts

A record is written as an object with its fields in any order, or as the list of its fields in
their declared order. Members with other names are passed over, and a field may not be repeated. A
`Shape` declares the fields of one kind of record; its reader gathers them in a draft.
-/

namespace WorkoutBoard.Json

/-- Fails with what stands at the front of the input. A scalar is read to its end before that. -/
def failOnKind {α : Type} (expected : String) (input : List UInt8) : Except Fault α :=
  match input with
  | [] => failHere .endOfValue []
  | byte :: rest =>
      if byte = 0x22 then
        match text rest with
        | .error fault => .error fault
        | .ok (value, rest) => failHere (.unexpectedKind (.text value) expected) rest
      else if byte = 0x5B then failHere (.unexpectedKind .list expected) (byte :: rest)
      else if byte = 0x7B then failHere (.unexpectedKind .object expected) (byte :: rest)
      else if byte = 0x6E then
        match word nullTail rest with
        | .error fault => .error fault
        | .ok rest => failHere (.unexpectedKind .null expected) rest
      else if byte = 0x74 then
        match word trueTail rest with
        | .error fault => .error fault
        | .ok rest => failHere (.unexpectedKind (.boolean true) expected) rest
      else if byte = 0x66 then
        match word falseTail rest with
        | .error fault => .error fault
        | .ok rest => failHere (.unexpectedKind (.boolean false) expected) rest
      else if byte = 0x2D ∨ isDigit byte then
        match numberAt (byte :: rest) with
        | .error fault => .error fault
        | .ok (value, rest) => failHere (.unexpectedKind (.number value) expected) rest
      else failHere .expectedValue rest

def textValue : Reader String := fun input =>
  match skipBlanks input with
  | [] => failHere .endOfValue []
  | byte :: rest => if byte = 0x22 then text rest else failOnKind "a string" (byte :: rest)

def int64Value : Reader Int64 := fun input =>
  match skipBlanks input with
  | [] => failHere .endOfValue []
  | byte :: rest =>
      if byte = 0x2D ∨ isDigit byte then
        match numberAt (byte :: rest) with
        | .error fault => .error fault
        | .ok (.integer value, rest) =>
            if -(2 ^ 63) ≤ value ∧ value < 2 ^ 63 then .ok (Int64.ofInt value, rest)
            else failHere (.unexpectedValue (.number (.integer value)) "i64") rest
        | .ok (value, rest) => failHere (.unexpectedKind (.number value) "i64") rest
      else failOnKind "i64" (byte :: rest)

def optionalValue {α : Type} (inner : Reader α) : Reader (Option α) := fun input =>
  match skipBlanks input with
  | 0x6E :: rest =>
      match word nullTail rest with
      | .error fault => .error fault
      | .ok rest => .ok (none, rest)
  | input =>
      match inner input with
      | .error fault => .error fault
      | .ok (value, rest) => .ok (some value, rest)

/-- One field: its name, whether a draft has it, and how it is read into a draft. -/
structure Field (δ : Type) where
  name : String
  isFilled : δ → Bool
  read : Nat → δ → Reader δ

def Field.of {δ α : Type} (name : String) (get : δ → Option α) (set : δ → α → δ)
    (reader : Nat → Reader α) : Field δ where
  name := name
  isFilled := fun draft => (get draft).isSome
  read := fun budget draft input =>
    match reader budget input with
    | .error fault => .error fault
    | .ok (value, rest) => .ok (set draft value, rest)

/-- A kind of record. `finish` gives the record of a draft, or the name of its first missing
field. -/
structure Shape (δ α : Type) where
  title : String
  fields : List (Field δ)
  blank : δ
  finish : δ → Except String α

namespace Shape

variable {δ α : Type}

def expectation (shape : Shape δ α) : String :=
  shape.title ++ " with " ++ Text.Decimal.ofNat shape.fields.length ++
    (if shape.fields.length = 1 then " element" else " elements")

def pastBrace (input : List UInt8) : List UInt8 :=
  match skipBlanks input with
  | 0x7D :: rest => rest
  | rest => rest

def pastBracket (input : List UInt8) : List UInt8 :=
  match skipBlanks input with
  | 0x5D :: rest => rest
  | 0x2C :: rest => skipBlanks rest
  | rest => rest

def member (shape : Shape δ α) (budget : Nat) (draft : δ) : Reader δ := fun input =>
  match text input with
  | .error fault => .error fault
  | .ok (name, rest) =>
      match shape.fields.find? fun field => field.name == name with
      | none =>
          match colon rest with
          | .error fault => .error fault
          | .ok rest => (skipped budget rest).map fun (_, rest) => (draft, rest)
      | some field =>
          if field.isFilled draft then failHere (.repeatedField name) (pastBrace rest)
          else
            match colon rest with
            | .error fault => .error fault
            | .ok rest => field.read budget draft rest

def readObject (shape : Shape δ α) (budget : Nat) : Reader α := fun input =>
  match objectOf .trailingComma .endOfValue (shape.member budget) budget shape.blank input with
  | .error fault => .error fault
  | .ok (draft, rest) =>
      match shape.finish draft with
      | .error name => failHere (.missingField name) rest
      | .ok record => .ok (record, rest)

def nextElement (isFirst : Bool) (input : List UInt8) : Except Fault (Option (List UInt8)) :=
  match skipBlanks input with
  | [] => failHere .endOfList []
  | byte :: rest =>
      if byte = 0x5D then .ok none
      else if isFirst then .ok (some (byte :: rest))
      else if byte = 0x2C then
        match skipBlanks rest with
        | [] => failHere .endOfValue []
        | byte :: rest =>
            if byte = 0x5D then failHere .trailingComma rest else .ok (some (byte :: rest))
      else failHere .expectedListSeparator rest

/-- Reads fields in their order until the list has no more elements, and counts them. -/
def fill (budget : Nat) (count : Nat) (draft : δ) : List (Field δ) → Reader (Nat × δ)
  | [], input => .ok ((count, draft), input)
  | field :: later, input =>
      match nextElement (count == 0) input with
      | .error fault => .error fault
      | .ok none => .ok ((count, draft), input)
      | .ok (some rest) =>
          match field.read budget draft rest with
          | .error fault => .error fault
          | .ok (draft, rest) => fill budget (count + 1) draft later rest

def closeList (input : List UInt8) : Except Fault (List UInt8) :=
  match skipBlanks input with
  | [] => failHere .endOfList []
  | byte :: rest =>
      if byte = 0x5D then .ok rest
      else if byte = 0x2C then
        match skipBlanks rest with
        | [] => failHere .trailingCharacters []
        | byte :: rest =>
            if byte = 0x5D then failHere .trailingComma rest
            else failHere .trailingCharacters rest
      else failHere .trailingCharacters rest

def readList (shape : Shape δ α) (budget : Nat) : Reader α := fun input =>
  match fill budget 0 shape.blank shape.fields input with
  | .error fault => .error fault
  | .ok ((count, draft), rest) =>
      match shape.finish draft with
      | .error _ => failHere (.wrongLength count shape.expectation) (pastBracket rest)
      | .ok record =>
          match closeList rest with
          | .error fault => .error fault
          | .ok rest => .ok (record, rest)

def read (shape : Shape δ α) (budget : Nat) : Reader α := fun input =>
  match skipBlanks input with
  | [] => failHere .endOfValue []
  | byte :: rest =>
      if byte = 0x5B then shape.readList budget rest
      else if byte = 0x7B then shape.readObject budget rest
      else failOnKind shape.title (byte :: rest)

end Shape

end WorkoutBoard.Json
