import WorkoutBoard.Json.Literal
import WorkoutBoard.Json.Numeral

/-!
# Values and containers

One reader of values for every purpose: a `Form` says what becomes of the scalars, lists and
objects that are found. `values` keeps everything, with containers up to a given depth, and
`skipped` passes over a value and keeps nothing. Both read lists and objects by `elements` and
`members`; a `budget` that bounds the number of steps is handed through unchanged, and the length of
the document is always enough.
-/

namespace WorkoutBoard.Json

/-- What becomes of the parts of a value, and how a comma without a successor is told. -/
structure Form (κ α : Type) where
  name : Reader κ
  text : Reader α
  number : Reader α
  null : α
  boolean : Bool → α
  list : List α → α
  object : List (κ × α) → α
  bracketAfterComma : Reason
  braceAfterComma : Reason
  endAfterComma : Reason

def colon (input : List UInt8) : Except Fault (List UInt8) :=
  match skipBlanks input with
  | [] => failHere .endOfObject []
  | byte :: rest => if byte = 0x3A then .ok rest else failHere .expectedColon rest

/-- The elements of a list, from the first one to the closing bracket. Each `step` reads one of
them and adds it to the state. -/
def elements {σ : Type} (bracketAfterComma : Reason) (step : σ → Reader σ) :
    Nat → σ → Reader σ
  | 0, _, input => failHere .endOfList input
  | budget + 1, state, input =>
      match step state input with
      | .error fault => .error fault
      | .ok (state, rest) =>
          match skipBlanks rest with
          | [] => failHere .endOfList []
          | byte :: rest =>
              if byte = 0x5D then .ok (state, rest)
              else if byte = 0x2C then
                match skipBlanks rest with
                | [] => failHere .endOfValue []
                | byte :: rest =>
                    if byte = 0x5D then failHere bracketAfterComma rest
                    else elements bracketAfterComma step budget state (byte :: rest)
              else failHere .expectedListSeparator rest

def listOf {σ : Type} (bracketAfterComma : Reason) (step : σ → Reader σ) (budget : Nat)
    (start : σ) : Reader σ := fun input =>
  match skipBlanks input with
  | [] => failHere .endOfList []
  | byte :: rest =>
      if byte = 0x5D then .ok (start, rest)
      else elements bracketAfterComma step budget start (byte :: rest)

def members {σ : Type} (braceAfterComma endAfterComma : Reason) (step : σ → Reader σ) :
    Nat → σ → Reader σ
  | 0, _, input => failHere .endOfObject input
  | budget + 1, state, input =>
      match step state input with
      | .error fault => .error fault
      | .ok (state, rest) =>
          match skipBlanks rest with
          | [] => failHere .endOfObject []
          | byte :: rest =>
              if byte = 0x7D then .ok (state, rest)
              else if byte = 0x2C then
                match skipBlanks rest with
                | [] => failHere endAfterComma []
                | byte :: rest =>
                    if byte = 0x22 then
                      members braceAfterComma endAfterComma step budget state rest
                    else if byte = 0x7D then failHere braceAfterComma rest
                    else failHere .nameMustBeText rest
              else failHere .expectedObjectSeparator rest

def objectOf {σ : Type} (braceAfterComma endAfterComma : Reason) (step : σ → Reader σ)
    (budget : Nat) (start : σ) : Reader σ := fun input =>
  match skipBlanks input with
  | [] => failHere .endOfObject []
  | byte :: rest =>
      if byte = 0x7D then .ok (start, rest)
      else if byte = 0x22 then members braceAfterComma endAfterComma step budget start rest
      else failHere .nameMustBeText rest

namespace Form

variable {κ α : Type}

def element (inner : Reader α) (reversed : List α) : Reader (List α) := fun input =>
  match inner input with
  | .error fault => .error fault
  | .ok (value, rest) => .ok (value :: reversed, rest)

def member (form : Form κ α) (inner : Reader α) (reversed : List (κ × α)) :
    Reader (List (κ × α)) := fun input =>
  match form.name input with
  | .error fault => .error fault
  | .ok (name, rest) =>
      match colon rest with
      | .error fault => .error fault
      | .ok rest =>
          match inner rest with
          | .error fault => .error fault
          | .ok (value, rest) => .ok ((name, value) :: reversed, rest)

def readList (form : Form κ α) (budget : Nat) (inner : Reader α) : Reader α := fun input =>
  match listOf form.bracketAfterComma (element inner) budget [] input with
  | .error fault => .error fault
  | .ok (reversed, rest) => .ok (form.list reversed.reverse, rest)

def readObject (form : Form κ α) (budget : Nat) (inner : Reader α) : Reader α := fun input =>
  match objectOf form.braceAfterComma form.endAfterComma (form.member inner) budget [] input with
  | .error fault => .error fault
  | .ok (reversed, rest) => .ok (form.object reversed.reverse, rest)

def readWord (tail : List UInt8) (value : α) : Reader α := fun input =>
  match word tail input with
  | .error fault => .error fault
  | .ok rest => .ok (value, rest)

/-- A value whose lists and objects hold what `inner` reads; without it they are refused. -/
def readOver (form : Form κ α) (budget : Nat) (inner : Option (Reader α)) : Reader α :=
  fun input =>
    match skipBlanks input with
    | [] => failHere .endOfValue []
    | byte :: rest =>
        if byte = 0x22 then form.text rest
        else if byte = 0x5B then
          match inner with
          | none => failHere .nestedTooDeep rest
          | some inner => form.readList budget inner rest
        else if byte = 0x7B then
          match inner with
          | none => failHere .nestedTooDeep rest
          | some inner => form.readObject budget inner rest
        else if byte = 0x6E then readWord nullTail form.null rest
        else if byte = 0x74 then readWord trueTail (form.boolean true) rest
        else if byte = 0x66 then readWord falseTail (form.boolean false) rest
        else if byte = 0x2D ∨ isDigit byte then form.number (byte :: rest)
        else failHere .expectedValue rest

def read (form : Form κ α) (budget : Nat) : Nat → Reader α
  | 0 => form.readOver budget none
  | depth + 1 => form.readOver budget (some (form.read budget depth))

end Form

def Form.value : Form String Value where
  name := Json.text
  text := fun input => (Json.text input).map fun (value, rest) => (.text value, rest)
  number := fun input => (numberAt input).map fun (value, rest) => (.number value, rest)
  null := .null
  boolean := .boolean
  list := .list
  object := .object
  bracketAfterComma := .trailingComma
  braceAfterComma := .trailingComma
  endAfterComma := .endOfValue

def Form.nothing : Form Unit Unit where
  name := skippedText
  text := skippedText
  number := skippedNumber
  null := ()
  boolean := fun _ => ()
  list := fun _ => ()
  object := fun _ => ()
  bracketAfterComma := .expectedValue
  braceAfterComma := .nameMustBeText
  endAfterComma := .endOfObject

def deepest : Nat := 127

def values (budget : Nat) : Reader Value := Form.value.read budget deepest

def skipped (budget : Nat) : Reader Unit := Form.nothing.read budget budget

def readDocument {α : Type} (reader : Reader α) (document : List UInt8) : Except Fault α :=
  match reader document with
  | .error fault => .error fault
  | .ok (value, rest) =>
      match skipBlanks rest with
      | [] => .ok value
      | _ :: rest => failHere .trailingCharacters rest

def Value.ofBytes (document : List UInt8) : Except Fault Value :=
  readDocument (values document.length) document

end WorkoutBoard.Json
