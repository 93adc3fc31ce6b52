import WorkoutBoard.Store.Attribute
import WorkoutBoard.Store.Failure
import WorkoutBoard.Workout.Record

/-!
# Records as items

`toItem` writes a record with one attribute for each of its fields and leaves out what is absent.
`ofItem` reads the attributes it knows and passes over all others, which must be sound but may hold
anything; a wrong attribute is told before a missing one.
-/

namespace WorkoutBoard

open Store (Attribute Item ItemFault)

namespace Store.Item

def readText : Attribute → Except ItemFault String
  | .text value => .ok value
  | _ => .error .expectedText

def readInteger : Attribute → Except ItemFault Int64
  | .number digits =>
      match Text.Decimal.int64 digits.toList with
      | .ok value => .ok value
      | .error fault => .error (.notAnInteger digits fault)
  | _ => .error .expectedNumber

def readOptional {α : Type} (inner : Attribute → Except ItemFault α) :
    Attribute → Except ItemFault (Option α)
  | .null true => .ok none
  | other => (inner other).map some

def readPresent {α : Type} (inner : Attribute → Except ItemFault α) :
    Option Attribute → Except ItemFault (Option α)
  | none => .ok none
  | some present => (inner present).map some

def required {α : Type} (name : String) : Option α → Except ItemFault α
  | some value => .ok value
  | none => .error (.missingField name)

def passNumber (text : String) : Except ItemFault Unit :=
  match Numeric.Magnitude.ofChars text.toList with
  | .ok _ => .ok ()
  | .error fault => .error (.notANumber text fault)

mutual

/-- Passes over an attribute: its numbers must be numbers, and its nulls must say so. -/
def pass : Attribute → Except ItemFault Unit
  | .number text => passNumber text
  | .numbers values => values.forM passNumber
  | .null value => if value then .ok () else .error .expectedNothing
  | .list elements => passElements elements
  | .fields entries => passEntries entries
  | _ => .ok ()

def passElements : List Attribute → Except ItemFault Unit
  | [] => .ok ()
  | head :: rest => do
      pass head
      passElements rest

def passEntries : List (String × Attribute) → Except ItemFault Unit
  | [] => .ok ()
  | (_, head) :: rest => do
      pass head
      passEntries rest

end

def passOthers (known : List String) (item : Item) : Except ItemFault Unit :=
  passEntries (item.toList.filter fun entry => !known.contains entry.1)

/-- A state, as a map or as a list whose first element is its one field. -/
def readState : Attribute → Except ItemFault Workout.State
  | .fields entries => do
      let fields := Directory.ofList entries
      let start ← readPresent readText (fields.find? "startDateTime")
      passOthers ["startDateTime"] fields
      return ⟨← required "startDateTime" start⟩
  | .list [] => .error .emptyState
  | .list (first :: _) => do return ⟨← readText first⟩
  | _ => .error .expectedMap

def optionalEntry (name : String) : Option Attribute → List (String × Attribute)
  | none => []
  | some value => [(name, value)]

def integer (value : Int64) : Attribute := .number (Text.Decimal.ofInt value.toInt)

end Store.Item

namespace Workout

open Store.Item

def StateRecord.toItem (record : StateRecord) : Item :=
  Directory.ofList [("key", .text record.key),
    ("state", .fields [("startDateTime", .text record.state.startDateTime)]),
    ("ttl", integer record.ttl)]

def StateRecord.ofItem (item : Item) : Except ItemFault StateRecord := do
  let key ← readPresent readText (item.find? "key")
  let state ← readPresent readState (item.find? "state")
  let ttl ← readPresent readInteger (item.find? "ttl")
  passOthers ["key", "state", "ttl"] item
  return ⟨← required "key" key, ← required "state" state, ← required "ttl" ttl⟩

def ApiKeyRecord.toItem (record : ApiKeyRecord) : Item :=
  Directory.ofList ([("key", .text record.key), ("api_key", .text record.apiKey)] ++
    optionalEntry "description" (record.description.map .text) ++
    optionalEntry "created_at" (record.createdAt.map integer))

def ApiKeyRecord.ofItem (item : Item) : Except ItemFault ApiKeyRecord := do
  let key ← readPresent readText (item.find? "key")
  let apiKey ← readPresent readText (item.find? "api_key")
  let description ← readPresent (readOptional readText) (item.find? "description")
  let createdAt ← readPresent (readOptional readInteger) (item.find? "created_at")
  passOthers ["key", "api_key", "description", "created_at"] item
  return ⟨← required "key" key, apiKey.getD "", description.getD none, createdAt.getD none⟩

end Workout

end WorkoutBoard
