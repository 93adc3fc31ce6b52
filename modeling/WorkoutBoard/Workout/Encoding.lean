import WorkoutBoard.Json.Printer
import WorkoutBoard.Json.Record
import WorkoutBoard.Workout.Record

/-!
# Records as JSON

`toJson` writes the fields of a record in their declared order and leaves out what is absent.
`ofJson` reads either form of a record and fills absent fields that need no value.
-/

namespace WorkoutBoard.Workout

open Json (Field Reader Shape Value)

def Code.toJson (code : Code) : Value := .text code.text

def State.toJson (state : State) : Value :=
  .object [("startDateTime", .text state.startDateTime)]

def integer (value : Int64) : Value := .number (.integer value.toInt)

def StateRecord.toJson (record : StateRecord) : Value :=
  .object [("key", .text record.key), ("state", record.state.toJson), ("ttl", integer record.ttl)]

def optionalMember (name : String) : Option Value → List (String × Value)
  | none => []
  | some value => [(name, value)]

def ApiKeyRecord.toJson (record : ApiKeyRecord) : Value :=
  .object ([("key", .text record.key), ("api_key", .text record.apiKey)] ++
    optionalMember "description" (record.description.map .text) ++
    optionalMember "created_at" (record.createdAt.map integer))

def required {α : Type} (name : String) : Option α → Except String α
  | some value => .ok value
  | none => .error name

structure StateDraft where
  startDateTime : Option String

def State.shape : Shape StateDraft State where
  title := "struct WorkoutState"
  fields := [
    Field.of "startDateTime" StateDraft.startDateTime
      (fun _ value => ⟨some value⟩) fun _ => Json.textValue]
  blank := ⟨none⟩
  finish := fun draft => do
    let startDateTime ← required "startDateTime" draft.startDateTime
    return ⟨startDateTime⟩

structure StateRecordDraft where
  key : Option String
  state : Option State
  ttl : Option Int64

def StateRecord.shape : Shape StateRecordDraft StateRecord where
  title := "struct WorkoutStateRecord"
  fields := [
    Field.of "key" StateRecordDraft.key
      (fun draft value => { draft with key := some value }) fun _ => Json.textValue,
    Field.of "state" StateRecordDraft.state
      (fun draft value => { draft with state := some value }) State.shape.read,
    Field.of "ttl" StateRecordDraft.ttl
      (fun draft value => { draft with ttl := some value }) fun _ => Json.int64Value]
  blank := ⟨none, none, none⟩
  finish := fun draft => do
    let key ← required "key" draft.key
    let state ← required "state" draft.state
    let ttl ← required "ttl" draft.ttl
    return ⟨key, state, ttl⟩

structure ApiKeyDraft where
  key : Option String
  apiKey : Option String
  description : Option (Option String)
  createdAt : Option (Option Int64)

/-- A missing key attribute reads as the empty key, which authorizes nobody. -/
def ApiKeyRecord.shape : Shape ApiKeyDraft ApiKeyRecord where
  title := "struct ApiKeyRecord"
  fields := [
    Field.of "key" ApiKeyDraft.key
      (fun draft value => { draft with key := some value }) fun _ => Json.textValue,
    Field.of "api_key" ApiKeyDraft.apiKey
      (fun draft value => { draft with apiKey := some value }) fun _ => Json.textValue,
    Field.of "description" ApiKeyDraft.description
      (fun draft value => { draft with description := some value })
      fun _ => Json.optionalValue Json.textValue,
    Field.of "created_at" ApiKeyDraft.createdAt
      (fun draft value => { draft with createdAt := some value })
      fun _ => Json.optionalValue Json.int64Value]
  blank := ⟨none, none, none, none⟩
  finish := fun draft => do
    let key ← required "key" draft.key
    return ⟨key, draft.apiKey.getD "", draft.description.getD none, draft.createdAt.getD none⟩

structure Codec (α : Type) where
  read : Nat → Reader α
  toJson : α → Value

namespace Codec

def decode {α : Type} (codec : Codec α) (document : List UInt8) : Except Json.Fault α :=
  Json.readDocument (codec.read document.length) document

end Codec

def Code.codec : Codec Code where
  read := fun _ input => (Json.textValue input).map fun (text, rest) => (⟨text⟩, rest)
  toJson := Code.toJson

def State.codec : Codec State := ⟨State.shape.read, State.toJson⟩

def StateRecord.codec : Codec StateRecord := ⟨StateRecord.shape.read, StateRecord.toJson⟩

def ApiKeyRecord.codec : Codec ApiKeyRecord := ⟨ApiKeyRecord.shape.read, ApiKeyRecord.toJson⟩

end WorkoutBoard.Workout
