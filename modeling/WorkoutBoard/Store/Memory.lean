import WorkoutBoard.Directory
import WorkoutBoard.Store.Plan

/-!
# The store in memory

Two directories, one of states and one of keys. A state that is expired stays until it is written
over or deleted, and is only hidden from reads.
-/

namespace WorkoutBoard.Store

open Workout (ApiKeyRecord Code State StateRecord)

structure Memory where
  states : Directory StateRecord
  apiKeys : Directory ApiKeyRecord

namespace Memory

def empty : Memory := ⟨∅, ∅⟩

/-- The state of a code, expired or not. -/
def state? (memory : Memory) (code : Code) : Option StateRecord :=
  memory.states.find? code.stateKey

def apiKey? (memory : Memory) (code : Code) : Option ApiKeyRecord :=
  memory.apiKeys.find? code.apiKeyKey

def insertApiKey (memory : Memory) (code : Code) (apiKey : String) : Memory :=
  { memory with apiKeys := memory.apiKeys.insert code.apiKeyKey (.ofKey code apiKey) }

def putState (memory : Memory) (record : StateRecord) : Memory :=
  { memory with states := memory.states.insert record.key record }

def deleteState (memory : Memory) (code : Code) : Memory :=
  { memory with states := memory.states.erase code.stateKey }

/-! What each change does to the two views. -/

theorem apiKey?_insertApiKey (memory : Memory) (code other : Code) (apiKey : String) :
    (memory.insertApiKey code apiKey).apiKey? other =
      if other = code then some (.ofKey code apiKey) else memory.apiKey? other := by
  have keys : other.apiKeyKey = code.apiKeyKey ↔ other = code :=
    ⟨Code.apiKeyKey_injective, congrArg Code.apiKeyKey⟩
  simp only [apiKey?, insertApiKey, Directory.find?_insert, keys]

theorem state?_putState_ofWrite (memory : Memory) (code other : Code) (state : State)
    (now : Int64) :
    (memory.putState (.ofWrite code state now)).state? other =
      if other = code then some (.ofWrite code state now) else memory.state? other := by
  have keys : other.stateKey = code.stateKey ↔ other = code :=
    ⟨Code.stateKey_injective, congrArg Code.stateKey⟩
  simp only [state?, putState, StateRecord.ofWrite, Directory.find?_insert, keys]

theorem state?_deleteState (memory : Memory) (code other : Code) :
    (memory.deleteState code).state? other =
      if other = code then none else memory.state? other := by
  have keys : other.stateKey = code.stateKey ↔ other = code :=
    ⟨Code.stateKey_injective, congrArg Code.stateKey⟩
  simp only [state?, deleteState, Directory.find?_erase, keys]

def perform : (call : Call) → Memory → Except Failure call.Result × Memory
  | .getApiKey code, memory => (.ok (memory.apiKey? code), memory)
  | .getState code now, memory =>
      (.ok ((memory.state? code).filter fun record => !record.isExpired now), memory)
  | .putState record, memory => (.ok (), memory.putState record)
  | .deleteState code, memory => (.ok (), memory.deleteState code)

def backend : Backend Memory := ⟨fun _ => 0, perform⟩

end Memory

end WorkoutBoard.Store
