import WorkoutBoard.Workout.Code

/-!
# Records

What is stored for a workout: its state, which expires, and the key that guards writes to it.
Times are seconds since 1970.
-/

namespace WorkoutBoard.Workout

structure State where
  startDateTime : String
deriving DecidableEq, Repr

structure StateRecord where
  key : String
  state : State
  ttl : Int64
deriving DecidableEq, Repr

def lifetime : Int64 := 1209600

namespace StateRecord

def ofWrite (code : Code) (state : State) (now : Int64) : StateRecord :=
  ⟨code.stateKey, state, now + lifetime⟩

/-- A record whose last second has come counts as absent. -/
def isExpired (record : StateRecord) (now : Int64) : Bool := decide (record.ttl ≤ now)

end StateRecord

structure ApiKeyRecord where
  key : String
  apiKey : String
  description : Option String
  createdAt : Option Int64
deriving DecidableEq, Repr

def ApiKeyRecord.ofKey (code : Code) (apiKey : String) : ApiKeyRecord :=
  ⟨code.apiKeyKey, apiKey, none, none⟩

end WorkoutBoard.Workout
