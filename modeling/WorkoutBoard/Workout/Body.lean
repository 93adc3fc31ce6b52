import WorkoutBoard.Calendar.Timestamp
import WorkoutBoard.Json.Value
import WorkoutBoard.Workout.Record

/-!
# States sent by clients

The body of a write is an object with the one member `startDateTime`, a string that denotes a
timestamp. `State.ofBody` checks the timestamp and keeps it as it is written.
-/

namespace WorkoutBoard.Workout

inductive Invalid where
  | schema
  | dateTime
deriving DecidableEq, Repr

def Invalid.message : Invalid → String
  | .schema => "Invalid workout state schema. Must contain only \"startDateTime\" field."
  | .dateTime => "startDateTime must be a valid timezone-aware ISO 8601 datetime string"

/-- The state of an object whose members all have the one name; of those the last one counts. -/
def State.ofMembers (members : List (String × Json.Value)) : Except Invalid State :=
  if members.all fun member => member.1 == "startDateTime" then
    match Json.lastMember? "startDateTime" members with
    | some (.text value) =>
        if Calendar.Timestamp.isAware value then .ok ⟨value⟩ else .error .dateTime
    | _ => .error .schema
  else
    .error .schema

def State.ofBody : Json.Value → Except Invalid State
  | .object members => State.ofMembers members
  | _ => .error .schema

end WorkoutBoard.Workout
