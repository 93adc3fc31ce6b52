import WorkoutBoard.Service.Refusal
import WorkoutBoard.Store.Plan
import WorkoutBoard.Text.Utf8

/-!
# Authorization

A write needs the key that is provisioned for its code. Keys of equal length are compared to their
last byte, so that the time taken does not depend on where they differ; the empty key matches
nothing.
-/

namespace WorkoutBoard.Service

open Store (Plan)
open Workout (ApiKeyRecord Code)

/-- All bits in which two byte sequences differ, each place counted. -/
def differences (left right : List UInt8) : UInt8 :=
  (List.zipWith (fun one other => one ^^^ other) left right).foldl
    (fun seen bits => seen ||| bits) 0

def keysMatch (stored supplied : String) : Bool :=
  let left := Text.Utf8.bytes stored
  let right := Text.Utf8.bytes supplied
  if left.isEmpty || right.isEmpty || left.length != right.length then false
  else differences left right == 0

def judge (supplied : String) : Except Store.Failure (Option ApiKeyRecord) → Except Refusal Unit
  | .error failure => .error (.ofFailure .writing failure)
  | .ok none => .error (.unauthorized "Invalid workout code or API key not configured")
  | .ok (some record) =>
      if keysMatch record.apiKey supplied then .ok ()
      else .error (.unauthorized "Invalid API key")

def authorize (code : Code) (supplied : String) : Plan (Except Refusal Unit) :=
  if supplied.isEmpty then .done (.error (.unauthorized "api_key is required"))
  else .ask (.getApiKey code) fun answer => .done (judge supplied answer)

end WorkoutBoard.Service
