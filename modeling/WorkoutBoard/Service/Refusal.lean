import WorkoutBoard.Http.Message
import WorkoutBoard.Store.Failure
import WorkoutBoard.Workout.Body

/-!
# Refusals

Why a request is not granted, told to the client as an object of a code and a message.
-/

namespace WorkoutBoard.Service

inductive Refusal where
  | notFound (message : String)
  | unauthorized (message : String)
  | badRequest (message : String)
deriving DecidableEq, Repr

namespace Refusal

def code : Refusal → String
  | .notFound _ => "NotFoundError"
  | .unauthorized _ => "UnauthorizedError"
  | .badRequest _ => "BadRequestError"

def status : Refusal → Nat
  | .notFound _ => 404
  | .unauthorized _ => 401
  | .badRequest _ => 400

def message : Refusal → String
  | .notFound message => message
  | .unauthorized message => message
  | .badRequest message => message

def toJson (refusal : Refusal) : Json.Value :=
  .object [("Code", .text refusal.code), ("Message", .text refusal.message)]

def response (refusal : Refusal) : Http.Response := .json refusal.status refusal.toJson

inductive Purpose where
  | reading
  | writing
deriving DecidableEq, Repr

def Purpose.message : Purpose → String
  | .reading => "Error retrieving workout state"
  | .writing => "Error updating workout state"

def ofFailure (purpose : Purpose) (failure : Store.Failure) : Refusal :=
  .badRequest (purpose.message ++ ": " ++ failure.message)

def ofInvalid (invalid : Workout.Invalid) : Refusal := .badRequest invalid.message

end Refusal

end WorkoutBoard.Service
