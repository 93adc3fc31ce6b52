import WorkoutBoard.Http.Origin
import WorkoutBoard.Http.Route
import WorkoutBoard.Json.Tree
import WorkoutBoard.Service.Authorization
import WorkoutBoard.Workout.Encoding

/-!
# Handling a request

The plan that answers a request at a given time. A write is authorized before its body is looked at;
an empty body or `null` clears the state.
-/

namespace WorkoutBoard.Service

open Http (Request Response Route)
open Json (Value)
open Store (Plan)
open Workout (Code State StateRecord)

def unescape (name : String) (segment : List Char) : Except String String :=
  match Text.Percent.decode segment with
  | some text => .ok text
  | none => .error ("Invalid URL: Invalid UTF-8 in `" ++ name ++ "`")

def greeting : Value := .object [("hello", .text "world")]

def readResponse (code : Code) : Except Store.Failure (Option StateRecord) → Response
  | .error failure => (Refusal.ofFailure .reading failure).response
  | .ok none => (Refusal.notFound ("Workout state not found for code: " ++ code.text)).response
  | .ok (some record) => .json 200 record.state.toJson

def readState (now : Int64) (code : Code) : Plan Response :=
  .ask (.getState code now) fun answer => .done (readResponse code answer)

def isBlankBody (body : List UInt8) : Bool :=
  body.all fun byte =>
    byte == 0x20 || byte == 0x09 || byte == 0x0A || byte == 0x0C || byte == 0x0D

inductive Change where
  | clear
  | set (state : State)
deriving DecidableEq, Repr

def Change.ofBody (body : List UInt8) : Except Refusal Change :=
  if isBlankBody body then .ok .clear
  else
    match Value.ofBytes body with
    | .error fault => .error (.badRequest ("Error parsing JSON body: " ++ fault.message body))
    | .ok .null => .ok .clear
    | .ok value =>
        match State.ofBody value with
        | .error invalid => .error (.ofInvalid invalid)
        | .ok state => .ok (.set state)

def confirmation (code : Code) : Change → Value
  | .clear =>
      .object [("success", .boolean true),
        ("message", .text ("Workout state cleared for code: " ++ code.text))]
  | .set state =>
      .object [("success", .boolean true),
        ("message", .text ("Workout state updated for code: " ++ code.text)),
        ("startDateTime", .text state.startDateTime)]

def Change.call (now : Int64) (code : Code) : Change → Store.Call
  | .clear => .deleteState code
  | .set state => .putState (.ofWrite code state now)

def writeResponse {α : Type} (code : Code) (change : Change) : Except Store.Failure α → Response
  | .error failure => (Refusal.ofFailure .writing failure).response
  | .ok _ => .json 200 (confirmation code change)

def largestBody : Nat := 2097152

def change (now : Int64) (code : Code) (body : List UInt8) : Plan Response :=
  if largestBody < body.length then
    .done (.plain 413 "Failed to buffer the request body: length limit exceeded")
  else
    match Change.ofBody body with
    | .error refusal => .done refusal.response
    | .ok change =>
        .ask (change.call now code) fun answer => .done (writeResponse code change answer)

def writeState (now : Int64) (code : Code) (key : String) (body : List UInt8) : Plan Response :=
  (authorize code key).andThen fun
    | .error refusal => .done refusal.response
    | .ok () => change now code body

def dispatch (now : Int64) (body : List UInt8) : Route → Plan Response
  | .index => .done (.json 200 greeting)
  | .readState segment =>
      match unescape "workout_code" segment with
      | .error message => .done (.plain 400 message)
      | .ok code => readState now ⟨code⟩
  | .keylessWrite _ => .done (Refusal.unauthorized "api_key is required").response
  | .writeState codeSegment keySegment =>
      match unescape "workout_code" codeSegment, unescape "api_key" keySegment with
      | .error message, _ => .done (Refusal.badRequest message).response
      | .ok _, .error message => .done (Refusal.badRequest message).response
      | .ok code, .ok key => writeState now ⟨code⟩ key body

def notAllowed (route : Route) : Response :=
  (Response.empty 405).withHeaders [("allow", route.allowed)]

def atRoute (now : Int64) (request : Request) (route : Route) : Plan Response :=
  if route.allows request.method then
    (dispatch now request.body route).andThen fun response =>
      .done (if request.method = "HEAD" then response.withoutBody else response)
  else .done (notAllowed route)

/-- The answer to a path without a route. Only one that does not begin with a slash is told that
there is no body. -/
def unrouted (status : Nat) : List Char → Response
  | '/' :: _ => .bare status
  | _ => .empty status

def route (now : Int64) (request : Request) : Plan Response :=
  let path := Http.Target.path request.target
  match Route.ofPath? path with
  | none => .done (unrouted 404 path)
  | some found => atRoute now request found

/-- An answer that is nothing but a status. A route that does not have the request's method still
says so. -/
def wordless (status : Nat) (request : Request) : Response :=
  let path := Http.Target.path request.target
  match Route.ofPath? path with
  | none => unrouted status path
  | some found =>
      if found.allows request.method then .empty status
      else { notAllowed found with status := status }

def handle (origins : Http.OriginPolicy) (now : Int64) (request : Request) : Plan Response :=
  if request.method = "OPTIONS" then
    .done ((wordless 200 request).withHeaders
      (origins.headers request ++ Http.OriginPolicy.inquiryHeaders))
  else
    (route now request).andThen fun response =>
      .done (response.withHeaders (origins.headers request))

end WorkoutBoard.Service
