import WorkoutBoard.Json.Printer
import WorkoutBoard.Text.Utf8

/-!
# Requests and responses

A response lists its headers by lower-case names. A JSON or plain answer tells the number of bytes
of its body; `Response.withoutBody` keeps that number and drops the body.
-/

namespace WorkoutBoard.Http

abbrev Headers := List (String × String)

structure Request where
  method : String
  target : String
  headers : Headers
  body : List UInt8
deriving DecidableEq, Repr

structure Response where
  status : Nat
  headers : Headers
  body : String
deriving DecidableEq, Repr

/-- The first header of a name, which is compared without regard to case. -/
def Request.header? (request : Request) (name : String) : Option String :=
  (request.headers.find? fun header => header.1.toLower == name).map Prod.snd

namespace Response

def contentLength (body : String) : String × String :=
  ("content-length", Text.Decimal.ofNat (Text.Utf8.bytes body).length)

def withBody (status : Nat) (contentType body : String) : Response :=
  ⟨status, [("content-type", contentType), contentLength body], body⟩

def json (status : Nat) (value : Json.Value) : Response :=
  withBody status "application/json" value.compact

def plain (status : Nat) (text : String) : Response :=
  withBody status "text/plain; charset=utf-8" text

/-- A response without a body that says so. -/
def empty (status : Nat) : Response := ⟨status, [("content-length", "0")], ""⟩

/-- A response that says nothing at all. -/
def bare (status : Nat) : Response := ⟨status, [], ""⟩

def withHeaders (response : Response) (headers : Headers) : Response :=
  { response with headers := response.headers ++ headers }

def withoutBody (response : Response) : Response := { response with body := "" }

end Response

end WorkoutBoard.Http
