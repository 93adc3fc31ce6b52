import WorkoutBoard.Http.Message

/-!
# Origins

Which web pages may use the answers. Because credentials are allowed, a policy for all origins
repeats the origin of the request.
-/

namespace WorkoutBoard.Http

inductive OriginPolicy where
  | any
  | exact (origin : String)
deriving DecidableEq, Repr

namespace OriginPolicy

/-- The origin that is allowed to use the answer to a request. -/
def allowedOrigin (policy : OriginPolicy) (request : Request) : Headers :=
  match policy with
  | .exact origin => [("access-control-allow-origin", origin)]
  | .any =>
      match request.header? "origin" with
      | some origin => [("access-control-allow-origin", origin)]
      | none => []

def headers (policy : OriginPolicy) (request : Request) : Headers :=
  ("vary", "origin, access-control-request-method, access-control-request-headers") ::
    ("access-control-allow-credentials", "true") :: policy.allowedOrigin request

def inquiryHeaders : Headers :=
  [("access-control-allow-methods", "GET,POST"),
    ("access-control-allow-headers", "content-type"),
    ("access-control-max-age", "600")]

end OriginPolicy

end WorkoutBoard.Http
