import WorkoutBoard.Service.Handler

/-!
# Serving requests

A request that is not answered before the limit of time gets status 408 and no other word; if there
is no time at all, it is not even looked at. Requests are served one after the other, each at its
own time.
-/

namespace WorkoutBoard.Service

open Http (Request Response)
open Store (Backend)

/-- Settings of the service; the limit of time is in nanoseconds. -/
structure Options where
  origins : Http.OriginPolicy
  limit : Nat

def Options.standard : Options := ⟨.any, 10000000000⟩

def tooLate (request : Request) : Response := wordless 408 request

/-- Serves one request at the time `now`. What takes as long as the limit takes too long. -/
def serve {σ : Type} (options : Options) (backend : Backend σ) (now : Int64) (request : Request)
    (contents : σ) : Response × σ :=
  match options.limit with
  | 0 => (tooLate request, contents)
  | limit + 1 =>
      match (handle options.origins now request).run backend limit contents with
      | (some response, contents) => (response, contents)
      | (none, contents) => (tooLate request, contents)

def serveAll {σ : Type} (options : Options) (backend : Backend σ) :
    List (Int64 × Request) → σ → List Response × σ
  | [], contents => ([], contents)
  | (now, request) :: later, contents =>
      let (response, contents) := serve options backend now request contents
      let (responses, contents) := serveAll options backend later contents
      (response :: responses, contents)

end WorkoutBoard.Service
