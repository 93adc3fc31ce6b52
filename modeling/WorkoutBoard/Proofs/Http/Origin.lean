import WorkoutBoard.Http.Origin

/-!
# Headers about origins

What a policy adds to an answer goes by a few names, and no other header of an answer has one of
them.
-/

namespace WorkoutBoard.Http

def answerNames : List String :=
  ["vary", "access-control-allow-credentials", "access-control-allow-origin"]

def originNames : List String :=
  answerNames ++ ["access-control-allow-methods", "access-control-allow-headers",
    "access-control-max-age"]

namespace OriginPolicy

variable {policy : OriginPolicy} {request : Request}

theorem name_of_mem_allowedOrigin {header : String × String}
    (inside : header ∈ policy.allowedOrigin request) :
    header.1 = "access-control-allow-origin" := by
  cases policy with
  | exact origin =>
      obtain rfl := List.mem_singleton.mp inside
      rfl
  | any =>
      rw [allowedOrigin] at inside
      split at inside
      next =>
        obtain rfl := List.mem_singleton.mp inside
        rfl
      next => cases inside

theorem name_mem_of_mem_headers {header : String × String}
    (inside : header ∈ policy.headers request) : header.1 ∈ answerNames := by
  rw [headers, List.mem_cons, List.mem_cons] at inside
  rcases inside with rfl | rfl | allowed
  · exact (by decide : "vary" ∈ answerNames)
  · exact (by decide : "access-control-allow-credentials" ∈ answerNames)
  · rw [name_of_mem_allowedOrigin allowed]
    decide

theorem isAboutOrigins_of_mem_headers {header : String × String}
    (inside : header ∈ policy.headers request) : header.1 ∈ originNames :=
  List.mem_append_left _ (name_mem_of_mem_headers inside)

theorem isAboutOrigins_of_mem_inquiryHeaders :
    ∀ header ∈ inquiryHeaders, header.1 ∈ originNames := by
  decide

end OriginPolicy

end WorkoutBoard.Http
