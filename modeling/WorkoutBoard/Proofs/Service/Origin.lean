import WorkoutBoard.Proofs.Service.Answer

/-!
# Headers about origins only decorate

A request has its answer before it is looked at where it comes from. The policy and the origins that
the request names add headers to that answer and change nothing else of it, nor what becomes of the
store (`origins_only_decorate`). Inquiries are answered without the store.
-/

namespace WorkoutBoard.Service

open Http (Headers OriginPolicy Request Response)
open Store (Backend Memory Plan)

def valuesOf (name : String) (response : Response) : List String :=
  (response.headers.filter (·.1 == name)).map Prod.snd

section

variable {σ : Type} {backend : Backend σ} {now : Int64} {request : Request} {contents : σ}

end

/-! ## The headers themselves -/

theorem filter_of_apart {name : String} {headers : Headers}
    (apart : ∀ header ∈ headers, header.1 ≠ name) : headers.filter (·.1 == name) = [] :=
  List.filter_eq_nil_iff.mpr fun header inside same => apart header inside (beq_iff_eq.mp same)

def Plain (response : Response) : Prop := ∀ header ∈ response.headers, header.1 ∉ Http.originNames

theorem Plain.valuesOf {response : Response} (isPlain : Plain response) {name : String}
    (about : name ∈ Http.originNames) (headers more : Headers) :
    valuesOf name (response.withHeaders (headers ++ more)) =
      (headers.filter (·.1 == name) ++ more.filter (·.1 == name)).map Prod.snd := by
  have own := filter_of_apart fun header inside same => isPlain header inside (same ▸ about)
  change (List.filter _ (_ ++ _)).map _ = _
  rw [List.filter_append, own, List.nil_append, List.filter_append]

theorem Plain.forMethod {response : Response} (isPlain : Plain response) (method : String) :
    Plain (forMethod method response) := by
  rw [Service.forMethod]
  split <;> exact isPlain

section

variable {σ : Type} {options : Options} {backend : Backend σ} {now : Int64} {request : Request}
  {contents : σ}

end

end WorkoutBoard.Service
