import WorkoutBoard.Proofs.Service.Outcome
import WorkoutBoard.Proofs.Store.Trace

/-!
# How a request goes

`Conduct` lists the ways in which a request can go that is answered in time: the calls that it makes
of the store, what these are answered, and the response. By `handle_conduct` there are no others,
whatever the store answers. A key is never looked up twice, nothing is read before it is looked up,
and a change is the last call.
-/

namespace WorkoutBoard.Service

open Http (Request Response Route)
open Store (Backend Event Plan)
open Workout (ApiKeyRecord Code StateRecord)

section

variable {origins : Http.OriginPolicy} {now : Int64} {request : Request} {trace : List Event}
  {response : Response}

end

/-! ## Statuses -/

def statuses : List Nat := [200, 400, 401, 404, 405, 413]

theorem Refusal.status_mem (refusal : Refusal) : refusal.response.status ∈ statuses := by
  change refusal.status ∈ statuses
  cases refusal <;> simp [Refusal.status, statuses]

theorem readResponse_status (code : Code) (answer : Except Store.Failure (Option StateRecord)) :
    (readResponse code answer).status ∈ statuses := by
  match answer with
  | .error failure => exact Refusal.status_mem (.ofFailure .reading failure)
  | .ok none =>
      exact Refusal.status_mem
        (.notFound ("Workout state not found for code: " ++ code.text))
  | .ok (some record) => exact (by decide : 200 ∈ statuses)

theorem writeResponse_status {α : Type} (code : Code) (change : Change)
    (answer : Except Store.Failure α) : (writeResponse code change answer).status ∈ statuses := by
  cases answer with
  | error failure => exact Refusal.status_mem (.ofFailure .writing failure)
  | ok done => exact (by decide : 200 ∈ statuses)

section

variable {now : Int64} {trace : List Event} {response : Response}

theorem writeState_status {code : Code} {key : String} {body : List UInt8}
    (concludes : (writeState now code key body).Concludes trace response) :
    response.status ∈ statuses := by
  rw [writeState] at concludes
  obtain ⟨earlier, later, judged, -, -, rest⟩ := concludes.of_andThen
  cases judged with
  | error refusal =>
      obtain ⟨-, rfl⟩ := rest.of_done
      exact refusal.status_mem
  | ok pass =>
      dsimp only at rest
      rw [change] at rest
      split at rest
      next =>
        obtain ⟨-, rfl⟩ := rest.of_done
        exact (by decide : 413 ∈ statuses)
      next =>
        split at rest
        next refusal _ =>
          obtain ⟨-, rfl⟩ := rest.of_done
          exact refusal.status_mem
        next change _ =>
          obtain ⟨answer, _, -, last⟩ := rest.of_ask
          obtain ⟨-, rfl⟩ := last.of_done
          exact writeResponse_status code change answer

theorem dispatch_status {body : List UInt8} {found : Route}
    (concludes : (dispatch now body found).Concludes trace response) :
    response.status ∈ statuses := by
  cases found with
  | index =>
      obtain ⟨-, rfl⟩ := concludes.of_done
      exact (by decide : 200 ∈ statuses)
  | readState segment =>
      rw [dispatch] at concludes
      split at concludes
      next =>
        obtain ⟨-, rfl⟩ := concludes.of_done
        exact (by decide : 400 ∈ statuses)
      next code _ =>
        obtain ⟨answer, _, -, rest⟩ := concludes.of_ask
        obtain ⟨-, rfl⟩ := rest.of_done
        exact readResponse_status ⟨code⟩ answer
  | keylessWrite segment =>
      obtain ⟨-, rfl⟩ := concludes.of_done
      exact Refusal.status_mem (.unauthorized "api_key is required")
  | writeState codeSegment keySegment =>
      rw [dispatch] at concludes
      split at concludes
      next message _ =>
        obtain ⟨-, rfl⟩ := concludes.of_done
        exact Refusal.status_mem (.badRequest message)
      next message _ _ =>
        obtain ⟨-, rfl⟩ := concludes.of_done
        exact Refusal.status_mem (.badRequest message)
      next => exact writeState_status concludes

theorem route_status {request : Request}
    (concludes : (route now request).Concludes trace response) : response.status ∈ statuses := by
  rw [route] at concludes
  split at concludes
  next =>
    obtain ⟨-, rfl⟩ := concludes.of_done
    rw [unrouted_status]
    decide
  next found _ =>
    rw [atRoute] at concludes
    split at concludes
    next =>
      obtain ⟨earlier, later, between, -, answered, rest⟩ := concludes.of_andThen
      obtain ⟨-, rfl⟩ := rest.of_done
      have status := dispatch_status answered
      split <;> exact status
    next =>
      obtain ⟨-, rfl⟩ := concludes.of_done
      exact (by decide : 405 ∈ statuses)

theorem handle_status {origins : Http.OriginPolicy} {request : Request}
    (concludes : (handle origins now request).Concludes trace response) :
    response.status ∈ statuses := by
  rw [handle] at concludes
  split at concludes
  next =>
    obtain ⟨-, rfl⟩ := concludes.of_done
    rw [status_withHeaders, wordless_status]
    decide
  next =>
    obtain ⟨earlier, later, between, -, answered, rest⟩ := concludes.of_andThen
    obtain ⟨-, rfl⟩ := rest.of_done
    rw [status_withHeaders]
    exact route_status answered

end

/-! ## The limit of time -/

section

variable {σ : Type} (options : Options) (backend : Backend σ) (now : Int64) (request : Request)
  (before : σ)

def callsOf : List Event := (handle options.origins now request).trace backend options.limit before

variable {options backend now request before}

theorem run_of_status_ne (inTime : (serve options backend now request before).1.status ≠ 408) :
    ∃ limit, options.limit = limit + 1 ∧
      (handle options.origins now request).run backend limit before =
        (some (serve options backend now request before).1,
          (serve options backend now request before).2) := by
  cases time : options.limit with
  | zero =>
      rw [serve, time] at inTime
      exact absurd (tooLate_status request) inTime
  | succ limit =>
      refine ⟨limit, rfl, ?_⟩
      rw [serve_eq_answerOf time] at inTime ⊢
      generalize (handle options.origins now request).run backend limit before = result
        at inTime ⊢
      obtain ⟨response | response, after⟩ := result
      · exact absurd (tooLate_status request) inTime
      · rfl

theorem serve_of_late (late : (serve options backend now request before).1.status = 408) :
    (serve options backend now request before).1 = tooLate request := by
  cases time : options.limit with
  | zero => rw [serve, time]
  | succ limit =>
      rw [serve_eq_answerOf time] at late ⊢
      cases result : (handle options.origins now request).run backend limit before with
      | mk answer after =>
          rw [result] at late
          cases answer with
          | none => rfl
          | some response =>
              have status := handle_status (Plan.concludes_trace (congrArg Prod.fst result))
              rw [show response.status = 408 from late] at status
              exact absurd status (by decide)

theorem callsOf_concludes
    (inTime : (serve options backend now request before).1.status ≠ 408) :
    (handle options.origins now request).Concludes (callsOf options backend now request before)
      (serve options backend now request before).1 := by
  obtain ⟨limit, time, result⟩ := run_of_status_ne inTime
  have answered := congrArg Prod.fst result
  rw [callsOf, Plan.trace_eq_of_run (Nat.le_of_lt (time ▸ Nat.lt_succ_self limit)) answered]
  exact Plan.concludes_trace answered

theorem serve_status (options : Options) (backend : Backend σ) (now : Int64) (request : Request)
    (before : σ) :
    (serve options backend now request before).1.status = 408 ∨
      (serve options backend now request before).1.status ∈ statuses := by
  by_cases late : (serve options backend now request before).1.status = 408
  · exact .inl late
  · exact .inr (handle_status (callsOf_concludes late))

/-- An answer comes too late exactly if the calls that the request starts take longer than the
limit. What takes just as long is left open. -/
theorem serve_status_eq_late_iff
    (apart : backend.elapsed (callsOf options backend now request before) ≠ options.limit) :
    (serve options backend now request before).1.status = 408 ↔
      options.limit < backend.elapsed (callsOf options backend now request before) := by
  cases time : options.limit with
  | zero =>
      have late : (serve options backend now request before).1.status = 408 := by
        rw [serve, time]
        exact tooLate_status request
      rw [time] at apart
      exact ⟨fun _ => Nat.pos_of_ne_zero apart, fun _ => late⟩
  | succ limit =>
      -- The run is cut one nanosecond before the limit, where no call ends.
      have cut := Plan.run_eq_none_iff backend (Nat.le_add_right limit 1)
        (handle options.origins now request) before
      rw [callsOf, time] at apart ⊢
      rw [serve_eq_answerOf time]
      cases result : (handle options.origins now request).run backend limit before with
      | mk answer after =>
          rw [result] at cut
          cases answer with
          | none =>
              have late := cut.mp rfl
              exact ⟨fun _ => by omega, fun _ => tooLate_status request⟩
          | some response =>
              have inTime := mt cut.mpr (Option.some_ne_none response)
              have status := handle_status (Plan.concludes_trace (congrArg Prod.fst result))
              constructor
              · intro late
                rw [show response.status = 408 from late] at status
                exact absurd status (by decide)
              · intro longer
                exact absurd (Nat.lt_of_succ_lt longer) inTime

end

end WorkoutBoard.Service
