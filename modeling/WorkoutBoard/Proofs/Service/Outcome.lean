import WorkoutBoard.Proofs.Service.Handler
import WorkoutBoard.Proofs.Store.Plan
import WorkoutBoard.Service.Serve

/-!
# What serving a request does

`Outcome` lists everything that one request can do to a store and how it is answered;
`serve_outcome` says that nothing else happens. Whatever holds after each of the few cases holds
after every request, and by `serveAll_induction` after every sequence of requests.
-/

namespace WorkoutBoard.Service

open Http (Request Response)
open Store (Backend Call Plan)
open Workout (ApiKeyRecord Code StateRecord)

variable {σ : Type}

/-- What may become of a request: the answer, and the contents of the store after it. -/
inductive Outcome (options : Options) (backend : Backend σ) (now : Int64) (request : Request)
    (before : σ) : Response × σ → Prop where
  | unasked (response : Response) (refused : request.method = "POST" → response.status ≠ 200) :
      Outcome options backend now request before (response, before)
  | read (code : Code) (isRead : IsRead request code)
      (answer : Except Store.Failure (Option StateRecord)) (after : σ)
      (found : backend.perform (.getState code now) before = (answer, after)) :
      Outcome options backend now request before
        (readAnswer options.origins request code answer, after)
  | refused (code : Code) (key : String) (isWrite : IsWrite request code key)
      (answer : Except Store.Failure (Option ApiKeyRecord)) (after : σ)
      (found : backend.perform (.getApiKey code) before = (answer, after))
      (response : Response) (status : response.status ≠ 200) :
      Outcome options backend now request before (response, after)
  | changed (code : Code) (key : String) (isWrite : IsWrite request code key)
      (record : ApiKeyRecord) (between : σ)
      (found : backend.perform (.getApiKey code) before = (.ok (some record), between))
      (accepted : record.apiKey = key) (nonempty : key ≠ "")
      (fits : request.body.length ≤ largestBody) (change : Change)
      (asked : Change.ofBody request.body = .ok change)
      (answer : Except Store.Failure (change.call now code).Result) (after : σ)
      (made : backend.perform (change.call now code) between = (answer, after)) :
      Outcome options backend now request before
        ((writeResponse code change answer).withHeaders (options.origins.headers request), after)

theorem tooLate_status (request : Request) : (tooLate request).status = 408 :=
  wordless_status 408 request

theorem limit_pos_of_status {options : Options} {backend : Backend σ} {now : Int64}
    {request : Request} {contents : σ}
    (success : (serve options backend now request contents).1.status = 200) :
    0 < options.limit := by
  refine Nat.pos_of_ne_zero fun none => ?_
  rw [serve, none, tooLate_status] at success
  cases success

def answerOf (request : Request) : Option Response × σ → Response × σ
  | (some response, after) => (response, after)
  | (none, after) => (tooLate request, after)

theorem serve_eq_answerOf {options : Options} {limit : Nat} (time : options.limit = limit + 1)
    (backend : Backend σ) (now : Int64) (request : Request) (before : σ) :
    serve options backend now request before =
      answerOf request ((handle options.origins now request).run backend limit before) := by
  rw [serve, time]
  dsimp only
  generalize (handle options.origins now request).run backend limit before = result
  obtain ⟨response | _, after⟩ := result <;> rfl

/-- A store that answers at once is asked to the end, unless there is no time at all. -/
theorem serve_eq_complete {options : Options} (positive : 0 < options.limit) {backend : Backend σ}
    (instant : ∀ call, backend.delay call = 0) (now : Int64) (request : Request) (before : σ) :
    serve options backend now request before =
      (handle options.origins now request).complete backend before := by
  obtain ⟨limit, time⟩ := Nat.exists_eq_succ_of_ne_zero (Nat.ne_of_gt positive)
  rw [serve_eq_answerOf time, Plan.run_eq_complete instant]
  rfl

theorem tooLate_unasked (options : Options) (backend : Backend σ) (now : Int64)
    (request : Request) (before : σ) :
    Outcome options backend now request before (tooLate request, before) :=
  .unasked _ fun _ => by rw [tooLate_status]; decide

theorem run_read_outcome {options : Options} {backend : Backend σ} {now : Int64}
    {request : Request} {code : Code} (isRead : IsRead request code) (limit : Nat) (before : σ) :
    Outcome options backend now request before
      (answerOf request ((handle options.origins now request).run backend limit before)) := by
  rw [handle_of_isRead isRead]
  by_cases tooSlow : limit < backend.delay (.getState code now)
  · rw [Plan.run_ask_of_lt tooSlow]
    exact tooLate_unasked ..
  · rw [Plan.run_ask_of_le (Nat.not_lt.mp tooSlow)]
    exact .read code isRead _ _ rfl

theorem run_change_outcome {options : Options} {backend : Backend σ} {now : Int64}
    {request : Request} {code : Code} {key : String} (isWrite : IsWrite request code key)
    {before between : σ} {record : ApiKeyRecord}
    (found : backend.perform (.getApiKey code) before = (.ok (some record), between))
    (accepted : record.apiKey = key) (nonempty : key ≠ "") (limit : Nat) :
    Outcome options backend now request before
      (answerOf request (((change now code request.body).andThen fun response =>
        .done (response.withHeaders (options.origins.headers request))).run
          backend limit between)) := by
  rw [change]
  split
  next =>
    have status : (Response.plain 413
        "Failed to buffer the request body: length limit exceeded").status = 413 := rfl
    exact .refused code key isWrite _ _ found _ (by rw [status_withHeaders, status]; decide)
  next fits =>
    split
    next refusal _ => exact .refused code key isWrite _ _ found _ (Refusal.status_ne_ok refusal)
    next change asked =>
      simp only [Plan.andThen]
      by_cases tooSlow : limit < backend.delay (change.call now code)
      · rw [Plan.run_ask_of_lt tooSlow]
        exact .refused code key isWrite _ _ found _ (by rw [tooLate_status]; decide)
      · rw [Plan.run_ask_of_le (Nat.not_lt.mp tooSlow)]
        exact .changed code key isWrite record _ found accepted nonempty (Nat.not_lt.mp fits) change
          asked _ _ rfl

theorem run_write_outcome {options : Options} {backend : Backend σ} {now : Int64}
    {request : Request} {code : Code} {key : String} (isWrite : IsWrite request code key)
    (limit : Nat) (before : σ) :
    Outcome options backend now request before
      (answerOf request ((handle options.origins now request).run backend limit before)) := by
  rw [handle_eq_ask_of_isWrite isWrite]
  by_cases tooSlow : limit < backend.delay (.getApiKey code)
  · rw [Plan.run_ask_of_lt tooSlow]
    exact tooLate_unasked ..
  · rw [Plan.run_ask_of_le (Nat.not_lt.mp tooSlow)]
    cases judged : judge key (backend.perform (.getApiKey code) before).1 with
    | error refusal => exact .refused code key isWrite _ _ rfl _ (Refusal.status_ne_ok refusal)
    | ok pass =>
        obtain ⟨record, found, accepted, nonempty⟩ := (judge_eq_ok_iff _ _).mp judged
        exact run_change_outcome isWrite (Prod.ext found rfl) accepted nonempty _

theorem serve_outcome (options : Options) (backend : Backend σ) (now : Int64) (request : Request)
    (before : σ) :
    Outcome options backend now request before (serve options backend now request before) := by
  cases time : options.limit with
  | zero =>
      rw [serve, time]
      exact tooLate_unasked ..
  | succ limit =>
      rw [serve_eq_answerOf time]
      rcases handle_cases request with ⟨code, isRead⟩ | ⟨code, key, isWrite⟩ | unasked
      · exact run_read_outcome isRead limit before
      · exact run_write_outcome isWrite limit before
      · obtain ⟨response, plan, refused⟩ := unasked options.origins now
        rw [plan]
        exact .unasked response refused

/-! ## Sequences of requests -/

theorem serveAll_cons (options : Options) (backend : Backend σ) (entry : Int64 × Request)
    (later : List (Int64 × Request)) (before : σ) :
    serveAll options backend (entry :: later) before =
      ((serve options backend entry.1 entry.2 before).1 ::
          (serveAll options backend later (serve options backend entry.1 entry.2 before).2).1,
        (serveAll options backend later (serve options backend entry.1 entry.2 before).2).2) := rfl

theorem serveAll_append (options : Options) (backend : Backend σ)
    (earlier later : List (Int64 × Request)) (before : σ) :
    serveAll options backend (earlier ++ later) before =
      ((serveAll options backend earlier before).1 ++
          (serveAll options backend later (serveAll options backend earlier before).2).1,
        (serveAll options backend later (serveAll options backend earlier before).2).2) := by
  induction earlier generalizing before with
  | nil => rfl
  | cons entry rest inductive_step =>
      rw [List.cons_append, serveAll_cons, serveAll_cons, inductive_step, List.cons_append]

theorem length_serveAll (options : Options) (backend : Backend σ)
    (history : List (Int64 × Request)) (before : σ) :
    (serveAll options backend history before).1.length = history.length := by
  induction history generalizing before with
  | nil => rfl
  | cons entry rest inductive_step =>
      rw [serveAll_cons, List.length_cons, inductive_step, List.length_cons]

theorem serveAll_induction {options : Options} {backend : Backend σ} (Holds : σ → Prop)
    (step : ∀ now request contents, Holds contents →
      Holds (serve options backend now request contents).2)
    (history : List (Int64 × Request)) {before : σ} (start : Holds before) :
    Holds (serveAll options backend history before).2 := by
  induction history generalizing before with
  | nil => exact start
  | cons entry rest inductive_step => exact inductive_step (step entry.1 entry.2 before start)

end WorkoutBoard.Service
