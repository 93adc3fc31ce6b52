import WorkoutBoard.Proofs.Service.Decision
import WorkoutBoard.Proofs.Service.Handler

/-!
# Which codes and keys a request can name

Every code can be written under every key that is not empty, whatever characters they have, and
every code but the empty one can be read. A target names nothing else than its segments stand for:
the requests that authorize a key for a code are exactly those of `IsWrite`, those that read a code
are exactly those of `IsRead`, and no segment that stands for no text is taken to the store
(`every_pair_is_addressable`).
-/

namespace WorkoutBoard.Service

open Http (Request Response Route)
open Store (Call Plan)
open Workout (ApiKeyRecord Code)

variable {origins : Http.OriginPolicy} {now : Int64} {request : Request} {code : Code}
  {key : String}

/-- The request authorizes a key for a code, and the judgement of the two decides how it goes on. -/
def Authorizes (origins : Http.OriginPolicy) (now : Int64) (request : Request) (code : Code)
    (key : String) : Prop :=
  key ≠ "" ∧
    handle origins now request = (authorize code key).andThen (proceed origins now request code)

def Reads (origins : Http.OriginPolicy) (now : Int64) (request : Request) (code : Code) : Prop :=
  handle origins now request =
    .ask (.getState code now) fun answer => .done (readAnswer origins request code answer)

/-! ## Writes -/

theorem authorizes_of_isWrite (isWrite : IsWrite request code key) :
    Authorizes origins now request code key := by
  refine ⟨isWrite.key_ne_empty, ?_⟩
  rw [handle_eq_ask_of_isWrite isWrite, authorize_of_ne isWrite.key_ne_empty]
  rfl

theorem Authorizes.eq_ask (authorizes : Authorizes origins now request code key) :
    handle origins now request =
      .ask (.getApiKey code) fun answer => proceed origins now request code (judge key answer) := by
  obtain ⟨given, same⟩ := authorizes
  rw [same, authorize_of_ne given]
  rfl

theorem Change.status_of_ofBody {body : List UInt8} {refusal : Refusal}
    (refused : Change.ofBody body = .error refusal) : refusal.response.status = 400 := by
  rw [Change.ofBody] at refused
  split at refused
  next => cases refused
  next =>
    split at refused
    next =>
      obtain rfl := Except.error.inj refused
      rfl
    next => cases refused
    next =>
      split at refused
      next =>
        obtain rfl := Except.error.inj refused
        rfl
      next => cases refused

theorem proceed_ok_ne (origins : Http.OriginPolicy) (now : Int64) (request : Request) (code : Code)
    (message : String) :
    proceed origins now request code (.ok ()) ≠
      proceed origins now request code (.error (.unauthorized message)) := by
  intro same
  rw [proceed, proceed, change] at same
  split at same
  next =>
    have statuses := congrArg Response.status (Plan.done.inj same)
    exact absurd statuses (show ¬(413 : Nat) = 401 by decide)
  next =>
    split at same
    next refusal refused =>
      have statuses : refusal.response.status = 401 :=
        congrArg Response.status (Plan.done.inj same)
      rw [Change.status_of_ofBody refused] at statuses
      exact absurd statuses (by decide)
    next => cases same

/-- The key that a write is judged by can be told from the plan: a record with it is accepted, and
by any other key it would not be. -/
theorem key_eq_of_proceed {supplied other : String} (given : supplied ≠ "")
    (otherGiven : other ≠ "")
    (same : ∀ answer, proceed origins now request code (judge supplied answer) =
      proceed origins now request code (judge other answer)) : supplied = other := by
  by_contra different
  let record := ApiKeyRecord.ofKey code supplied
  have accepted : judge supplied (.ok (some record)) = .ok () :=
    (judge_eq_ok_iff _ _).mpr ⟨record, rfl, rfl, given⟩
  have unmatched : keysMatch record.apiKey other = false :=
    (keysMatch_eq_false_iff otherGiven).mpr different
  have refused : judge other (.ok (some record)) = .error (.unauthorized "Invalid API key") := by
    rw [judge, unmatched]
    rfl
  have answers := same (.ok (some record))
  rw [accepted, refused] at answers
  exact proceed_ok_ne _ _ _ _ _ answers

theorem authorizes_iff : Authorizes origins now request code key ↔ IsWrite request code key := by
  refine ⟨fun authorizes => ?_, authorizes_of_isWrite⟩
  have plan := authorizes.eq_ask
  rcases handle_cases request with ⟨found, isRead⟩ | ⟨found, supplied, isWrite⟩ | unasked
  · rw [handle_of_isRead isRead] at plan
    cases (Plan.ask.inj plan).1
  · rw [handle_eq_ask_of_isWrite isWrite] at plan
    obtain ⟨calls, nexts⟩ := Plan.ask.inj plan
    obtain rfl := Call.getApiKey.inj calls
    have keys := key_eq_of_proceed isWrite.key_ne_empty authorizes.1 (congrFun (eq_of_heq nexts))
    exact keys ▸ isWrite
  · obtain ⟨response, answered, -⟩ := unasked origins now
    rw [answered] at plan
    cases plan

/-! ## Reads -/

theorem reads_iff : Reads origins now request code ↔ IsRead request code := by
  refine ⟨fun plan => ?_, fun isRead => handle_of_isRead isRead origins now⟩
  rw [Reads] at plan
  rcases handle_cases request with ⟨found, isRead⟩ | ⟨found, key, isWrite⟩ | unasked
  · rw [handle_of_isRead isRead] at plan
    obtain rfl := (Call.getState.inj (Plan.ask.inj plan).1).1
    exact isRead
  · rw [handle_eq_ask_of_isWrite isWrite] at plan
    cases (Plan.ask.inj plan).1
  · obtain ⟨response, answered, -⟩ := unasked origins now
    rw [answered] at plan
    cases plan

/-! ## Segments that stand for no text -/

theorem decode_nil : Text.Percent.decode [] = some "" := by decide +kernel

theorem decode_root : Text.Percent.decode Route.root = some "workout-state" := by decide +kernel

theorem IsRead.decode_ne_none (isRead : IsRead request code) :
    ∀ segment ∈ Http.segments (Http.Target.path request.target),
      Text.Percent.decode segment ≠ none := by
  obtain ⟨-, segment, whole, -, path, read⟩ := isRead
  rw [path, Route.segments_root_append, Http.segments_of_not_mem whole]
  simp [decode_nil, decode_root, read]

theorem IsWrite.decode_ne_none (isWrite : IsWrite request code key) :
    ∀ segment ∈ Http.segments (Http.Target.path request.target),
      Text.Percent.decode segment ≠ none := by
  obtain ⟨-, codeSegment, keySegment, codeWhole, keyWhole, -, path, codeRead, keyRead⟩ := isWrite
  rw [path, Route.segments_root_append, Http.segments_append_slash codeWhole,
    Http.segments_of_not_mem keyWhole]
  simp [decode_nil, decode_root, codeRead, keyRead]

theorem handle_of_decode_eq_none {segment : List Char}
    (named : segment ∈ Http.segments (Http.Target.path request.target))
    (unreadable : Text.Percent.decode segment = none) (origins : Http.OriginPolicy) (now : Int64) :
    ∃ response, handle origins now request = .done response := by
  rcases handle_cases request with ⟨code, isRead⟩ | ⟨code, key, isWrite⟩ | unasked
  · exact absurd unreadable (isRead.decode_ne_none segment named)
  · exact absurd unreadable (isWrite.decode_ne_none segment named)
  · obtain ⟨response, answered, -⟩ := unasked origins now
    exact ⟨response, answered⟩

/-- Every code and every key that is not empty are named by the target that escapes them, every code
that is not empty can be read by such a target, and a target never names anything else than what its
segments stand for. Without a key, or with a segment that stands for no text, the store is not
asked. -/
theorem every_pair_is_addressable (origins : Http.OriginPolicy) (now : Int64) :
    (∀ code key headers body, key ≠ "" →
      Authorizes origins now
        ⟨"POST", String.ofList (Route.writePath code.text key), headers, body⟩ code key) ∧
    (∀ code headers body, code.text ≠ "" →
      Reads origins now ⟨"GET", String.ofList (Route.readPath code.text), headers, body⟩ code) ∧
    (∀ request code key, Authorizes origins now request code key ↔ IsWrite request code key) ∧
    (∀ request code, Reads origins now request code ↔ IsRead request code) ∧
    (∀ request, IsKeyless request →
      ∃ response, handle origins now request = .done response ∧ response.status = 401) ∧
    ∀ request : Request, ∀ segment ∈ Http.segments (Http.Target.path request.target),
      Text.Percent.decode segment = none →
        ∃ response, handle origins now request = .done response := by
  refine ⟨fun code key headers body given => ?_, fun code headers body nonempty => ?_,
    fun _ _ _ => authorizes_iff, fun _ _ => reads_iff, fun request keyless => ?_,
    fun request segment named unreadable => handle_of_decode_eq_none named unreadable origins now⟩
  · exact authorizes_of_isWrite
      (isWrite_writePath given rfl (Http.Target.path_writePath code.text key))
  · exact reads_iff.mpr (isRead_readPath nonempty rfl (Http.Target.path_readPath code.text))
  · exact ⟨_, handle_of_isKeyless keyless origins now, rfl⟩

theorem every_pair_is_addressable_with_delimiters :
    Authorizes .any 0 ⟨"POST", "/workout-state//%2F%3F%23%25", [], []⟩ ⟨""⟩ "/?#%" ∧
    Reads .any 0 ⟨"GET", "/workout-state/%2F%20", [], []⟩ ⟨"/ "⟩ ∧
    Authorizes .any 0 ⟨"POST", "/workout-state/%61/%zz?k", [], []⟩ ⟨"a"⟩ "%zz" ∧
    (∃ response, handle .any 0 ⟨"POST", "/workout-state/a%2F/", [], []⟩ = .done response ∧
      response.status = 401) ∧
    ∃ response, handle .any 0 ⟨"POST", "/workout-state/%ff/k", [], []⟩ = .done response := by
  obtain ⟨writes, reads, named, -, keyless, unreadable⟩ := every_pair_is_addressable .any 0
  have writeTarget :
      String.ofList (Route.writePath "" "/?#%") = "/workout-state//%2F%3F%23%25" := by
    decide +kernel
  have readTarget : String.ofList (Route.readPath "/ ") = "/workout-state/%2F%20" := by
    decide +kernel
  refine ⟨writeTarget ▸ writes ⟨""⟩ "/?#%" [] [] (by decide),
    readTarget ▸ reads ⟨"/ "⟩ [] [] (by decide), (named _ _ _).mpr ?_, keyless _ ?_,
    unreadable _ "%ff".toList ?_ (by decide +kernel)⟩
  · exact ⟨rfl, "%61".toList, "%zz".toList, by decide +kernel, by decide +kernel,
      by decide +kernel, by decide +kernel, by decide +kernel, by decide +kernel⟩
  · exact ⟨rfl, "a%2F".toList, by decide +kernel, by decide +kernel⟩
  · decide +kernel

end WorkoutBoard.Service
