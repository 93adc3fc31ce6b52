import WorkoutBoard.Proofs.Http.Origin
import WorkoutBoard.Proofs.Json.Object
import WorkoutBoard.Proofs.Service.Conduct
import WorkoutBoard.Proofs.Store.StateItem
import WorkoutBoard.Proofs.Store.Table
import WorkoutBoard.Store.Memory

/-!
# What answers say

`Statement` lists the objects that the service has to say, and `Intends` which of them a request is
owed, by the calls that it makes and what these are answered. An answer in JSON says the one that is
intended, and its body is read back as just that object whatever texts are in it
(`json_answers_are_read_back`).
-/

namespace WorkoutBoard.Service

open Http (Headers Request Response Route)
open Json (Value)
open Store (Backend Conditions Event Memory Plan Table)
open Workout (ApiKeyRecord Code HoldsStart StateRecord)

inductive Statement where
  | greeting
  | refusal (refusal : Refusal)
  | state (start : String)
  | cleared (code : Code)
  | updated (code : Code) (start : String)

namespace Statement

def status : Statement → Nat
  | .refusal (.notFound _) => 404
  | .refusal (.unauthorized _) => 401
  | .refusal (.badRequest _) => 400
  | _ => 200

def members : Statement → List (String × Value)
  | .greeting => [("hello", .text "world")]
  | .refusal (.notFound message) =>
      [("Code", .text "NotFoundError"), ("Message", .text message)]
  | .refusal (.unauthorized message) =>
      [("Code", .text "UnauthorizedError"), ("Message", .text message)]
  | .refusal (.badRequest message) =>
      [("Code", .text "BadRequestError"), ("Message", .text message)]
  | .state start => [("startDateTime", .text start)]
  | .cleared code =>
      [("success", .boolean true),
        ("message", .text ("Workout state cleared for code: " ++ code.text))]
  | .updated code start =>
      [("success", .boolean true),
        ("message", .text ("Workout state updated for code: " ++ code.text)),
        ("startDateTime", .text start)]

def response (statement : Statement) : Response :=
  .json statement.status (.object statement.members)

theorem response_refusal (reason : Refusal) :
    (Statement.refusal reason).response = reason.response := by
  cases reason <;> rfl

theorem members_scalar (statement : Statement) :
    ∀ member ∈ statement.members, member.2.IsScalar := by
  rcases statement with _ | (_ | _ | _) | _ | _ | _ <;> simp [members, Value.IsScalar]

end Statement

/-- What is to be said to a request whose calls are answered as listed. -/
inductive Intends (now : Int64) (request : Request) : List Event → Statement → Prop where
  | greeting (method : request.method = "GET" ∨ request.method = "HEAD")
      (path : Http.Target.path request.target = ['/']) : Intends now request [] .greeting
  | state {code : Code} (isRead : IsRead request code) (record : StateRecord) :
      Intends now request [⟨.getState code now, some (.ok (some record))⟩]
        (.state record.state.startDateTime)
  | absent {code : Code} (isRead : IsRead request code) :
      Intends now request [⟨.getState code now, some (.ok none)⟩]
        (.refusal (.notFound ("Workout state not found for code: " ++ code.text)))
  | unread {code : Code} (isRead : IsRead request code) (failure : Store.Failure) :
      Intends now request [⟨.getState code now, some (.error failure)⟩]
        (.refusal (.badRequest ("Error retrieving workout state: " ++ failure.message)))
  | keyless (isKeyless : IsKeyless request) :
      Intends now request [] (.refusal (.unauthorized "api_key is required"))
  | unreadable {codeSegment keySegment : List Char} {name : String}
      (isPost : request.method = "POST")
      (path : Route.ofPath? (Http.Target.path request.target) =
        some (.writeState codeSegment keySegment))
      (first : Text.Percent.decode codeSegment = none ∧ name = "workout_code" ∨
        Text.Percent.decode codeSegment ≠ none ∧ Text.Percent.decode keySegment = none ∧
          name = "api_key") :
      Intends now request []
        (.refusal (.badRequest ("Invalid URL: Invalid UTF-8 in `" ++ name ++ "`")))
  | unchecked {code : Code} {key : String} (isWrite : IsWrite request code key)
      (failure : Store.Failure) :
      Intends now request [⟨.getApiKey code, some (.error failure)⟩]
        (.refusal (.badRequest ("Error updating workout state: " ++ failure.message)))
  | unprovisioned {code : Code} {key : String} (isWrite : IsWrite request code key) :
      Intends now request [⟨.getApiKey code, some (.ok none)⟩]
        (.refusal (.unauthorized "Invalid workout code or API key not configured"))
  | mismatched {code : Code} {key : String} (isWrite : IsWrite request code key)
      (record : ApiKeyRecord) (different : record.apiKey ≠ key) :
      Intends now request [⟨.getApiKey code, some (.ok (some record))⟩]
        (.refusal (.unauthorized "Invalid API key"))
  | rejected {code : Code} {key : String} (isWrite : IsWrite request code key)
      (record : ApiKeyRecord) (matching : record.apiKey = key)
      (fits : request.body.length ≤ largestBody) {refusal : Refusal}
      (refused : Change.ofBody request.body = .error refusal) :
      Intends now request [⟨.getApiKey code, some (.ok (some record))⟩] (.refusal refusal)
  | unchanged {code : Code} {key : String} (isWrite : IsWrite request code key)
      (record : ApiKeyRecord) (matching : record.apiKey = key)
      (fits : request.body.length ≤ largestBody) {change : Change}
      (asked : Change.ofBody request.body = .ok change) (failure : Store.Failure) :
      Intends now request [⟨.getApiKey code, some (.ok (some record))⟩,
          ⟨change.call now code, some (.error failure)⟩]
        (.refusal (.badRequest ("Error updating workout state: " ++ failure.message)))
  | cleared {code : Code} {key : String} (isWrite : IsWrite request code key)
      (record : ApiKeyRecord) (matching : record.apiKey = key)
      (fits : request.body.length ≤ largestBody)
      (asked : Change.ofBody request.body = .ok .clear) :
      Intends now request [⟨.getApiKey code, some (.ok (some record))⟩,
        ⟨.deleteState code, some (.ok ())⟩] (.cleared code)
  | updated {code : Code} {key : String} (isWrite : IsWrite request code key)
      (record : ApiKeyRecord) (matching : record.apiKey = key)
      (fits : request.body.length ≤ largestBody) {state : Workout.State}
      (asked : Change.ofBody request.body = .ok (.set state)) :
      Intends now request [⟨.getApiKey code, some (.ok (some record))⟩,
          ⟨.putState (.ofWrite code state now), some (.ok ())⟩]
        (.updated code state.startDateTime)

/-- How a request is answered before it is looked at that a `HEAD` gets no body and which origin it
comes from: by a statement, in plain words, or without a word. -/
inductive Told (now : Int64) (request : Request) : List Event → Response → Prop where
  | said {trace : List Event} {statement : Statement}
      (intended : Intends now request trace statement) :
      Told now request trace statement.response
  | plain {trace : List Event} (status : Nat) (text : String) :
      Told now request trace (.plain status text)
  | wordless {trace : List Event} (status : Nat) (headers : Headers)
      (few : ∀ header ∈ headers, header.1 = "content-length" ∨ header.1 = "allow") :
      Told now request trace ⟨status, headers, ""⟩

theorem unescape_eq_error_iff (name : String) (segment : List Char) (message : String) :
    unescape name segment = .error message ↔ Text.Percent.decode segment = none ∧
      message = "Invalid URL: Invalid UTF-8 in `" ++ name ++ "`" := by
  rw [unescape]
  split
  next text read => simp [read]
  next nothing => simp [nothing, eq_comm]

section

variable {now : Int64} {request : Request} {trace : List Event} {response : Response}

theorem readResponse_told {code : Code} (isRead : IsRead request code)
    (answer : Except Store.Failure (Option StateRecord)) :
    Told now request [⟨.getState code now, some answer⟩] (readResponse code answer) := by
  match answer with
  | .error failure => exact .said (.unread isRead failure)
  | .ok none => exact .said (.absent isRead)
  | .ok (some record) => exact .said (.state isRead record)

theorem change_told {code : Code} {key : String} (isWrite : IsWrite request code key)
    {record : ApiKeyRecord} (matching : record.apiKey = key)
    (concludes : (change now code request.body).Concludes trace response) :
    Told now request (⟨.getApiKey code, some (.ok (some record))⟩ :: trace) response := by
  rw [change] at concludes
  split at concludes
  next =>
    obtain ⟨rfl, rfl⟩ := concludes.of_done
    exact .plain 413 _
  next notLong =>
    have fits := Nat.not_lt.mp notLong
    split at concludes
    next refusal refused =>
      obtain ⟨rfl, rfl⟩ := concludes.of_done
      rw [← Statement.response_refusal]
      exact .said (.rejected isWrite record matching fits refused)
    next change asked =>
      obtain ⟨answer, later, rfl, rest⟩ := concludes.of_ask
      obtain ⟨rfl, rfl⟩ := rest.of_done
      cases answer with
      | error failure => exact .said (.unchanged isWrite record matching fits asked failure)
      | ok done =>
          cases change with
          | clear => exact .said (.cleared isWrite record matching fits asked)
          | set state => exact .said (.updated isWrite record matching fits asked)

theorem writeState_told {code : Code} {key : String} (isWrite : IsWrite request code key)
    (concludes : (writeState now code key request.body).Concludes trace response) :
    Told now request trace response := by
  have given : ¬key.isEmpty = true := fun empty =>
    isWrite.key_ne_empty (String.isEmpty_iff.mp empty)
  rw [writeState, authorize, if_neg given] at concludes
  obtain ⟨answer, later, rfl, rest⟩ := concludes.of_ask
  rcases answer with failure | _ | record
  · obtain ⟨rfl, rfl⟩ := rest.of_done
    exact .said (.unchecked isWrite failure)
  · obtain ⟨rfl, rfl⟩ := rest.of_done
    exact .said (.unprovisioned isWrite)
  · cases accepted : keysMatch record.apiKey key with
    | false =>
        have different : record.apiKey ≠ key := fun same => by
          rw [(keysMatch_iff _ _).mpr ⟨same, isWrite.key_ne_empty⟩] at accepted
          cases accepted
        simp only [judge, accepted] at rest
        obtain ⟨rfl, rfl⟩ := rest.of_done
        exact .said (.mismatched isWrite record different)
    | true =>
        have matching := ((keysMatch_iff _ _).mp accepted).1
        simp only [judge, accepted] at rest
        exact change_told isWrite matching rest

theorem dispatch_told {found : Route}
    (path : Route.ofPath? (Http.Target.path request.target) = some found)
    (allowed : found.allows request.method = true)
    (concludes : (dispatch now request.body found).Concludes trace response) :
    Told now request trace response := by
  obtain ⟨sound, written⟩ := Route.eq_toPath_of_ofPath? path
  cases found with
  | index =>
      have method : request.method = "GET" ∨ request.method = "HEAD" := by
        simpa [Route.allows, Route.isRead] using allowed
      obtain ⟨rfl, rfl⟩ := concludes.of_done
      exact .said (.greeting method written)
  | readState segment =>
      have method : request.method = "GET" ∨ request.method = "HEAD" := by
        simpa [Route.allows, Route.isRead] using allowed
      rw [dispatch] at concludes
      split at concludes
      next =>
        obtain ⟨rfl, rfl⟩ := concludes.of_done
        exact .plain 400 _
      next code read =>
        have isRead : IsRead request ⟨code⟩ :=
          ⟨method, segment, sound.1, sound.2, written, (unescape_eq_ok_iff _ _ _).mp read⟩
        obtain ⟨answer, later, rfl, rest⟩ := concludes.of_ask
        obtain ⟨rfl, rfl⟩ := rest.of_done
        exact readResponse_told isRead answer
  | keylessWrite segment =>
      have isPost : request.method = "POST" := by
        simpa [Route.allows, Route.isRead] using allowed
      obtain ⟨rfl, rfl⟩ := concludes.of_done
      exact .said (.keyless ⟨isPost, segment, sound, written⟩)
  | writeState codeSegment keySegment =>
      have isPost : request.method = "POST" := by
        simpa [Route.allows, Route.isRead] using allowed
      rw [dispatch] at concludes
      split at concludes
      next message unread =>
        obtain ⟨rfl, rfl⟩ := concludes.of_done
        obtain ⟨nothing, rfl⟩ := (unescape_eq_error_iff _ _ _).mp unread
        exact .said (.unreadable isPost path (.inl ⟨nothing, rfl⟩))
      next text message read unread =>
        obtain ⟨rfl, rfl⟩ := concludes.of_done
        obtain ⟨nothing, rfl⟩ := (unescape_eq_error_iff _ _ _).mp unread
        have readable : Text.Percent.decode codeSegment ≠ none := by
          rw [(unescape_eq_ok_iff _ _ _).mp read]
          exact Option.some_ne_none text
        exact .said (.unreadable isPost path (.inr ⟨readable, nothing, rfl⟩))
      next code key codeRead keyRead =>
        have isWrite : IsWrite request ⟨code⟩ key :=
          ⟨isPost, codeSegment, keySegment, sound.1, sound.2.1, sound.2.2, written,
            (unescape_eq_ok_iff _ _ _).mp codeRead, (unescape_eq_ok_iff _ _ _).mp keyRead⟩
        exact writeState_told isWrite concludes

theorem unrouted_wordless (status : Nat) (path : List Char) :
    ∃ headers, unrouted status path = ⟨status, headers, ""⟩ ∧
      ∀ header ∈ headers, header.1 = "content-length" ∨ header.1 = "allow" := by
  unfold unrouted
  split
  · exact ⟨[], rfl, by simp⟩
  · exact ⟨[("content-length", "0")], rfl, by simp⟩

theorem wordless_wordless (status : Nat) (request : Request) :
    ∃ headers, wordless status request = ⟨status, headers, ""⟩ ∧
      ∀ header ∈ headers, header.1 = "content-length" ∨ header.1 = "allow" := by
  rw [wordless]
  dsimp only
  split
  next => exact unrouted_wordless status _
  next found _ =>
    split
    · exact ⟨[("content-length", "0")], rfl, by simp⟩
    · exact ⟨[("content-length", "0"), ("allow", found.allowed)], rfl, by simp⟩

def forMethod (method : String) (response : Response) : Response :=
  if method = "HEAD" then response.withoutBody else response

theorem route_told (concludes : (route now request).Concludes trace response) :
    ∃ told, Told now request trace told ∧ response = forMethod request.method told := by
  rw [route] at concludes
  split at concludes
  next =>
    obtain ⟨rfl, rfl⟩ := concludes.of_done
    obtain ⟨headers, same, few⟩ := unrouted_wordless 404 (Http.Target.path request.target)
    refine ⟨_, .wordless 404 headers few, ?_⟩
    rw [same, forMethod]
    split <;> rfl
  next found path =>
    rw [atRoute] at concludes
    split at concludes
    next allowed =>
      obtain ⟨earlier, later, told, rfl, answered, rest⟩ := concludes.of_andThen
      obtain ⟨rfl, rfl⟩ := rest.of_done
      rw [List.append_nil]
      exact ⟨told, dispatch_told path allowed answered, rfl⟩
    next =>
      obtain ⟨rfl, rfl⟩ := concludes.of_done
      refine ⟨_, .wordless 405 [("content-length", "0"), ("allow", found.allowed)] (by simp), ?_⟩
      rw [forMethod]
      split <;> rfl

theorem handle_told {origins : Http.OriginPolicy} (notInquiry : request.method ≠ "OPTIONS")
    (concludes : (handle origins now request).Concludes trace response) :
    ∃ told, Told now request trace told ∧
      response = (forMethod request.method told).withHeaders (origins.headers request) := by
  rw [handle, if_neg notInquiry] at concludes
  obtain ⟨earlier, later, routed, rfl, answered, rest⟩ := concludes.of_andThen
  obtain ⟨rfl, rfl⟩ := rest.of_done
  obtain ⟨told, isTold, rfl⟩ := route_told answered
  rw [List.append_nil]
  exact ⟨told, isTold, rfl⟩

/-! ## What is intended is said -/

theorem forMethod_of_isPost {request : Request} (isPost : request.method = "POST")
    (response : Response) : forMethod request.method response = response := by
  rw [isPost]
  rfl

theorem handle_concludes {origins : Http.OriginPolicy} {found : Route} {told : Response}
    (path : Route.ofPath? (Http.Target.path request.target) = some found)
    (allowed : found.allows request.method = true)
    (dispatched : dispatch now request.body found = .done told) :
    (handle origins now request).Concludes []
      ((forMethod request.method told).withHeaders (origins.headers request)) := by
  rw [handle_of_ofPath? path allowed, dispatched]
  exact .done _

theorem write_concludes {origins : Http.OriginPolicy} {code : Code} {key : String}
    (isWrite : IsWrite request code key) {answer : Except Store.Failure (Option ApiKeyRecord)}
    {told : Response}
    (proceeds : (proceed origins now request code (judge key answer)).Concludes trace
      (told.withHeaders (origins.headers request))) :
    (handle origins now request).Concludes (⟨.getApiKey code, some answer⟩ :: trace)
      ((forMethod request.method told).withHeaders (origins.headers request)) := by
  rw [handle_eq_ask_of_isWrite isWrite, forMethod_of_isPost isWrite.1]
  exact .ask _ proceeds

theorem opened_concludes {origins : Http.OriginPolicy} {code : Code} {key : String}
    (isWrite : IsWrite request code key) {record : ApiKeyRecord} (matching : record.apiKey = key)
    {told : Response}
    (changes : (proceed origins now request code (.ok ())).Concludes trace
      (told.withHeaders (origins.headers request))) :
    (handle origins now request).Concludes
      (⟨.getApiKey code, some (.ok (some record))⟩ :: trace)
      ((forMethod request.method told).withHeaders (origins.headers request)) := by
  refine write_concludes isWrite ?_
  rw [(judge_eq_ok_iff _ _).mpr ⟨record, rfl, matching, isWrite.key_ne_empty⟩]
  exact changes

theorem Intends.concludes {statement : Statement} (intended : Intends now request trace statement)
    (origins : Http.OriginPolicy) :
    (handle origins now request).Concludes trace
      ((forMethod request.method statement.response).withHeaders (origins.headers request)) := by
  cases intended with
  | greeting method path =>
      have found : Route.ofPath? (Http.Target.path request.target) = some .index :=
        (Route.ofPath?_eq_some_iff _ _).mpr ⟨trivial, path⟩
      have allowed : Route.index.allows request.method = true := by
        simpa [Route.allows, Route.isRead] using method
      exact handle_concludes found allowed rfl
  | state isRead record =>
      rw [handle_of_isRead isRead]
      exact .ask _ (.done _)
  | absent isRead =>
      rw [handle_of_isRead isRead]
      exact .ask _ (.done _)
  | unread isRead failure =>
      rw [handle_of_isRead isRead]
      exact .ask _ (.done _)
  | keyless isKeyless =>
      rw [handle_of_isKeyless isKeyless, forMethod_of_isPost isKeyless.1]
      exact .done _
  | @unreadable codeSegment keySegment name isPost path first =>
      have allowed : (Route.writeState codeSegment keySegment).allows request.method = true := by
        simpa [Route.allows, Route.isRead] using isPost
      refine handle_concludes path allowed ?_
      rcases first with ⟨unread, rfl⟩ | ⟨readable, unread, rfl⟩
      · rw [dispatch, (unescape_eq_error_iff _ _ _).mpr ⟨unread, rfl⟩]
        rfl
      · obtain ⟨text, read⟩ := Option.ne_none_iff_exists'.mp readable
        rw [dispatch, (unescape_eq_ok_iff _ _ _).mpr read,
          (unescape_eq_error_iff _ _ _).mpr ⟨unread, rfl⟩]
        rfl
  | unchecked isWrite failure => exact write_concludes isWrite (.done _)
  | unprovisioned isWrite => exact write_concludes isWrite (.done _)
  | @mismatched code key isWrite record different =>
      have refused : judge key (.ok (some record)) = .error (.unauthorized "Invalid API key") := by
        rw [judge, if_neg]
        exact fun accepted => different ((keysMatch_iff _ _).mp accepted).1
      refine write_concludes isWrite ?_
      rw [refused]
      exact .done _
  | rejected isWrite record matching fits refused =>
      refine opened_concludes isWrite matching ?_
      rw [proceed, change, if_neg (Nat.not_lt.mpr fits), refused, Statement.response_refusal]
      exact .done _
  | unchanged isWrite record matching fits asked failure =>
      refine opened_concludes isWrite matching ?_
      rw [proceed_of_ofBody fits asked]
      exact .ask _ (.done _)
  | cleared isWrite record matching fits asked =>
      refine opened_concludes isWrite matching ?_
      rw [proceed_of_ofBody fits asked]
      exact .ask _ (.done _)
  | updated isWrite record matching fits asked =>
      refine opened_concludes isWrite matching ?_
      rw [proceed_of_ofBody fits asked]
      exact .ask _ (.done _)

end

/-! ## Bodies -/

/-- The answer says a statement and nothing else: its body is read as the object of the statement,
and the number of its bytes is told. -/
structure Says (statement : Statement) (response : Response) : Prop where
  status : response.status = statement.status
  contentType : ("content-type", "application/json") ∈ response.headers
  body : Value.ofBytes (Text.Utf8.bytes response.body) = .ok (.object statement.members)
  contentLength : response.headers.filter (·.1 == "content-length") =
    [("content-length", Text.Decimal.ofNat (Text.Utf8.bytes response.body).length)]

theorem Statement.isSaid (statement : Statement) {headers : Headers}
    (apart : ∀ header ∈ headers, header.1 ∈ Http.originNames) :
    Says statement (statement.response.withHeaders headers) where
  status := rfl
  contentType := List.mem_cons_self
  body := Value.ofBytes_compact_object statement.members_scalar
  contentLength := by
    have others : headers.filter (·.1 == "content-length") = [] := by
      refine List.filter_eq_nil_iff.mpr fun header inside same => ?_
      have about := apart header inside
      rw [beq_iff_eq.mp same] at about
      exact absurd about (by decide)
    change List.filter _ (_ ++ headers) = _
    rw [List.filter_append, others, List.append_nil]
    rfl

theorem not_json_of_names {headers : Headers}
    (names : ∀ header ∈ headers, header.1 = "content-length" ∨ header.1 = "allow" ∨
      header.1 ∈ Http.originNames) : ("content-type", "application/json") ∉ headers := by
  intro inside
  exact absurd (names _ inside) (by decide)

theorem Told.eq_statement {now : Int64} {request : Request} {trace : List Event}
    {told : Response} (isTold : Told now request trace told) {headers : Headers}
    (apart : ∀ header ∈ headers, header.1 ∈ Http.originNames)
    (isJson : ("content-type", "application/json") ∈ (told.withHeaders headers).headers) :
    ∃ statement, Intends now request trace statement ∧ told = statement.response := by
  cases isTold with
  | said intended => exact ⟨_, intended, rfl⟩
  | plain status text =>
      have noType : ("content-type", "application/json") ∉
          (Response.contentLength text :: headers : Headers) := by
        refine not_json_of_names fun header inside => ?_
        rcases List.mem_cons.mp inside with rfl | added
        · exact .inl rfl
        · exact .inr (.inr (apart header added))
      rcases List.mem_cons.mp isJson with same | later
      · exact absurd (Prod.mk.inj same).2 (by decide)
      · exact absurd later noType
  | wordless status own few =>
      refine absurd isJson (not_json_of_names fun header inside => ?_)
      rcases List.mem_append.mp inside with mine | added
      · exact (few header mine).imp_right .inl
      · exact .inr (.inr (apart header added))

theorem wordless_not_json (status : Nat) (request : Request) {headers : Headers}
    (apart : ∀ header ∈ headers, header.1 ∈ Http.originNames) :
    ("content-type", "application/json") ∉
      ((wordless status request).withHeaders headers).headers := by
  obtain ⟨own, same, few⟩ := wordless_wordless status request
  rw [same]
  refine not_json_of_names fun header inside => ?_
  rcases List.mem_append.mp inside with mine | added
  · exact (few header mine).imp_right .inl
  · exact .inr (.inr (apart header added))

section

variable {σ : Type} {options : Options} {backend : Backend σ} {now : Int64} {request : Request}
  {contents : σ}

theorem exists_statement (hasBody : request.method ≠ "HEAD")
    (isJson : ("content-type", "application/json") ∈
      (serve options backend now request contents).1.headers) :
    ∃ statement, Intends now request (callsOf options backend now request contents) statement ∧
      Says statement (serve options backend now request contents).1 := by
  by_cases late : (serve options backend now request contents).1.status = 408
  · rw [serve_of_late late, tooLate, ← List.append_nil (wordless 408 request).headers] at isJson
    exact absurd isJson (wordless_not_json 408 request (List.forall_mem_nil _))
  have concludes := callsOf_concludes late
  by_cases inquiry : request.method = "OPTIONS"
  · rw [handle, if_pos inquiry] at concludes
    rw [concludes.of_done.2] at isJson
    refine absurd isJson (wordless_not_json 200 request fun header inside => ?_)
    rcases List.mem_append.mp inside with own | asked
    · exact Http.OriginPolicy.isAboutOrigins_of_mem_headers own
    · exact Http.OriginPolicy.isAboutOrigins_of_mem_inquiryHeaders header asked
  · obtain ⟨told, isTold, same⟩ := handle_told inquiry concludes
    rw [forMethod, if_neg hasBody] at same
    rw [same] at isJson ⊢
    have apart : ∀ header ∈ options.origins.headers request, header.1 ∈ Http.originNames :=
      fun header => Http.OriginPolicy.isAboutOrigins_of_mem_headers
    obtain ⟨statement, intended, rfl⟩ := isTold.eq_statement apart isJson
    exact ⟨statement, intended, statement.isSaid apart⟩

theorem Intends.isSaid {statement : Statement}
    (intended : Intends now request (callsOf options backend now request contents) statement)
    (hasBody : request.method ≠ "HEAD")
    (inTime : (serve options backend now request contents).1.status ≠ 408) :
    Says statement (serve options backend now request contents).1 := by
  have same := (callsOf_concludes inTime).unique (intended.concludes options.origins)
  rw [same, forMethod, if_neg hasBody]
  exact statement.isSaid fun header => Http.OriginPolicy.isAboutOrigins_of_mem_headers

theorem Intends.perform {start : String}
    (intended : Intends now request (callsOf options backend now request contents) (.state start)) :
    ∃ code record, IsRead request code ∧
      (backend.perform (.getState code now) contents).1 = .ok (some record) ∧
      record.state.startDateTime = start := by
  generalize calls : callsOf options backend now request contents = trace at intended
  cases intended with
  | @state code isRead record =>
      exact ⟨code, record, isRead, (Plan.eq_of_trace_eq_cons calls).symm, rfl⟩

end

theorem Intends.state?_memory {options : Options} {now : Int64} {request : Request}
    {memory : Memory} {start : String}
    (intended : Intends now request (callsOf options Memory.backend now request memory)
      (.state start)) :
    ∃ code record, IsRead request code ∧ memory.state? code = some record ∧
      record.state.startDateTime = start := by
  obtain ⟨code, record, isRead, found, same⟩ := intended.perform
  have kept : (memory.state? code).filter (fun record => !record.isExpired now) = some record :=
    Except.ok.inj found
  exact ⟨code, record, isRead, (Option.filter_eq_some_iff.mp kept).1, same⟩

theorem Intends.exchange_table {options : Options} {now : Int64} {request : Request}
    {table : Table} {start : String}
    (intended : Intends now request (callsOf options Table.backend now request table)
      (.state start)) :
    ∃ code item, IsRead request code ∧
      (table.exchange (.get code.stateKey)).1 = .ok (some item) ∧ HoldsStart item start := by
  obtain ⟨code, record, isRead, found, rfl⟩ := intended.perform
  change (Table.recordOf StateRecord.ofItem (table.exchange (.get code.stateKey)).1).map _ = _
    at found
  cases kept : Table.recordOf StateRecord.ofItem (table.exchange (.get code.stateKey)).1 with
  | error failure =>
      rw [kept] at found
      cases found
  | ok shown =>
      rw [kept] at found
      obtain ⟨rfl, -⟩ := Option.filter_eq_some_iff.mp (Except.ok.inj found)
      obtain ⟨item, said, read⟩ := Table.eq_of_recordOf kept
      exact ⟨code, item, isRead, said, StateRecord.holdsStart_of_ofItem read⟩

/-- What a request, a store or a failure brings along may be any text: an answer in JSON is read
back as the object that is intended, whatever is intended is said in time, and a state is told by
the start that the store holds, from an item that may have anything else besides. -/
theorem json_answers_are_read_back (options : Options) (now : Int64) (request : Request)
    (hasBody : request.method ≠ "HEAD") :
    (∀ {σ : Type} (backend : Backend σ) (contents : σ),
      let response := (serve options backend now request contents).1
      let calls := callsOf options backend now request contents
      (("content-type", "application/json") ∈ response.headers →
        ∃ statement, Intends now request calls statement ∧ Says statement response) ∧
      (response.status ≠ 408 →
        ∀ statement, Intends now request calls statement → Says statement response)) ∧
    (∀ (memory : Memory) (start : String),
      Intends now request (callsOf options Memory.backend now request memory) (.state start) →
        ∃ code record, IsRead request code ∧ memory.state? code = some record ∧
          record.state.startDateTime = start) ∧
    ∀ (table : Table) (start : String),
      Intends now request (callsOf options Table.backend now request table) (.state start) →
        ∃ code item, IsRead request code ∧
          (table.exchange (.get code.stateKey)).1 = .ok (some item) ∧ HoldsStart item start :=
  ⟨fun _ _ => ⟨exists_statement hasBody, fun inTime _ intended => intended.isSaid hasBody inTime⟩,
    fun _ _ => Intends.state?_memory, fun _ _ => Intends.exchange_table⟩

def quotedStart : Memory := Memory.empty.putState (.ofWrite ⟨"\""⟩ ⟨"\"\\\n"⟩ 0)

def quotedRead : Request := ⟨"GET", "/workout-state/%22", [], []⟩

theorem isRead_quotedRead : IsRead quotedRead ⟨"\""⟩ :=
  ⟨.inl rfl, "%22".toList, by decide, by decide, by decide +kernel, by decide +kernel⟩

theorem json_answers_are_read_back_of_quotes :
    quotedRead.method ≠ "HEAD" ∧
      Says (.state "\"\\\n") (serve .standard Memory.backend 0 quotedRead quotedStart).1 := by
  have hasBody : quotedRead.method ≠ "HEAD" := by decide
  have calls : callsOf .standard Memory.backend 0 quotedRead quotedStart =
      [⟨.getState ⟨"\""⟩ 0, some (.ok (some (.ofWrite ⟨"\""⟩ ⟨"\"\\\n"⟩ 0)))⟩] := by
    rw [callsOf, handle_of_isRead isRead_quotedRead]
    rfl
  have inTime : (serve .standard Memory.backend 0 quotedRead quotedStart).1.status ≠ 408 := by
    decide +kernel
  refine ⟨hasBody, ((json_answers_are_read_back .standard 0 quotedRead hasBody).1 Memory.backend
    quotedStart).2 inTime _ ?_⟩
  rw [calls]
  exact .state isRead_quotedRead (.ofWrite ⟨"\""⟩ ⟨"\"\\\n"⟩ 0)

end WorkoutBoard.Service
