import WorkoutBoard.Proofs.Http.Route
import WorkoutBoard.Proofs.Service.Authorization
import WorkoutBoard.Service.Handler

/-!
# What a request asks for

A request reads a code, writes a code after its key is checked, or is answered without the store
(`handle_cases`). Which of these it is, and which code it is about, is decided by its method and its
path alone; what is written is decided by its body.
-/

namespace WorkoutBoard.Service

open Http (Request Response Route)
open Json (Value)
open Store (Plan)
open Workout (Code State StateRecord)

/-- A `GET` or `HEAD` of the path of a code, which may be escaped in any way. -/
def IsRead (request : Request) (code : Code) : Prop :=
  (request.method = "GET" ∨ request.method = "HEAD") ∧ ∃ segment : List Char,
    '/' ∉ segment ∧ segment ≠ [] ∧
      Http.Target.path request.target = '/' :: (Route.root ++ '/' :: segment) ∧
      Text.Percent.decode segment = some code.text

/-- A `POST` to the path of a code and a key, both of them escaped in any way. -/
def IsWrite (request : Request) (code : Code) (key : String) : Prop :=
  request.method = "POST" ∧ ∃ codeSegment keySegment : List Char,
    '/' ∉ codeSegment ∧ '/' ∉ keySegment ∧ keySegment ≠ [] ∧
      Http.Target.path request.target =
        '/' :: (Route.root ++ '/' :: (codeSegment ++ '/' :: keySegment)) ∧
      Text.Percent.decode codeSegment = some code.text ∧
      Text.Percent.decode keySegment = some key

def IsKeyless (request : Request) : Prop :=
  request.method = "POST" ∧ ∃ segment : List Char, '/' ∉ segment ∧
    Http.Target.path request.target = '/' :: (Route.root ++ '/' :: (segment ++ ['/']))

def writtenCode? (request : Request) : Option Code :=
  if request.method = "POST" then
    match Route.ofPath? (Http.Target.path request.target) with
    | some (.writeState codeSegment keySegment) =>
        match Text.Percent.decode codeSegment, Text.Percent.decode keySegment with
        | some code, some _ => some ⟨code⟩
        | _, _ => none
    | _ => none
  else none

theorem unescape_eq_ok_iff (name : String) (segment : List Char) (text : String) :
    unescape name segment = .ok text ↔ Text.Percent.decode segment = some text := by
  rw [unescape]
  split <;> simp_all

theorem writtenCode?_eq_some_iff (request : Request) (code : Code) :
    writtenCode? request = some code ↔ ∃ key, IsWrite request code key := by
  constructor
  · intro found
    rw [writtenCode?] at found
    split at found
    next isPost =>
      split at found
      next codeSegment keySegment route =>
        obtain ⟨⟨codeWhole, keyWhole, nonempty⟩, path⟩ := Route.eq_toPath_of_ofPath? route
        split at found
        next text key codeRead keyRead =>
          obtain rfl := Option.some.inj found
          exact ⟨key, isPost, codeSegment, keySegment, codeWhole, keyWhole, nonempty, path,
            codeRead, keyRead⟩
        next => cases found
      next => cases found
    next => cases found
  · rintro ⟨key, isPost, codeSegment, keySegment, codeWhole, keyWhole, nonempty, path, codeRead,
      keyRead⟩
    have route : Route.ofPath? (Http.Target.path request.target) =
        some (.writeState codeSegment keySegment) :=
      (Route.ofPath?_eq_some_iff _ _).mpr ⟨⟨codeWhole, keyWhole, nonempty⟩, path⟩
    simp only [writtenCode?, if_pos isPost, route, codeRead, keyRead]

theorem IsRead.not_post {request : Request} {code : Code} (isRead : IsRead request code) :
    request.method ≠ "POST" := by
  intro isPost
  rcases isRead.1 with isGet | isHead
  · exact absurd (isPost.symm.trans isGet) (by decide)
  · exact absurd (isPost.symm.trans isHead) (by decide)

theorem IsWrite.unique {request : Request} {code other : Code} {key otherKey : String}
    (one : IsWrite request code key) (two : IsWrite request other otherKey) :
    code = other ∧ key = otherKey := by
  obtain ⟨-, codeSegment, keySegment, codeWhole, keyWhole, nonempty, path, codeRead, keyRead⟩ := one
  obtain ⟨-, otherSegment, lastSegment, otherWhole, lastWhole, otherNonempty, otherPath, otherRead,
    lastRead⟩ := two
  have found := (Route.ofPath?_eq_some_iff _ (.writeState codeSegment keySegment)).mpr
    ⟨⟨codeWhole, keyWhole, nonempty⟩, path⟩
  have foundAgain := (Route.ofPath?_eq_some_iff _ (.writeState otherSegment lastSegment)).mpr
    ⟨⟨otherWhole, lastWhole, otherNonempty⟩, otherPath⟩
  obtain ⟨rfl, rfl⟩ := Route.writeState.inj (Option.some.inj (found.symm.trans foundAgain))
  have texts := Option.some.inj (codeRead.symm.trans otherRead)
  exact ⟨congrArg Code.mk texts, Option.some.inj (keyRead.symm.trans lastRead)⟩

theorem IsWrite.key_ne_empty {request : Request} {code : Code} {key : String}
    (isWrite : IsWrite request code key) : key ≠ "" := by
  obtain ⟨-, -, keySegment, -, -, nonempty, -, -, read⟩ := isWrite
  exact Text.Percent.ne_empty_of_decode nonempty read

theorem IsRead.code_ne_empty {request : Request} {code : Code} (isRead : IsRead request code) :
    code.text ≠ "" := by
  obtain ⟨-, segment, -, nonempty, -, read⟩ := isRead
  exact Text.Percent.ne_empty_of_decode nonempty read

theorem isPost_of_writtenCode? {request : Request} {code : Code}
    (written : writtenCode? request = some code) : request.method = "POST" := by
  obtain ⟨key, isPost, -⟩ := (writtenCode?_eq_some_iff request code).mp written
  exact isPost

theorem isRead_readPath {code : Code} (nonempty : code.text ≠ "") {request : Request}
    (isGet : request.method = "GET")
    (path : Http.Target.path request.target = Route.readPath code.text) : IsRead request code :=
  ⟨.inl isGet, Text.Percent.encode code.text,
    fun slash => (Text.Percent.not_mem_delimiters_of_mem_encode slash) (by decide),
    Text.Percent.encode_ne_nil nonempty, path, Text.Percent.decode_encode code.text⟩

theorem isWrite_writePath {code : Code} {key : String} (nonempty : key ≠ "") {request : Request}
    (isPost : request.method = "POST")
    (path : Http.Target.path request.target = Route.writePath code.text key) :
    IsWrite request code key :=
  ⟨isPost, Text.Percent.encode code.text, Text.Percent.encode key,
    fun slash => (Text.Percent.not_mem_delimiters_of_mem_encode slash) (by decide),
    fun slash => (Text.Percent.not_mem_delimiters_of_mem_encode slash) (by decide),
    Text.Percent.encode_ne_nil nonempty, path, Text.Percent.decode_encode code.text,
    Text.Percent.decode_encode key⟩

/-! ## Bodies -/

/-- The body is an object whose last member `startDateTime` is a text. -/
def Sets (body : List UInt8) (start : String) : Prop :=
  ∃ members, Value.ofBytes body = .ok (.object members) ∧
    Json.lastMember? "startDateTime" members = some (.text start)

theorem Sets.unique {body : List UInt8} {left right : String} (one : Sets body left)
    (other : Sets body right) : left = right := by
  obtain ⟨members, read, last⟩ := one
  obtain ⟨others, otherRead, otherLast⟩ := other
  obtain rfl := Value.object.inj (Except.ok.inj (read.symm.trans otherRead))
  exact Value.text.inj (Option.some.inj (last.symm.trans otherLast))

theorem sets_of_ofBody {value : Value} {state : State} (valid : State.ofBody value = .ok state) :
    ∃ members, value = .object members ∧
      Json.lastMember? "startDateTime" members = some (.text state.startDateTime) := by
  cases value with
  | object members =>
      refine ⟨members, rfl, ?_⟩
      rw [State.ofBody, State.ofMembers] at valid
      split at valid
      next =>
        split at valid
        next start last =>
          split at valid
          next =>
            obtain rfl := Except.ok.inj valid
            exact last
          next => cases valid
        next => cases valid
      next => cases valid
  | _ => cases valid

theorem ofBytes_of_isBlankBody {body : List UInt8} (blank : isBlankBody body = true)
    (value : Value) : Value.ofBytes body ≠ .ok value := by
  -- A form feed is blank to the service and not to the document.
  have rest : Json.skipBlanks body = [] ∨ ∃ later, Json.skipBlanks body = 0x0C :: later := by
    induction body with
    | nil => exact .inl rfl
    | cons byte later inductive_step =>
        simp only [isBlankBody, List.all_cons, Bool.and_eq_true] at blank
        obtain ⟨first, laterBlank⟩ := blank
        rw [Json.skipBlanks, List.dropWhile_cons]
        split
        next => exact inductive_step laterBlank
        next visible =>
          refine .inr ⟨later, ?_⟩
          simp only [Json.isBlank, Bool.or_eq_true, beq_iff_eq, not_or] at visible
          simp only [Bool.or_eq_true, beq_iff_eq] at first
          have feed : byte = 0x0C := by grind
          rw [feed]
  intro read
  rw [Value.ofBytes, Json.readDocument, Json.values, Json.deepest, Json.Form.read,
    Json.Form.readOver] at read
  rcases rest with nothing | ⟨later, feed⟩
  · rw [nothing] at read
    cases read
  · rw [feed] at read
    cases read

theorem Change.sets_of_ofBody {body : List UInt8} {state : State}
    (asked : Change.ofBody body = .ok (.set state)) : Sets body state.startDateTime := by
  rw [Change.ofBody] at asked
  split at asked
  next => cases asked
  next =>
    split at asked
    next => cases asked
    next => cases asked
    next value notNull read =>
      split at asked
      next => cases asked
      next valid =>
        obtain rfl := Change.set.inj (Except.ok.inj asked)
        obtain ⟨members, rfl, last⟩ := Service.sets_of_ofBody valid
        exact ⟨members, read, last⟩

theorem Change.not_sets_of_ofBody_clear {body : List UInt8}
    (asked : Change.ofBody body = .ok .clear) (start : String) : ¬Sets body start := by
  rintro ⟨members, read, -⟩
  rw [Change.ofBody] at asked
  split at asked
  next blank => exact ofBytes_of_isBlankBody blank _ read
  next =>
    rw [read] at asked
    dsimp only at asked
    split at asked <;> cases asked

def Change.left (now : Int64) (code : Code) : Change → Option StateRecord
  | .clear => none
  | .set state => some (.ofWrite code state now)

/-! ## Plans -/

theorem Refusal.status_ne_ok (refusal : Refusal) : refusal.response.status ≠ 200 := by
  change refusal.status ≠ 200
  cases refusal <;> simp [Refusal.status]

theorem unrouted_status (status : Nat) (path : List Char) :
    (unrouted status path).status = status := by
  unfold unrouted
  split <;> rfl

theorem wordless_status (status : Nat) (request : Request) :
    (wordless status request).status = status := by
  rw [wordless]
  dsimp only
  split
  · exact unrouted_status status _
  · split <;> rfl

@[simp] theorem status_withHeaders (response : Response) (headers : Http.Headers) :
    (response.withHeaders headers).status = response.status := rfl

def readAnswer (origins : Http.OriginPolicy) (request : Request) (code : Code)
    (answer : Except Store.Failure (Option StateRecord)) : Response :=
  let response := readResponse code answer
  (if request.method = "HEAD" then response.withoutBody else response).withHeaders
    (origins.headers request)

theorem handle_of_ofPath? {request : Request} {found : Route}
    (path : Route.ofPath? (Http.Target.path request.target) = some found)
    (allowed : found.allows request.method = true) (origins : Http.OriginPolicy) (now : Int64) :
    handle origins now request = (dispatch now request.body found).andThen fun response =>
      .done ((if request.method = "HEAD" then response.withoutBody else response).withHeaders
        (origins.headers request)) := by
  have notInquiry : ¬request.method = "OPTIONS" := by
    intro inquiry
    rw [Route.allows, inquiry] at allowed
    split at allowed <;> exact absurd allowed (by decide)
  rw [handle, if_neg notInquiry, route, path]
  dsimp only
  rw [atRoute, if_pos allowed, Plan.andThen_assoc]
  rfl

theorem handle_of_isRead {request : Request} {code : Code} (isRead : IsRead request code)
    (origins : Http.OriginPolicy) (now : Int64) :
    handle origins now request =
      .ask (.getState code now) fun answer => .done (readAnswer origins request code answer) := by
  obtain ⟨method, segment, whole, nonempty, path, read⟩ := isRead
  have found : Route.ofPath? (Http.Target.path request.target) = some (.readState segment) :=
    (Route.ofPath?_eq_some_iff _ _).mpr ⟨⟨whole, nonempty⟩, path⟩
  have allowed : (Route.readState segment).allows request.method = true := by
    simpa [Route.allows, Route.isRead] using method
  rw [handle_of_ofPath? found allowed, dispatch, (unescape_eq_ok_iff _ _ _).mpr read]
  rfl

theorem handle_of_isWrite {request : Request} {code : Code} {key : String}
    (isWrite : IsWrite request code key) (origins : Http.OriginPolicy) (now : Int64) :
    handle origins now request = (writeState now code key request.body).andThen fun response =>
      .done (response.withHeaders (origins.headers request)) := by
  obtain ⟨isPost, codeSegment, keySegment, codeWhole, keyWhole, nonempty, path, codeRead,
    keyRead⟩ := isWrite
  have found : Route.ofPath? (Http.Target.path request.target) =
      some (.writeState codeSegment keySegment) :=
    (Route.ofPath?_eq_some_iff _ _).mpr ⟨⟨codeWhole, keyWhole, nonempty⟩, path⟩
  have notHead : ¬request.method = "HEAD" := ne_of_eq_of_ne isPost (by decide)
  have allowed : (Route.writeState codeSegment keySegment).allows request.method = true := by
    simpa [Route.allows, Route.isRead] using isPost
  rw [handle_of_ofPath? found allowed, dispatch, (unescape_eq_ok_iff _ _ _).mpr codeRead,
    (unescape_eq_ok_iff _ _ _).mpr keyRead]
  simp only [if_neg notHead]

theorem handle_of_isKeyless {request : Request} (keyless : IsKeyless request)
    (origins : Http.OriginPolicy) (now : Int64) :
    handle origins now request =
      .done ((Refusal.unauthorized "api_key is required").response.withHeaders
        (origins.headers request)) := by
  obtain ⟨isPost, segment, whole, path⟩ := keyless
  have found : Route.ofPath? (Http.Target.path request.target) = some (.keylessWrite segment) :=
    (Route.ofPath?_eq_some_iff _ _).mpr ⟨whole, path⟩
  have notHead : ¬request.method = "HEAD" := ne_of_eq_of_ne isPost (by decide)
  have allowed : (Route.keylessWrite segment).allows request.method = true := by
    simpa [Route.allows, Route.isRead] using isPost
  rw [handle_of_ofPath? found allowed, dispatch, Plan.andThen, if_neg notHead]

def proceed (origins : Http.OriginPolicy) (now : Int64) (request : Request) (code : Code) :
    Except Refusal Unit → Plan Response
  | .error refusal => .done (refusal.response.withHeaders (origins.headers request))
  | .ok () =>
      (change now code request.body).andThen fun response =>
        .done (response.withHeaders (origins.headers request))

/-- A write begins with a look-up of its key, and nothing but the judgement of what that finds has
an influence on how it goes on. -/
theorem handle_eq_ask_of_isWrite {request : Request} {code : Code} {key : String}
    (isWrite : IsWrite request code key) (origins : Http.OriginPolicy) (now : Int64) :
    handle origins now request =
      .ask (.getApiKey code) fun answer => proceed origins now request code (judge key answer) := by
  have given : ¬key.isEmpty = true := by
    rw [String.isEmpty_iff]
    exact isWrite.key_ne_empty
  rw [handle_of_isWrite isWrite, writeState, authorize, if_neg given]
  simp only [Plan.andThen]
  refine congrArg (Plan.ask _) (funext fun answer => ?_)
  cases judge key answer <;> rfl

theorem proceed_cases (origins : Http.OriginPolicy) (now : Int64) (request : Request) (code : Code)
    (judged : Except Refusal Unit) :
    (∃ response, proceed origins now request code judged = .done response) ∨
      ∃ change : Change, Change.ofBody request.body = .ok change ∧
        proceed origins now request code judged =
          .ask (change.call now code) fun answer =>
            .done ((writeResponse code change answer).withHeaders (origins.headers request)) := by
  cases judged with
  | error refusal => exact .inl ⟨_, rfl⟩
  | ok pass =>
      rw [proceed, change]
      split
      next => exact .inl ⟨_, rfl⟩
      next =>
        split
        next => exact .inl ⟨_, rfl⟩
        next change asked => exact .inr ⟨change, asked, rfl⟩

theorem proceed_of_ofBody {request : Request} (fits : request.body.length ≤ largestBody)
    {change : Change} (asked : Change.ofBody request.body = .ok change)
    (origins : Http.OriginPolicy) (now : Int64) (code : Code) :
    proceed origins now request code (.ok ()) =
      .ask (change.call now code) fun answer =>
        .done ((writeResponse code change answer).withHeaders (origins.headers request)) := by
  rw [proceed, Service.change, if_neg (Nat.not_lt.mpr fits), asked]
  rfl

/-- The store is not asked, and a `POST` has no success. -/
def IsUnasked (request : Request) (plan : Plan Response) : Prop :=
  ∃ response, plan = .done response ∧ (request.method = "POST" → response.status ≠ 200)

theorem IsUnasked.andThen {request : Request} {plan : Plan Response}
    (unasked : IsUnasked request plan) {change : Response → Response}
    (kept : ∀ response, (change response).status = response.status) :
    IsUnasked request (plan.andThen fun response => .done (change response)) := by
  obtain ⟨response, rfl, refused⟩ := unasked
  refine ⟨change response, rfl, fun isPost => ?_⟩
  rw [kept]
  exact refused isPost

section

variable {request : Request} (notRead : ∀ code, ¬IsRead request code)
  (notWrite : ∀ code key, ¬IsWrite request code key)

include notRead notWrite

theorem dispatch_of_neither {found : Route} (sound : found.HasSegments)
    (path : Http.Target.path request.target = found.toPath)
    (allowed : found.allows request.method = true) (now : Int64) :
    IsUnasked request (dispatch now request.body found) := by
  cases found with
  | index =>
      refine ⟨_, rfl, fun isPost => ?_⟩
      simp [Route.allows, Route.isRead, isPost] at allowed
  | readState segment =>
      have method : request.method = "GET" ∨ request.method = "HEAD" := by
        simpa [Route.allows, Route.isRead] using allowed
      rw [dispatch]
      split
      next =>
        refine ⟨_, rfl, fun isPost => ?_⟩
        rw [isPost] at method
        exact absurd method (by decide)
      next code read =>
        exact absurd ⟨method, segment, sound.1, sound.2, path,
          (unescape_eq_ok_iff _ _ _).mp read⟩ (notRead ⟨code⟩)
  | keylessWrite segment =>
      exact ⟨_, rfl, fun _ => Refusal.status_ne_ok (.unauthorized "api_key is required")⟩
  | writeState codeSegment keySegment =>
      have isPost : request.method = "POST" := by
        simpa [Route.allows, Route.isRead] using allowed
      rw [dispatch]
      split
      next message _ => exact ⟨_, rfl, fun _ => Refusal.status_ne_ok (.badRequest message)⟩
      next message _ _ => exact ⟨_, rfl, fun _ => Refusal.status_ne_ok (.badRequest message)⟩
      next code key codeRead keyRead =>
        exact absurd ⟨isPost, codeSegment, keySegment, sound.1, sound.2.1, sound.2.2, path,
          (unescape_eq_ok_iff _ _ _).mp codeRead, (unescape_eq_ok_iff _ _ _).mp keyRead⟩
          (notWrite ⟨code⟩ key)

theorem route_of_neither (now : Int64) : IsUnasked request (route now request) := by
  rw [route]
  split
  next =>
    refine ⟨_, rfl, fun _ => ?_⟩
    rw [unrouted_status]
    decide
  next found path =>
    obtain ⟨sound, written⟩ := Route.eq_toPath_of_ofPath? path
    rw [atRoute]
    split
    next allowed =>
      refine (dispatch_of_neither notRead notWrite sound written allowed now).andThen
        fun response => ?_
      split <;> rfl
    next =>
      have status : (notAllowed found).status = 405 := rfl
      exact ⟨_, rfl, fun _ => by rw [status]; decide⟩

theorem handle_of_neither (origins : Http.OriginPolicy) (now : Int64) :
    IsUnasked request (handle origins now request) := by
  rw [handle]
  split
  next inquiry =>
    refine ⟨_, rfl, fun isPost => ?_⟩
    rw [isPost] at inquiry
    exact absurd inquiry (by decide)
  next =>
    exact (route_of_neither notRead notWrite now).andThen fun response =>
      status_withHeaders response (origins.headers request)

end

theorem handle_cases (request : Request) :
    (∃ code, IsRead request code) ∨ (∃ code key, IsWrite request code key) ∨
      ∀ origins now, IsUnasked request (handle origins now request) := by
  by_cases reads : ∃ code, IsRead request code
  · exact .inl reads
  by_cases writes : ∃ code key, IsWrite request code key
  · exact .inr (.inl writes)
  have notRead : ∀ code, ¬IsRead request code := not_exists.mp reads
  have notWrite : ∀ code key, ¬IsWrite request code key := fun code key isWrite =>
    writes ⟨code, key, isWrite⟩
  exact .inr (.inr (handle_of_neither notRead notWrite))

end WorkoutBoard.Service
