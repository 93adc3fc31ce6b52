import WorkoutBoard.Proofs.Service.Register

/-!
# What becomes of a body

`Merits` says which verdict each byte sequence deserves when it is sent with the key of a code,
without regard to how it is read. Every body merits one, and the service passes exactly that one
(`verdict_iff_merits`).
-/

namespace WorkoutBoard.Service

open Http (Request Response)
open Json (Holds IsBlanks Value)
open Store (Memory)
open Workout (ApiKeyRecord Code Invalid State StateRecord)

/-! ## Verdicts -/

inductive Verdict where
  | tooLong
  | cleared
  | updated (start : String)
  | unreadable (message : String)
  | invalid (reason : Invalid)
deriving DecidableEq, Repr

namespace Verdict

def complaint : Invalid → String
  | .schema => "Invalid workout state schema. Must contain only \"startDateTime\" field."
  | .dateTime => "startDateTime must be a valid timezone-aware ISO 8601 datetime string"

def response (code : Code) : Verdict → Response
  | .tooLong => .plain 413 "Failed to buffer the request body: length limit exceeded"
  | .cleared => .json 200 (.object [("success", .boolean true),
      ("message", .text ("Workout state cleared for code: " ++ code.text))])
  | .updated start => .json 200 (.object [("success", .boolean true),
      ("message", .text ("Workout state updated for code: " ++ code.text)),
      ("startDateTime", .text start)])
  | .unreadable message => .json 400 (.object [("Code", .text "BadRequestError"),
      ("Message", .text ("Error parsing JSON body: " ++ message))])
  | .invalid reason => .json 400 (.object [("Code", .text "BadRequestError"),
      ("Message", .text (complaint reason))])

def entry? (now : Int64) (code : Code) (before : Memory) : Verdict → Option StateRecord
  | .cleared => none
  | .updated start => some ⟨"workout-state:" ++ code.text, ⟨start⟩, now + 1209600⟩
  | _ => before.states.find? ("workout-state:" ++ code.text)

/-- What a verdict leaves of a memory: the entry for the code, and all others as they were. -/
structure Leaves (now : Int64) (code : Code) (before after : Memory) (verdict : Verdict) :
    Prop where
  entry : after.states.find? ("workout-state:" ++ code.text) = verdict.entry? now code before
  others : ∀ key, key ≠ "workout-state:" ++ code.text →
    after.states.find? key = before.states.find? key
  apiKeys : after.apiKeys = before.apiKeys

end Verdict

def blankBytes : List UInt8 := [0x20, 0x09, 0x0A, 0x0C, 0x0D]

/-- `startDateTime` is the one name of the members, and the last of them is a text. -/
structure HasStart (members : List (String × Value)) (start : String) : Prop where
  oneName : ∀ name, name ∈ members.map Prod.fst ↔ name = "startDateTime"
  last : Json.lastMember? "startDateTime" members = some (.text start)

/-- Which verdict a body merits. -/
inductive Merits (body : List UInt8) : Verdict → Prop where
  | tooLong (long : 2097152 < body.length) : Merits body .tooLong
  | blank (fits : body.length ≤ 2097152) (blank : ∀ byte ∈ body, byte ∈ blankBytes) :
      Merits body .cleared
  | null (fits : body.length ≤ 2097152) {before after : List UInt8} (blankBefore : IsBlanks before)
      (blankAfter : IsBlanks after) (word : body = before ++ ([0x6E, 0x75, 0x6C, 0x6C] ++ after)) :
      Merits body .cleared
  | updated (fits : body.length ≤ 2097152) {members : List (String × Value)} {start : String}
      (holds : Holds body (.object members)) (shape : HasStart members start)
      (aware : Calendar.Timestamp.isAware start = true) : Merits body (.updated start)
  | unreadable (fits : body.length ≤ 2097152) (visible : ∃ byte ∈ body, byte ∉ blankBytes)
      (noText : ∀ value, ¬Holds body value) {fault : Json.Fault}
      (told : Value.ofBytes body = .error fault) : Merits body (.unreadable (fault.message body))
  | invalidSchema (fits : body.length ≤ 2097152) {value : Value} (holds : Holds body value)
      (notNull : value ≠ .null)
      (shapeless : ∀ members start, value = .object members → ¬HasStart members start) :
      Merits body (.invalid .schema)
  | invalidDateTime (fits : body.length ≤ 2097152) {members : List (String × Value)}
      {start : String} (holds : Holds body (.object members)) (shape : HasStart members start)
      (naive : Calendar.Timestamp.isAware start = false) : Merits body (.invalid .dateTime)

/-! ## How a body is judged -/

theorem isBlankBody_iff {body : List UInt8} :
    isBlankBody body = true ↔ ∀ byte ∈ body, byte ∈ blankBytes := by
  simp [isBlankBody, blankBytes, List.all_eq_true, or_assoc]

theorem holds_null_iff {body : List UInt8} :
    Holds body .null ↔ ∃ before after, IsBlanks before ∧ IsBlanks after ∧
      body = before ++ ([0x6E, 0x75, 0x6C, 0x6C] ++ after) := by
  constructor
  · rintro ⟨before, bytes, after, same, blankBefore, blankAfter, spells⟩
    cases spells with
    | scalar spells =>
        cases spells with
        | null => exact ⟨before, after, blankBefore, blankAfter, same⟩
  · rintro ⟨before, after, blankBefore, blankAfter, same⟩
    exact ⟨before, _, after, same, blankBefore, blankAfter, .scalar .null⟩

theorem hasStart_iff {members : List (String × Value)} {start : String} :
    HasStart members start ↔
      (members.all fun member => member.1 == "startDateTime") = true ∧
        Json.lastMember? "startDateTime" members = some (.text start) := by
  simp only [List.all_eq_true, beq_iff_eq]
  constructor
  · rintro ⟨oneName, last⟩
    exact ⟨fun member inside => (oneName member.1).mp (List.mem_map_of_mem inside), last⟩
  · rintro ⟨allNamed, last⟩
    refine ⟨fun name => ⟨fun inside => ?_, fun same => ?_⟩, last⟩
    · obtain ⟨member, isMember, rfl⟩ := List.mem_map.mp inside
      exact allNamed member isMember
    · obtain ⟨member, found, -⟩ := Option.map_eq_some_iff.mp last
      have isMember := List.mem_reverse.mp (List.mem_of_find?_eq_some found)
      rw [same, ← allNamed member isMember]
      exact List.mem_map_of_mem isMember

theorem HasStart.ofMembers {members : List (String × Value)} {start : String}
    (shape : HasStart members start) :
    State.ofMembers members =
      if Calendar.Timestamp.isAware start then .ok ⟨start⟩ else .error .dateTime := by
  obtain ⟨allNamed, last⟩ := hasStart_iff.mp shape
  rw [State.ofMembers, if_pos allNamed, last]

theorem ofMembers_of_shapeless {members : List (String × Value)}
    (shapeless : ∀ start, ¬HasStart members start) :
    State.ofMembers members = .error .schema := by
  rw [State.ofMembers]
  split
  next allNamed =>
    split
    next start last => exact absurd (hasStart_iff.mpr ⟨allNamed, last⟩) (shapeless start)
    next => rfl
  next => rfl

theorem ofBody_of_holds {body : List UInt8} {value : Value} (holds : Holds body value)
    (notNull : value ≠ .null) :
    Change.ofBody body = match State.ofBody value with
      | .error invalid => .error (.ofInvalid invalid)
      | .ok state => .ok (.set state) := by
  have read := Value.ofBytes_eq_ok_iff.mpr holds
  have visible : ¬isBlankBody body = true := fun blank => ofBytes_of_isBlankBody blank value read
  rw [Change.ofBody, if_neg visible, read]
  cases value with
  | null => exact absurd rfl notNull
  | _ => rfl

theorem ofBody_of_holds_null {body : List UInt8} (holds : Holds body .null) :
    Change.ofBody body = .ok .clear := by
  rw [Change.ofBody, Value.ofBytes_eq_ok_iff.mpr holds]
  split <;> rfl

theorem exists_merits (body : List UInt8) : ∃ verdict, Merits body verdict := by
  by_cases long : 2097152 < body.length
  · exact ⟨_, .tooLong long⟩
  have fits := Nat.not_lt.mp long
  by_cases blank : ∀ byte ∈ body, byte ∈ blankBytes
  · exact ⟨_, .blank fits blank⟩
  cases read : Value.ofBytes body with
  | error fault =>
      have visible : ∃ byte ∈ body, byte ∉ blankBytes := by
        simpa only [not_forall, exists_prop] using blank
      refine ⟨_, .unreadable fits visible (fun value holds => ?_) read⟩
      rw [Value.ofBytes_eq_ok_iff.mpr holds] at read
      cases read
  | ok value =>
      have holds := Value.ofBytes_eq_ok_iff.mp read
      by_cases isNull : value = .null
      · obtain ⟨before, after, blankBefore, blankAfter, word⟩ := holds_null_iff.mp (isNull ▸ holds)
        exact ⟨_, .null fits blankBefore blankAfter word⟩
      by_cases shaped : ∃ members start, value = .object members ∧ HasStart members start
      · obtain ⟨members, start, rfl, shape⟩ := shaped
        cases aware : Calendar.Timestamp.isAware start with
        | true => exact ⟨_, .updated fits holds shape aware⟩
        | false => exact ⟨_, .invalidDateTime fits holds shape aware⟩
      · exact ⟨_, .invalidSchema fits holds isNull fun members start isObject shape =>
          shaped ⟨members, start, isObject, shape⟩⟩

theorem leaves_self {now : Int64} {code : Code} {memory : Memory} {verdict : Verdict}
    (same : verdict.entry? now code memory = memory.states.find? code.stateKey) :
    verdict.Leaves now code memory memory where
  entry := same.symm
  others := fun _ _ => rfl
  apiKeys := rfl

theorem leaves_deleteState (now : Int64) (code : Code) (memory : Memory) :
    Verdict.cleared.Leaves now code memory (memory.deleteState code) where
  entry := memory.states.find?_erase_self code.stateKey
  others := fun _ different => memory.states.find?_erase_of_ne different
  apiKeys := rfl

theorem leaves_putState (now : Int64) (code : Code) (memory : Memory) (start : String) :
    (Verdict.updated start).Leaves now code memory
      (memory.putState (.ofWrite code ⟨start⟩ now)) where
  entry := memory.states.find?_insert_self code.stateKey _
  others := fun _ different => memory.states.find?_insert_of_ne different _
  apiKeys := rfl

theorem Merits.complete_change {body : List UInt8} {verdict : Verdict}
    (merits : Merits body verdict) (now : Int64) (code : Code) (memory : Memory) :
    ((change now code body).complete Memory.backend memory).1 = verdict.response code ∧
      verdict.Leaves now code memory
        ((change now code body).complete Memory.backend memory).2 := by
  rw [change, largestBody]
  cases merits with
  | tooLong long =>
      rw [if_pos long]
      exact ⟨rfl, leaves_self rfl⟩
  | blank fits blank =>
      rw [if_neg (Nat.not_lt.mpr fits), Change.ofBody, if_pos (isBlankBody_iff.mpr blank)]
      exact ⟨rfl, leaves_deleteState now code memory⟩
  | null fits blankBefore blankAfter word =>
      have asked := ofBody_of_holds_null (holds_null_iff.mpr ⟨_, _, blankBefore, blankAfter, word⟩)
      rw [if_neg (Nat.not_lt.mpr fits), asked]
      exact ⟨rfl, leaves_deleteState now code memory⟩
  | updated fits holds shape aware =>
      rw [if_neg (Nat.not_lt.mpr fits), ofBody_of_holds holds (by simp), State.ofBody,
        shape.ofMembers, if_pos aware]
      exact ⟨rfl, leaves_putState now code memory _⟩
  | unreadable fits visible noText told =>
      have notBlank : ¬isBlankBody body = true := by
        rw [isBlankBody_iff]
        simpa only [not_forall, exists_prop] using visible
      rw [if_neg (Nat.not_lt.mpr fits), Change.ofBody, if_neg notBlank, told]
      exact ⟨rfl, leaves_self rfl⟩
  | @invalidSchema fits value holds notNull shapeless =>
      have refused : State.ofBody value = .error .schema := by
        cases value with
        | object members => exact ofMembers_of_shapeless fun start => shapeless members start rfl
        | _ => rfl
      rw [if_neg (Nat.not_lt.mpr fits), ofBody_of_holds holds notNull, refused]
      exact ⟨rfl, leaves_self rfl⟩
  | invalidDateTime fits holds shape naive =>
      rw [if_neg (Nat.not_lt.mpr fits), ofBody_of_holds holds (by simp), State.ofBody,
        shape.ofMembers, naive]
      exact ⟨rfl, leaves_self rfl⟩

/-! ## Verdicts are told apart -/

theorem message_inj {left right : String}
    (same : (Value.object [("Code", .text "BadRequestError"), ("Message", .text left)]).compact =
      (Value.object [("Code", .text "BadRequestError"), ("Message", .text right)]).compact) :
    left = right := by
  have members :=
    Value.compact_object_inj (by simp [Value.IsScalar]) (by simp [Value.IsScalar]) same
  simpa using members

theorem confirmation_scalar (code : Code) (change : Change) :
    ∃ members, confirmation code change = .object members ∧
      ∀ member ∈ members, member.2.IsScalar := by
  cases change <;> exact ⟨_, rfl, by simp [Value.IsScalar]⟩

theorem confirmation_inj {code other : Code} {left right : Change}
    (same : (confirmation code left).compact = (confirmation other right).compact) :
    code = other ∧ left = right := by
  obtain ⟨members, isMembers, scalar⟩ := confirmation_scalar code left
  obtain ⟨others, isOthers, otherScalar⟩ := confirmation_scalar other right
  rw [isMembers, isOthers] at same
  have equal : confirmation code left = confirmation other right := by
    rw [isMembers, isOthers, Value.compact_object_inj scalar otherScalar same]
  -- The confirmation of an update has one member more.
  cases left with
  | clear =>
      cases right with
      | clear =>
          have texts : code.text = other.text := by simpa [confirmation] using equal
          exact ⟨congrArg Code.mk texts, rfl⟩
      | set other => simp [confirmation] at equal
  | set state =>
      cases right with
      | clear => simp [confirmation] at equal
      | set otherState =>
          have members : code.text = other.text ∧
              state.startDateTime = otherState.startDateTime := by
            simpa [confirmation] using equal
          obtain ⟨texts, starts⟩ := members
          exact ⟨congrArg Code.mk texts, congrArg (fun start => Change.set ⟨start⟩) starts⟩

theorem unreadable_ne_complaint (message : String) (reason : Invalid) :
    "Error parsing JSON body: " ++ message ≠ Verdict.complaint reason := by
  intro same
  have letters := congrArg (fun text => text.toList.head?) same
  cases reason <;> simp [Verdict.complaint, String.toList_append] at letters

theorem complaint_injective : Function.Injective Verdict.complaint := by
  intro left right same
  cases left <;> cases right <;> first | rfl | exact absurd same (by decide)

theorem Verdict.eq_of_response {code : Code} {one two : Verdict}
    (status : (one.response code).status = (two.response code).status)
    (body : (one.response code).body = (two.response code).body) : one = two := by
  cases one with
  | tooLong =>
      cases two with
      | tooLong => rfl
      | _ => cases status
  | cleared =>
      cases two with
      | cleared => rfl
      | updated other =>
          have confirmed : (confirmation code .clear).compact =
              (confirmation code (.set ⟨other⟩)).compact := body
          cases (confirmation_inj confirmed).2
      | _ => cases status
  | updated start =>
      cases two with
      | cleared =>
          have confirmed : (confirmation code (.set ⟨start⟩)).compact =
              (confirmation code .clear).compact := body
          cases (confirmation_inj confirmed).2
      | updated other =>
          have confirmed : (confirmation code (.set ⟨start⟩)).compact =
              (confirmation code (.set ⟨other⟩)).compact := body
          have states := Change.set.inj (confirmation_inj confirmed).2
          exact congrArg Verdict.updated (State.mk.inj states)
      | _ => cases status
  | unreadable message =>
      cases two with
      | unreadable other =>
          exact congrArg _ (Code.append_injective_right (message_inj body))
      | invalid reason => exact absurd (message_inj body) (unreadable_ne_complaint message reason)
      | _ => cases status
  | invalid reason =>
      cases two with
      | unreadable other =>
          exact absurd (message_inj body).symm (unreadable_ne_complaint other reason)
      | invalid other => exact congrArg _ (complaint_injective (message_inj body))
      | _ => cases status

/-- Every body that is sent with the key of a code merits a verdict, which is what its sender is
told and what becomes of the state of the code. No body is dealt with by another verdict than the
one it merits. -/
theorem verdict_iff_merits (options : Options) (positive : 0 < options.limit) (memory : Memory)
    {code : Code} {record : ApiKeyRecord} (found : memory.apiKey? code = some record)
    (now : Int64) (request : Request) (isWrite : IsWrite request code record.apiKey) :
    (∃ verdict, Merits request.body verdict) ∧
      ∀ verdict : Verdict,
        let served := serve options Memory.backend now request memory
        served.1 = (verdict.response code).withHeaders (options.origins.headers request) ∧
            verdict.Leaves now code memory served.2 ↔
          Merits request.body verdict := by
  obtain ⟨merited, merits⟩ := exists_merits request.body
  refine ⟨⟨merited, merits⟩, fun verdict => ?_⟩
  rw [serve_of_accepted positive isWrite found]
  constructor
  · rintro ⟨same, -⟩
    rw [(merits.complete_change now code memory).1] at same
    have status := congrArg Response.status same
    have body := congrArg Response.body same
    exact Verdict.eq_of_response status body ▸ merits
  · intro alsoMerits
    obtain ⟨told, left⟩ := alsoMerits.complete_change now code memory
    exact ⟨by rw [told], left⟩

theorem verdict_iff_merits_of_repeated_name :
    let start := "2025-01-01T00Z"
    let request : Request := ⟨"POST", "/workout-state/a%2Fb/k", [],
      Text.Utf8.bytes "\x7b\"startDateTime\":null,\"startDateTime\":\"2025-01-01T00Z\"\x7d"⟩
    let served := serve .standard Memory.backend 9 request exampleStart
    served.1.status = 200 ∧ served.2.states.find? "workout-state:a/b" =
      some ⟨"workout-state:a/b", ⟨start⟩, 1209609⟩ := by
  intro start request served
  have isWrite : IsWrite request ⟨"a/b"⟩ "k" :=
    ⟨rfl, "a%2Fb".toList, "k".toList, by decide, by decide, by decide, by decide +kernel,
      by decide +kernel, by decide +kernel⟩
  have found : exampleStart.apiKey? ⟨"a/b"⟩ = some (.ofKey ⟨"a/b"⟩ "k") := by decide +kernel
  have holds : Holds request.body
      (.object [("startDateTime", .null), ("startDateTime", .text start)]) := by
    rw [← Value.ofBytes_eq_ok_iff]
    have written : request.body = Text.Utf8.bytes
        (Value.object [("startDateTime", .null), ("startDateTime", .text start)]).compact := by
      decide +kernel
    rw [written]
    exact Value.ofBytes_compact_object (by simp [Value.IsScalar])
  have shape : HasStart [("startDateTime", .null), ("startDateTime", .text start)] start :=
    hasStart_iff.mpr ⟨by decide, rfl⟩
  obtain ⟨told, left⟩ :=
    ((verdict_iff_merits .standard (by decide) exampleStart found 9 request isWrite).2
      (.updated start)).mpr (.updated (by decide +kernel) holds shape (by decide +kernel))
  exact ⟨congrArg Response.status told, left.entry⟩

end WorkoutBoard.Service
