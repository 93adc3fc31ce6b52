import WorkoutBoard.Proofs.Json.Object
import WorkoutBoard.Proofs.Service.Outcome
import WorkoutBoard.Store.Memory

/-!
# A code is a register that expires

A read of a code tells what its last successful write left, for as long as that lasts
(`read_returns_last_write`). What went on with other codes, and what was refused, does not matter.
-/

namespace WorkoutBoard.Service

open Http (Request Response Route)
open Json (Value)
open Store (Memory)
open Workout (ApiKeyRecord Code State StateRecord)

/-! ## Histories -/

def wrote (code : Code) (entry : (Int64 × Request) × Response) : Bool :=
  writtenCode? entry.1.2 = some code && entry.2.status = 200

def lastWrite? (code : Code) (history : List (Int64 × Request)) (answers : List Response) :
    Option (Int64 × Request) :=
  (((history.zip answers).filter (wrote code)).getLast?).map Prod.fst

/-- The last successful write to a code set a start, which lasts for fourteen days. -/
def Lasts (code : Code) (history : List (Int64 × Request)) (answers : List Response)
    (now : Int64) (start : String) : Prop :=
  ∃ time request, lastWrite? code history answers = some (time, request) ∧
    Sets request.body start ∧ now.toInt < time.toInt + 1209600

theorem wrote_iff (code : Code) (entry : Int64 × Request) (answer : Response) :
    wrote code (entry, answer) = true ↔
      writtenCode? entry.2 = some code ∧ answer.status = 200 := by
  simp [wrote]

theorem wrote_eq_false {code : Code} {entry : Int64 × Request} {answer : Response}
    (refused : writtenCode? entry.2 = some code → answer.status ≠ 200) :
    wrote code (entry, answer) = false := by
  rw [Bool.eq_false_iff, ne_eq, wrote_iff]
  rintro ⟨written, success⟩
  exact refused written success

theorem lastWrite?_cons (code : Code) (entry : Int64 × Request) (later : List (Int64 × Request))
    (answer : Response) (answers : List Response) :
    lastWrite? code (entry :: later) (answer :: answers) =
      (lastWrite? code later answers).or
        (if wrote code (entry, answer) then some entry else none) := by
  rw [lastWrite?, lastWrite?, List.zip_cons_cons, List.filter_cons]
  generalize (later.zip answers).filter (wrote code) = written
  split
  next => cases written <;> simp [List.getLast?_cons]
  next => rw [Option.or_none]

theorem mem_of_lastWrite? {code : Code} {history : List (Int64 × Request)}
    {answers : List Response} {entry : Int64 × Request}
    (last : lastWrite? code history answers = some entry) : entry ∈ history := by
  obtain ⟨pair, found, rfl⟩ := Option.map_eq_some_iff.mp last
  have member := (List.mem_filter.mp (List.mem_of_getLast? found)).1
  exact (List.of_mem_zip member).1

/-! ## One request -/

theorem perform_change (change : Change) (now : Int64) (code : Code) (memory : Memory) :
    (writeResponse code change (Memory.backend.perform (change.call now code) memory).1).status =
        200 ∧
      ∀ other, (Memory.backend.perform (change.call now code) memory).2.state? other =
        if other = code then change.left now code else memory.state? other := by
  cases change with
  | clear => exact ⟨rfl, fun other => memory.state?_deleteState code other⟩
  | set state => exact ⟨rfl, fun other => memory.state?_putState_ofWrite code other state now⟩

theorem state?_serve (options : Options) (now : Int64) (request : Request) (before : Memory)
    (code : Code) :
    let result := serve options Memory.backend now request before
    (wrote code ((now, request), result.1) = false ∧
        result.2.state? code = before.state? code) ∨
      wrote code ((now, request), result.1) = true ∧
        ∃ change, Change.ofBody request.body = .ok change ∧
          result.2.state? code = change.left now code := by
  have outcome := serve_outcome options Memory.backend now request before
  generalize serve options Memory.backend now request before = result at outcome ⊢
  dsimp only
  cases outcome with
  | unasked response refused =>
      exact .inl ⟨wrote_eq_false fun written => refused (isPost_of_writtenCode? written), rfl⟩
  | read other isRead answer after found =>
      obtain rfl : before = after := congrArg Prod.snd found
      refine .inl ⟨wrote_eq_false fun written => ?_, rfl⟩
      have isPost := isPost_of_writtenCode? written
      rcases isRead.1 with isGet | isHead
      · exact absurd (isPost.symm.trans isGet) (by decide)
      · exact absurd (isPost.symm.trans isHead) (by decide)
  | refused other key isWrite answer after found response status =>
      obtain rfl : before = after := congrArg Prod.snd found
      exact .inl ⟨wrote_eq_false fun _ => status, rfl⟩
  | changed other key isWrite record between found accepted nonempty fits change asked answer
      after made =>
      obtain rfl : before = between := congrArg Prod.snd found
      have written : writtenCode? request = some other :=
        (writtenCode?_eq_some_iff _ _).mpr ⟨key, isWrite⟩
      have answered := perform_change change now other before
      rw [made] at answered
      obtain ⟨success, states⟩ := answered
      by_cases same : other = code
      · subst same
        exact .inr ⟨(wrote_iff _ _ _).mpr ⟨written, success⟩, change, asked,
          (states other).trans (if_pos rfl)⟩
      · refine .inl ⟨wrote_eq_false fun others => ?_, (states code).trans (if_neg (Ne.symm same))⟩
        exact absurd (Option.some.inj (written.symm.trans others)) same

/-! ## A history -/

/-- The last successful write to a code decides its state, and what was there before it matters only
if there is none. -/
theorem state?_serveAll (options : Options) (history : List (Int64 × Request)) (before : Memory)
    (code : Code) :
    let result := serveAll options Memory.backend history before
    (lastWrite? code history result.1 = none ∧ result.2.state? code = before.state? code) ∨
      ∃ entry change, lastWrite? code history result.1 = some entry ∧
        Change.ofBody entry.2.body = .ok change ∧
          result.2.state? code = change.left entry.1 code := by
  induction history generalizing before with
  | nil => exact .inl ⟨rfl, rfl⟩
  | cons entry later inductive_step =>
      have first := state?_serve options entry.1 entry.2 before code
      have rest := inductive_step (serve options Memory.backend entry.1 entry.2 before).2
      dsimp only at first rest ⊢
      rw [serveAll_cons, lastWrite?_cons]
      -- A later write hides this request; without one, this request decides.
      rcases rest with ⟨unwritten, same⟩ | ⟨last, change, written, asked, left⟩
      · rw [unwritten, Option.none_or, same]
        rcases first with ⟨other, kept⟩ | ⟨wrote, change, asked, left⟩
        · rw [other]
          exact .inl ⟨rfl, kept⟩
        · rw [wrote]
          exact .inr ⟨entry, change, rfl, asked, left⟩
      · rw [written, Option.some_or]
        exact .inr ⟨last, change, rfl, asked, left⟩

/-! ## Reading -/

theorem isExpired_ofWrite {time : Int64} (inRange : time.toInt + 1209600 < 2 ^ 63) (code : Code)
    (state : State) (now : Int64) :
    (StateRecord.ofWrite code state time).isExpired now = false ↔
      now.toInt < time.toInt + 1209600 := by
  have sum : (time + Workout.lifetime).toInt = time.toInt + 1209600 := by
    rw [Int64.toInt_add]
    have lifetime : Workout.lifetime.toInt = 1209600 := by decide
    have low := Int64.le_toInt time
    rw [lifetime]
    exact Int.bmod_eq_of_le (by omega) (by omega)
  rw [StateRecord.isExpired, StateRecord.ofWrite, decide_eq_false_iff_not, Int64.le_iff_toInt_le,
    sum, Int.not_le]

theorem startText_inj {left right : String}
    (equal : (Value.object [("startDateTime", .text left)]).compact =
      (Value.object [("startDateTime", .text right)]).compact) : left = right := by
  have members :=
    Value.compact_object_inj (by simp [Value.IsScalar]) (by simp [Value.IsScalar]) equal
  simpa using members

theorem visible_iff_lasts (options : Options) {start : Memory} (fresh : start.states = ∅)
    {history : List (Int64 × Request)}
    (inRange : ∀ entry ∈ history, entry.1.toInt + 1209600 < 2 ^ 63) (code : Code) (now : Int64)
    (dateTime : String) :
    let result := serveAll options Memory.backend history start
    ((result.2.state? code).filter fun record => !record.isExpired now).map
        (fun record => record.state.startDateTime) = some dateTime ↔
      Lasts code history result.1 now dateTime := by
  rcases state?_serveAll options history start code with
    ⟨unwritten, same⟩ | ⟨⟨time, request⟩, change, last, asked, left⟩
  · have absent : start.state? code = none := by
      rw [Memory.state?, fresh]
      rfl
    dsimp only
    rw [same, absent, Lasts, unwritten]
    simp
  · dsimp only at left asked ⊢
    rw [left, Lasts, last]
    cases change with
    | clear =>
        have notSet := Change.not_sets_of_ofBody_clear asked dateTime
        constructor
        · intro absurdity
          cases absurdity
        · rintro ⟨_, _, same, sets, -⟩
          obtain ⟨rfl, rfl⟩ := Prod.mk.inj (Option.some.inj same)
          exact absurd sets notSet
    | set state =>
        have sets := Change.sets_of_ofBody asked
        have lasts := isExpired_ofWrite (inRange _ (mem_of_lastWrite? last)) code state now
        constructor
        · intro visible
          obtain ⟨record, kept, rfl⟩ := Option.map_eq_some_iff.mp visible
          obtain ⟨same, unexpired⟩ := Option.filter_eq_some_iff.mp kept
          obtain rfl := Option.some.inj same
          exact ⟨time, request, rfl, sets, lasts.mp (by simpa using unexpired)⟩
        · rintro ⟨_, _, same, otherSets, later⟩
          obtain ⟨rfl, rfl⟩ := Prod.mk.inj (Option.some.inj same)
          rw [Change.left, Option.filter_some, lasts.mpr later]
          exact congrArg some (sets.unique otherSets)

theorem serve_of_isRead {options : Options} (time : 0 < options.limit) {request : Request}
    {code : Code} (isRead : IsRead request code) (now : Int64) (memory : Memory) :
    (serve options Memory.backend now request memory).1 =
      readAnswer options.origins request code
        (.ok ((memory.state? code).filter fun record => !record.isExpired now)) := by
  rw [serve_eq_complete time fun _ => rfl, handle_of_isRead isRead]
  rfl

theorem serve_get_iff {options : Options} (positive : 0 < options.limit) {request : Request}
    {code : Code} (isGet : request.method = "GET") (isRead : IsRead request code) (now : Int64)
    (memory : Memory) (body : String) :
    let answer := (serve options Memory.backend now request memory).1
    answer.status = 200 ∧ answer.body = body ↔
      ∃ record, memory.state? code = some record ∧ now < record.ttl ∧
        (Value.object [("startDateTime", .text record.state.startDateTime)]).compact = body := by
  have notHead : ¬request.method = "HEAD" := ne_of_eq_of_ne isGet (by decide)
  dsimp only
  rw [serve_of_isRead positive isRead, readAnswer, if_neg notHead]
  have shown_iff (record : StateRecord) :
      (memory.state? code).filter (fun record => !record.isExpired now) = some record ↔
        memory.state? code = some record ∧ now < record.ttl := by
    rw [Option.filter_eq_some_iff, StateRecord.isExpired, Bool.not_eq_true',
      decide_eq_false_iff_not, Int64.not_le]
  generalize (memory.state? code).filter (fun record => !record.isExpired now) = shown
    at shown_iff
  cases shown with
  | none =>
      constructor
      · intro answered
        exact absurd answered.1 (Refusal.status_ne_ok
          (.notFound ("Workout state not found for code: " ++ code.text)))
      · rintro ⟨record, held, unexpired, -⟩
        cases (shown_iff record).mpr ⟨held, unexpired⟩
  | some record =>
      obtain ⟨held, unexpired⟩ := (shown_iff record).mp rfl
      constructor
      · intro answered
        exact ⟨record, held, unexpired, answered.2⟩
      · rintro ⟨other, otherHeld, -, rfl⟩
        obtain rfl := Option.some.inj (held.symm.trans otherHeld)
        exact ⟨rfl, rfl⟩

theorem serve_of_accepted {options : Options} (time : 0 < options.limit) {request : Request}
    {code : Code} {record : ApiKeyRecord} (isWrite : IsWrite request code record.apiKey)
    {memory : Memory} (found : memory.apiKey? code = some record) (now : Int64) :
    serve options Memory.backend now request memory =
      (((change now code request.body).complete Memory.backend memory).1.withHeaders
          (options.origins.headers request),
        ((change now code request.body).complete Memory.backend memory).2) := by
  have answered : Memory.backend.perform (.getApiKey code) memory = (.ok (some record), memory) :=
    congrArg (fun found => (Except.ok found, memory)) found
  have passed : judge record.apiKey (.ok (some record)) = .ok () :=
    (judge_eq_ok_iff _ _).mpr ⟨record, rfl, rfl, isWrite.key_ne_empty⟩
  rw [serve_eq_complete time fun _ => rfl, handle_eq_ask_of_isWrite isWrite,
    Store.Plan.complete_ask, answered, passed, proceed, Store.Plan.complete_andThen_done]

/-- A code is answered with the start that its last successful write set, letter for letter, while
that lasts. Otherwise it is not found. No configuration sets a limit of zero. -/
theorem read_returns_last_write (options : Options) (positive : 0 < options.limit)
    (start : Memory) (fresh : start.states = ∅) (history : List (Int64 × Request))
    (inRange : ∀ entry ∈ history, entry.1.toInt + 1209600 < 2 ^ 63) (code : Code)
    (nonempty : code.text ≠ "") (now : Int64) (request : Request) (isGet : request.method = "GET")
    (path : Http.Target.path request.target = Route.readPath code.text) :
    let (answers, reached) := serveAll options Memory.backend history start
    let answer := (serve options Memory.backend now request reached).1
    (∀ dateTime, answer.status = 200 ∧
        answer.body = (Value.object [("startDateTime", .text dateTime)]).compact ↔
      Lasts code history answers now dateTime) ∧
    ((¬∃ dateTime, Lasts code history answers now dateTime) →
      answer.status = 404 ∧
        answer.body = (Value.object [("Code", .text "NotFoundError"),
          ("Message", .text ("Workout state not found for code: " ++ code.text))]).compact) := by
  have visible := visible_iff_lasts options fresh inRange code now
  dsimp only at visible ⊢
  have notHead : ¬request.method = "HEAD" := ne_of_eq_of_ne isGet (by decide)
  rw [serve_of_isRead positive (isRead_readPath nonempty isGet path), readAnswer, if_neg notHead]
  simp only [← visible]
  cases ((serveAll options Memory.backend history start).2.state? code).filter
      fun record => !record.isExpired now with
  | none =>
      refine ⟨fun dateTime => ⟨fun answered => ?_, fun absurdity => by cases absurdity⟩,
        fun _ => ⟨rfl, rfl⟩⟩
      exact absurd answered.1 (Refusal.status_ne_ok
        (.notFound ("Workout state not found for code: " ++ code.text)))
  | some record =>
      refine ⟨fun dateTime => ?_, fun hidden => absurd ⟨_, rfl⟩ hidden⟩
      constructor
      · intro answered
        exact congrArg some (startText_inj answered.2)
      · intro shown
        obtain rfl := Option.some.inj shown
        exact ⟨rfl, rfl⟩

def exampleStart : Memory := Memory.empty.insertApiKey ⟨"a/b"⟩ "k"

def exampleUpdate (key dateTime : String) : Request :=
  ⟨"POST", "/workout-state/a%2Fb/" ++ key, [],
    Text.Utf8.bytes ("\x7b\"startDateTime\":\"" ++ dateTime ++ "\"\x7d")⟩

def exampleHistory : List (Int64 × Request) :=
  [(9, exampleUpdate "k" "2025-01-01T00Z"), (4, exampleUpdate "k" "2025W01 07+01"),
    (7, exampleUpdate "j" "2026-01-01T00Z")]

theorem read_returns_last_write_in_last_second :
    let request : Request := ⟨"GET", String.ofList (Route.readPath "a/b"), [], []⟩
    let reached := (serveAll .standard Memory.backend exampleHistory exampleStart).2
    let answer := (serve .standard Memory.backend 1209603 request reached).1
    answer.status = 200 ∧
      answer.body = (Value.object [("startDateTime", .text "2025W01 07+01")]).compact := by
  have asked : Change.ofBody (exampleUpdate "k" "2025W01 07+01").body =
      .ok (.set ⟨"2025W01 07+01"⟩) := by
    decide +kernel
  have lasts : Lasts ⟨"a/b"⟩ exampleHistory
      (serveAll .standard Memory.backend exampleHistory exampleStart).1 1209603
      "2025W01 07+01" :=
    ⟨4, exampleUpdate "k" "2025W01 07+01", by decide +kernel,
      Change.sets_of_ofBody asked, by decide⟩
  exact ((read_returns_last_write .standard (by decide) exampleStart rfl exampleHistory
    (by decide) ⟨"a/b"⟩ (by decide) 1209603
    ⟨"GET", String.ofList (Route.readPath "a/b"), [], []⟩ rfl
    (Http.Target.path_readPath "a/b")).1 "2025W01 07+01").mpr lasts

end WorkoutBoard.Service
