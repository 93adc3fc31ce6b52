import WorkoutBoard.Proofs.Json.Size
import WorkoutBoard.Proofs.Service.Register

/-!
# Stored states

Every state that requests have put into a memory is one that a client may write (`AllStored`). What
is shown of it is the body of a write that sets the same state, and is no longer than the body it
came from: reading and writing back is a fixpoint (`stored_states_can_be_written_back`).
-/

namespace WorkoutBoard.Service

open Http (Request Route)
open Json (Value)
open Store (Memory)
open Workout (ApiKeyRecord Code State StateRecord)

/-! ## States as bodies -/

def bodyOf (state : State) : List UInt8 := Text.Utf8.bytes state.toJson.compact

/-- The start is a timestamp with an offset, and what is shown of the state may be a body. -/
structure IsWritable (state : State) : Prop where
  aware : Calendar.Timestamp.isAware state.startDateTime = true
  fits : (bodyOf state).length ≤ largestBody

/-- No body that sets a state is shorter than the one that is shown for it. -/
theorem length_bodyOf_le {body : List UInt8} {start : String} (sets : Sets body start) :
    (bodyOf ⟨start⟩).length ≤ body.length := by
  obtain ⟨members, read, last⟩ := sets
  calc (bodyOf ⟨start⟩).length
      = (Value.object [("startDateTime", .text start)]).leastSize :=
        Value.length_compact_member "startDateTime" start
    _ ≤ (Value.object members).leastSize := Value.leastSize_le_of_lastMember? last
    _ ≤ body.length := Value.leastSize_le_of_ofBytes read

theorem isAware_of_ofBody {value : Value} {state : State}
    (valid : State.ofBody value = .ok state) :
    Calendar.Timestamp.isAware state.startDateTime = true := by
  unfold State.ofBody State.ofMembers at valid
  split at valid
  next =>
    split at valid
    next =>
      split at valid
      next =>
        split at valid
        next aware =>
          obtain rfl := Except.ok.inj valid
          exact aware
        next => cases valid
      next => cases valid
    next => cases valid
  next => cases valid

theorem IsWritable.of_ofBody {body : List UInt8} {state : State}
    (asked : Change.ofBody body = .ok (.set state)) (fits : body.length ≤ largestBody) :
    IsWritable state where
  aware := by
    unfold Change.ofBody at asked
    split at asked
    next => cases asked
    next =>
      split at asked
      next => cases asked
      next => cases asked
      next =>
        split at asked
        next => cases asked
        next valid =>
          obtain rfl := Change.set.inj (Except.ok.inj asked)
          exact isAware_of_ofBody valid
  fits := Nat.le_trans (length_bodyOf_le (Change.sets_of_ofBody asked)) fits

theorem IsWritable.ofBody_bodyOf {state : State} (writable : IsWritable state) :
    Change.ofBody (bodyOf state) = .ok (.set state) := by
  have read : Value.ofBytes (bodyOf state) =
      .ok (.object [("startDateTime", .text state.startDateTime)]) :=
    Value.ofBytes_compact_object fun member isMember => by
      rw [List.mem_singleton.mp isMember]
      trivial
  have visible : ¬isBlankBody (bodyOf state) = true := by
    intro blank
    exact ofBytes_of_isBlankBody blank _ read
  have valid : State.ofMembers [("startDateTime", .text state.startDateTime)] = .ok state := by
    rw [State.ofMembers, if_pos (by simp)]
    exact if_pos writable.aware
  rw [Change.ofBody, if_neg visible, read]
  dsimp only
  rw [State.ofBody, valid]

/-! ## What requests leave in a memory -/

structure IsStored (memory : Memory) (key : String) (record : StateRecord) : Prop where
  key_eq : record.key = key
  guarded : ∃ code guard, key = Code.stateKey code ∧ memory.apiKey? code = some guard ∧
    guard.apiKey ≠ ""
  writable : IsWritable record.state

def AllStored (memory : Memory) : Prop :=
  ∀ key record, memory.states.find? key = some record → IsStored memory key record

theorem AllStored.perform {before : Memory} (stored : AllStored before) {code : Code}
    {guard : ApiKeyRecord} (found : before.apiKey? code = some guard) (usable : guard.apiKey ≠ "")
    {body : List UInt8} {change : Change} (asked : Change.ofBody body = .ok change)
    (fits : body.length ≤ largestBody) (now : Int64) :
    AllStored (Memory.perform (change.call now code) before).2 := by
  intro key record held
  cases change with
  | clear =>
      change (before.states.erase code.stateKey).find? key = some record at held
      rw [Directory.find?_erase] at held
      split at held
      next => cases held
      next =>
        obtain ⟨same, guarded, writable⟩ := stored key record held
        exact ⟨same, guarded, writable⟩
  | set state =>
      change (before.states.insert code.stateKey (.ofWrite code state now)).find? key =
        some record at held
      rw [Directory.find?_insert] at held
      split at held
      next same =>
        obtain rfl := Option.some.inj held
        exact ⟨same.symm, ⟨code, guard, same, found, usable⟩, .of_ofBody asked fits⟩
      next =>
        obtain ⟨same, guarded, writable⟩ := stored key record held
        exact ⟨same, guarded, writable⟩

theorem AllStored.serve {before : Memory} (stored : AllStored before) (options : Options)
    (now : Int64) (request : Request) :
    AllStored (serve options Memory.backend now request before).2 := by
  have outcome := serve_outcome options Memory.backend now request before
  generalize Service.serve options Memory.backend now request before = result at outcome ⊢
  cases outcome with
  | unasked response refused => exact stored
  | read code isRead answer after found =>
      obtain rfl : before = after := congrArg Prod.snd found
      exact stored
  | refused code key isWrite answer after found response status =>
      obtain rfl : before = after := congrArg Prod.snd found
      exact stored
  | changed code key isWrite record between found accepted nonempty fits change asked answer
      after made =>
      obtain rfl : before = between := congrArg Prod.snd found
      have guard : before.apiKey? code = some record := Except.ok.inj (congrArg Prod.fst found)
      obtain rfl : (Memory.perform (change.call now code) before).2 = after :=
        congrArg Prod.snd made
      exact stored.perform guard (accepted ▸ nonempty) asked fits now

theorem AllStored.serveAll {start : Memory} (fresh : start.states = ∅) (options : Options)
    (history : List (Int64 × Request)) :
    AllStored (serveAll options Memory.backend history start).2 := by
  apply serveAll_induction AllStored fun now request memory stored =>
    stored.serve options now request
  intro key record held
  rw [fresh] at held
  cases held

theorem lastWrite?_of_state? {options : Options} {start : Memory} (fresh : start.states = ∅)
    {history : List (Int64 × Request)} {code : Code} {record : StateRecord}
    (held : (serveAll options Memory.backend history start).2.state? code = some record) :
    ∃ time request, lastWrite? code history (serveAll options Memory.backend history start).1 =
        some (time, request) ∧
      Sets request.body record.state.startDateTime ∧ record.ttl = time + 1209600 := by
  rcases state?_serveAll options history start code with
    ⟨-, same⟩ | ⟨⟨time, request⟩, change, last, asked, left⟩
  · have absent : start.state? code = none := by
      rw [Memory.state?, fresh]
      rfl
    rw [same, absent] at held
    cases held
  · rw [left] at held
    cases change with
    | clear => cases held
    | set state =>
        obtain rfl := Option.some.inj held
        exact ⟨time, request, last, Change.sets_of_ofBody asked, rfl⟩

/-! ## Reading and writing back -/

theorem serve_of_isWrite {options : Options} (positive : 0 < options.limit) {request : Request}
    {code : Code} {record : ApiKeyRecord} (isWrite : IsWrite request code record.apiKey)
    {memory : Memory} (found : memory.apiKey? code = some record)
    (fits : request.body.length ≤ largestBody) {change : Change}
    (asked : Change.ofBody request.body = .ok change) (now : Int64) :
    serve options Memory.backend now request memory =
      ((writeResponse code change (Memory.perform (change.call now code) memory).1).withHeaders
        (options.origins.headers request), (Memory.perform (change.call now code) memory).2) := by
  rw [serve_of_accepted positive isWrite found, Service.change, if_neg (Nat.not_lt.mpr fits), asked]
  rfl

theorem AllStored.write_back {memory : Memory} (stored : AllStored memory) {options : Options}
    (positive : 0 < options.limit) {code : Code} {record : StateRecord}
    (held : memory.state? code = some record) :
    ∃ guard, memory.apiKey? code = some guard ∧ guard.apiKey ≠ "" ∧
      ∀ (time : Int64) (request : Request), IsWrite request code guard.apiKey →
        request.body = bodyOf record.state →
        let answer := (Service.serve options Memory.backend time request memory).1
        let after := (Service.serve options Memory.backend time request memory).2
        answer.status = 200 ∧
          answer.body = (Value.object [("success", .boolean true),
            ("message", .text ("Workout state updated for code: " ++ code.text)),
            ("startDateTime", .text record.state.startDateTime)]).compact ∧
          after.state? code = some (.ofWrite code record.state time) := by
  -- The key that was accepted for the last write is still there, since no request changes keys.
  obtain ⟨-, ⟨other, guard, same, found, usable⟩, writable⟩ := stored code.stateKey record held
  obtain rfl := Code.stateKey_injective same
  refine ⟨guard, found, usable, fun time request isWrite sameBody => ?_⟩
  have fits : request.body.length ≤ largestBody := sameBody ▸ writable.fits
  have asked : Change.ofBody request.body = .ok (.set record.state) :=
    sameBody ▸ writable.ofBody_bodyOf
  have left := Memory.state?_putState_ofWrite memory code code record.state time
  rw [if_pos rfl] at left
  rw [serve_of_isWrite positive isWrite found fits asked]
  exact ⟨rfl, rfl, left⟩

/-- From a memory without states, requests leave only valid states under the keys of their codes,
each for fourteen days from its last write. What a `GET` of a code is answered may be written back
with the key of the code, and is what the next `GET` is answered. -/
theorem stored_states_can_be_written_back (options : Options) (start : Memory)
    (fresh : start.states = ∅) (history : List (Int64 × Request)) :
    let answers := (serveAll options Memory.backend history start).1
    let reached := (serveAll options Memory.backend history start).2
    (∀ key record, reached.states.find? key = some record →
      record.key = key ∧ Calendar.Timestamp.isAware record.state.startDateTime = true ∧
      ∃ code : Code, key = code.stateKey ∧
        ∃ time request, lastWrite? code history answers = some (time, request) ∧
          Sets request.body record.state.startDateTime ∧ record.ttl = time + 1209600) ∧
    ∀ (code : Code) (now : Int64) (get : Request), get.method = "GET" → IsRead get code →
      let shown := (serve options Memory.backend now get reached).1
      shown.status = 200 →
        ∃ guard, reached.apiKey? code = some guard ∧ guard.apiKey ≠ "" ∧
        ∀ (time : Int64) (post : Request), IsWrite post code guard.apiKey →
          post.body = Text.Utf8.bytes shown.body →
          let answer := (serve options Memory.backend time post reached).1
          let after := (serve options Memory.backend time post reached).2
          (∃ start, shown.body = (Value.object [("startDateTime", .text start)]).compact ∧
            answer.status = 200 ∧ answer.body = (Value.object [("success", .boolean true),
              ("message", .text ("Workout state updated for code: " ++ code.text)),
              ("startDateTime", .text start)]).compact) ∧
          ∀ (later : Int64) (again : Request), later < time + 1209600 →
            again.method = "GET" → IsRead again code →
              let shownAgain := (serve options Memory.backend later again after).1
              shownAgain.status = 200 ∧ shownAgain.body = shown.body := by
  have stored := AllStored.serveAll fresh options history
  have lastWritten (code : Code) (record : StateRecord)
      (held : (serveAll options Memory.backend history start).2.state? code = some record) :=
    lastWrite?_of_state? fresh held
  generalize serveAll options Memory.backend history start = result at stored lastWritten ⊢
  obtain ⟨answers, reached⟩ := result
  dsimp only at stored lastWritten ⊢
  refine ⟨fun key record held => ?_, fun code now get isGet isRead success => ?_⟩
  · obtain ⟨same, ⟨code, guard, isKey, -⟩, writable⟩ := stored key record held
    rw [isKey] at held
    exact ⟨same, writable.aware, code, isKey, lastWritten code record held⟩
  · have positive := limit_pos_of_status success
    obtain ⟨record, held, -, body⟩ :=
      (serve_get_iff positive isGet isRead now reached _).mp ⟨success, rfl⟩
    obtain ⟨guard, found, usable, written⟩ := stored.write_back positive held
    refine ⟨guard, found, usable, fun time post isWrite sameBody => ?_⟩
    obtain ⟨status, confirmed, left⟩ := written time post isWrite (by rw [sameBody, ← body]; rfl)
    refine ⟨⟨record.state.startDateTime, body.symm, status, confirmed⟩, ?_⟩
    intro later again unexpired isGet isRead
    exact (serve_get_iff positive isGet isRead later _ _).mpr ⟨_, left, unexpired, body⟩

theorem stored_states_can_be_written_back_with_quote :
    let history : List (Int64 × Request) := [(9, exampleUpdate "k" "2025-01-01\\u002200Z")]
    let get : Request := ⟨"GET", String.ofList (Route.readPath "a/b"), [], []⟩
    let post := exampleUpdate "k" "2025-01-01\\\"00Z"
    let reached := (serveAll .standard Memory.backend history exampleStart).2
    let after := (serve .standard Memory.backend 20 post reached).2
    post.body = Text.Utf8.bytes (serve .standard Memory.backend 10 get reached).1.body ∧
      (serve .standard Memory.backend 20 post reached).1.status = 200 ∧
      (serve .standard Memory.backend 1209619 get after).1.body =
        (serve .standard Memory.backend 10 get reached).1.body := by
  intro history get post reached after
  have isRead : IsRead get ⟨"a/b"⟩ :=
    isRead_readPath (by decide) rfl (Http.Target.path_readPath "a/b")
  have isWrite : IsWrite post ⟨"a/b"⟩ "k" :=
    ⟨rfl, "a%2Fb".toList, "k".toList, by decide, by decide, by decide, by decide +kernel,
      by decide +kernel, by decide +kernel⟩
  have sameBody : post.body =
      Text.Utf8.bytes (serve .standard Memory.backend 10 get reached).1.body := by
    decide +kernel
  have success : (serve .standard Memory.backend 10 get reached).1.status = 200 := by
    decide +kernel
  obtain ⟨guard, found, -, written⟩ :=
    (stored_states_can_be_written_back .standard exampleStart rfl history).2 ⟨"a/b"⟩ 10 get rfl
      isRead success
  have key : (reached.apiKey? ⟨"a/b"⟩).map ApiKeyRecord.apiKey = some "k" := by decide +kernel
  rw [found] at key
  have isKey : guard.apiKey = "k" := Option.some.inj key
  obtain ⟨⟨start, -, status, -⟩, again⟩ := written 20 post (isKey ▸ isWrite) sameBody
  exact ⟨sameBody, status, (again 1209619 get (by decide) rfl isRead).2⟩

end WorkoutBoard.Service
