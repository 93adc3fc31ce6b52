import WorkoutBoard.Proofs.Service.Disposition
import WorkoutBoard.Proofs.Service.Locality

/-!
# Updates can be read, except those of the empty code

Until it expires, an update shows in the next read of its code. The empty code can be written like
any other, but the path that would read it leads to no route: after an update of it, everything but
a write is answered as if there had been none (`update_is_readable`).
-/

namespace WorkoutBoard.Service

open Http (Request Response Route)
open Json (Value)
open Store (Memory)
open Workout (Code State StateRecord)

variable {options : Options} {memory : Memory} {time : Int64} {request : Request} {code : Code}
  {start : String}

structure Updates (options : Options) (memory : Memory) (time : Int64) (request : Request)
    (code : Code) (start : String) : Prop where
  isPost : request.method = "POST"
  status : (serve options Memory.backend time request memory).1.status = 200
  body : (serve options Memory.backend time request memory).1.body =
    (Value.object [("success", .boolean true),
      ("message", .text ("Workout state updated for code: " ++ code.text)),
      ("startDateTime", .text start)]).compact

/-! ## What an update does -/

theorem Updates.kept (updates : Updates options memory time request code start) :
    addressedCode? request = some code ∧
      (serve options Memory.backend time request memory).2.state? code =
        some (.ofWrite code ⟨start⟩ time) := by
  obtain ⟨isPost, status, body⟩ := updates
  have outcome := serve_outcome options Memory.backend time request memory
  generalize serve options Memory.backend time request memory = result at outcome status body ⊢
  cases outcome with
  | unasked response refused => exact absurd status (refused isPost)
  | read other isRead answer after found => exact absurd isPost isRead.not_post
  | refused other key isWrite answer after found response refusal => exact absurd status refusal
  | changed other key isWrite record between found accepted nonempty fits change asked answer after
      made =>
      obtain rfl : memory = between := congrArg Prod.snd found
      have told : (writeResponse other change answer).body =
          (confirmation other change).compact := by
        cases change <;> obtain rfl := congrArg Prod.fst made <;> rfl
      have confirmed : (confirmation other change).compact =
          (confirmation code (.set ⟨start⟩)).compact := told.symm.trans body
      obtain ⟨rfl, rfl⟩ := confirmation_inj confirmed
      have states := (perform_change (.set ⟨start⟩) time other memory).2 other
      rw [made, if_pos rfl] at states
      exact ⟨addressedCode?_of_isWrite isWrite, states⟩

/-! ## The empty code -/

theorem addressedCode?_ne_empty (notPost : request.method ≠ "POST") :
    addressedCode? request ≠ some ⟨""⟩ := by
  intro about
  rcases Option.or_eq_some_iff.mp about with read | ⟨-, written⟩
  · exact ((readCode?_eq_some_iff _ _).mp read).code_ne_empty rfl
  · exact notPost (isPost_of_writtenCode? written)

theorem serve_after_empty (about : addressedCode? request = some ⟨""⟩) {other : Request}
    (notPost : other.method ≠ "POST") (options : Options) (time now : Int64) (memory : Memory) :
    (serve options Memory.backend now other
        (serve options Memory.backend time request memory).2).1 =
      (serve options Memory.backend now other memory).1 := by
  refine (serve_congr options now fun code named => agreesOn_serve ?_ options time memory).1
  rw [about]
  intro same
  exact addressedCode?_ne_empty notPost (named.trans same.symm)

/-- A `GET` that reads no code does not ask the store, and succeeds only with the greeting. -/
theorem handle_of_get (isGet : request.method = "GET") (notRead : ∀ code, ¬IsRead request code)
    (origins : Http.OriginPolicy) (now : Int64) :
    ∃ response, handle origins now request = .done response ∧
      (response.status = 200 → response.body = greeting.compact) := by
  have notInquiry : ¬request.method = "OPTIONS" := ne_of_eq_of_ne isGet (by decide)
  rw [handle, if_neg notInquiry, route]
  cases path : Route.ofPath? (Http.Target.path request.target) with
  | none =>
      refine ⟨_, rfl, fun success => ?_⟩
      rw [status_withHeaders, unrouted_status] at success
      cases success
  | some found =>
      dsimp only
      rw [atRoute, isGet]
      cases found with
      | index => exact ⟨_, rfl, fun _ => rfl⟩
      | readState segment =>
          obtain ⟨⟨whole, nonempty⟩, written⟩ := Route.eq_toPath_of_ofPath? path
          cases read : unescape "workout_code" segment with
          | error message =>
              refine ⟨_, by rw [dispatch, read]; rfl, fun success => by cases success⟩
          | ok text =>
              exact absurd ⟨.inl isGet, segment, whole, nonempty, written,
                (unescape_eq_ok_iff _ _ _).mp read⟩ (notRead ⟨text⟩)
      | keylessWrite segment => exact ⟨_, rfl, fun success => by cases success⟩
      | writeState codeSegment keySegment => exact ⟨_, rfl, fun success => by cases success⟩

/-! ## Reading an update -/

/-- An update of a code can be read until it expires, with the start that it set. The one exception
is the empty code: whatever is asked for after an update of it, other than by a write, is answered
as it would have been before the update. -/
theorem update_is_readable (updates : Updates options memory time request code start) :
    let after := (serve options Memory.backend time request memory).2
    (code.text ≠ "" → ∀ now headers body, now < time + 1209600 →
        let get : Request := ⟨"GET", String.ofList (Route.readPath code.text), headers, body⟩
        let answer := (serve options Memory.backend now get after).1
        answer.status = 200 ∧
          answer.body = (Value.object [("startDateTime", .text start)]).compact) ∧
    (code.text = "" → ∀ now (other : Request), other.method ≠ "POST" →
      (serve options Memory.backend now other after).1 =
        (serve options Memory.backend now other memory).1) := by
  obtain ⟨about, left⟩ := updates.kept
  refine ⟨fun nonempty now headers body unexpired => ?_, fun empty now other notPost => ?_⟩
  · have isRead : IsRead ⟨"GET", String.ofList (Route.readPath code.text), headers, body⟩ code :=
      isRead_readPath nonempty rfl (Http.Target.path_readPath code.text)
    have positive := limit_pos_of_status updates.status
    exact (serve_get_iff positive rfl isRead now _ _).mpr ⟨_, left, unexpired, rfl⟩
  · obtain rfl : code = ⟨""⟩ := congrArg Code.mk empty
    exact serve_after_empty about notPost options time now memory

def unnamedStart : Memory := Memory.empty.insertApiKey ⟨""⟩ "k"

def unnamedUpdate : Request :=
  ⟨"POST", "/workout-state//k", [],
    Text.Utf8.bytes "\x7b\"startDateTime\":\"2025-01-01T00:00:00Z\"\x7d"⟩

theorem updates_unnamedUpdate :
    Updates .standard unnamedStart 0 unnamedUpdate ⟨""⟩ "2025-01-01T00:00:00Z" :=
  ⟨rfl, by decide +kernel, by decide +kernel⟩

theorem update_is_readable_in_last_second :
    let update := exampleUpdate "k" "2025W01 07+01"
    let after := (serve .standard Memory.backend 4 update exampleStart).2
    let get : Request := ⟨"GET", String.ofList (Route.readPath "a/b"), [], []⟩
    let answer := (serve .standard Memory.backend 1209603 get after).1
    let unnamedAfter := (serve .standard Memory.backend 0 unnamedUpdate unnamedStart).2
    let unnamedGet : Request := ⟨"GET", String.ofList (Route.readPath ""), [], []⟩
    (Updates .standard exampleStart 4 update ⟨"a/b"⟩ "2025W01 07+01" ∧
      answer.status = 200 ∧
        answer.body = (Value.object [("startDateTime", .text "2025W01 07+01")]).compact) ∧
    Updates .standard unnamedStart 0 unnamedUpdate ⟨""⟩ "2025-01-01T00:00:00Z" ∧
      (serve .standard Memory.backend 1 unnamedGet unnamedAfter).1 =
        (serve .standard Memory.backend 1 unnamedGet unnamedStart).1 := by
  intro update after get answer unnamedAfter unnamedGet
  have updates : Updates .standard exampleStart 4 update ⟨"a/b"⟩ "2025W01 07+01" :=
    ⟨rfl, by decide +kernel, by decide +kernel⟩
  exact ⟨⟨updates, (update_is_readable updates).1 (by decide) 1209603 [] [] (by decide)⟩,
    updates_unnamedUpdate,
    (update_is_readable updates_unnamedUpdate).2 rfl 1 unnamedGet (by decide)⟩

/-- No `GET` that follows an update of the empty code has the start that it set. -/
theorem update_of_empty_code_is_unreadable :
    let start := "2025-01-01T00:00:00Z"
    let after := (serve .standard Memory.backend 0 unnamedUpdate unnamedStart).2
    Updates .standard unnamedStart 0 unnamedUpdate ⟨""⟩ start ∧
      ¬∃ (now : Int64) (get : Request), get.method = "GET" ∧
        let answer := (serve .standard Memory.backend now get after).1
        answer.status = 200 ∧
          answer.body = (Value.object [("startDateTime", .text start)]).compact := by
  intro start after
  refine ⟨updates_unnamedUpdate, ?_⟩
  rintro ⟨now, get, isGet, status, body⟩
  have positive := limit_pos_of_status updates_unnamedUpdate.status
  have notPost : get.method ≠ "POST" := ne_of_eq_of_ne isGet (by decide)
  -- The answer is that of a memory without states.
  rw [serve_after_empty updates_unnamedUpdate.kept.1 notPost] at status body
  by_cases reads : ∃ code, IsRead get code
  · obtain ⟨code, isRead⟩ := reads
    obtain ⟨record, held, -⟩ :=
      (serve_get_iff positive isGet isRead now unnamedStart _).mp ⟨status, rfl⟩
    have absent : unnamedStart.state? code = none := rfl
    rw [absent] at held
    cases held
  · obtain ⟨response, plan, told⟩ := handle_of_get isGet (not_exists.mp reads) .any now
    have served : (serve .standard Memory.backend now get unnamedStart).1 = response := by
      rw [serve_eq_complete positive fun _ => rfl]
      exact congrArg (fun plan => (plan.complete Memory.backend unnamedStart).1) plan
    rw [served] at status body
    have greeted : greeting.compact = (Value.object [("startDateTime", .text start)]).compact :=
      (told status).symm.trans body
    exact absurd greeted (by decide +kernel)

end WorkoutBoard.Service
