import WorkoutBoard.Proofs.Service.Agreement
import WorkoutBoard.Proofs.Service.Guard
import WorkoutBoard.Proofs.Service.Register

/-!
# Codes do not meddle with each other

A request is about one code at most (`addressedCode?`). It sees the state and the key of that code
only and changes no other state, so that requests about different codes can be served in either
order (`serve_comm`) and the requests about a code are served as if there were no others
(`serveAll_filter`).
-/

namespace WorkoutBoard.Service

open Http (Request Response Route)
open Store (Agree Call Memory)
open Workout (Code State)

/-! ## The code of a request -/

def readCode? (request : Request) : Option Code :=
  if request.method = "GET" ∨ request.method = "HEAD" then
    match Route.ofPath? (Http.Target.path request.target) with
    | some (.readState segment) => (Text.Percent.decode segment).map Code.mk
    | _ => none
  else none

def addressedCode? (request : Request) : Option Code :=
  (readCode? request).or (writtenCode? request)

theorem readCode?_eq_some_iff (request : Request) (code : Code) :
    readCode? request = some code ↔ IsRead request code := by
  constructor
  · intro found
    rw [readCode?] at found
    split at found
    next method =>
      split at found
      next segment route =>
        obtain ⟨⟨whole, nonempty⟩, path⟩ := Route.eq_toPath_of_ofPath? route
        obtain ⟨text, read, rfl⟩ := Option.map_eq_some_iff.mp found
        exact ⟨method, segment, whole, nonempty, path, read⟩
      next => cases found
    next => cases found
  · rintro ⟨method, segment, whole, nonempty, path, read⟩
    have route : Route.ofPath? (Http.Target.path request.target) = some (.readState segment) :=
      (Route.ofPath?_eq_some_iff _ _).mpr ⟨⟨whole, nonempty⟩, path⟩
    rw [readCode?, if_pos method, route]
    exact congrArg (Option.map Code.mk) read

theorem addressedCode?_of_isRead {request : Request} {code : Code} (isRead : IsRead request code) :
    addressedCode? request = some code := by
  rw [addressedCode?, (readCode?_eq_some_iff request code).mpr isRead, Option.some_or]

theorem addressedCode?_of_isWrite {request : Request} {code : Code} {key : String}
    (isWrite : IsWrite request code key) : addressedCode? request = some code := by
  have notRead : readCode? request = none := by
    cases read : readCode? request with
    | none => rfl
    | some other =>
        exact absurd isWrite.1 ((readCode?_eq_some_iff request other).mp read).not_post
  rw [addressedCode?, notRead, Option.none_or]
  exact (writtenCode?_eq_some_iff request code).mpr ⟨key, isWrite⟩

/-! ## What a request sees and changes -/

def Concerns (code : Code) (call : Call) : Prop :=
  (∃ now, call = .getState code now) ∨ call = .getApiKey code ∨
    ∃ (change : Change) (now : Int64), call = change.call now code

theorem handle_concerns (origins : Http.OriginPolicy) (now : Int64) (request : Request) :
    (handle origins now request).Every fun call =>
      ∃ code, addressedCode? request = some code ∧ Concerns code call :=
  handle_every
    (fun code isRead => ⟨code, addressedCode?_of_isRead isRead, .inl ⟨now, rfl⟩⟩)
    (fun code _ isWrite => ⟨code, addressedCode?_of_isWrite isWrite, .inr (.inl rfl)⟩)
    (fun code _ change isWrite =>
      ⟨code, addressedCode?_of_isWrite isWrite, .inr (.inr ⟨change, now, rfl⟩)⟩)
    origins

/-- Two memories look the same to those who ask about a code. -/
structure AgreesOn (code : Code) (left right : Memory) : Prop where
  state : left.state? code = right.state? code
  apiKey : left.apiKey? code = right.apiKey? code

theorem AgreesOn.refl (code : Code) (memory : Memory) : AgreesOn code memory memory := ⟨rfl, rfl⟩

theorem AgreesOn.agree (code : Code) :
    Agree Memory.backend Memory.backend (AgreesOn code) (Concerns code) where
  delay := fun _ => rfl
  perform := by
    rintro call left right concerns same
    rcases concerns with ⟨now, rfl⟩ | rfl | ⟨change, now, rfl⟩
    · have answers : (Memory.backend.perform (.getState code now) left).1 =
          (Memory.backend.perform (.getState code now) right).1 := by
        simp only [Memory.backend, Memory.perform, same.state]
      exact ⟨answers, same⟩
    · exact ⟨congrArg Except.ok same.apiKey, same⟩
    · have leftState := ((perform_change change now code left).2 code).trans (if_pos rfl)
      have rightState := ((perform_change change now code right).2 code).trans (if_pos rfl)
      cases change <;> exact ⟨rfl, leftState.trans rightState.symm, same.apiKey⟩

/-- A request is answered alike over memories that look the same to it, and they still do after
it. -/
theorem serve_congr (options : Options) (now : Int64) {request : Request} {left right : Memory}
    (same : ∀ code, addressedCode? request = some code → AgreesOn code left right) :
    (serve options Memory.backend now request left).1 =
        (serve options Memory.backend now request right).1 ∧
      ∀ code, addressedCode? request = some code →
        AgreesOn code (serve options Memory.backend now request left).2
          (serve options Memory.backend now request right).2 := by
  have concerns := handle_concerns options.origins now request
  cases addressed : addressedCode? request with
  | none =>
      -- No call is about a code, so that nothing is asked of the memories.
      have agree : Agree Memory.backend Memory.backend (fun _ _ => True) fun call =>
          ∃ code, addressedCode? request = some code ∧ Concerns code call := by
        refine ⟨fun _ => rfl, fun call contents other holds => ?_⟩
        obtain ⟨code, about, -⟩ := holds
        exact absurd (addressed.symm.trans about) (by simp)
      exact ⟨(serve_simulation_of_every agree concerns trivial).1, fun code about => by cases about⟩
  | some code =>
      have every : (handle options.origins now request).Every (Concerns code) := by
        refine concerns.mono fun call holds => ?_
        obtain ⟨other, about, concern⟩ := holds
        exact Option.some.inj (addressed.symm.trans about) ▸ concern
      obtain ⟨answers, after⟩ :=
        serve_simulation_of_every (AgreesOn.agree code) every (same code addressed)
      exact ⟨answers, fun other about => Option.some.inj about ▸ after⟩

theorem serve_frame (options : Options) (now : Int64) (request : Request) (memory : Memory) :
    (serve options Memory.backend now request memory).2.apiKeys = memory.apiKeys ∧
      ∀ key, (∀ code, addressedCode? request = some code → key ≠ code.stateKey) →
        (serve options Memory.backend now request memory).2.states.find? key =
          memory.states.find? key := by
  obtain ⟨apiKeys, same | ⟨code, left, authorized, -, others⟩⟩ :=
    (memory_guarded memory.apiKeys).serve options now request rfl
  · exact ⟨apiKeys, fun key _ => congrArg (fun states => states.find? key) same⟩
  · obtain ⟨supplied, record, isWrite, -⟩ := authorized.key
    exact ⟨apiKeys, fun key apart => others key (apart code (addressedCode?_of_isWrite isWrite))⟩

theorem agreesOn_serve {request : Request} {code : Code}
    (other : addressedCode? request ≠ some code) (options : Options) (now : Int64)
    (memory : Memory) :
    AgreesOn code (serve options Memory.backend now request memory).2 memory := by
  obtain ⟨apiKeys, states⟩ := serve_frame options now request memory
  refine ⟨states code.stateKey fun changed about same => ?_, ?_⟩
  · rw [Code.stateKey_injective same] at other
    exact other about
  · rw [Memory.apiKey?, apiKeys, Memory.apiKey?]

/-! ## Requests about different codes -/

/-- No code is the one that both requests are about. -/
def Apart (first second : Request) : Prop :=
  ∀ code, addressedCode? first = some code → addressedCode? second ≠ some code

theorem Apart.symm {first second : Request} (apart : Apart first second) : Apart second first :=
  fun code about other => apart code other about

section

variable (options : Options) {first second : Int64 × Request} (apart : Apart first.2 second.2)
  (memory : Memory)

include apart

theorem serve_of_apart :
    (serve options Memory.backend second.1 second.2
        (serve options Memory.backend first.1 first.2 memory).2).1 =
      (serve options Memory.backend second.1 second.2 memory).1 :=
  (serve_congr options second.1 fun code about =>
    agreesOn_serve (fun other => apart code other about) options first.1 memory).1

theorem find?_serve_of_apart {code : Code} (about : addressedCode? first.2 = some code) :
    (serve options Memory.backend second.1 second.2
        (serve options Memory.backend first.1 first.2 memory).2).2.states.find? code.stateKey =
      (serve options Memory.backend first.1 first.2
        (serve options Memory.backend second.1 second.2 memory).2).2.states.find?
          code.stateKey := by
  have kept := agreesOn_serve (apart code about) options second.1
    (serve options Memory.backend first.1 first.2 memory).2
  have again := (serve_congr options first.1 fun other same =>
    Option.some.inj (about.symm.trans same) ▸
      agreesOn_serve (apart code about) options second.1 memory).2 code about
  exact kept.state.trans again.state.symm

theorem serve_comm :
    (serve options Memory.backend second.1 second.2
        (serve options Memory.backend first.1 first.2 memory).2).2 =
      (serve options Memory.backend first.1 first.2
        (serve options Memory.backend second.1 second.2 memory).2).2 := by
  have firstFrame := serve_frame options first.1 first.2
  have secondFrame := serve_frame options second.1 second.2
  refine Memory.mk.injEq .. ▸ ⟨Directory.ext_find fun key => ?_, ?_⟩
  · by_cases ofFirst : ∃ code, addressedCode? first.2 = some code ∧ key = code.stateKey
    · obtain ⟨code, about, rfl⟩ := ofFirst
      exact find?_serve_of_apart options apart memory about
    by_cases ofSecond : ∃ code, addressedCode? second.2 = some code ∧ key = code.stateKey
    · obtain ⟨code, about, rfl⟩ := ofSecond
      exact (find?_serve_of_apart options apart.symm memory about).symm
    · have notFirst : ∀ code, addressedCode? first.2 = some code → key ≠ code.stateKey :=
        fun code about same => ofFirst ⟨code, about, same⟩
      have notSecond : ∀ code, addressedCode? second.2 = some code → key ≠ code.stateKey :=
        fun code about same => ofSecond ⟨code, about, same⟩
      rw [(secondFrame _).2 key notSecond, (firstFrame _).2 key notFirst,
        (firstFrame _).2 key notFirst, (secondFrame _).2 key notSecond]
  · rw [(secondFrame _).1, (firstFrame _).1, (firstFrame _).1, (secondFrame _).1]

theorem serveAll_swap {earlier later : List (Int64 × Request)} {said saidLater : List Response}
    {one other : Response} {after : Memory} (lengths : said.length = earlier.length)
    (served : serveAll options Memory.backend (earlier ++ first :: second :: later) memory =
      (said ++ one :: other :: saidLater, after)) :
    serveAll options Memory.backend (earlier ++ second :: first :: later) memory =
      (said ++ other :: one :: saidLater, after) := by
  rw [serveAll_append] at served ⊢
  obtain ⟨answers, reached⟩ := Prod.mk.inj served
  have sameLength : (serveAll options Memory.backend earlier memory).1.length = said.length := by
    rw [length_serveAll, lengths]
  obtain ⟨saidEarlier, saidThen⟩ := List.append_inj answers sameLength
  generalize (serveAll options Memory.backend earlier memory).2 = between at saidThen reached ⊢
  rw [serveAll_cons, serveAll_cons, serve_of_apart options apart between] at saidThen
  rw [serveAll_cons, serveAll_cons] at reached
  obtain ⟨rfl, rest⟩ := List.cons.inj saidThen
  obtain ⟨rfl, rfl⟩ := List.cons.inj rest
  rw [saidEarlier, serveAll_cons, serveAll_cons, serve_of_apart options apart.symm between,
    ← serve_comm options apart between, ← reached]

end

/-! ## Requests about one code -/

theorem serveAll_filter (options : Options) (code : Code) (history : List (Int64 × Request))
    {memory alone : Memory} (same : AgreesOn code memory alone) :
    let answers := (serveAll options Memory.backend history memory).1
    let own := history.filter fun entry => addressedCode? entry.2 = some code
    (serveAll options Memory.backend own alone).1 =
        ((history.zip answers).filter fun entry =>
          addressedCode? entry.1.2 = some code).map Prod.snd ∧
      AgreesOn code (serveAll options Memory.backend history memory).2
        (serveAll options Memory.backend own alone).2 := by
  induction history generalizing memory alone with
  | nil => exact ⟨rfl, same⟩
  | cons entry later inductive_step =>
      dsimp only at inductive_step ⊢
      rw [serveAll_cons, List.zip_cons_cons, List.filter_cons, List.filter_cons]
      by_cases about : addressedCode? entry.2 = some code
      · have asked : ∀ other, addressedCode? entry.2 = some other → AgreesOn other memory alone :=
          fun other named => Option.some.inj (about.symm.trans named) ▸ same
        obtain ⟨answer, after⟩ := serve_congr options entry.1 asked
        obtain ⟨answers, reached⟩ := inductive_step (after code about)
        rw [if_pos (decide_eq_true about), if_pos (decide_eq_true about), serveAll_cons,
          List.map_cons, answers, answer]
        exact ⟨rfl, reached⟩
      · have kept := agreesOn_serve about options entry.1 memory
        rw [if_neg (mt of_decide_eq_true about), if_neg (mt of_decide_eq_true about)]
        exact inductive_step ⟨kept.state.trans same.state, kept.apiKey.trans same.apiKey⟩

end WorkoutBoard.Service
