import WorkoutBoard.Proofs.Service.Agreement
import WorkoutBoard.Proofs.Service.Conduct

/-!
# What answers do not tell

A key that is stored shows only in whether a supplied key is the same
(`answers_reveal_only_matches`). The two runs are compared as long as they have the same states; the
look-up of a key is the one call that they may answer differently, and its two answers are judged
alike. Without the key there is no other call, and the body is not looked at
(`unopened_writes_learn_nothing`).
-/

namespace WorkoutBoard.Service

open Http (Request Response Route)
open Store (Agree Backend Call Conditions Memory Plan)
open Workout (ApiKeyRecord Code)

def Opens (memory : Memory) (code : Code) (key : String) : Prop :=
  (memory.apiKey? code).map ApiKeyRecord.apiKey = some key

instance (memory : Memory) (code : Code) (key : String) : Decidable (Opens memory code key) :=
  inferInstanceAs (Decidable (_ = _))

/-- Of the records that are found, only whether there is one and whether it has the supplied key has
an influence. -/
theorem judge_eq_judge {supplied : String} {left right : Option ApiKeyRecord}
    (provisioned : left.isSome = right.isSome)
    (matching : left.map ApiKeyRecord.apiKey = some supplied ↔
      right.map ApiKeyRecord.apiKey = some supplied) :
    judge supplied (.ok left) = judge supplied (.ok right) := by
  match left, right with
  | none, none => rfl
  | none, some _ => cases provisioned
  | some _, none => cases provisioned
  | some record, some other =>
      simp only [Option.map_some, Option.some.injEq] at matching
      have verdicts : keysMatch record.apiKey supplied = keysMatch other.apiKey supplied := by
        rw [Bool.eq_iff_iff, keysMatch_iff, keysMatch_iff, matching]
      rw [judge, judge, verdicts]

theorem judge_of_not_opens {memory : Memory} {code : Code} {key : String}
    (shut : ¬Opens memory code key) :
    ∃ message, judge key (.ok (memory.apiKey? code)) = .error (.unauthorized message) := by
  rw [Opens] at shut
  cases found : memory.apiKey? code with
  | none => exact ⟨_, rfl⟩
  | some record =>
      have different : ¬keysMatch record.apiKey key = true := by
        intro accepted
        rw [found, Option.map_some, ((keysMatch_iff _ _).mp accepted).1] at shut
        exact shut rfl
      exact ⟨_, if_neg different⟩

/-! ## Two stores with different keys -/

/-- The states are the same, and keys are stored for the same codes. A key that is tried is the
stored one in both memories or in neither. -/
structure Alike (Tried : Code → String → Prop) (left right : Memory) : Prop where
  states : left.states = right.states
  provisioned : ∀ code, (left.apiKey? code).isSome = (right.apiKey? code).isSome
  matching : ∀ code key, Tried code key → (Opens left code key ↔ Opens right code key)

variable {Tried : Code → String → Prop} {left right : Memory}

theorem Alike.agree :
    Agree Memory.backend Memory.backend (Alike Tried)
      fun call => ∀ code, call ≠ .getApiKey code where
  delay := fun _ => rfl
  perform := by
    intro call left right other alike
    cases call with
    | getApiKey code => exact absurd rfl (other code)
    | getState code now =>
        refine ⟨?_, alike⟩
        simp only [Memory.backend, Memory.perform, Memory.state?, alike.states]
    | putState record =>
        have states := congrArg (fun states => states.insert record.key record) alike.states
        exact ⟨rfl, states, alike.provisioned, alike.matching⟩
    | deleteState code =>
        have states := congrArg (fun states => states.erase code.stateKey) alike.states
        exact ⟨rfl, states, alike.provisioned, alike.matching⟩

theorem Alike.judge_lookUp (alike : Alike Tried left right) {code : Code} {key : String}
    (tried : Tried code key) (conditions : Conditions) :
    judge key ((Memory.backend.under conditions).perform (.getApiKey code) left).1 =
      judge key ((Memory.backend.under conditions).perform (.getApiKey code) right).1 := by
  simp only [Backend.under]
  cases conditions.failure (Call.getApiKey code).operation with
  | some message => rfl
  | none => exact judge_eq_judge (alike.provisioned code) (alike.matching code key tried)

theorem lookUp_keeps (conditions : Conditions) (code : Code) (memory : Memory) :
    ((Memory.backend.under conditions).perform (.getApiKey code) memory).2 = memory := by
  rcases Memory.backend.perform_under conditions (.getApiKey code) memory with
    ⟨message, failed⟩ | done
  · rw [failed]
  · rw [done]
    rfl

theorem Alike.run_write (alike : Alike Tried left right) {request : Request} {code : Code}
    {key : String} (isWrite : IsWrite request code key) (tried : Tried code key)
    (origins : Http.OriginPolicy) (conditions : Conditions) (now : Int64) (limit : Nat) :
    let backend := Memory.backend.under conditions
    ((handle origins now request).run backend limit left).1 =
        ((handle origins now request).run backend limit right).1 ∧
      Alike Tried ((handle origins now request).run backend limit left).2
        ((handle origins now request).run backend limit right).2 := by
  intro backend
  rw [handle_eq_ask_of_isWrite isWrite]
  by_cases tooSlow : limit < backend.delay (.getApiKey code)
  · rw [Plan.run_ask_of_lt tooSlow, Plan.run_ask_of_lt tooSlow]
    exact ⟨rfl, alike⟩
  · -- The look-ups may find different records. These are judged alike, and what follows the
    -- judgement looks up no key, so that the two plans are one plan from here on.
    have inTime := Nat.not_lt.mp tooSlow
    rw [Plan.run_ask_of_le inTime, Plan.run_ask_of_le inTime, lookUp_keeps, lookUp_keeps,
      alike.judge_lookUp tried conditions]
    have change : ∀ change : Change, ∀ other, change.call now code ≠ .getApiKey other := by
      intro change other
      cases change <;> exact nofun
    exact Plan.run_simulation (Alike.agree.under conditions)
      (proceed_every change origins request _) _ alike

theorem Alike.serve (alike : Alike Tried left right) {request : Request}
    (tried : ∀ code key, IsWrite request code key → Tried code key) (options : Options)
    (conditions : Conditions) (now : Int64) :
    let backend := Memory.backend.under conditions
    (serve options backend now request left).1 = (serve options backend now request right).1 ∧
      Alike Tried (serve options backend now request left).2
        (serve options backend now request right).2 := by
  refine serve_eq_of_run alike fun limit => ?_
  by_cases writes : ∃ code key, IsWrite request code key
  · obtain ⟨code, key, isWrite⟩ := writes
    exact alike.run_write isWrite (tried code key isWrite) options.origins conditions now limit
  · have noWrite : ∀ code key, ¬IsWrite request code key := fun code key isWrite =>
      writes ⟨code, key, isWrite⟩
    have every : (handle options.origins now request).Every
        fun call => ∀ code, call ≠ .getApiKey code :=
      handle_every (fun _ _ => nofun) (fun code key isWrite => absurd isWrite (noWrite code key))
        (fun code key _ isWrite => absurd isWrite (noWrite code key)) options.origins
    exact Plan.run_simulation (Alike.agree.under conditions) every limit alike

def Tries (history : List (Int64 × Request)) (code : Code) (key : String) : Prop :=
  ∃ entry ∈ history, IsWrite entry.2 code key

/-- Let two memories have the same states and keys for the same codes, and let each key that some
requests try be the stored one in both or in neither. Then the requests have the same answers and
leave the same states, whatever fails or takes too long. -/
theorem answers_reveal_only_matches (options : Options) (conditions : Conditions)
    (history : List (Int64 × Request)) {left right : Memory}
    (alike : Alike (Tries history) left right) :
    let backend := Memory.backend.under conditions
    (serveAll options backend history left).1 = (serveAll options backend history right).1 ∧
      (serveAll options backend history left).2.states =
        (serveAll options backend history right).2.states := by
  intro backend
  obtain ⟨answers, after⟩ := serveAll_eq_of_serve (fun entry member _ _ between =>
    between.serve (fun code key isWrite => ⟨entry, member, isWrite⟩) options conditions entry.1)
    alike
  exact ⟨answers, after.states⟩

def secretStart (apiKey : String) (description : Option String) : Memory where
  states := (∅ : Directory _).insert "workout-state:a" (.ofWrite ⟨"a"⟩ ⟨"2025-01-01T00Z"⟩ 4)
  apiKeys := ((∅ : Directory _).insert "api-key:a" (.ofKey ⟨"a"⟩ apiKey)).insert "api-key:b"
    ⟨"api-key:b", "k", description, none⟩

def guess (code key : String) (body : List UInt8) : Request :=
  ⟨"POST", String.ofList (Route.writePath code key), [], body⟩

theorem isWrite_guess {key : String} (nonempty : key ≠ "") (code : String) (body : List UInt8) :
    IsWrite (guess code key body) ⟨code⟩ key :=
  isWrite_writePath nonempty rfl (Http.Target.path_writePath code key)

def secretHistory : List (Int64 × Request) :=
  [(5, guess "a" "j" []), (6, guess "b" "k" []),
    (7, ⟨"GET", String.ofList (Route.readPath "a"), [], []⟩)]

theorem of_tries_secretHistory {code : Code} {key : String} (tried : Tries secretHistory code key) :
    (code = ⟨"a"⟩ ∧ key = "j") ∨ (code = ⟨"b"⟩ ∧ key = "k") := by
  obtain ⟨entry, member, isWrite⟩ := tried
  simp only [secretHistory, List.mem_cons, List.not_mem_nil, or_false] at member
  obtain rfl | rfl | rfl := member
  · exact .inl (isWrite.unique (isWrite_guess (by decide) "a" []))
  · exact .inr (isWrite.unique (isWrite_guess (by decide) "b" []))
  · exact absurd isWrite.1 (by decide)

theorem answers_reveal_only_matches_of_secret :
    Alike (Tries secretHistory) (secretStart "x" none) (secretStart "y" (some "new")) ∧
      (serveAll .standard Memory.backend secretHistory (secretStart "x" none)).1 =
        (serveAll .standard Memory.backend secretHistory (secretStart "y" (some "new"))).1 := by
  have alike : Alike (Tries secretHistory) (secretStart "x" none)
      (secretStart "y" (some "new")) := by
    refine ⟨rfl, fun code => ?_, fun code key tried => ?_⟩
    · simp only [Memory.apiKey?, secretStart, Directory.find?_insert]
      split
      · rfl
      · split <;> rfl
    · obtain ⟨rfl, rfl⟩ | ⟨rfl, rfl⟩ := of_tries_secretHistory tried
      · decide +kernel
      · decide +kernel
  have answers := (answers_reveal_only_matches .standard .undisturbed secretHistory alike).1
  rw [Backend.under_undisturbed] at answers
  exact ⟨alike, answers⟩

/-! ## Two requests without the key -/

section

variable {options : Options} {request : Request}

theorem serve_of_isKeyless (positive : 0 < options.limit) (keyless : IsKeyless request)
    (now : Int64) (memory : Memory) :
    (serve options Memory.backend now request memory).1 =
        (Refusal.unauthorized "api_key is required").response.withHeaders
          (options.origins.headers request) ∧
      callsOf options Memory.backend now request memory = [] := by
  rw [serve_eq_complete positive fun _ => rfl, callsOf, handle_of_isKeyless keyless]
  exact ⟨rfl, rfl⟩

theorem serve_of_judge (positive : 0 < options.limit) {code : Code} {key : String}
    (isWrite : IsWrite request code key) {memory : Memory} {refusal : Refusal}
    (judged : judge key (.ok (memory.apiKey? code)) = .error refusal) (now : Int64) :
    (serve options Memory.backend now request memory).1 =
        refusal.response.withHeaders (options.origins.headers request) ∧
      callsOf options Memory.backend now request memory =
        [⟨.getApiKey code, some (.ok (memory.apiKey? code))⟩] := by
  have refused : judge key (Memory.backend.perform (.getApiKey code) memory).1 = .error refusal :=
    judged
  rw [serve_eq_complete positive fun _ => rfl, callsOf, handle_eq_ask_of_isWrite isWrite,
    Plan.complete_ask, Plan.trace_ask_of_le (Nat.zero_le _), refused]
  exact ⟨rfl, rfl⟩

end

/-- Let two requests differ in their bodies only, and bring no key or one that is not the stored key
of their code. Then they have the same answer over all memories that have the same record for the
key of the code, and no state is read or written. No configuration sets a limit of zero. -/
theorem unopened_writes_learn_nothing (options : Options) (positive : 0 < options.limit)
    {left right : Memory} {request : Request}
    (unopened : IsKeyless request ∨ ∃ code key, IsWrite request code key ∧
      left.apiKey? code = right.apiKey? code ∧ ¬Opens left code key)
    (body : List UInt8) (now later : Int64) :
    let other := { request with body := body }
    let answer := (serve options Memory.backend now request left).1
    answer = (serve options Memory.backend later other right).1 ∧ answer.status = 401 ∧
      ∀ event ∈ callsOf options Memory.backend now request left ++
        callsOf options Memory.backend later other right, ∃ code, event.call = .getApiKey code := by
  intro other answer
  rcases unopened with keyless | ⟨code, key, isWrite, same, shut⟩
  · have otherKeyless : IsKeyless other := keyless
    obtain ⟨said, calls⟩ := serve_of_isKeyless positive keyless now left
    obtain ⟨otherSaid, otherCalls⟩ := serve_of_isKeyless positive otherKeyless later right
    rw [calls, otherCalls]
    exact ⟨said.trans otherSaid.symm, congrArg Response.status said, nofun⟩
  · have otherWrite : IsWrite other code key := isWrite
    obtain ⟨message, judged⟩ := judge_of_not_opens shut
    obtain ⟨said, calls⟩ := serve_of_judge positive isWrite judged now
    rw [same] at judged
    obtain ⟨otherSaid, otherCalls⟩ := serve_of_judge positive otherWrite judged later
    rw [calls, otherCalls]
    refine ⟨said.trans otherSaid.symm, congrArg Response.status said, fun event member => ?_⟩
    simp only [List.mem_append, List.mem_singleton] at member
    obtain rfl | rfl := member <;> exact ⟨code, rfl⟩

theorem unopened_writes_learn_nothing_of_large_body :
    let request := guess "b" "j" (Text.Utf8.bytes "\x7b")
    let large := guess "b" "j" (List.replicate (largestBody + 1) 0)
    let left := secretStart "x" none
    let right := { secretStart "y" none with states := ∅ }
    let answer := (serve .standard Memory.backend 5 request left).1
    answer = (serve .standard Memory.backend 9 large right).1 ∧ answer.status = 401 := by
  intro request large left right answer
  have sameKey : left.apiKey? ⟨"b"⟩ = right.apiKey? ⟨"b"⟩ := by decide +kernel
  have shut : ¬Opens left ⟨"b"⟩ "j" := by decide +kernel
  obtain ⟨same, status, -⟩ := unopened_writes_learn_nothing .standard (by decide)
    (.inr ⟨⟨"b"⟩, "j", isWrite_guess (by decide) "b" _, sameKey, shut⟩) large.body 5 9
  exact ⟨same, status⟩

end WorkoutBoard.Service
