import WorkoutBoard.Proofs.Service.Outcome
import WorkoutBoard.Proofs.Store.Agreement

/-!
# The service does not tell its stores apart

Whatever the answers are, a request makes only the calls of its time (`handle_every`). The service
therefore answers alike over stores that agree on these calls, as the table does with the memory
that it mirrors (`stores_agree`).
-/

namespace WorkoutBoard.Service

open Http (Request)
open Store (Agree Backend Call Memory Plan Table Use)
open Workout (Code)

theorem proceed_every {Holds : Call → Prop} {now : Int64} {code : Code}
    (made : ∀ change : Change, Holds (change.call now code)) (origins : Http.OriginPolicy)
    (request : Request) (judged : Except Refusal Unit) :
    (proceed origins now request code judged).Every Holds := by
  rcases proceed_cases origins now request code judged with
    ⟨response, ended⟩ | ⟨change, -, continued⟩
  · rw [ended]
    exact trivial
  · rw [continued]
    exact ⟨made change, fun _ => trivial⟩

theorem handle_every {Holds : Call → Prop} {now : Int64} {request : Request}
    (read : ∀ code, IsRead request code → Holds (.getState code now))
    (lookUp : ∀ code key, IsWrite request code key → Holds (.getApiKey code))
    (made : ∀ code key (change : Change), IsWrite request code key →
      Holds (change.call now code)) (origins : Http.OriginPolicy) :
    (handle origins now request).Every Holds := by
  rcases handle_cases request with ⟨code, isRead⟩ | ⟨code, key, isWrite⟩ | unasked
  · rw [handle_of_isRead isRead]
    exact ⟨read code isRead, fun _ => trivial⟩
  · rw [handle_eq_ask_of_isWrite isWrite]
    exact ⟨lookUp code key isWrite, fun answer =>
      proceed_every (fun change => made code key change isWrite) origins request _⟩
  · obtain ⟨response, plan, -⟩ := unasked origins now
    rw [plan]
    exact trivial

theorem change_isMadeAt (change : Change) (now : Int64) (code : Code) :
    (change.call now code).IsMadeAt now := by
  cases change with
  | clear => exact trivial
  | set state => exact ⟨code, state, rfl⟩

theorem handle_isMadeAt (origins : Http.OriginPolicy) (now : Int64) (request : Request) :
    (handle origins now request).Every (Call.IsMadeAt now) :=
  handle_every (fun _ _ => rfl) (fun _ _ _ => trivial)
    (fun code _ change _ => change_isMadeAt change now code) origins

theorem isOwn_of_isMadeAt {now : Int64} (call : Call) (made : call.IsMadeAt now) :
    call.IsOwn := by
  cases call with
  | putState record =>
      obtain ⟨code, state, same⟩ := made
      exact ⟨code, state, now, same⟩
  | _ => trivial

section

variable {σ τ : Type} {left : Backend σ} {right : Backend τ} {Related : σ → τ → Prop}

/-- What holds of the runs of a request's plan under every limit holds of serving it. -/
theorem serve_eq_of_run {options : Options} {now : Int64} {request : Request} {contents : σ}
    {other : τ} (related : Related contents other)
    (runs : ∀ limit,
      ((handle options.origins now request).run left limit contents).1 =
          ((handle options.origins now request).run right limit other).1 ∧
        Related ((handle options.origins now request).run left limit contents).2
          ((handle options.origins now request).run right limit other).2) :
    (serve options left now request contents).1 = (serve options right now request other).1 ∧
      Related (serve options left now request contents).2
        (serve options right now request other).2 := by
  cases time : options.limit with
  | zero =>
      rw [serve, serve, time]
      exact ⟨rfl, related⟩
  | succ limit =>
      obtain ⟨answers, after⟩ := runs limit
      rw [serve_eq_answerOf time, serve_eq_answerOf time]
      generalize (handle options.origins now request).run left limit contents = one
        at answers after ⊢
      generalize (handle options.origins now request).run right limit other = two
        at answers after ⊢
      obtain ⟨response, reached⟩ := one
      obtain ⟨otherResponse, otherReached⟩ := two
      obtain rfl : response = otherResponse := answers
      cases response with
      | none => exact ⟨rfl, after⟩
      | some response => exact ⟨rfl, after⟩

theorem serve_simulation_of_every {Holds : Call → Prop} {options : Options} {now : Int64}
    {request : Request} (agree : Agree left right Related Holds)
    (every : (handle options.origins now request).Every Holds) {contents : σ} {other : τ}
    (related : Related contents other) :
    (serve options left now request contents).1 = (serve options right now request other).1 ∧
      Related (serve options left now request contents).2
        (serve options right now request other).2 :=
  serve_eq_of_run related fun limit => Plan.run_simulation agree every limit related

theorem serve_simulation {now : Int64} (agree : Agree left right Related (Call.IsMadeAt now))
    (options : Options) (request : Request) {contents : σ} {other : τ}
    (related : Related contents other) :
    (serve options left now request contents).1 = (serve options right now request other).1 ∧
      Related (serve options left now request contents).2
        (serve options right now request other).2 :=
  serve_simulation_of_every agree (handle_isMadeAt options.origins now request) related

theorem serveAll_eq_of_serve {options : Options} {history : List (Int64 × Request)}
    (step : ∀ entry ∈ history, ∀ contents other, Related contents other →
      (serve options left entry.1 entry.2 contents).1 =
          (serve options right entry.1 entry.2 other).1 ∧
        Related (serve options left entry.1 entry.2 contents).2
          (serve options right entry.1 entry.2 other).2)
    {contents : σ} {other : τ} (related : Related contents other) :
    (serveAll options left history contents).1 = (serveAll options right history other).1 ∧
      Related (serveAll options left history contents).2
        (serveAll options right history other).2 := by
  induction history generalizing contents other with
  | nil => exact ⟨rfl, related⟩
  | cons entry later inductive_step =>
      obtain ⟨now, others⟩ := List.forall_mem_cons.mp step
      obtain ⟨first, between⟩ := now contents other related
      obtain ⟨rest, after⟩ := inductive_step others between
      rw [serveAll_cons, serveAll_cons, first, rest]
      exact ⟨rfl, after⟩

theorem serveAll_simulation_of_times (options : Options) {history : List (Int64 × Request)}
    (agree : ∀ entry ∈ history, Agree left right Related (Call.IsMadeAt entry.1))
    {contents : σ} {other : τ} (related : Related contents other) :
    (serveAll options left history contents).1 = (serveAll options right history other).1 ∧
      Related (serveAll options left history contents).2
        (serveAll options right history other).2 :=
  serveAll_eq_of_serve (fun entry member _ _ between =>
    serve_simulation (agree entry member) options entry.2 between) related

theorem serveAll_simulation (agree : Agree left right Related Call.IsOwn) (options : Options)
    (history : List (Int64 × Request)) {contents : σ} {other : τ}
    (related : Related contents other) :
    (serveAll options left history contents).1 = (serveAll options right history other).1 ∧
      Related (serveAll options left history contents).2
        (serveAll options right history other).2 :=
  serveAll_simulation_of_times options (fun _ _ => agree.mono isOwn_of_isMadeAt) related

end

/-- However a memory and a table that were empty have been used, they give the same result to
whatever is done next, and the service gives the same answers over them to all later requests. -/
theorem stores_agree (name : String) (named : name.toList.all Text.isBlank = false)
    (uses : List Use) :
    let memory := Use.memoryAfter uses Memory.empty
    let table := Use.tableAfter uses (Table.empty name)
    (∀ use : Use, (use.onMemory memory).1 = (use.onTable table).1) ∧
      ∀ (options : Options) (history : List (Int64 × Request)),
        (serveAll options Memory.backend history memory).1 =
          (serveAll options Table.backend history table).1 := by
  have mirrors := (Store.Mirrors.empty named).uses uses
  exact ⟨fun use => (mirrors.use use).1, fun options history =>
    (serveAll_simulation Store.Mirrors.agree options history mirrors).1⟩

def exampleUses : List Use :=
  [.provision ⟨"api-key:a"⟩ "k",
    .ask (.putState (.ofWrite ⟨"api-key:a"⟩ ⟨"2025W01 07+01"⟩ 4)) ⟨_, _, _, rfl⟩]

theorem stores_agree_in_last_second :
    ((Use.tableAfter exampleUses (Table.empty "cache")).perform
        (.getState ⟨"api-key:a"⟩ 1209603)).1 =
      .ok (some (.ofWrite ⟨"api-key:a"⟩ ⟨"2025W01 07+01"⟩ 4)) := by
  have agree := (stores_agree "cache" (by decide) exampleUses).1
    (.ask (.getState ⟨"api-key:a"⟩ 1209603) trivial)
  have found : ((Use.memoryAfter exampleUses Memory.empty).perform
      (.getState ⟨"api-key:a"⟩ 1209603)).1 =
        .ok (some (.ofWrite ⟨"api-key:a"⟩ ⟨"2025W01 07+01"⟩ 4)) := by
    decide +kernel
  exact agree.symm.trans found

end WorkoutBoard.Service
