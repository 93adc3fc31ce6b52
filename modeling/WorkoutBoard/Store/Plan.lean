import WorkoutBoard.Store.Failure
import WorkoutBoard.Workout.Record

/-!
# Plans

What the program asks of a store, and programs that ask one call after the other. A `Plan` is a tree
of calls whose branches are the possible answers, so that the calls of a request can be read off and
run against any `Backend`. A run has a limit of time: a call that would end after it is not made,
and the run has no result.
-/

namespace WorkoutBoard.Store

open Workout (ApiKeyRecord Code StateRecord)

/-- A call. A state that is expired at the time `now` reads as absent. -/
inductive Call where
  | getApiKey (code : Code)
  | getState (code : Code) (now : Int64)
  | putState (record : StateRecord)
  | deleteState (code : Code)
deriving DecidableEq, Repr

@[reducible] def Call.Result : Call → Type
  | .getApiKey _ => Option ApiKeyRecord
  | .getState _ _ => Option StateRecord
  | .putState _ => Unit
  | .deleteState _ => Unit

inductive Operation where
  | getApiKey
  | getState
  | putState
  | deleteState
deriving DecidableEq, Repr

def Call.operation : Call → Operation
  | .getApiKey _ => .getApiKey
  | .getState _ _ => .getState
  | .putState _ => .putState
  | .deleteState _ => .deleteState

inductive Plan (α : Type) : Type where
  | done (value : α)
  | ask (call : Call) (next : Except Failure call.Result → Plan α)

namespace Plan

variable {α β : Type}

def andThen : Plan α → (α → Plan β) → Plan β
  | .done value, next => next value
  | .ask call answer, next => .ask call fun result => (answer result).andThen next

theorem andThen_assoc {γ : Type} (plan : Plan α) (next : α → Plan β) (last : β → Plan γ) :
    (plan.andThen next).andThen last = plan.andThen fun value => (next value).andThen last := by
  induction plan with
  | done value => rfl
  | ask call answer inductive_step => exact congrArg (ask call) (funext inductive_step)

end Plan

/-- A store with the contents `σ`: how long a call takes, and what it answers and leaves behind. -/
structure Backend (σ : Type) where
  delay : Call → Nat
  perform : (call : Call) → σ → Except Failure call.Result × σ

structure Conditions where
  failure : Operation → Option String
  delay : Operation → Nat

def Conditions.undisturbed : Conditions := ⟨fun _ => none, fun _ => 0⟩

/-- A store under conditions. An operation that fails leaves the contents alone. -/
def Backend.under {σ : Type} (conditions : Conditions) (backend : Backend σ) : Backend σ where
  delay := fun call => conditions.delay call.operation + backend.delay call
  perform := fun call contents =>
    match conditions.failure call.operation with
    | some message => (.error (.unavailable message), contents)
    | none => backend.perform call contents

/-- Runs a plan for at most `limit` nanoseconds. -/
def Plan.run {α σ : Type} (backend : Backend σ) : Nat → Plan α → σ → Option α × σ
  | _, .done value, contents => (some value, contents)
  | limit, .ask call next, contents =>
      if limit < backend.delay call then (none, contents)
      else
        let (answer, contents) := backend.perform call contents
        run backend (limit - backend.delay call) (next answer) contents

namespace Plan

variable {α σ : Type}

@[simp] theorem run_done (backend : Backend σ) (limit : Nat) (value : α) (contents : σ) :
    (done value).run backend limit contents = (some value, contents) := rfl

theorem run_ask_of_lt {backend : Backend σ} {limit : Nat} {call : Call}
    (tooSlow : limit < backend.delay call) (next : Except Failure call.Result → Plan α)
    (contents : σ) : (ask call next).run backend limit contents = (none, contents) := by
  rw [run, if_pos tooSlow]

theorem run_ask_of_le {backend : Backend σ} {limit : Nat} {call : Call}
    (inTime : backend.delay call ≤ limit) (next : Except Failure call.Result → Plan α)
    (contents : σ) :
    (ask call next).run backend limit contents =
      (next (backend.perform call contents).1).run backend (limit - backend.delay call)
        (backend.perform call contents).2 := by
  rw [run, if_neg (Nat.not_lt.mpr inTime)]

end Plan

end WorkoutBoard.Store
