import WorkoutBoard.Proofs.Store.Plan

/-!
# The calls of a run

The trace of a run lists the calls that it starts, each with its answer unless the limit of time
cuts it short. A run comes to no result exactly if these calls take longer than the limit
(`Plan.run_eq_none_iff`). If it comes to one, the trace leads there whatever store gave the answers
(`Plan.concludes_trace`), so that what a plan can come to is a matter of the plan alone.
-/

namespace WorkoutBoard.Store

/-- A call that is started, and its answer if it is not cut short. -/
structure Event where
  call : Call
  answer : Option (Except Failure call.Result)

def Backend.elapsed {σ : Type} (backend : Backend σ) : List Event → Nat
  | [] => 0
  | event :: later => backend.delay event.call + backend.elapsed later

namespace Plan

variable {α β σ : Type}

/-- The calls that a run of at most `limit` nanoseconds starts. -/
def trace (backend : Backend σ) : Nat → Plan α → σ → List Event
  | _, .done _, _ => []
  | limit, .ask call next, contents =>
      if limit < backend.delay call then [⟨call, none⟩]
      else
        let (answer, contents) := backend.perform call contents
        ⟨call, some answer⟩ :: trace backend (limit - backend.delay call) (next answer) contents

theorem trace_ask_of_lt {backend : Backend σ} {limit : Nat} {call : Call}
    (tooSlow : limit < backend.delay call) (next : Except Failure call.Result → Plan α)
    (contents : σ) : (ask call next).trace backend limit contents = [⟨call, none⟩] := by
  rw [trace, if_pos tooSlow]

theorem trace_ask_of_le {backend : Backend σ} {limit : Nat} {call : Call}
    (inTime : backend.delay call ≤ limit) (next : Except Failure call.Result → Plan α)
    (contents : σ) :
    (ask call next).trace backend limit contents =
      ⟨call, some (backend.perform call contents).1⟩ ::
        (next (backend.perform call contents).1).trace backend (limit - backend.delay call)
          (backend.perform call contents).2 := by
  rw [trace, if_neg (Nat.not_lt.mpr inTime)]

theorem eq_of_trace_eq_cons {backend : Backend σ} {limit : Nat} {plan : Plan α} {contents : σ}
    {call : Call} {answer : Except Failure call.Result} {later : List Event}
    (started : plan.trace backend limit contents = ⟨call, some answer⟩ :: later) :
    answer = (backend.perform call contents).1 := by
  cases plan with
  | done value => cases started
  | ask first next =>
      by_cases tooSlow : limit < backend.delay first
      · rw [trace_ask_of_lt tooSlow] at started
        cases started
      · rw [trace_ask_of_le (Nat.not_lt.mp tooSlow)] at started
        cases started
        rfl

/-- A run fails to come to a result exactly if the calls that it starts take too long. The calls may
be listed for a longer run: those that this one does not start come after the one that is cut
short. -/
theorem run_eq_none_iff (backend : Backend σ) {limit longer : Nat} (shorter : limit ≤ longer)
    (plan : Plan α) (contents : σ) :
    (plan.run backend limit contents).1 = none ↔
      limit < backend.elapsed (plan.trace backend longer contents) := by
  induction plan generalizing limit longer contents with
  | done value => simp [trace, Backend.elapsed]
  | ask call next inductive_step =>
      by_cases cut : longer < backend.delay call
      · have tooSlow : limit < backend.delay call := Nat.lt_of_le_of_lt shorter cut
        rw [run_ask_of_lt tooSlow, trace_ask_of_lt cut]
        simpa [Backend.elapsed] using tooSlow
      · rw [trace_ask_of_le (Nat.not_lt.mp cut)]
        by_cases tooSlow : limit < backend.delay call
        · rw [run_ask_of_lt tooSlow]
          simp only [Backend.elapsed, true_iff]
          omega
        · have rest := inductive_step (backend.perform call contents).1
            (Nat.sub_le_sub_right shorter (backend.delay call)) (backend.perform call contents).2
          rw [run_ask_of_le (Nat.not_lt.mp tooSlow), rest]
          simp only [Backend.elapsed]
          omega

theorem trace_eq_of_run {backend : Backend σ} {limit longer : Nat} (shorter : limit ≤ longer)
    {plan : Plan α} {contents : σ} {value : α}
    (result : (plan.run backend limit contents).1 = some value) :
    plan.trace backend longer contents = plan.trace backend limit contents := by
  induction plan generalizing limit longer contents with
  | done _ => rfl
  | ask call next inductive_step =>
      by_cases tooSlow : limit < backend.delay call
      · rw [run_ask_of_lt tooSlow] at result
        cases result
      · have inTime := Nat.not_lt.mp tooSlow
        rw [run_ask_of_le inTime] at result
        rw [trace_ask_of_le inTime, trace_ask_of_le (Nat.le_trans inTime shorter),
          inductive_step _ (Nat.sub_le_sub_right shorter (backend.delay call)) result]

/-! ## What a plan can come to -/

/-- A plan comes to a value if its calls are answered as listed. -/
inductive Concludes : Plan α → List Event → α → Prop where
  | done (value : α) : Concludes (.done value) [] value
  | ask {call : Call} {next : Except Failure call.Result → Plan α}
      (answer : Except Failure call.Result) {later : List Event} {value : α}
      (rest : Concludes (next answer) later value) :
      Concludes (.ask call next) (⟨call, some answer⟩ :: later) value

theorem concludes_trace {backend : Backend σ} {limit : Nat} {plan : Plan α} {contents : σ}
    {value : α} (result : (plan.run backend limit contents).1 = some value) :
    plan.Concludes (plan.trace backend limit contents) value := by
  induction plan generalizing limit contents with
  | done other =>
      obtain rfl := Option.some.inj result
      exact .done other
  | ask call next inductive_step =>
      by_cases tooSlow : limit < backend.delay call
      · rw [run_ask_of_lt tooSlow] at result
        cases result
      · have inTime := Nat.not_lt.mp tooSlow
        rw [run_ask_of_le inTime] at result
        rw [trace_ask_of_le inTime]
        exact .ask _ (inductive_step _ result)

theorem Concludes.of_done {value other : α} {trace : List Event}
    (concludes : (Plan.done value).Concludes trace other) : trace = [] ∧ other = value := by
  cases concludes
  exact ⟨rfl, rfl⟩

theorem Concludes.of_ask {call : Call} {next : Except Failure call.Result → Plan α}
    {trace : List Event} {value : α} (concludes : (Plan.ask call next).Concludes trace value) :
    ∃ answer later, trace = ⟨call, some answer⟩ :: later ∧
      (next answer).Concludes later value := by
  cases concludes with
  | ask answer rest => exact ⟨answer, _, rfl, rest⟩

theorem Concludes.unique {plan : Plan α} {trace : List Event} {value other : α}
    (concludes : plan.Concludes trace value) (again : plan.Concludes trace other) :
    value = other := by
  induction concludes with
  | done value => exact again.of_done.2.symm
  | ask answer rest inductive_step =>
      obtain ⟨given, later, same, continued⟩ := again.of_ask
      obtain ⟨event, rfl⟩ := List.cons.inj same
      obtain rfl := Option.some.inj (eq_of_heq (Event.mk.inj event).2)
      exact inductive_step continued

theorem Concludes.of_andThen {plan : Plan α} {next : α → Plan β} {trace : List Event} {value : β}
    (concludes : (plan.andThen next).Concludes trace value) :
    ∃ earlier later between, trace = earlier ++ later ∧ plan.Concludes earlier between ∧
      (next between).Concludes later value := by
  induction plan generalizing trace with
  | done first => exact ⟨[], trace, first, rfl, .done first, concludes⟩
  | ask call answers inductive_step =>
      obtain ⟨answer, rest, rfl, continued⟩ := concludes.of_ask
      obtain ⟨earlier, later, between, rfl, first, second⟩ := inductive_step answer continued
      exact ⟨⟨call, some answer⟩ :: earlier, later, between, rfl, .ask answer first, second⟩

end Plan

end WorkoutBoard.Store
