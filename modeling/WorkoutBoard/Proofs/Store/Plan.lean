import WorkoutBoard.Store.Plan

/-!
# Plans on related stores

A call to a store under conditions fails and does nothing, or is the call to the store itself. Two
stores on which every call of a plan goes alike cannot be told apart by the plan
(`Plan.run_simulation`). Where calls take no time, a run is complete whatever its limit is
(`Plan.run_eq_complete`).
-/

namespace WorkoutBoard.Store

open Workout (StateRecord)

variable {σ : Type}

@[simp] theorem Backend.under_undisturbed (backend : Backend σ) :
    backend.under .undisturbed = backend := by
  cases backend
  simp [Backend.under, Conditions.undisturbed]

theorem Backend.perform_under (conditions : Conditions) (backend : Backend σ) (call : Call)
    (contents : σ) :
    (∃ message, (backend.under conditions).perform call contents =
      (.error (.unavailable message), contents)) ∨
    (backend.under conditions).perform call contents = backend.perform call contents := by
  simp only [Backend.under]
  cases conditions.failure call.operation with
  | none => exact .inr rfl
  | some message => exact .inl ⟨message, rfl⟩

def Plan.Every {α : Type} (Holds : Call → Prop) : Plan α → Prop
  | .done _ => True
  | .ask call next => Holds call ∧ ∀ answer, (next answer).Every Holds

theorem Plan.Every.mono {α : Type} {Holds Weaker : Call → Prop} {plan : Plan α}
    (every : plan.Every Holds) (weaker : ∀ call, Holds call → Weaker call) :
    plan.Every Weaker := by
  induction plan with
  | done value => trivial
  | ask call next inductive_step =>
      exact ⟨weaker call every.1, fun answer => inductive_step answer (every.2 answer)⟩

def Call.IsMadeAt (now : Int64) : Call → Prop
  | .getState _ time => time = now
  | .putState record => ∃ code state, record = .ofWrite code state now
  | _ => True

/-- Stores agree on calls if these take equally long, have equal answers, and leave related contents
behind. -/
structure Agree {σ τ : Type} (left : Backend σ) (right : Backend τ) (Related : σ → τ → Prop)
    (Holds : Call → Prop) : Prop where
  delay : ∀ call, left.delay call = right.delay call
  perform : ∀ call contents other, Holds call → Related contents other →
    (left.perform call contents).1 = (right.perform call other).1 ∧
      Related (left.perform call contents).2 (right.perform call other).2

theorem Agree.mono {τ : Type} {left : Backend σ} {right : Backend τ} {Related : σ → τ → Prop}
    {Holds Weaker : Call → Prop} (agree : Agree left right Related Weaker)
    (weaker : ∀ call, Holds call → Weaker call) : Agree left right Related Holds where
  delay := agree.delay
  perform := fun call contents other holds => agree.perform call contents other (weaker call holds)

theorem Agree.under {τ : Type} {left : Backend σ} {right : Backend τ} {Related : σ → τ → Prop}
    {Holds : Call → Prop} (agree : Agree left right Related Holds) (conditions : Conditions) :
    Agree (left.under conditions) (right.under conditions) Related Holds where
  delay := fun call => congrArg (conditions.delay call.operation + ·) (agree.delay call)
  perform := by
    intro call contents other holds related
    simp only [Backend.under]
    cases conditions.failure call.operation with
    | none => exact agree.perform call contents other holds related
    | some message => exact ⟨rfl, related⟩

/-- Where the calls of a plan agree, its runs agree. -/
theorem Plan.run_simulation {α τ : Type} {left : Backend σ} {right : Backend τ}
    {Related : σ → τ → Prop} {Holds : Call → Prop} (agree : Agree left right Related Holds)
    {plan : Plan α} (every : plan.Every Holds) (limit : Nat) {contents : σ} {other : τ}
    (related : Related contents other) :
    (plan.run left limit contents).1 = (plan.run right limit other).1 ∧
      Related (plan.run left limit contents).2 (plan.run right limit other).2 := by
  -- The next plan depends on the answer, so both sides are rewritten to one answer before the
  -- hypothesis for that plan applies.
  induction plan generalizing limit contents other with
  | done value => exact ⟨rfl, related⟩
  | ask call next inductive_step =>
      obtain ⟨holds, later⟩ := every
      obtain ⟨answers, after⟩ := agree.perform call contents other holds related
      by_cases tooSlow : limit < left.delay call
      · rw [run_ask_of_lt tooSlow, run_ask_of_lt (agree.delay call ▸ tooSlow)]
        exact ⟨rfl, related⟩
      · have inTime := Nat.not_lt.mp tooSlow
        rw [run_ask_of_le inTime, run_ask_of_le (agree.delay call ▸ inTime), answers,
          agree.delay call]
        exact inductive_step _ (later _) _ after

namespace Plan

variable {α : Type}

/-- Runs a plan to its end, however long that takes. -/
def complete (backend : Backend σ) : Plan α → σ → α × σ
  | .done value, contents => (value, contents)
  | .ask call next, contents =>
      let (answer, contents) := backend.perform call contents
      complete backend (next answer) contents

theorem complete_ask (backend : Backend σ) (call : Call)
    (next : Except Failure call.Result → Plan α) (contents : σ) :
    (ask call next).complete backend contents =
      (next (backend.perform call contents).1).complete backend
        (backend.perform call contents).2 := rfl

theorem complete_andThen_done {β : Type} (backend : Backend σ) (plan : Plan α) (change : α → β)
    (contents : σ) :
    (plan.andThen fun value => .done (change value)).complete backend contents =
      (change (plan.complete backend contents).1, (plan.complete backend contents).2) := by
  induction plan generalizing contents with
  | done value => rfl
  | ask call next inductive_step => exact inductive_step _ _

theorem run_eq_complete {backend : Backend σ} (instant : ∀ call, backend.delay call = 0)
    (limit : Nat) (plan : Plan α) (contents : σ) :
    plan.run backend limit contents =
      (some (plan.complete backend contents).1, (plan.complete backend contents).2) := by
  induction plan generalizing limit contents with
  | done value => rfl
  | ask call next inductive_step =>
      have inTime : backend.delay call ≤ limit := instant call ▸ Nat.zero_le limit
      rw [run_ask_of_le inTime, complete_ask]
      exact inductive_step _ _ _

end Plan

end WorkoutBoard.Store
