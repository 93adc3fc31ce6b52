import Mathlib.Data.List.Dedup
import WorkoutBoard.Proofs.Store.Plan

/-!
# Plans that run at the same time

Callers with a plan each share one store, and their calls come one at a time in any order
(`Interleaves`). If every plan only looks up keys before its last call, and no call changes what is
found there, the callers cannot tell that they are not alone: the values and the contents are those
of running the plans in turn, in the order of their last calls (`Interleaves.inTurn_eq`).
-/

namespace WorkoutBoard.Store

open Workout (Code)

variable {α σ Caller : Type}

def Plan.LooksUpFirst : Plan α → Prop
  | .done _ => True
  | .ask call next =>
      ((∃ code, call = .getApiKey code) ∨ ∀ answer, ∃ value, next answer = .done value) ∧
        ∀ answer, (next answer).LooksUpFirst

structure Backend.KeepsKeys (backend : Backend σ) : Prop where
  kept : ∀ code contents, (backend.perform (.getApiKey code) contents).2 = contents
  steady : ∀ code call contents,
    (backend.perform (.getApiKey code) (backend.perform call contents).2).1 =
      (backend.perform (.getApiKey code) contents).1

theorem Backend.KeepsKeys.complete {backend : Backend σ} (keeps : backend.KeepsKeys) (code : Code)
    (plan : Plan α) (contents : σ) :
    (backend.perform (.getApiKey code) (plan.complete backend contents).2).1 =
      (backend.perform (.getApiKey code) contents).1 := by
  induction plan generalizing contents with
  | done value => rfl
  | ask call next inductive_step =>
      rw [Plan.complete_ask, inductive_step, keeps.steady]

/-! ## Running plans in turn -/

def inTurn (backend : Backend σ) (plans : Caller → Plan α) : List Caller → σ → List α × σ
  | [], contents => ([], contents)
  | caller :: later, contents =>
      let (value, contents) := (plans caller).complete backend contents
      let (values, contents) := inTurn backend plans later contents
      (value :: values, contents)

section

variable (backend : Backend σ) {plans others : Caller → Plan α}

theorem inTurn_cons (plans : Caller → Plan α) (caller : Caller) (later : List Caller)
    (contents : σ) :
    inTurn backend plans (caller :: later) contents =
      (((plans caller).complete backend contents).1 ::
          (inTurn backend plans later ((plans caller).complete backend contents).2).1,
        (inTurn backend plans later ((plans caller).complete backend contents).2).2) := rfl

theorem inTurn_congr {order : List Caller}
    (same : ∀ caller ∈ order, plans caller = others caller) (contents : σ) :
    inTurn backend plans order contents = inTurn backend others order contents := by
  induction order generalizing contents with
  | nil => rfl
  | cons caller later inductive_step =>
      obtain ⟨first, rest⟩ := List.forall_mem_cons.mp same
      rw [inTurn_cons, inTurn_cons, first, inductive_step rest]

theorem inTurn_append_of_done {values : Caller → α} {earlier : List Caller}
    (done : ∀ caller ∈ earlier, plans caller = .done (values caller)) (later : List Caller)
    (contents : σ) :
    inTurn backend plans (earlier ++ later) contents =
      (earlier.map values ++ (inTurn backend plans later contents).1,
        (inTurn backend plans later contents).2) := by
  induction earlier with
  | nil => rfl
  | cons caller rest inductive_step =>
      obtain ⟨first, others⟩ := List.forall_mem_cons.mp done
      rw [List.cons_append, inTurn_cons, first, Plan.complete, inductive_step others]
      rfl

end

/-! ## The order of last calls -/

/-- The callers of a schedule come in the order of their last calls. Those that make no call may
stand anywhere. -/
def IsInOrder [DecidableEq Caller] (order schedule : List Caller) : Prop :=
  order.filter (· ∈ schedule) = schedule.dedup

instance [DecidableEq Caller] (order schedule : List Caller) :
    Decidable (IsInOrder order schedule) :=
  inferInstanceAs (Decidable (_ = _))

namespace IsInOrder

variable [DecidableEq Caller] {order schedule : List Caller} {caller : Caller}

theorem of_mem (inOrder : IsInOrder order (caller :: schedule)) (again : caller ∈ schedule) :
    IsInOrder order schedule := by
  rw [IsInOrder, ← List.dedup_cons_of_mem again, ← inOrder]
  refine List.filter_congr fun other _ => ?_
  simp only [List.mem_cons, decide_eq_decide]
  exact ⟨.inr, fun either => either.elim (fun own => own ▸ again) id⟩

theorem exists_of_not_mem (inOrder : IsInOrder order (caller :: schedule))
    (last : caller ∉ schedule) :
    ∃ earlier others, order = earlier ++ caller :: others ∧
      ∀ other ∈ earlier, other ∉ caller :: schedule := by
  rw [IsInOrder, List.dedup_cons_of_notMem last, List.filter_eq_cons_iff] at inOrder
  obtain ⟨earlier, others, split, idle, -⟩ := inOrder
  exact ⟨earlier, others, split, fun other member =>
    of_decide_eq_false (Bool.eq_false_iff.mpr (idle other member))⟩

theorem of_not_mem (inOrder : IsInOrder order (caller :: schedule)) (last : caller ∉ schedule) :
    IsInOrder order schedule := by
  calc order.filter (· ∈ schedule)
    _ = (order.filter (· ∈ caller :: schedule)).filter (· ∈ schedule) := by
      rw [List.filter_filter]
      exact List.filter_congr fun other _ => by simpa using Or.inr
    _ = (caller :: schedule.dedup).filter (· ∈ schedule) := by
      rw [inOrder, List.dedup_cons_of_notMem last]
    _ = schedule.dedup := by
      rw [List.filter_cons_of_neg (by simpa using last), List.filter_eq_self]
      exact fun other member => decide_eq_true (List.mem_dedup.mp member)

end IsInOrder

/-! ## Interleavings -/

/-- All plans are run to their ends. The schedule lists the caller of every call. -/
inductive Interleaves [DecidableEq Caller] (backend : Backend σ) :
    (Caller → Plan α) → σ → List Caller → (Caller → α) → σ → Prop where
  | ended {plans : Caller → Plan α} {values : Caller → α} (contents : σ)
      (done : ∀ caller, plans caller = .done (values caller)) :
      Interleaves backend plans contents [] values contents
  | call {plans : Caller → Plan α} {contents : σ} {caller : Caller} {call : Call}
      {next : Except Failure call.Result → Plan α} {later : List Caller} {values : Caller → α}
      {after : σ} (asks : plans caller = .ask call next)
      (rest : Interleaves backend
        (Function.update plans caller (next (backend.perform call contents).1))
        (backend.perform call contents).2 later values after) :
      Interleaves backend plans contents (caller :: later) values after

section

variable [DecidableEq Caller] {backend : Backend σ} {plans : Caller → Plan α} {before after : σ}
  {schedule : List Caller} {values : Caller → α}

theorem Interleaves.eq_done (run : Interleaves backend plans before schedule values after)
    {caller : Caller} (idle : caller ∉ schedule) : plans caller = .done (values caller) := by
  induction run with
  | ended contents done => exact done caller
  | call asks rest inductive_step =>
      obtain ⟨different, notLater⟩ := not_or.mp (mt List.mem_cons.mpr idle)
      have ended := inductive_step notLater
      rwa [Function.update_of_ne different] at ended

theorem Interleaves.not_mem_of_eq_done
    (run : Interleaves backend plans before schedule values after) {caller : Caller} {value : α}
    (ended : plans caller = .done value) : caller ∉ schedule := by
  induction run with
  | ended contents done => exact List.not_mem_nil
  | @call plans contents other call next later values after asks rest inductive_step =>
      have different : caller ≠ other := by
        rintro rfl
        rw [ended] at asks
        cases asks
      have stillEnded := inductive_step (by rw [Function.update_of_ne different, ended])
      exact mt List.mem_cons.mp (not_or.mpr ⟨different, stillEnded⟩)

variable {caller : Caller}

theorem inTurn_update_of_lookup (keeps : backend.KeepsKeys) {code : Code}
    {next : Except Failure (Call.getApiKey code).Result → Plan α}
    (asks : plans caller = .ask (.getApiKey code) next) (contents : σ) {reached : σ}
    (same : (backend.perform (.getApiKey code) reached).1 =
      (backend.perform (.getApiKey code) contents).1) (order : List Caller) :
    inTurn backend
        (Function.update plans caller (next (backend.perform (.getApiKey code) contents).1))
        order reached =
      inTurn backend plans order reached := by
  induction order generalizing reached with
  | nil => rfl
  | cons other later inductive_step =>
      have first : (Function.update plans caller
          (next (backend.perform (.getApiKey code) contents).1) other).complete backend reached =
            (plans other).complete backend reached := by
        by_cases own : other = caller
        · rw [own, Function.update_self, asks, Plan.complete_ask, same, keeps.kept]
        · rw [Function.update_of_ne own]
      have still := (keeps.complete code (plans other) reached).trans same
      rw [inTurn_cons, inTurn_cons, first, inductive_step still]

/-- A last call may be made ahead of its turn if all who come before have ended. -/
theorem inTurn_update_of_last {call : Call} {next : Except Failure call.Result → Plan α}
    (asks : plans caller = .ask call next) {contents : σ} {value : α}
    (last : next (backend.perform call contents).1 = .done value) {earlier later : List Caller}
    (done : ∀ other ∈ earlier, plans other = .done (values other))
    (once : (earlier ++ caller :: later).Nodup) :
    inTurn backend (Function.update plans caller (next (backend.perform call contents).1))
        (earlier ++ caller :: later) (backend.perform call contents).2 =
      inTurn backend plans (earlier ++ caller :: later) contents := by
  obtain ⟨-, onceLater, apart⟩ := List.nodup_append.mp once
  have notLater := (List.nodup_cons.mp onceLater).1
  have others : ∀ other, other ≠ caller →
      Function.update plans caller (next (backend.perform call contents).1) other = plans other :=
    fun other different => Function.update_of_ne different _ _
  have stillDone : ∀ other ∈ earlier,
      Function.update plans caller (next (backend.perform call contents).1) other =
        .done (values other) := by
    intro other member
    rw [others other (apart other member caller List.mem_cons_self), done other member]
  have rest := inTurn_congr backend
    (fun other member => others other (ne_of_mem_of_not_mem member notLater))
    (backend.perform call contents).2
  rw [inTurn_append_of_done backend done, inTurn_append_of_done backend stillDone, inTurn_cons,
    inTurn_cons, Function.update_self, asks, Plan.complete_ask, last, Plan.complete]
  rw [last] at rest
  rw [rest]

/-- Every interleaving comes to what the plans come to in turn, in the order of their last calls. -/
theorem Interleaves.inTurn_eq (keeps : backend.KeepsKeys)
    (run : Interleaves backend plans before schedule values after)
    (tidy : ∀ caller, (plans caller).LooksUpFirst) {order : List Caller} (once : order.Nodup)
    (inOrder : IsInOrder order schedule) :
    inTurn backend plans order before = (order.map values, after) := by
  induction run with
  | ended contents done =>
      have idle := inTurn_append_of_done backend (fun caller (_ : caller ∈ order) => done caller)
        [] contents
      rwa [List.append_nil, inTurn, List.append_nil] at idle
  | @call plans contents caller call next later values after asks rest inductive_step =>
      have tidyNext : ∀ other,
          (Function.update plans caller (next (backend.perform call contents).1)
            other).LooksUpFirst := by
        intro other
        by_cases own : other = caller
        · rw [own, Function.update_self]
          exact (asks ▸ tidy caller).2 _
        · rw [Function.update_of_ne own]
          exact tidy other
      by_cases again : caller ∈ later
      · -- A caller that comes back only looks a key up, so it may as well do that in its turn.
        have answered := inductive_step tidyNext (inOrder.of_mem again)
        rcases (asks ▸ tidy caller).1 with ⟨code, rfl⟩ | last
        · rw [keeps.kept] at answered
          rw [← inTurn_update_of_lookup keeps asks contents rfl order]
          exact answered
        · obtain ⟨value, ended⟩ := last (backend.perform call contents).1
          have done : Function.update plans caller
              (next (backend.perform call contents).1) caller = .done value := by
            rw [Function.update_self, ended]
          exact absurd again (rest.not_mem_of_eq_done done)
      · -- Of the callers that are not done yet, this one is the first in the order.
        obtain ⟨earlier, others, rfl, idle⟩ := inOrder.exists_of_not_mem again
        have done : ∀ other ∈ earlier, plans other = .done (values other) := fun other member =>
          (Interleaves.call asks rest).eq_done (idle other member)
        have last : next (backend.perform call contents).1 = .done (values caller) := by
          rw [← rest.eq_done again, Function.update_self]
        rw [← inTurn_update_of_last asks last done once]
        exact inductive_step tidyNext (inOrder.of_not_mem again)

end

end WorkoutBoard.Store
