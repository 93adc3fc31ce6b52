import WorkoutBoard.Proofs.Service.Conduct
import WorkoutBoard.Store.Memory

/-!
# What has an effect

Only a write that is granted has one, and it is the one that the answer tells of
(`only_granted_writes_have_effect`). A request that is refused, fails or comes too late leaves the
store as it was, at whichever of its calls that happens.
-/

namespace WorkoutBoard.Service

open Http (Request Response)
open Json (Value)
open Store (Conditions Memory)
open Workout (Code State StateRecord)

/-- What a granted write with a body does to a code at the time `now`, and what it says. -/
inductive Applied (now : Int64) (body : List UInt8) (code : Code) (before after : Memory)
    (said : String) : Prop where
  | cleared (unset : ∀ start, ¬Sets body start)
      (left : after = before.deleteState code) (absent : after.state? code = none)
      (told : said = (Value.object [("success", .boolean true),
        ("message", .text ("Workout state cleared for code: " ++ code.text))]).compact)
  | updated (start : String) (sets : Sets body start)
      (left : after = before.putState (.ofWrite code ⟨start⟩ now))
      (stored : after.state? code = some (.ofWrite code ⟨start⟩ now))
      (told : said = (Value.object [("success", .boolean true),
        ("message", .text ("Workout state updated for code: " ++ code.text)),
        ("startDateTime", .text start)]).compact)

theorem applied_perform (now : Int64) (code : Code) {body : List UInt8} {change : Change}
    (asked : Change.ofBody body = .ok change) (before : Memory) :
    Applied now body code before (Memory.perform (change.call now code) before).2
      (confirmation code change).compact := by
  cases change with
  | clear =>
      apply Applied.cleared (Change.not_sets_of_ofBody_clear asked) rfl _ rfl
      exact (before.state?_deleteState code code).trans (if_pos rfl)
  | set state =>
      apply Applied.updated state.startDateTime (Change.sets_of_ofBody asked) rfl _ rfl
      exact (before.state?_putState_ofWrite code code state now).trans (if_pos rfl)

theorem perform_change_under (conditions : Conditions) (now : Int64) (code : Code)
    {body : List UInt8} {change : Change} (asked : Change.ofBody body = .ok change)
    (before : Memory) :
    let result := (Memory.backend.under conditions).perform (change.call now code) before
    let response := writeResponse code change result.1
    (response.status ≠ 200 ∧ result.2 = before) ∨
      response.status = 200 ∧ Applied now body code before result.2 response.body := by
  rcases Memory.backend.perform_under conditions (change.call now code) before with
    ⟨message, failed⟩ | done
  · rw [failed]
    exact .inl ⟨Refusal.status_ne_ok _, rfl⟩
  · rw [done]
    have applied := applied_perform now code asked before
    cases change with
    | clear => exact .inr ⟨rfl, applied⟩
    | set state => exact .inr ⟨rfl, applied⟩

theorem perform_lookup_under (conditions : Conditions) (call : Store.Call) {before : Memory}
    (looksUp : (Memory.perform call before).2 = before) :
    ((Memory.backend.under conditions).perform call before).2 = before := by
  rcases Memory.backend.perform_under conditions call before with ⟨message, failed⟩ | done
  · rw [failed]
  · rw [done]
    exact looksUp

theorem serve_effect (options : Options) (conditions : Conditions) (now : Int64)
    (request : Request) (before : Memory) :
    let result := serve options (Memory.backend.under conditions) now request before
    (result.2 = before ∧ (request.method = "POST" → result.1.status ≠ 200)) ∨
      result.1.status = 200 ∧ ∃ code key, IsWrite request code key ∧
        Applied now request.body code before result.2 result.1.body := by
  have outcome := serve_outcome options (Memory.backend.under conditions) now request before
  generalize serve options (Memory.backend.under conditions) now request before = result
    at outcome ⊢
  dsimp only
  cases outcome with
  | unasked response refused => exact .inl ⟨rfl, refused⟩
  | read code isRead answer after found =>
      have same := perform_lookup_under conditions (.getState code now) (Eq.refl before)
      rw [found] at same
      exact .inl ⟨same, fun isPost => absurd isPost isRead.not_post⟩
  | refused code key isWrite answer after found response status =>
      have same := perform_lookup_under conditions (.getApiKey code) (Eq.refl before)
      rw [found] at same
      exact .inl ⟨same, fun _ => status⟩
  | changed code key isWrite record between found accepted nonempty fits change asked answer
      after made =>
      have same := perform_lookup_under conditions (.getApiKey code) (Eq.refl before)
      rw [found] at same
      obtain rfl : between = before := same
      have effect := perform_change_under conditions now code asked between
      rw [made] at effect
      rcases effect with ⟨status, kept⟩ | ⟨status, applied⟩
      · exact .inl ⟨kept, fun _ => status⟩
      · exact .inr ⟨status, code, key, isWrite, applied⟩

/-- Whatever fails and however long calls take, an answer comes too late exactly if the calls of its
request take longer than the limit; without success nothing is changed; and a write that succeeds
has done what it says. -/
theorem only_granted_writes_have_effect (options : Options) (conditions : Conditions) (now : Int64)
    (request : Request) (before : Memory) :
    let backend := Memory.backend.under conditions
    let answer := (serve options backend now request before).1
    let after := (serve options backend now request before).2
    let waited := backend.elapsed (callsOf options backend now request before)
    (waited ≠ options.limit → (answer.status = 408 ↔ options.limit < waited)) ∧
    (answer.status ≠ 200 → answer.status ∈ [400, 401, 404, 405, 408, 413] ∧ after = before) ∧
    (request.method = "POST" → answer.status = 200 → ∃ code key, IsWrite request code key ∧
      Applied now request.body code before after answer.body) := by
  have effect := serve_effect options conditions now request before
  have status := serve_status options (Memory.backend.under conditions) now request before
  dsimp only at effect ⊢
  refine ⟨serve_status_eq_late_iff, fun failed => ⟨?_, ?_⟩, fun isPost success => ?_⟩
  · simp only [statuses, List.mem_cons, List.not_mem_nil, or_false] at status ⊢
    omega
  · rcases effect with ⟨same, -⟩ | ⟨success, -⟩
    · exact same
    · exact absurd success failed
  · rcases effect with ⟨-, refused⟩ | ⟨-, applied⟩
    · exact absurd success (refused isPost)
    · exact applied

def slowly : Conditions where
  failure := fun _ => none
  delay
    | .getApiKey => 3
    | .putState => 5
    | _ => 0

def slowStart : Memory := Memory.empty.insertApiKey ⟨"a"⟩ "k"

def slowUpdate : Request :=
  ⟨"POST", "/workout-state/a/k", [],
    Text.Utf8.bytes "\x7b\"startDateTime\":\"2025-01-01T00Z\"\x7d"⟩

theorem only_granted_writes_have_effect_in_time :
    let backend := Memory.backend.under slowly
    let late := serve ⟨.any, 7⟩ backend 4 slowUpdate slowStart
    let inTime := serve ⟨.any, 9⟩ backend 4 slowUpdate slowStart
    (late.1.status = 408 ∧ late.2 = slowStart) ∧ inTime.1.status = 200 ∧
      ∃ code key, IsWrite slowUpdate code key ∧
        Applied 4 slowUpdate.body code slowStart inTime.2 inTime.1.body := by
  intro backend late inTime
  obtain ⟨lateness, unchanged, -⟩ :=
    only_granted_writes_have_effect ⟨.any, 7⟩ slowly 4 slowUpdate slowStart
  have isLate : late.1.status = 408 := (lateness (by decide +kernel)).mpr (by decide +kernel)
  have granted : inTime.1.status = 200 := by decide +kernel
  have same := (unchanged fun success => absurd (isLate.symm.trans success) (by decide)).2
  exact ⟨⟨isLate, same⟩, granted,
    (only_granted_writes_have_effect ⟨.any, 9⟩ slowly 4 slowUpdate slowStart).2.2 rfl granted⟩

end WorkoutBoard.Service
