import WorkoutBoard.Proofs.Text.Utf8
import WorkoutBoard.Service.Authorization

/-!
# When a key is accepted

Gathering the differences of all bytes decides whether two keys of equal length are the same, so
`keysMatch` accepts exactly the stored key, unless that is empty.
-/

namespace WorkoutBoard.Service

theorem foldl_or_eq_zero_iff (bits : List UInt8) (seen : UInt8) :
    bits.foldl (fun seen bits => seen ||| bits) seen = 0 ↔ seen = 0 ∧ ∀ bit ∈ bits, bit = 0 := by
  induction bits generalizing seen with
  | nil => simp
  | cons bit rest inductive_step =>
      rw [List.foldl_cons, inductive_step, UInt8.or_eq_zero_iff, List.forall_mem_cons, and_assoc]

theorem differences_eq_zero_iff {left right : List UInt8} (lengths : left.length = right.length) :
    differences left right = 0 ↔ left = right := by
  rw [differences, foldl_or_eq_zero_iff]
  induction left generalizing right with
  | nil =>
      obtain rfl := List.length_eq_zero_iff.mp lengths.symm
      simp
  | cons byte rest inductive_step =>
      cases right with
      | nil => cases lengths
      | cons other later =>
          have restLengths : rest.length = later.length := Nat.succ.inj lengths
          have heads : byte ^^^ other = 0 ↔ byte = other := UInt8.xor_eq_zero_iff
          have tails := inductive_step restLengths
          simp only [true_and] at tails
          simp only [List.zipWith_cons_cons, List.forall_mem_cons, true_and, heads, tails,
            List.cons.injEq]

theorem keysMatch_iff (stored supplied : String) :
    keysMatch stored supplied = true ↔ stored = supplied ∧ supplied ≠ "" := by
  rw [keysMatch]
  split
  next unusable =>
    simp only [Bool.or_eq_true, List.isEmpty_iff, bne_iff_ne, ne_eq,
      Text.Utf8.bytes_eq_nil_iff] at unusable
    constructor
    · intro absurdity
      cases absurdity
    · rintro ⟨rfl, nonempty⟩
      rcases unusable with (empty | empty) | lengths
      · exact absurd empty nonempty
      · exact absurd empty nonempty
      · exact absurd rfl lengths
  next usable =>
    simp only [Bool.or_eq_true, List.isEmpty_iff, bne_iff_ne, ne_eq, not_or,
      Classical.not_not, Text.Utf8.bytes_eq_nil_iff] at usable
    obtain ⟨⟨-, nonempty⟩, lengths⟩ := usable
    rw [beq_iff_eq, differences_eq_zero_iff lengths, Text.Utf8.bytes_injective.eq_iff]
    exact ⟨fun equal => ⟨equal, nonempty⟩, And.left⟩

/-- A lookup lets a supplied key pass if and only if it finds a record with that key. -/
theorem judge_eq_ok_iff (supplied : String)
    (answer : Except Store.Failure (Option Workout.ApiKeyRecord)) :
    judge supplied answer = .ok () ↔
      ∃ record, answer = .ok (some record) ∧ record.apiKey = supplied ∧ supplied ≠ "" := by
  match answer with
  | .error failure => simp [judge]
  | .ok none => simp [judge]
  | .ok (some record) =>
      rw [judge]
      split
      next accepted =>
        exact ⟨fun _ => ⟨record, rfl, (keysMatch_iff _ _).mp accepted⟩, fun _ => rfl⟩
      next refused =>
        constructor
        · intro absurdity
          cases absurdity
        · rintro ⟨other, found, same⟩
          obtain rfl := Option.some.inj (Except.ok.inj found)
          exact absurd ((keysMatch_iff _ _).mpr same) refused

theorem run_authorize_eq_ok_iff {σ : Type} {backend : Store.Backend σ} {code : Workout.Code}
    {limit : Nat} (inTime : backend.delay (.getApiKey code) ≤ limit) (supplied : String)
    (contents : σ) :
    ((authorize code supplied).run backend limit contents).1 = some (.ok ()) ↔
      ∃ record, (backend.perform (.getApiKey code) contents).1 = .ok (some record) ∧
        record.apiKey = supplied ∧ supplied ≠ "" := by
  rw [authorize]
  split
  next empty =>
    have nothing : supplied = "" := String.isEmpty_iff.mp empty
    constructor
    · intro absurdity
      cases absurdity
    · rintro ⟨_, -, -, nonempty⟩
      exact absurd nothing nonempty
  next =>
    rw [Store.Plan.run_ask_of_le inTime, Store.Plan.run_done, Option.some.injEq, judge_eq_ok_iff]

end WorkoutBoard.Service
