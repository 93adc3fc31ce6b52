import WorkoutBoard.Proofs.Service.Authorization
import WorkoutBoard.Proofs.Store.KeyItem
import WorkoutBoard.Proofs.Store.Table
import WorkoutBoard.Proofs.Store.Trace
import WorkoutBoard.Store.Memory

/-!
# What a key is answered

There are five answers to a supplied key, and each of them is given exactly on its own condition
(`Decides`). The conditions are those of the record that the look-up finds (`decides_authorize`)
and, for a table, those of the raw item that it shows, whatever attributes this has
(`decides_authorize_table`).
-/

namespace WorkoutBoard.Service

open Store (Attribute Backend Failure Item Memory Plan Table TableFailure)
open Workout (ApiKeyRecord Code HoldsKey IsKeyItem)

/-- Which way the decision on a supplied key goes: `Fails` says how the look-up of the record fails,
`Absent` that there is no record, and `Holds` which key the record holds. -/
structure Decides (supplied : String) (Fails : Failure → Prop) (Absent : Prop)
    (Holds : String → Prop) (verdict : Except Refusal Unit) : Prop where
  accepted : verdict = .ok () ↔ supplied ≠ "" ∧ Holds supplied
  required : verdict = .error (.unauthorized "api_key is required") ↔ supplied = ""
  failed : ∀ message, verdict = .error (.badRequest message) ↔
    supplied ≠ "" ∧ ∃ failure, Fails failure ∧
      message = "Error updating workout state: " ++ failure.message
  absent : verdict = .error (.unauthorized "Invalid workout code or API key not configured") ↔
    supplied ≠ "" ∧ Absent
  rest : verdict = .error (.unauthorized "Invalid API key") ↔
    supplied ≠ "" ∧ ¬(∃ failure, Fails failure) ∧ ¬Absent ∧ ¬Holds supplied

theorem Decides.congr {supplied : String} {Fails OtherFails : Failure → Prop}
    {Absent OtherAbsent : Prop} {Holds OtherHolds : String → Prop} {verdict : Except Refusal Unit}
    (decides : Decides supplied Fails Absent Holds verdict)
    (fails : ∀ failure, Fails failure ↔ OtherFails failure) (absent : Absent ↔ OtherAbsent)
    (holds : ∀ stored, Holds stored ↔ OtherHolds stored) :
    Decides supplied OtherFails OtherAbsent OtherHolds verdict := by
  obtain rfl : Fails = OtherFails := funext fun failure => propext (fails failure)
  obtain rfl : Absent = OtherAbsent := propext absent
  obtain rfl : Holds = OtherHolds := funext fun stored => propext (holds stored)
  exact decides

theorem keysMatch_eq_false_iff {stored supplied : String} (nonempty : supplied ≠ "") :
    keysMatch stored supplied = false ↔ stored ≠ supplied := by
  rw [Bool.eq_false_iff, Ne, keysMatch_iff]
  exact not_congr (and_iff_left nonempty)

theorem decides_judge {supplied : String} (nonempty : supplied ≠ "")
    (answer : Except Failure (Option ApiKeyRecord)) :
    Decides supplied (fun failure => answer = .error failure) (answer = .ok none)
      (fun stored => ∃ record, answer = .ok (some record) ∧ record.apiKey = stored)
      (judge supplied answer) := by
  match answer with
  | .error failure =>
      constructor
      · simp [judge, nonempty]
      · simp [judge, nonempty, Refusal.ofFailure]
      · simp [judge, nonempty, Refusal.ofFailure, Refusal.Purpose.message, eq_comm]
      · simp [judge, nonempty, Refusal.ofFailure]
      · simp [judge, nonempty, Refusal.ofFailure]
  | .ok none =>
      constructor <;> simp [judge, nonempty]
  | .ok (some record) =>
      rw [judge]
      by_cases same : record.apiKey = supplied
      · subst same
        have accepted := (keysMatch_iff record.apiKey record.apiKey).mpr ⟨rfl, nonempty⟩
        constructor <;> simp [accepted, nonempty]
      · have refused := (keysMatch_eq_false_iff nonempty).mpr same
        constructor <;> simp [refused, nonempty, same]

theorem decides_empty (Fails : Failure → Prop) (Absent : Prop) (Holds : String → Prop) :
    Decides "" Fails Absent Holds (.error (.unauthorized "api_key is required")) := by
  constructor <;> simp

variable {σ : Type}

theorem authorize_empty (code : Code) :
    authorize code "" = .done (.error (.unauthorized "api_key is required")) := rfl

theorem authorize_of_ne {supplied : String} (nonempty : supplied ≠ "") (code : Code) :
    authorize code supplied =
      .ask (.getApiKey code) fun answer => .done (judge supplied answer) :=
  if_neg (mt String.isEmpty_iff.mp nonempty)

theorem decides_authorize (backend : Backend σ) (contents : σ) (code : Code) (supplied : String) :
    Decides supplied
      (fun failure => (backend.perform (.getApiKey code) contents).1 = .error failure)
      ((backend.perform (.getApiKey code) contents).1 = .ok none)
      (fun stored => ∃ record,
        (backend.perform (.getApiKey code) contents).1 = .ok (some record) ∧
          record.apiKey = stored)
      ((authorize code supplied).complete backend contents).1 := by
  by_cases empty : supplied = ""
  · subst empty
    exact decides_empty _ _ _
  · rw [authorize_of_ne empty]
    exact decides_judge empty _

theorem trace_authorize_eq_nil_iff (backend : Backend σ) (limit : Nat) (contents : σ)
    (code : Code) (supplied : String) :
    (authorize code supplied).trace backend limit contents = [] ↔ supplied = "" := by
  by_cases empty : supplied = ""
  · subst empty
    simp [authorize_empty, Plan.trace]
  · rw [authorize_of_ne empty]
    by_cases tooSlow : limit < backend.delay (.getApiKey code)
    · simp [Plan.trace_ask_of_lt tooSlow, empty]
    · simp [Plan.trace_ask_of_le (Nat.not_lt.mp tooSlow), empty]

/-! ## Raw items -/

def FailsBy (said : Except TableFailure (Option Item)) (failure : Failure) : Prop :=
  (∃ refusal, said = .error refusal ∧ failure = .table refusal) ∨
    ∃ item fault, said = .ok (some item) ∧ ¬IsKeyItem item ∧
      ApiKeyRecord.ofItem item = .error fault ∧ failure = .item fault

/-- Whether the item that a table shows is one of a key and holds this one. -/
def ShowsKey (said : Except TableFailure (Option Item)) (stored : String) : Prop :=
  ∃ item, said = .ok (some item) ∧ IsKeyItem item ∧ HoldsKey item stored

theorem recordOf_eq_error_iff (said : Except TableFailure (Option Item)) (failure : Failure) :
    Table.recordOf ApiKeyRecord.ofItem said = .error failure ↔ FailsBy said failure := by
  match said with
  | .error refusal => simp [Table.recordOf, FailsBy, eq_comm]
  | .ok none => simp [Table.recordOf, FailsBy]
  | .ok (some item) =>
      rw [Table.recordOf]
      cases read : ApiKeyRecord.ofItem item with
      | ok record => simp [FailsBy, read]
      | error fault =>
          have notKeyItem : ¬IsKeyItem item := by
            intro isKeyItem
            obtain ⟨record, found⟩ := ApiKeyRecord.exists_of_isKeyItem isKeyItem
            rw [read] at found
            cases found
          simp [FailsBy, read, notKeyItem, eq_comm]

theorem recordOf_eq_none_iff (said : Except TableFailure (Option Item)) :
    Table.recordOf ApiKeyRecord.ofItem said = .ok none ↔ said = .ok none := by
  match said with
  | .error refusal => simp [Table.recordOf]
  | .ok none => simp [Table.recordOf]
  | .ok (some item) =>
      rw [Table.recordOf]
      cases ApiKeyRecord.ofItem item <;> simp

theorem exists_recordOf_iff (said : Except TableFailure (Option Item)) (stored : String) :
    (∃ record, Table.recordOf ApiKeyRecord.ofItem said = .ok (some record) ∧
      record.apiKey = stored) ↔ ShowsKey said stored := by
  constructor
  · rintro ⟨record, found, rfl⟩
    obtain ⟨item, same, read⟩ := Table.eq_of_recordOf found
    exact ⟨item, same, ApiKeyRecord.isKeyItem_of_ofItem read⟩
  · rintro ⟨item, rfl, isKeyItem, holds⟩
    obtain ⟨record, read⟩ := ApiKeyRecord.exists_of_isKeyItem isKeyItem
    have same := (ApiKeyRecord.isKeyItem_of_ofItem read).2.unique holds
    exact ⟨record, by rw [Table.recordOf, read], same⟩

theorem showsKey_iff_of_ne {supplied : String} (nonempty : supplied ≠ "")
    (said : Except TableFailure (Option Item)) :
    ShowsKey said supplied ↔ ∃ item, said = .ok (some item) ∧ IsKeyItem item ∧
      item.find? "api_key" = some (.text supplied) := by
  simp [ShowsKey, HoldsKey, nonempty]

theorem decides_authorize_memory (memory : Memory) (code : Code) (supplied : String) :
    Decides supplied (fun _ => False) (memory.apiKey? code = none)
      (fun stored => ∃ record, memory.apiKey? code = some record ∧ record.apiKey = stored)
      ((authorize code supplied).complete Memory.backend memory).1 := by
  refine (decides_authorize Memory.backend memory code supplied).congr ?_ ?_ ?_
  · simp [Memory.backend, Memory.perform]
  · simp [Memory.backend, Memory.perform]
  · simp [Memory.backend, Memory.perform]

theorem decides_authorize_table (table : Table) (code : Code) (supplied : String) :
    Decides supplied (FailsBy (table.exchange (.get code.apiKeyKey)).1)
      ((table.exchange (.get code.apiKeyKey)).1 = .ok none)
      (ShowsKey (table.exchange (.get code.apiKeyKey)).1)
      ((authorize code supplied).complete Table.backend table).1 := by
  have answer : (Table.backend.perform (.getApiKey code) table).1 =
      Table.recordOf ApiKeyRecord.ofItem (table.exchange (.get code.apiKeyKey)).1 := rfl
  refine (decides_authorize Table.backend table code supplied).congr ?_ ?_ ?_
  · exact fun failure => answer ▸ recordOf_eq_error_iff _ failure
  · exact answer ▸ recordOf_eq_none_iff _
  · exact fun stored => answer ▸ exists_recordOf_iff _ stored

/-- A key is accepted if and only if it is the nonempty key of the record that is found for the code
and can be read. What else is said to the client tells which of these conditions fails, and the
store is not asked if there is no key to compare. -/
theorem authorization_is_exact (code : Code) (supplied : String) :
    (∀ stored, keysMatch stored supplied = true ↔ stored = supplied ∧ supplied ≠ "") ∧
    (∀ {σ : Type} (backend : Backend σ) (contents : σ),
      (∀ limit, (authorize code supplied).trace backend limit contents = [] ↔ supplied = "") ∧
      Decides supplied
        (fun failure => (backend.perform (.getApiKey code) contents).1 = .error failure)
        ((backend.perform (.getApiKey code) contents).1 = .ok none)
        (fun stored => ∃ record,
          (backend.perform (.getApiKey code) contents).1 = .ok (some record) ∧
            record.apiKey = stored)
        ((authorize code supplied).complete backend contents).1) ∧
    (∀ memory : Memory,
      Decides supplied (fun _ => False) (memory.apiKey? code = none)
        (fun stored => ∃ record, memory.apiKey? code = some record ∧ record.apiKey = stored)
        ((authorize code supplied).complete Memory.backend memory).1) ∧
    ∀ table : Table,
      Decides supplied (FailsBy (table.exchange (.get code.apiKeyKey)).1)
        ((table.exchange (.get code.apiKeyKey)).1 = .ok none)
        (ShowsKey (table.exchange (.get code.apiKeyKey)).1)
        ((authorize code supplied).complete Table.backend table).1 ∧
      (((authorize code supplied).complete Table.backend table).1 = .ok () ↔
        supplied ≠ "" ∧ ∃ item, (table.exchange (.get code.apiKeyKey)).1 = .ok (some item) ∧
          IsKeyItem item ∧ item.find? "api_key" = some (.text supplied)) := by
  refine ⟨fun stored => keysMatch_iff stored supplied, fun backend contents =>
    ⟨fun limit => trace_authorize_eq_nil_iff backend limit contents code supplied,
      decides_authorize backend contents code supplied⟩,
    fun memory => decides_authorize_memory memory code supplied, fun table => ?_⟩
  have decides := decides_authorize_table table code supplied
  refine ⟨decides, decides.accepted.trans ?_⟩
  exact and_congr_right fun nonempty => showsKey_iff_of_ne nonempty _

end WorkoutBoard.Service
