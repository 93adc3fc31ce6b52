import WorkoutBoard.Proofs.Store.Plan
import WorkoutBoard.Proofs.Store.Table
import WorkoutBoard.Store.Memory

/-!
# Sweeps

A sweep removes states that are expired. It may come late and leave some of them, so that it is a
relation between what is stored before and after it. Contents that a sweep relates answer alike to
whoever asks at its time or later, and what is asked keeps them related (`Memory.IsSweep.agree`,
`Table.IsSweep.agree`).
-/

namespace WorkoutBoard.Store

open Json (Value)
open Workout (ApiKeyRecord Code State StateRecord)

theorem filter_isExpired {record : StateRecord} {clock now : Int64} (expired : record.ttl ≤ clock)
    (later : clock ≤ now) : (some record).filter (fun record => !record.isExpired now) = none := by
  have stillExpired : record.isExpired now = true :=
    decide_eq_true (Int64.le_trans expired later)
  simp [Option.filter, stillExpired]

/-- Some entries of a directory are removed, all of which may be. -/
def IsPruned {α : Type} (Removable : String → α → Prop) (before after : Directory α) : Prop :=
  ∀ key, after.find? key = before.find? key ∨
    after.find? key = none ∧ ∃ value, before.find? key = some value ∧ Removable key value

namespace IsPruned

variable {α : Type} {Removable Other : String → α → Prop} {before between after : Directory α}

theorem refl (Removable : String → α → Prop) (directory : Directory α) :
    IsPruned Removable directory directory := fun _ => .inl rfl

theorem trans (first : IsPruned Removable before between) (second : IsPruned Other between after)
    (weaker : ∀ key value, Removable key value → Other key value) :
    IsPruned Other before after := by
  intro key
  rcases second key with same | ⟨gone, value, held, removable⟩
  · rw [same]
    exact (first key).imp id fun ⟨gone, value, held, removable⟩ =>
      ⟨gone, value, held, weaker key value removable⟩
  · refine .inr ⟨gone, value, ?_, removable⟩
    rcases first key with same | ⟨absent, -⟩
    · rw [← same]
      exact held
    · rw [absent] at held
      cases held

theorem insert (pruned : IsPruned Removable before after) (key : String) (value : α) :
    IsPruned Removable (before.insert key value) (after.insert key value) := by
  intro other
  rw [Directory.find?_insert, Directory.find?_insert]
  split
  · exact .inl rfl
  · exact pruned other

theorem erase (pruned : IsPruned Removable before after) (key : String) :
    IsPruned Removable (before.erase key) (after.erase key) := by
  intro other
  rw [Directory.find?_erase, Directory.find?_erase]
  split
  · exact .inl rfl
  · exact pruned other

theorem of_erase {key : String} {value : α} (held : before.find? key = some value)
    (removable : Removable key value) : IsPruned Removable before (before.erase key) := by
  intro other
  rw [Directory.find?_erase]
  split
  next same => exact .inr ⟨rfl, value, same ▸ held, same ▸ removable⟩
  next => exact .inl rfl

end IsPruned

/-! ## The memory -/

structure Memory.IsSweep (clock : Int64) (before after : Memory) : Prop where
  states : IsPruned (fun _ record => record.ttl ≤ clock) before.states after.states
  apiKeys : after.apiKeys = before.apiKeys

namespace Memory.IsSweep

variable {clock now : Int64} {before between after : Memory}

theorem refl (clock : Int64) (memory : Memory) : IsSweep clock memory memory :=
  ⟨.refl _ _, rfl⟩

theorem trans (first : IsSweep clock before between) (later : clock ≤ now)
    (second : IsSweep now between after) : IsSweep now before after where
  states := first.states.trans second.states fun _ _ expired => Int64.le_trans expired later
  apiKeys := second.apiKeys.trans first.apiKeys

theorem of_deleteState {code : Code} {record : StateRecord}
    (held : before.state? code = some record) (expired : record.ttl ≤ clock) :
    IsSweep clock before (before.deleteState code) :=
  ⟨.of_erase held expired, rfl⟩

theorem agree (later : clock ≤ now) :
    Agree Memory.backend Memory.backend (IsSweep clock) (Call.IsMadeAt now) where
  delay := fun _ => rfl
  perform := by
    intro call full swept made sweep
    cases call with
    | getApiKey code =>
        have same : swept.apiKey? code = full.apiKey? code := by
          rw [Memory.apiKey?, sweep.apiKeys]
          rfl
        exact ⟨congrArg Except.ok same.symm, sweep⟩
    | getState code time =>
        obtain rfl : time = now := made
        refine ⟨congrArg Except.ok ?_, sweep⟩
        change (full.states.find? code.stateKey).filter _ =
          (swept.states.find? code.stateKey).filter _
        rcases sweep.states code.stateKey with same | ⟨gone, record, held, expired⟩
        · rw [same]
        · rw [gone, held, filter_isExpired expired later]
          rfl
    | putState record => exact ⟨rfl, sweep.states.insert record.key record, sweep.apiKeys⟩
    | deleteState code => exact ⟨rfl, sweep.states.erase code.stateKey, sweep.apiKeys⟩

end Memory.IsSweep

/-! ## The table -/

/-- Whether the value under a key is the item of a code's state whose last second has come. -/
def Table.IsExpired (clock : Int64) (key : String) (value : Value) : Prop :=
  ∃ (code : Code) (item : Item) (record : StateRecord), key = code.stateKey ∧
    Body.itemOf? 0 (.ofValue value) = some item ∧ StateRecord.ofItem item = .ok record ∧
    record.ttl ≤ clock

structure Table.IsSweep (clock : Int64) (before after : Table) : Prop where
  items : IsPruned (Table.IsExpired clock) before.items after.items
  name : after.name = before.name
  replies : after.replies = before.replies
  outgoing : after.outgoing = before.outgoing

namespace Table

theorem IsExpired.mono {clock now : Int64} (later : clock ≤ now) {key : String} {value : Value}
    (expired : IsExpired clock key value) : IsExpired now key value := by
  obtain ⟨code, item, record, same, read, decoded, past⟩ := expired
  exact ⟨code, item, record, same, read, decoded, Int64.le_trans past later⟩

theorem isExpired_of_state? {clock : Int64} {table : Table} {code : Code} {record : StateRecord}
    (held : table.state? code = some record) (expired : record.ttl ≤ clock) :
    ∃ value, table.items.find? code.stateKey = some value ∧
      IsExpired clock code.stateKey value := by
  obtain ⟨value, found, rest⟩ := Option.bind_eq_some_iff.mp held
  obtain ⟨item, read, decoded⟩ := Option.bind_eq_some_iff.mp rest
  refine ⟨value, found, code, item, record, rfl, read, ?_, expired⟩
  cases result : StateRecord.ofItem item with
  | error fault =>
      rw [result] at decoded
      cases decoded
  | ok other =>
      rw [result] at decoded
      exact congrArg Except.ok (Option.some.inj decoded)

namespace IsSweep

variable {clock now : Int64} {before between after : Table}

theorem refl (clock : Int64) (table : Table) : IsSweep clock table table :=
  ⟨.refl _ _, rfl, rfl, rfl⟩

theorem trans (first : IsSweep clock before between) (later : clock ≤ now)
    (second : IsSweep now between after) : IsSweep now before after where
  items := first.items.trans second.items fun _ _ expired => expired.mono later
  name := second.name.trans first.name
  replies := second.replies.trans first.replies
  outgoing := second.outgoing.trans first.outgoing

theorem of_erase {code : Code} {record : StateRecord} (held : before.state? code = some record)
    (expired : record.ttl ≤ clock) :
    IsSweep clock before { before with items := before.items.erase code.stateKey } := by
  obtain ⟨value, found, isExpired⟩ := isExpired_of_state? held expired
  exact ⟨.of_erase found isExpired, rfl, rfl, rfl⟩

theorem apply (sweep : IsSweep clock before after) (request : TableRequest) :
    IsSweep clock (before.apply request) (after.apply request) := by
  cases request with
  | get key => exact sweep
  | put item => exact ⟨sweep.items.insert _ _, sweep.name, sweep.replies, sweep.outgoing⟩
  | delete key => exact ⟨sweep.items.erase key, sweep.name, sweep.replies, sweep.outgoing⟩

theorem note (sweep : IsSweep clock before after) (request : TableRequest) :
    IsSweep clock (before.note request) (after.note request) := by
  refine ⟨sweep.items, sweep.name, sweep.replies, ?_⟩
  rw [Table.note, Table.note, sweep.outgoing, sweep.name]

theorem exchange (sweep : IsSweep clock before after) (request : TableRequest) :
    ((Table.exchange request before).1 = (Table.exchange request after).1 ∨
      (Table.exchange request before).1 = before.answer request ∧
        (Table.exchange request after).1 = after.answer request) ∧
    IsSweep clock (Table.exchange request before).2 (Table.exchange request after).2 := by
  have noted := sweep.note request
  rw [Table.exchange, Table.exchange, sweep.name]
  split
  · exact ⟨.inl rfl, sweep⟩
  · dsimp only
    rw [replies_note, replies_note, sweep.replies]
    cases before.replies with
    | nil => exact ⟨.inr ⟨rfl, rfl⟩, noted.apply request⟩
    | cons reply later => exact ⟨.inl rfl, noted.items, noted.name, rfl, noted.outgoing⟩

theorem answer_apiKey (sweep : IsSweep clock before after) (code : Code) :
    before.answer (.get code.apiKeyKey) = after.answer (.get code.apiKeyKey) := by
  rcases sweep.items code.apiKeyKey with same | ⟨-, -, -, other, -, -, absurdity, -⟩
  · rw [Table.answer, Table.answer, Table.answerJson, Table.answerJson, same]
  · exact absurd absurdity.symm (Code.stateKey_ne_apiKeyKey other code)

theorem result_state (sweep : IsSweep clock before after) (later : clock ≤ now) (code : Code) :
    Table.result (.getState code now) (before.answer (.get code.stateKey)) =
      Table.result (.getState code now) (after.answer (.get code.stateKey)) := by
  rcases sweep.items code.stateKey with
    same | ⟨gone, value, held, -, item, record, -, read, decoded, expired⟩
  · rw [Table.answer, Table.answer, Table.answerJson, Table.answerJson, same]
  · rw [Table.answer_get_of_none gone, Table.answer_get_of_some held,
      Item.grantOf_of_itemOf? read]
    simp only [Table.result, Table.recordOf, decoded, Except.map, filter_isExpired expired later,
      Option.filter_none]

theorem agree (later : clock ≤ now) :
    Agree Table.backend Table.backend (IsSweep clock) (Call.IsMadeAt now) where
  delay := fun _ => rfl
  perform := by
    intro call full swept made sweep
    obtain ⟨answers, after⟩ := sweep.exchange (Table.request call)
    refine ⟨?_, after⟩
    change Table.result call (Table.exchange (Table.request call) full).1 =
      Table.result call (Table.exchange (Table.request call) swept).1
    rcases answers with same | ⟨left, right⟩
    · rw [same]
    · rw [left, right]
      cases call with
      | getApiKey code => exact congrArg _ (sweep.answer_apiKey code)
      | getState code time =>
          obtain rfl : time = now := made
          exact sweep.result_state later code
      | putState record => rfl
      | deleteState code => rfl

end IsSweep

end Table

end WorkoutBoard.Store
