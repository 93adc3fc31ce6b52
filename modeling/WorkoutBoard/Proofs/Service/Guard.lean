import WorkoutBoard.Proofs.Service.Outcome
import WorkoutBoard.Proofs.Store.Plan
import WorkoutBoard.Proofs.Store.Table
import WorkoutBoard.Store.Memory

/-!
# Who may change what

A request changes a store only if it is a write with the key that is stored for its code, and then
it changes nothing but the state of that code (`changes_are_authorized`). The record of a key is
changed by no request.
-/

namespace WorkoutBoard.Service

open Http (Request)
open Store (Backend Conditions Memory Table)
open Workout (ApiKeyRecord Code State StateRecord)

/-- A request with the stored key of a code may leave `left` as its state: nothing, or the record of
the start that the body sets. -/
structure AuthorizedChange (request : Request) (now : Int64) (stored : Code → Option ApiKeyRecord)
    (code : Code) (left : Option StateRecord) : Prop where
  key : ∃ key record, IsWrite request code key ∧ key ≠ "" ∧ stored code = some record ∧
    record.apiKey = key
  state : left = none ∨
    ∃ start, Sets request.body start ∧ left = some (.ofWrite code ⟨start⟩ now)

theorem AuthorizedChange.ofBody {request : Request} {now : Int64}
    {stored : Code → Option ApiKeyRecord} {code : Code} {key : String} {record : ApiKeyRecord}
    {change : Change} (isWrite : IsWrite request code key) (nonempty : key ≠ "")
    (found : stored code = some record) (accepted : record.apiKey = key)
    (asked : Change.ofBody request.body = .ok change) :
    AuthorizedChange request now stored code (change.left now code) where
  key := ⟨key, record, isWrite, nonempty, found, accepted⟩
  state := by
    cases change with
    | clear => exact .inl rfl
    | set state => exact .inr ⟨state.startDateTime, Change.sets_of_ofBody asked, rfl⟩

/-! ## One request -/

/-- What the calls of the service do to a store, of whose contents the entries under keys are seen,
as long as the contents are sound. -/
structure Guarded {σ β : Type} (backend : Backend σ) (Sound : σ → Prop) (entries : σ → Directory β)
    (encode : StateRecord → β) (stored : σ → Code → Option ApiKeyRecord) : Prop where
  sound : ∀ call contents, Sound contents → Sound (backend.perform call contents).2
  getState : ∀ code now contents,
    entries (backend.perform (.getState code now) contents).2 = entries contents
  getApiKey : ∀ code contents,
    entries (backend.perform (.getApiKey code) contents).2 = entries contents
  found : ∀ code contents record, Sound contents →
    (backend.perform (.getApiKey code) contents).1 = .ok (some record) →
      stored contents code = some record
  change : ∀ (change : Change) now code contents,
    entries (backend.perform (change.call now code) contents).2 = entries contents ∨
      ∀ key, (entries (backend.perform (change.call now code) contents).2).find? key =
        if key = code.stateKey then (change.left now code).map encode
        else (entries contents).find? key

namespace Guarded

variable {σ β : Type} {backend : Backend σ} {Sound : σ → Prop} {entries : σ → Directory β}
  {encode : StateRecord → β} {stored : σ → Code → Option ApiKeyRecord}

theorem under (guarded : Guarded backend Sound entries encode stored) (conditions : Conditions) :
    Guarded (backend.under conditions) Sound entries encode stored where
  sound := by
    intro call contents sound
    rcases backend.perform_under conditions call contents with ⟨message, failed⟩ | done
    · rw [failed]
      exact sound
    · rw [done]
      exact guarded.sound call contents sound
  getState := by
    intro code now contents
    rcases backend.perform_under conditions (.getState code now) contents with
      ⟨message, failed⟩ | done
    · rw [failed]
    · rw [done]
      exact guarded.getState code now contents
  getApiKey := by
    intro code contents
    rcases backend.perform_under conditions (.getApiKey code) contents with
      ⟨message, failed⟩ | done
    · rw [failed]
    · rw [done]
      exact guarded.getApiKey code contents
  found := by
    intro code contents record sound answered
    rcases backend.perform_under conditions (.getApiKey code) contents with
      ⟨message, failed⟩ | done
    · rw [failed] at answered
      cases answered
    · rw [done] at answered
      exact guarded.found code contents record sound answered
  change := by
    intro change now code contents
    rcases backend.perform_under conditions (change.call now code) contents with
      ⟨message, failed⟩ | done
    · rw [failed]
      exact .inl rfl
    · rw [done]
      exact guarded.change change now code contents

theorem serve (guarded : Guarded backend Sound entries encode stored) (options : Options)
    (now : Int64) (request : Request) {before : σ} (sound : Sound before) :
    let after := (serve options backend now request before).2
    Sound after ∧
      (entries after = entries before ∨
        ∃ code left, AuthorizedChange request now (stored before) code left ∧
          (entries after).find? code.stateKey = left.map encode ∧
          ∀ key, key ≠ code.stateKey →
            (entries after).find? key = (entries before).find? key) := by
  have outcome := serve_outcome options backend now request before
  generalize Service.serve options backend now request before = result at outcome ⊢
  cases outcome with
  | unasked response refused => exact ⟨sound, .inl rfl⟩
  | read code isRead answer after found =>
      have kept := guarded.getState code now before
      have stillSound := guarded.sound (.getState code now) before sound
      rw [found] at kept stillSound
      exact ⟨stillSound, .inl kept⟩
  | refused code key isWrite answer after found response status =>
      have kept := guarded.getApiKey code before
      have stillSound := guarded.sound (.getApiKey code) before sound
      rw [found] at kept stillSound
      exact ⟨stillSound, .inl kept⟩
  | changed code key isWrite record between found accepted nonempty fits change asked answer
      after made =>
      -- The look-up leaves the entries alone, so what the change does to the contents between the
      -- two calls, it does to those before the request.
      have kept := guarded.getApiKey code before
      have soundBetween := guarded.sound (.getApiKey code) before sound
      have guard := guarded.found code before record sound (congrArg Prod.fst found)
      rw [found] at kept soundBetween
      have effect := guarded.change change now code between
      have stillSound := guarded.sound (change.call now code) between soundBetween
      rw [made, kept] at effect
      rw [made] at stillSound
      refine ⟨stillSound, effect.imp id fun entry => ⟨code, change.left now code,
        .ofBody isWrite nonempty guard accepted asked, ?_, fun key different => ?_⟩⟩
      · rw [entry, if_pos rfl]
      · rw [entry, if_neg different]

end Guarded

/-! ## The stores -/

theorem memory_guarded (apiKeys : Directory ApiKeyRecord) :
    Guarded Memory.backend (fun memory => memory.apiKeys = apiKeys) Memory.states id
      Memory.apiKey? where
  sound := by
    intro call memory same
    cases call <;> exact same
  getState := fun _ _ _ => rfl
  getApiKey := fun _ _ => rfl
  found := fun _ _ _ _ answered => Except.ok.inj answered
  change := by
    intro change now code memory
    refine .inr fun key => ?_
    rw [Option.map_id]
    cases change with
    | clear => exact Directory.find?_erase memory.states code.stateKey key
    | set state => exact Directory.find?_insert memory.states code.stateKey key _

theorem table_guarded :
    Guarded Table.backend (fun table => ∀ reply ∈ table.replies, reply.ShowsNothing) Table.items
      (fun record => record.toItem.toJson) Table.apiKey? where
  sound := fun _ _ honest reply waiting => honest reply (Table.mem_replies_of_exchange waiting)
  getState := fun code _ table => Table.items_exchange_get code.stateKey table
  getApiKey := fun code table => Table.items_exchange_get code.apiKeyKey table
  found := fun _ _ _ honest answered => Table.apiKey?_of_perform honest answered
  change := by
    intro change now code table
    cases change with
    | clear =>
        refine (Table.items_perform_deleteState code table).imp id fun erased key => ?_
        exact (congrArg (fun items => items.find? key) erased).trans (Directory.find?_erase _ _ _)
    | set state =>
        refine (Table.items_perform_putState _ table).imp id fun inserted key => ?_
        exact (congrArg (fun items => items.find? key) inserted).trans
          (Directory.find?_insert _ _ _ _)

theorem table_apiKey_serve (options : Options) (conditions : Conditions) (now : Int64)
    (request : Request) {before : Table} (honest : ∀ reply ∈ before.replies, reply.ShowsNothing)
    (code : Code) :
    (serve options (Table.backend.under conditions) now request before).2.items.find?
      code.apiKeyKey = before.items.find? code.apiKeyKey := by
  obtain ⟨-, same | ⟨changed, left, -, -, others⟩⟩ :=
    (table_guarded.under conditions).serve options now request honest
  · rw [same]
  · exact others _ (Code.stateKey_ne_apiKeyKey changed code).symm

/-- In every history and whatever fails or takes too long, no record of a key is ever changed, and a
request that changes anything changes only the state of a code whose stored key it brings. -/
theorem changes_are_authorized (options : Options) (conditions : Conditions)
    (history : List (Int64 × Request)) (now : Int64) (request : Request) :
    (∀ memory : Memory,
      let backend := Memory.backend.under conditions
      let before := (serveAll options backend history memory).2
      let after := (serve options backend now request before).2
      after.apiKeys = memory.apiKeys ∧
        (after = before ∨
          ∃ code left, AuthorizedChange request now before.apiKey? code left ∧
            after.states.find? code.stateKey = left ∧
            ∀ key, key ≠ code.stateKey → after.states.find? key = before.states.find? key)) ∧
    ∀ table : Table, (∀ reply ∈ table.replies, reply.ShowsNothing) →
      let backend := Table.backend.under conditions
      let before := (serveAll options backend history table).2
      let after := (serve options backend now request before).2
      (∀ code : Code,
        after.items.find? code.apiKeyKey = table.items.find? code.apiKeyKey) ∧
        (after.items = before.items ∨
          ∃ code left, AuthorizedChange request now before.apiKey? code left ∧
            after.items.find? code.stateKey = left.map (fun record => record.toItem.toJson) ∧
            ∀ key, key ≠ code.stateKey → after.items.find? key = before.items.find? key) := by
  constructor
  · intro memory backend before after
    have guarded := (memory_guarded memory.apiKeys).under conditions
    have kept : before.apiKeys = memory.apiKeys :=
      serveAll_induction (fun contents : Memory => contents.apiKeys = memory.apiKeys)
        (fun time other contents same => (guarded.serve options time other same).1) history rfl
    obtain ⟨apiKeys, same | changed⟩ := guarded.serve options now request kept
    · exact ⟨apiKeys, .inl (Memory.mk.injEq .. ▸ ⟨same, apiKeys.trans kept.symm⟩)⟩
    · simp only [Option.map_id_fun, id_eq] at changed
      exact ⟨apiKeys, .inr changed⟩
  · intro table honest backend before after
    have guarded := table_guarded.under conditions
    -- That the replies show nothing is needed at every step: a key must come from the items.
    have reached : (∀ reply ∈ before.replies, reply.ShowsNothing) ∧
        ∀ code : Code, before.items.find? code.apiKeyKey = table.items.find? code.apiKeyKey :=
      serveAll_induction (fun contents : Table =>
        (∀ reply ∈ contents.replies, reply.ShowsNothing) ∧
          ∀ code : Code, contents.items.find? code.apiKeyKey = table.items.find? code.apiKeyKey)
        (fun time other contents holds => ⟨(guarded.serve options time other holds.1).1,
          fun code => (table_apiKey_serve options conditions time other holds.1 code).trans
            (holds.2 code)⟩)
        history ⟨honest, fun _ => rfl⟩
    refine ⟨fun code => (table_apiKey_serve options conditions now request reached.1 code).trans
      (reached.2 code), ?_⟩
    exact (guarded.serve options now request reached.1).2

def exampleWrite : Request :=
  ⟨"POST", "/workout-state/a/k", [],
    Text.Utf8.bytes "\x7b\"startDateTime\":\"2025-01-01T00Z\"\x7d"⟩

def exampleTable : Table :=
  { (Table.empty "cache").putItem (ApiKeyRecord.ofKey ⟨"a"⟩ "k").toItem.toJson with
    replies := [.disconnected] }

theorem changes_are_authorized_after_outage :
    (∀ reply ∈ exampleTable.replies, reply.ShowsNothing) ∧
      let backend := Table.backend.under .undisturbed
      let before := (serveAll .standard backend [(4, exampleWrite)] exampleTable).2
      let after := (serve .standard backend 5 exampleWrite before).2
      ∃ code left, AuthorizedChange exampleWrite 5 before.apiKey? code left ∧
        after.items.find? code.stateKey = left.map (fun record => record.toItem.toJson) ∧
        ∀ key, key ≠ code.stateKey → after.items.find? key = before.items.find? key := by
  have honest : ∀ reply ∈ exampleTable.replies, reply.ShowsNothing := by
    intro reply waiting
    rw [List.mem_singleton.mp waiting]
    exact Store.Reply.showsNothing_disconnected
  refine ⟨honest, ?_⟩
  obtain ⟨-, same | changed⟩ := (changes_are_authorized .standard .undisturbed
    [(4, exampleWrite)] 5 exampleWrite).2 exampleTable honest
  · have entries := congrArg (fun items => (items.find? "workout-state:a").isSome) same
    exact absurd entries (by decide +kernel)
  · exact changed

end WorkoutBoard.Service
