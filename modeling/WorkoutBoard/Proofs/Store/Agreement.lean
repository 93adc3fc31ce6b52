import WorkoutBoard.Proofs.Store.Plan
import WorkoutBoard.Proofs.Store.Table
import WorkoutBoard.Store.Memory

/-!
# The table does what the memory does

A table mirrors the memory if it holds the items of the same records under the same keys. The keys
of the two kinds never meet, so that one table has room for both directories, and items of records
are read back; a call therefore has one answer in both (`Mirrors.perform`).
-/

namespace WorkoutBoard.Store

open Workout (ApiKeyRecord Code State StateRecord)

/-- A table that answers every request itself. No table has a blank name. -/
structure Table.IsFaithful (table : Table) : Prop where
  named : table.name.toList.all Text.isBlank = false
  replies : table.replies = []

theorem Table.exchange_of_isFaithful {table : Table} (faithful : table.IsFaithful)
    (request : TableRequest) :
    (exchange request table).1 = table.answer request ∧
      (exchange request table).2.items = (table.apply request).items ∧
      (exchange request table).2.IsFaithful := by
  have exchanged : exchange request table =
      ((table.note request).answer request, (table.note request).apply request) := by
    rw [exchange, if_neg (Bool.eq_false_iff.mp faithful.named)]
    dsimp only
    rw [replies_note, faithful.replies]
  rw [exchanged]
  cases request with
  | get key => exact ⟨rfl, rfl, faithful.named, faithful.replies⟩
  | put item => exact ⟨rfl, rfl, faithful.named, faithful.replies⟩
  | delete key => exact ⟨rfl, rfl, faithful.named, faithful.replies⟩

theorem Table.putApiKey_of_isFaithful {table : Table} (faithful : table.IsFaithful)
    (record : ApiKeyRecord) :
    (putApiKey record table).1 = .ok () ∧
      (putApiKey record table).2.items = table.items.insert record.key record.toItem.toJson ∧
      (putApiKey record table).2.IsFaithful := by
  obtain ⟨answer, items, still⟩ := exchange_of_isFaithful faithful (.put record.toItem)
  rw [apply, putItem, ApiKeyRecord.keyOf_toItem] at items
  exact ⟨congrArg granted answer, items, still⟩

theorem Table.recordOf_answer {α : Type} {table : Table} {read : Item → Except ItemFault α}
    {toItem : α → Item}
    (readable : ∀ record, (toItem record).IsReadable)
    (restored : ∀ record, read (toItem record) = .ok record) {key : String} {found : Option α}
    (held : table.items.find? key = found.map fun record => (toItem record).toJson) :
    Table.recordOf read (table.answer (.get key)) = .ok found := by
  cases found with
  | none => rw [Table.answer_get_of_none held, Table.recordOf]
  | some record =>
      rw [Table.answer_get_of_some held, (readable record).grantOf, Table.recordOf, restored]

theorem Table.perform_getApiKey_of_isFaithful {table : Table} (faithful : table.IsFaithful)
    {code : Code} {found : Option ApiKeyRecord}
    (held : table.items.find? code.apiKeyKey = found.map fun record => record.toItem.toJson) :
    (perform (.getApiKey code) table).1 = .ok found := by
  have answer := (exchange_of_isFaithful faithful (.get code.apiKeyKey)).1
  have read := recordOf_answer ApiKeyRecord.isReadable_toItem ApiKeyRecord.ofItem_toItem held
  exact (congrArg (recordOf ApiKeyRecord.ofItem) answer).trans read

theorem Table.perform_getState_of_isFaithful {table : Table} (faithful : table.IsFaithful)
    {code : Code} {found : Option StateRecord}
    (held : table.items.find? code.stateKey = found.map fun record => record.toItem.toJson)
    (now : Int64) :
    (perform (.getState code now) table).1 =
      .ok (found.filter fun record => !record.isExpired now) := by
  have answer := (exchange_of_isFaithful faithful (.get code.stateKey)).1
  have read := recordOf_answer StateRecord.isReadable_toItem StateRecord.ofItem_toItem held
  change (recordOf StateRecord.ofItem (table.exchange (.get code.stateKey)).1).map _ = _
  rw [answer, read]
  rfl

structure Mirrors (memory : Memory) (table : Table) : Prop where
  faithful : table.IsFaithful
  states : ∀ code : Code, table.items.find? code.stateKey =
    (memory.state? code).map fun record => record.toItem.toJson
  apiKeys : ∀ code : Code, table.items.find? code.apiKeyKey =
    (memory.apiKey? code).map fun record => record.toItem.toJson

def Call.IsOwn : Call → Prop
  | .putState record => ∃ code state time, record = .ofWrite code state time
  | _ => True

namespace Mirrors

theorem empty {name : String} (named : name.toList.all Text.isBlank = false) :
    Mirrors Memory.empty (Table.empty name) :=
  ⟨⟨named, rfl⟩, fun _ => rfl, fun _ => rfl⟩

variable {memory : Memory} {table : Table}

theorem putState (mirrors : Mirrors memory table) (code : Code) (state : State) (time : Int64)
    {next : Table} (faithful : next.IsFaithful)
    (items : next.items = table.items.insert code.stateKey
      (StateRecord.ofWrite code state time).toItem.toJson) :
    Mirrors (memory.putState (.ofWrite code state time)) next where
  faithful := faithful
  states := by
    intro other
    rw [items, Directory.find?_insert, Memory.state?_putState_ofWrite]
    by_cases same : other = code
    · rw [if_pos same, if_pos (congrArg Code.stateKey same), Option.map_some]
    · rw [if_neg same, if_neg fun keys => same (Code.stateKey_injective keys)]
      exact mirrors.states other
  apiKeys := by
    intro other
    rw [items, Directory.find?_insert, if_neg (Code.stateKey_ne_apiKeyKey code other).symm]
    exact mirrors.apiKeys other

theorem deleteState (mirrors : Mirrors memory table) (code : Code) {next : Table}
    (faithful : next.IsFaithful) (items : next.items = table.items.erase code.stateKey) :
    Mirrors (memory.deleteState code) next where
  faithful := faithful
  states := by
    intro other
    rw [items, Directory.find?_erase, Memory.state?_deleteState]
    by_cases same : other = code
    · rw [if_pos same, if_pos (congrArg Code.stateKey same), Option.map_none]
    · rw [if_neg same, if_neg fun keys => same (Code.stateKey_injective keys)]
      exact mirrors.states other
  apiKeys := by
    intro other
    rw [items, Directory.find?_erase, if_neg (Code.stateKey_ne_apiKeyKey code other).symm]
    exact mirrors.apiKeys other

theorem insertApiKey (mirrors : Mirrors memory table) (code : Code) (apiKey : String)
    {next : Table} (faithful : next.IsFaithful)
    (items : next.items = table.items.insert code.apiKeyKey
      (ApiKeyRecord.ofKey code apiKey).toItem.toJson) :
    Mirrors (memory.insertApiKey code apiKey) next where
  faithful := faithful
  states := by
    intro other
    rw [items, Directory.find?_insert, if_neg (Code.stateKey_ne_apiKeyKey other code)]
    exact mirrors.states other
  apiKeys := by
    intro other
    rw [items, Directory.find?_insert, Memory.apiKey?_insertApiKey]
    by_cases same : other = code
    · rw [if_pos same, if_pos (congrArg Code.apiKeyKey same), Option.map_some]
    · rw [if_neg same, if_neg fun keys => same (Code.apiKeyKey_injective keys)]
      exact mirrors.apiKeys other

theorem of_items (mirrors : Mirrors memory table) {next : Table} (faithful : next.IsFaithful)
    (items : next.items = table.items) : Mirrors memory next where
  faithful := faithful
  states := fun code => by rw [items, mirrors.states]
  apiKeys := fun code => by rw [items, mirrors.apiKeys]

theorem perform (mirrors : Mirrors memory table) {call : Call} (own : call.IsOwn) :
    (Memory.perform call memory).1 = (Table.perform call table).1 ∧
      Mirrors (Memory.perform call memory).2 (Table.perform call table).2 := by
  obtain ⟨answer, items, faithful⟩ :=
    Table.exchange_of_isFaithful mirrors.faithful (Table.request call)
  cases call with
  | getApiKey code =>
      exact ⟨(Table.perform_getApiKey_of_isFaithful mirrors.faithful (mirrors.apiKeys code)).symm,
        mirrors.of_items faithful items⟩
  | getState code now =>
      exact ⟨(Table.perform_getState_of_isFaithful mirrors.faithful (mirrors.states code)
        now).symm, mirrors.of_items faithful items⟩
  | putState record =>
      obtain ⟨code, state, time, rfl⟩ := own
      refine ⟨(congrArg Table.granted answer).symm,
        mirrors.putState code state time faithful (items.trans ?_)⟩
      rw [Table.request, Table.apply, Table.putItem, StateRecord.keyOf_toItem]
      rfl
  | deleteState code =>
      exact ⟨(congrArg Table.granted answer).symm, mirrors.deleteState code faithful items⟩

theorem putApiKey (mirrors : Mirrors memory table) (code : Code) (apiKey : String) :
    (Table.putApiKey (.ofKey code apiKey) table).1 = .ok () ∧
      Mirrors (memory.insertApiKey code apiKey)
        (Table.putApiKey (.ofKey code apiKey) table).2 := by
  obtain ⟨granted, items, faithful⟩ :=
    Table.putApiKey_of_isFaithful mirrors.faithful (.ofKey code apiKey)
  exact ⟨granted, mirrors.insertApiKey code apiKey faithful items⟩

theorem agree : Agree Memory.backend Table.backend Mirrors Call.IsOwn where
  delay := fun _ => rfl
  perform := fun _ _ _ own mirrors => mirrors.perform own

end Mirrors

/-! ## Any use of the stores -/

/-- What may be done with a store: a key is provisioned for a code, or a call is made. -/
inductive Use where
  | provision (code : Code) (apiKey : String)
  | ask (call : Call) (own : call.IsOwn)

namespace Use

@[reducible] def Result : Use → Type
  | .provision _ _ => Unit
  | .ask call _ => call.Result

def onMemory : (use : Use) → Memory → Except Failure use.Result × Memory
  | .provision code apiKey, memory => (.ok (), memory.insertApiKey code apiKey)
  | .ask call _, memory => memory.perform call

def onTable : (use : Use) → Table → Except Failure use.Result × Table
  | .provision code apiKey, table => table.putApiKey (.ofKey code apiKey)
  | .ask call _, table => table.perform call

def memoryAfter (uses : List Use) (memory : Memory) : Memory :=
  uses.foldl (fun reached use => (use.onMemory reached).2) memory

def tableAfter (uses : List Use) (table : Table) : Table :=
  uses.foldl (fun reached use => (use.onTable reached).2) table

end Use

variable {memory : Memory} {table : Table}

theorem Mirrors.use (mirrors : Mirrors memory table) (use : Use) :
    (use.onMemory memory).1 = (use.onTable table).1 ∧
      Mirrors (use.onMemory memory).2 (use.onTable table).2 := by
  cases use with
  | provision code apiKey =>
      obtain ⟨granted, after⟩ := mirrors.putApiKey code apiKey
      exact ⟨granted.symm, after⟩
  | ask call own => exact mirrors.perform own

theorem Mirrors.uses (uses : List Use) (mirrors : Mirrors memory table) :
    Mirrors (Use.memoryAfter uses memory) (Use.tableAfter uses table) := by
  induction uses generalizing memory table with
  | nil => exact mirrors
  | cons use later inductive_step => exact inductive_step (mirrors.use use).2

end WorkoutBoard.Store
