import WorkoutBoard.Proofs.Store.Item

/-!
# What a call does to a table

A read leaves the items as they are, and a write touches one item at most; every reply is used up
once. A table that answers all requests itself understands what it holds, as far as records go.
-/

namespace WorkoutBoard.Store

open Json (Value)
open Workout (ApiKeyRecord Code StateRecord)

/-- A reply that shows no item to those who read: it fails, or says that there is none. -/
def Reply.ShowsNothing (reply : Reply) : Prop :=
  ∀ key item, reply.read (.get key) ≠ .ok (some item)

theorem Reply.showsNothing_disconnected : Reply.disconnected.ShowsNothing := by
  intro key item shown
  cases shown

theorem Reply.showsNothing_of_status {status : Nat} (failed : Reply.isGranted status = false)
    (body : List UInt8) : (Reply.answered status body).ShowsNothing := by
  intro key item shown
  rw [Reply.read, failed] at shown
  cases shown

theorem Reply.showsNothing_of_body {body : List UInt8} (unreadable : Body.ofBytes? body = none)
    (status : Nat) : (Reply.answered status body).ShowsNothing := by
  intro key item shown
  rw [Reply.read] at shown
  split at shown
  · rw [Reply.grant, unreadable] at shown
    split at shown <;> cases shown
  · cases shown

namespace Table

def apiKey? (table : Table) (code : Code) : Option ApiKeyRecord :=
  (table.items.find? code.apiKeyKey).bind fun value =>
    (Body.itemOf? 0 (.ofValue value)).bind fun item => (ApiKeyRecord.ofItem item).toOption

/-! ## Any table -/

theorem items_exchange (request : TableRequest) (table : Table) :
    (exchange request table).2.items = table.items ∨
      (exchange request table).2.items = (table.apply request).items := by
  rw [exchange]
  split
  next => exact .inl rfl
  next =>
    dsimp only
    split
    next => cases request <;> exact .inr rfl
    next => exact .inl rfl

theorem items_exchange_get (key : String) (table : Table) :
    (exchange (.get key) table).2.items = table.items :=
  (items_exchange (.get key) table).elim id id

theorem outgoing_exchange (request : TableRequest) (table : Table) :
    (exchange request table).2.name = table.name ∧
      (exchange request table).2.outgoing = table.outgoing ++
        (if table.name.toList.all Text.isBlank then [] else [⟨table.name, request⟩]) := by
  rw [exchange]
  split
  · simp
  · dsimp only
    split
    · cases request <;> exact ⟨rfl, rfl⟩
    · exact ⟨rfl, rfl⟩

theorem exchange_of_blank {table : Table} (blank : table.name.toList.all Text.isBlank = true)
    (request : TableRequest) : exchange request table = (.error (.unnamed none), table) :=
  if_pos blank

theorem mem_replies_of_exchange {request : TableRequest} {table : Table} {reply : Reply}
    (waiting : reply ∈ (exchange request table).2.replies) : reply ∈ table.replies := by
  rw [exchange] at waiting
  split at waiting
  next => exact waiting
  next =>
    dsimp only at waiting
    split at waiting
    next =>
      cases request <;> exact waiting
    next first later replies =>
      rw [← replies_note request, replies]
      exact List.mem_cons_of_mem _ waiting

theorem items_perform_putState (record : StateRecord) (table : Table) :
    (perform (.putState record) table).2.items = table.items ∨
      (perform (.putState record) table).2.items =
        table.items.insert record.key record.toItem.toJson := by
  rcases items_exchange (.put record.toItem) table with same | applied
  · exact .inl same
  · rw [apply, putItem, StateRecord.keyOf_toItem] at applied
    exact .inr applied

theorem items_perform_deleteState (code : Code) (table : Table) :
    (perform (.deleteState code) table).2.items = table.items ∨
      (perform (.deleteState code) table).2.items = table.items.erase code.stateKey :=
  items_exchange (.delete code.stateKey) table

theorem items_putApiKey_of_error {record : ApiKeyRecord} {table : Table} {failure : Failure}
    (failed : (putApiKey record table).1 = .error failure) :
    (putApiKey record table).2.items = table.items := by
  change granted (exchange (.put record.toItem) table).1 = .error failure at failed
  change (exchange (.put record.toItem) table).2.items = table.items
  rw [exchange] at failed ⊢
  split
  next => rfl
  next named =>
    rw [if_neg named] at failed
    dsimp only at failed ⊢
    split
    next waiting =>
      rw [waiting] at failed
      cases failed
    next => rfl

theorem exchange_cases {request : TableRequest} {table : Table} {found : Option Item}
    (said : (exchange request table).1 = .ok found) :
    table.answer request = .ok found ∨ ∃ reply ∈ table.replies, reply.read request = .ok found := by
  rw [exchange] at said
  split at said
  next => cases said
  next =>
    dsimp only at said
    split at said
    next => exact .inl said
    next reply later replies => exact .inr ⟨reply, replies ▸ List.mem_cons_self, said⟩

theorem answer_get_of_some {table : Table} {key : String} {value : Value}
    (present : table.items.find? key = some value) :
    table.answer (.get key) = Reply.grantOf (.get key) (.ofValue (.object [("Item", value)])) := by
  rw [answer, answerJson, present]

theorem answer_get_of_none {table : Table} {key : String}
    (absent : table.items.find? key = none) : table.answer (.get key) = .ok none := by
  rw [answer, answerJson, absent]
  rfl

theorem itemOf?_of_grantOf {key : String} {value : Value} {item : Item}
    (granted : Reply.grantOf (.get key) (.ofValue (.object [("Item", value)])) = .ok (some item)) :
    Body.itemOf? 0 (.ofValue value) = some item := by
  rw [Reply.grantOf] at granted
  split at granted
  next =>
    have shown := Except.ok.inj granted
    rw [Reply.itemOf?, Item.members?_answer] at shown
    exact shown
  next => cases granted

/-- What is found without a reply that shows it is in the table. -/
theorem find?_of_exchange_get {key : String} {table : Table} {item : Item}
    (honest : ∀ reply ∈ table.replies, reply.ShowsNothing)
    (found : (exchange (.get key) table).1 = .ok (some item)) :
    ∃ value, table.items.find? key = some value ∧
      Body.itemOf? 0 (.ofValue value) = some item := by
  rcases exchange_cases found with answered | ⟨reply, waiting, shown⟩
  · cases present : table.items.find? key with
    | none =>
        rw [answer_get_of_none present] at answered
        cases answered
    | some value =>
        rw [answer_get_of_some present] at answered
        exact ⟨value, rfl, itemOf?_of_grantOf answered⟩
  · exact absurd shown (honest reply waiting key item)

theorem eq_of_recordOf {α : Type} {read : Item → Except ItemFault α}
    {answer : Except TableFailure (Option Item)} {record : α}
    (found : recordOf read answer = .ok (some record)) :
    ∃ item, answer = .ok (some item) ∧ read item = .ok record := by
  match answer with
  | .error failure => cases found
  | .ok none => cases found
  | .ok (some item) =>
      rw [recordOf] at found
      split at found
      next result same =>
        obtain rfl := Option.some.inj (Except.ok.inj found)
        exact ⟨item, rfl, same⟩
      next => cases found

theorem apiKey?_of_perform {code : Code} {table : Table} {record : ApiKeyRecord}
    (honest : ∀ reply ∈ table.replies, reply.ShowsNothing)
    (found : (perform (.getApiKey code) table).1 = .ok (some record)) :
    table.apiKey? code = some record := by
  obtain ⟨item, said, read⟩ := eq_of_recordOf found
  obtain ⟨value, present, shown⟩ := find?_of_exchange_get honest said
  rw [apiKey?, present, Option.bind_some, shown, Option.bind_some, read]
  rfl

end Table

end WorkoutBoard.Store
