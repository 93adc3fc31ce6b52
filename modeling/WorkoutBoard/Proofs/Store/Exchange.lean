import WorkoutBoard.Proofs.Store.Table
import WorkoutBoard.Proofs.Store.Trace

/-!
# Calls as requests

A table is sent one request for every call, and what comes back is the answer to the call: a failure
of either kind is never taken for a record or for its absence (`Table.Means`). A run that comes to a
result has gone through all of its calls in this way (`Table.answered_run`), so that what it has
sent is known from its calls.
-/

namespace WorkoutBoard.Store

open Workout (ApiKeyRecord Code StateRecord)

namespace Table

def sentFor (name : String) (event : Event) : SentRequest := ⟨name, request event.call⟩

def requestsFor (name : String) (calls : List Event) : List SentRequest :=
  if name.toList.all Text.isBlank then [] else calls.map (sentFor name)

theorem requestsFor_cons (name : String) (event : Event) (later : List Event) :
    requestsFor name (event :: later) =
      (if name.toList.all Text.isBlank then [] else [sentFor name event]) ++
        requestsFor name later := by
  unfold requestsFor
  split <;> simp

/-- What comes back for a request, as the answer to its call. An item that is no record is a
failure, and a state whose last second has come counts as absent. -/
inductive Means : (call : Call) → Except TableFailure (Option Item) →
    Except Failure call.Result → Prop where
  | failed (call : Call) (failure : TableFailure) :
      Means call (.error failure) (.error (.table failure))
  | noKey (code : Code) : Means (.getApiKey code) (.ok none) (.ok none)
  | badKey (code : Code) {item : Item} {fault : ItemFault}
      (read : ApiKeyRecord.ofItem item = .error fault) :
      Means (.getApiKey code) (.ok (some item)) (.error (.item fault))
  | key (code : Code) {item : Item} {record : ApiKeyRecord}
      (read : ApiKeyRecord.ofItem item = .ok record) :
      Means (.getApiKey code) (.ok (some item)) (.ok (some record))
  | noState (code : Code) (now : Int64) : Means (.getState code now) (.ok none) (.ok none)
  | badState (code : Code) (now : Int64) {item : Item} {fault : ItemFault}
      (read : StateRecord.ofItem item = .error fault) :
      Means (.getState code now) (.ok (some item)) (.error (.item fault))
  | state (code : Code) {now : Int64} {item : Item} {record : StateRecord}
      (read : StateRecord.ofItem item = .ok record) (unexpired : now < record.ttl) :
      Means (.getState code now) (.ok (some item)) (.ok (some record))
  | expired (code : Code) {now : Int64} {item : Item} {record : StateRecord}
      (read : StateRecord.ofItem item = .ok record) (past : record.ttl ≤ now) :
      Means (.getState code now) (.ok (some item)) (.ok none)
  | put (record : StateRecord) (item : Option Item) : Means (.putState record) (.ok item) (.ok ())
  | delete (code : Code) (item : Option Item) : Means (.deleteState code) (.ok item) (.ok ())

/-- Calls that are answered by a table in turn, each by what comes back for one request. -/
inductive Answered : Table → List Event → Table → Prop where
  | nothing (table : Table) : Answered table [] table
  | next {table after : Table} (call : Call) {answer : Except Failure call.Result}
      {later : List Event} (means : Means call (table.exchange (request call)).1 answer)
      (rest : Answered (table.exchange (request call)).2 later after) :
      Answered table (⟨call, some answer⟩ :: later) after

/-- A request has gone out for each call that is answered, and no others. -/
theorem Answered.outgoing {table after : Table} {calls : List Event}
    (answered : Answered table calls after) :
    after.name = table.name ∧
      after.outgoing = table.outgoing ++ requestsFor table.name calls := by
  induction answered with
  | nothing table => simp [requestsFor]
  | @next table after call answer later means rest inductive_step =>
      obtain ⟨name, outgoing⟩ := inductive_step
      obtain ⟨sameName, first⟩ := outgoing_exchange (request call) table
      rw [name, outgoing, sameName, first, requestsFor_cons, List.append_assoc]
      exact ⟨rfl, rfl⟩

end Table

end WorkoutBoard.Store
