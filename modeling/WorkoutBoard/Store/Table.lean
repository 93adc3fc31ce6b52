import WorkoutBoard.Store.Item
import WorkoutBoard.Store.Plan
import WorkoutBoard.Store.Reply
import WorkoutBoard.Text.Blank

/-!
# The store in a table

States and keys are items of one table, which is asked over the network. A request is answered from
the items unless a reply is waiting; such a reply takes the place of the answer, and the items stay
as they are. Every request that is made is noted.
-/

namespace WorkoutBoard.Store

open Json (Value)
open Workout (ApiKeyRecord Code StateRecord)

/-- A table, the replies that wait, and the requests that went out, the first one first. An item is
kept as the value that was sent for it. -/
structure Table where
  name : String
  items : Directory Value
  replies : List Reply
  outgoing : List SentRequest

namespace Table

def empty (name : String) : Table := ⟨name, ∅, [], []⟩

/-- The same table for those who call it by another name. -/
def withName (name : String) (table : Table) : Table := { table with name := name }

def sent (table : Table) : List TableRequest := table.outgoing.map SentRequest.request

def memberOf? (name : String) : Value → Option Value
  | .object members => Json.lastMember? name members
  | _ => none

def keyOf (item : Value) : String :=
  match (memberOf? "key" item).bind (memberOf? "S") with
  | some (.text key) => key
  | _ => ""

def putItem (table : Table) (item : Value) : Table :=
  { table with items := table.items.insert (keyOf item) item }

def apply (table : Table) : TableRequest → Table
  | .get _ => table
  | .put item => table.putItem item.toJson
  | .delete key => { table with items := table.items.erase key }

def answerJson (table : Table) : TableRequest → Value
  | .get key =>
      match table.items.find? key with
      | some item => .object [("Item", item)]
      | none => .object []
  | _ => .object []

def answer (table : Table) (request : TableRequest) : Except TableFailure (Option Item) :=
  Reply.grantOf request (.ofValue (table.answerJson request))

def note (request : TableRequest) (table : Table) : Table :=
  { table with outgoing := table.outgoing ++ [SentRequest.mk table.name request] }

@[simp] theorem replies_note (request : TableRequest) (table : Table) :
    (table.note request).replies = table.replies := rfl

/-- Makes a request, for which the table must have a name that can be read. -/
def exchange (request : TableRequest) (table : Table) :
    Except TableFailure (Option Item) × Table :=
  if table.name.toList.all Text.isBlank then (.error (.unnamed none), table)
  else
    let noted := table.note request
    match noted.replies with
    | [] => (noted.answer request, noted.apply request)
    | reply :: later => (reply.read request, { noted with replies := later })

def recordOf {α : Type} (read : Item → Except ItemFault α) :
    Except TableFailure (Option Item) → Except Failure (Option α)
  | .error failure => .error (.table failure)
  | .ok none => .ok none
  | .ok (some item) =>
      match read item with
      | .ok record => .ok (some record)
      | .error fault => .error (.item fault)

def granted : Except TableFailure (Option Item) → Except Failure Unit
  | .error failure => .error (.table failure)
  | .ok _ => .ok ()

def putApiKey (record : ApiKeyRecord) (table : Table) : Except Failure Unit × Table :=
  let (answer, table) := table.exchange (.put record.toItem)
  (granted answer, table)

def request : Call → TableRequest
  | .getApiKey code => .get code.apiKeyKey
  | .getState code _ => .get code.stateKey
  | .putState record => .put record.toItem
  | .deleteState code => .delete code.stateKey

/-- What the answer to a call's request means. The table may still hold a state that is expired. -/
def result : (call : Call) → Except TableFailure (Option Item) → Except Failure call.Result
  | .getApiKey _, answer => recordOf ApiKeyRecord.ofItem answer
  | .getState _ now, answer =>
      (recordOf StateRecord.ofItem answer).map fun found =>
        found.filter fun record => !record.isExpired now
  | .putState _, answer => granted answer
  | .deleteState _, answer => granted answer

def perform (call : Call) (table : Table) : Except Failure call.Result × Table :=
  let (answer, table) := table.exchange (request call)
  (result call answer, table)

def backend : Backend Table := ⟨fun _ => 0, perform⟩

def state? (table : Table) (code : Code) : Option StateRecord :=
  (table.items.find? code.stateKey).bind fun value =>
    (Body.itemOf? 0 (.ofValue value)).bind fun item => (StateRecord.ofItem item).toOption

end Table

end WorkoutBoard.Store
