import WorkoutBoard.Store.Attribute

/-!
# Requests to a table

An item is read, put or deleted by its key. Every request declares by their codes the failures that
its answer may tell of. It goes out with the name of the table that it is for.
-/

namespace WorkoutBoard.Store

open Json (Value)

inductive TableRequest where
  | get (key : String)
  | put (item : Item)
  | delete (key : String)

namespace TableRequest

def name : TableRequest → String
  | .get _ => "GetItem"
  | .put _ => "PutItem"
  | .delete _ => "DeleteItem"

def keyJson (key : String) : Value := .object [("key", (Attribute.text key).toJson)]

def toJson (tableName : String) : TableRequest → Value
  | .get key => .object [("Key", keyJson key), ("TableName", .text tableName)]
  | .put item => .object [("Item", item.toJson), ("TableName", .text tableName)]
  | .delete key => .object [("Key", keyJson key), ("TableName", .text tableName)]

def commonFailures : List String :=
  ["InternalServerError", "InvalidEndpointException", "ProvisionedThroughputExceededException",
    "RequestLimitExceeded", "ResourceNotFoundException", "ThrottlingException"]

def writeFailures : List String :=
  ["ConditionalCheckFailedException", "ItemCollectionSizeLimitExceededException",
    "ReplicatedWriteConflictException", "TransactionConflictException"]

def declares (request : TableRequest) (code : String) : Bool :=
  match request with
  | .get _ => commonFailures.contains code
  | _ => commonFailures.contains code || writeFailures.contains code

end TableRequest

structure SentRequest where
  tableName : String
  request : TableRequest

namespace SentRequest

def message (sent : SentRequest) : String × Value :=
  (sent.request.name, sent.request.toJson sent.tableName)

end SentRequest

end WorkoutBoard.Store
