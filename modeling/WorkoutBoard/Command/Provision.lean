import WorkoutBoard.Command.Arguments
import WorkoutBoard.Command.Host
import WorkoutBoard.Store.Table

/-!
# Provisioning a key

The program that stores the key of one code in the table. Without `--key` the key is made of random
bytes. Nothing is sent unless the environment and the arguments are complete.
-/

namespace WorkoutBoard.Command

open Store (Failure Table)
open Workout (ApiKeyRecord Code)

inductive Incomplete where
  | tableName
  | code
  | emptyKey
deriving DecidableEq, Repr

def Incomplete.message : Incomplete → String
  | .tableName => "CACHE_TABLE_NAME environment variable must be set"
  | .code => "--code is mandatory"
  | .emptyKey => "--key must not be empty"

def keyOfBytes (bytes : List UInt8) : String :=
  let digit (value : Nat) : Char :=
    if value < 10 then Char.ofNat (0x30 + value) else Char.ofNat (0x61 + (value - 10))
  String.ofList (bytes.flatMap fun byte => [digit (byte.toNat / 16), digit (byte.toNat % 16)])

structure Provision where
  tableName : String
  code : Code
  record : ApiKeyRecord
deriving DecidableEq, Repr

def chosenTable : Option String → Except Incomplete String
  | none => .error .tableName
  | some name => if name.isEmpty then .error .tableName else .ok name

def chosenCode : Option String → Except Incomplete Code
  | none => .error .code
  | some text => .ok ⟨text⟩

def chosenKey (random : List UInt8) : Option String → Except Incomplete String
  | none => .ok (keyOfBytes random)
  | some key => if key.isEmpty then .error .emptyKey else .ok key

def Provision.prepare (tableName : Option String) (arguments : Arguments) (random : List UInt8)
    (now : Int64) : Except Incomplete Provision := do
  let table ← chosenTable tableName
  let code ← chosenCode arguments.code
  let key ← chosenKey random arguments.key
  return ⟨table, code, { ApiKeyRecord.ofKey code key with
    description := arguments.description, createdAt := some now }⟩

/-- Stores a record. What cannot be reached fails like a connection that breaks. -/
def storeKey (host : Host) (record : ApiKeyRecord) (table : Table) :
    Except Failure Unit × Table :=
  match host.connectFault with
  | some _ => (.error (.table (.unnamed none)), table)
  | none => table.putApiKey record

def Provision.outcome (provision : Provision) : Except Failure Unit → Outcome
  | .ok () =>
      ⟨0, "API key for " ++ provision.code.text ++ ": " ++ provision.record.apiKey ++ "\n", ""⟩
  | .error failure => .failed ("Failed to store API key in DynamoDB: " ++ failure.message)

def provisionKey (host : Host) (tableName : Option String) (arguments : List String)
    (random : List UInt8) (now : Int64) (table : Table) : Outcome × Table :=
  match Provision.prepare tableName (.ofList arguments) random now with
  | .error incomplete => (.failed incomplete.message, table)
  | .ok provision =>
      let (answer, table) :=
        storeKey host provision.record (table.withName provision.tableName)
      (provision.outcome answer, table)

end WorkoutBoard.Command
