import Std.Time.DateTime.Timestamp
import WorkoutBoard.Command.Provision
import WorkoutBoard.Command.Server

/-!
# Command line

`add-api-key` provisions a key, and `serve` runs a server whose clients write one request a line: a
method, a target and a body. Both take their settings from the environment.
-/

namespace WorkoutBoard

def currentTime : IO Int64 := do
  let timestamp ← Std.Time.Timestamp.now
  return Int64.ofInt timestamp.toSecondsSinceUnixEpoch.val

def settingNames : List String :=
  ["CACHE_TABLE_NAME", "CORS_ORIGIN", "LISTEN_ADDR", "REQUEST_TIMEOUT", "LOG_FORMAT"]

def processEnvironment : IO Config.Environment := do
  let values ← settingNames.mapM fun name => do return (name, ← IO.getEnv name)
  return fun name => (values.lookup name).join

def requestOfLine (line : String) : Http.Request :=
  match line.trimAscii.toString.splitOn " " with
  | [] => ⟨"", "", [], []⟩
  | [method] => ⟨method, "", [], []⟩
  | method :: target :: body => ⟨method, target, [], Text.Utf8.bytes (" ".intercalate body)⟩

partial def serveLines (settings : Config.Settings) (table : Store.Table) : IO Unit := do
  let line ← (← IO.getStdin).getLine
  if line.isEmpty then return
  let (response, table) := Service.serve (Command.serviceOptions settings) Store.Table.backend
    (← currentTime) (requestOfLine line) table
  IO.println (Text.Decimal.ofNat response.status ++ " " ++ response.body)
  serveLines settings table

def conclude (outcome : Command.Outcome) : IO UInt32 := do
  IO.print outcome.output
  IO.eprint outcome.errors
  return outcome.exitCode.toUInt32

/-- Provisions a key from a host without a network. -/
def addApiKey (arguments : List String) : IO UInt32 := do
  let random ← IO.getRandomBytes 32
  let (outcome, _) := Command.provisionKey .isolated (← IO.getEnv "CACHE_TABLE_NAME") arguments
    random.toList (← currentTime) (.empty "")
  conclude outcome

def runServer : IO UInt32 := do
  match Command.start .isolated (← processEnvironment) with
  | .error outcome => conclude outcome
  | .ok settings =>
      serveLines settings (.empty settings.tableName)
      conclude Command.stopped

def explainUsage : IO UInt32 := do
  IO.eprintln "usage: serve | add-api-key --code CODE [--key KEY] [--description TEXT]"
  return 1

end WorkoutBoard

def main : List String → IO UInt32
  | "add-api-key" :: arguments => WorkoutBoard.addApiKey arguments
  | ["serve"] => WorkoutBoard.runServer
  | _ => WorkoutBoard.explainUsage
