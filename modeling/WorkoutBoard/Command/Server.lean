import WorkoutBoard.Command.Host
import WorkoutBoard.Config.Environment
import WorkoutBoard.Service.Serve
import WorkoutBoard.Store.Table

/-!
# The server

The program that answers requests over a table. It stops with an error if its environment is
unusable or it cannot listen at its address, and otherwise runs until it is told to stop.
-/

namespace WorkoutBoard.Command

open Config (Environment Settings)
open Http (Request Response)
open Store (Table)

def serviceOptions (settings : Settings) : Service.Options :=
  ⟨settings.origins, settings.requestTimeout.toNanos⟩

/-- The settings of a server that has begun to listen, or the end of one that could not. -/
def start (host : Host) (environment : Environment) : Except Outcome Settings :=
  match Settings.ofEnvironment environment with
  | .error fault => .error (.failed ("Invalid configuration: " ++ fault.message))
  | .ok settings =>
      match host.bindFault settings.listenAddress with
      | some fault =>
          .error (.failed
            ("Failed to bind " ++ settings.listenAddress.text ++ ": " ++ fault.message))
      | none => .ok settings

def stopped : Outcome := ⟨0, "", ""⟩

/-- What one client gets: the answer to its request, or no connection. The table is asked by the
name in the settings. -/
def visit (host : Host) (settings : Settings) (now : Int64) (request : Request) (table : Table) :
    Except NetworkFault Response × Table :=
  match host.connectFault with
  | some fault => (.error fault, table)
  | none =>
      let (response, table) :=
        Service.serve (serviceOptions settings) Table.backend now request
          (table.withName settings.tableName)
      (.ok response, table)

def visitAll (host : Host) (settings : Settings) (now : Int64) :
    List Request → Table → List (Except NetworkFault Response) × Table
  | [], table => ([], table)
  | request :: later, table =>
      let (reply, table) := visit host settings now request table
      let (replies, table) := visitAll host settings now later table
      (reply :: replies, table)

def runServer (host : Host) (environment : Environment) (now : Int64) (requests : List Request)
    (table : Table) : Outcome × List (Except NetworkFault Response) × Table :=
  match start host environment with
  | .error outcome => (outcome, [], table)
  | .ok settings =>
      let (replies, table) := visitAll host settings now requests table
      (stopped, replies, table)

end WorkoutBoard.Command
