import WorkoutBoard.Config.Duration
import WorkoutBoard.Config.SocketAddress
import WorkoutBoard.Http.Origin
import WorkoutBoard.Text.Quoted

/-!
# The configuration of the server

The settings are read from environment variables in a fixed order, and the first one that is missing
or unusable is told. Every variable but the name of the table has a standard value.
-/

namespace WorkoutBoard.Config

inductive LogFormat where
  | pretty
  | json
deriving DecidableEq, Repr

structure Settings where
  tableName : String
  origins : Http.OriginPolicy
  listenAddress : SocketAddress
  requestTimeout : Duration
  logFormat : LogFormat
deriving DecidableEq, Repr

inductive Reason where
  | header
  | address
  | duration
  | logFormat
deriving DecidableEq, Repr

def Reason.message : Reason → String
  | .header => "failed to parse header value"
  | .address => "invalid socket address syntax"
  | .duration => "expected a positive duration such as 10s"
  | .logFormat => "expected \"pretty\" or \"json\""

inductive Fault where
  | missing (name : String)
  | invalid (name value : String) (reason : Reason)
deriving DecidableEq, Repr

def Fault.message : Fault → String
  | .missing name => name ++ " environment variable must be set"
  | .invalid name value reason =>
      "invalid " ++ name ++ " value " ++ Text.Quoted.encode value ++ ": " ++ reason.message

abbrev Environment := String → Option String

def setting {α : Type} (environment : Environment) (name : String) (standard : α)
    (reason : Reason) (read : String → Option α) : Except Fault α :=
  match environment name with
  | none => .ok standard
  | some value =>
      match read value with
      | some result => .ok result
      | none => .error (.invalid name value reason)

def tableName (environment : Environment) : Except Fault String :=
  match environment "CACHE_TABLE_NAME" with
  | none => .error (.missing "CACHE_TABLE_NAME")
  | some name => if name.isEmpty then .error (.missing "CACHE_TABLE_NAME") else .ok name

def isHeaderCharacter (character : Char) : Bool :=
  character == '\t' || (0x20 ≤ character.toNat && character.toNat != 0x7F)

def origins? (value : String) : Option Http.OriginPolicy :=
  if value = "*" then some .any
  else if value.toList.all isHeaderCharacter then some (.exact value)
  else none

def logFormat? (value : String) : Option LogFormat :=
  if value = "pretty" then some .pretty
  else if value = "json" then some .json
  else none

def standardAddress : SocketAddress := .version4 [0, 0, 0, 0] 8080

namespace Settings

def ofEnvironment (environment : Environment) : Except Fault Settings := do
  let tableName ← Config.tableName environment
  let origins ← setting environment "CORS_ORIGIN" .any .header origins?
  let listenAddress ←
    setting environment "LISTEN_ADDR" standardAddress .address SocketAddress.ofText?
  let requestTimeout ←
    setting environment "REQUEST_TIMEOUT" (.ofSeconds 10) .duration Duration.timeout?
  let logFormat ← setting environment "LOG_FORMAT" .pretty .logFormat logFormat?
  return ⟨tableName, origins, listenAddress, requestTimeout, logFormat⟩

end Settings

end WorkoutBoard.Config
