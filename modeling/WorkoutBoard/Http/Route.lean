import WorkoutBoard.Text.Percent

/-!
# Routes

The path of a request's target is split at its slashes as it is written. Only the parts that a route
names are then unescaped, so that an escaped slash does not split.
-/

namespace WorkoutBoard.Http

namespace Target

def beforeQuery (target : List Char) : List Char :=
  target.takeWhile fun character => character != '?' && character != '#'

def afterScheme? : List Char → Option (List Char)
  | ':' :: '/' :: '/' :: rest => some rest
  | [] => none
  | _ :: rest => afterScheme? rest

/-- The path of a target. A full address without a path means `/`, and an authority alone has no
path. -/
def path (target : String) : List Char :=
  let text := beforeQuery target.toList
  match text with
  | '/' :: _ => text
  | ['*'] => text
  | _ =>
      match afterScheme? text with
      | none => []
      | some address =>
          match address.dropWhile (· != '/') with
          | [] => ['/']
          | path => path

end Target

def segments : List Char → List (List Char)
  | [] => [[]]
  | character :: rest =>
      if character = '/' then [] :: segments rest
      else
        match segments rest with
        | [] => [[character]]
        | first :: later => (character :: first) :: later

inductive Route where
  | index
  | readState (code : List Char)
  | keylessWrite (code : List Char)
  | writeState (code key : List Char)
deriving DecidableEq, Repr

namespace Route

def root : List Char := "workout-state".toList

/-- A code at the end of a path is not empty; one before a slash may be. -/
def ofPath? (path : List Char) : Option Route :=
  match segments path with
  | [[], []] => some .index
  | [[], first, code] => if first = root ∧ code ≠ [] then some (.readState code) else none
  | [[], first, code, key] =>
      if first ≠ root then none
      else if key = [] then some (.keylessWrite code)
      else some (.writeState code key)
  | _ => none

def writePath (code key : String) : List Char :=
  '/' :: (root ++ '/' :: (Text.Percent.encode code ++ '/' :: Text.Percent.encode key))

def readPath (code : String) : List Char := '/' :: (root ++ '/' :: Text.Percent.encode code)

def isRead : Route → Bool
  | .index => true
  | .readState _ => true
  | .keylessWrite _ => false
  | .writeState _ _ => false

def allowed (route : Route) : String := if route.isRead then "GET,HEAD" else "POST"

def allows (route : Route) (method : String) : Bool :=
  if route.isRead then method == "GET" || method == "HEAD" else method == "POST"

/-- An empty code is reached with a slash after it, and only for writing. -/
example :
    ofPath? "/workout-state//k".toList = some (.writeState [] ['k']) ∧
      ofPath? "/workout-state/".toList = none := by
  decide +kernel

end Route

end WorkoutBoard.Http
