import WorkoutBoard.Numeric.Binary64

/-!
# JSON values
-/

namespace WorkoutBoard.Json

inductive Number where
  | integer (value : Int)
  | real (negative : Bool) (magnitude : Numeric.Binary64)
deriving DecidableEq, Repr

/-- A value. The members of an object stand in their written order, and names may repeat. -/
inductive Value where
  | null
  | boolean (value : Bool)
  | number (value : Number)
  | text (value : String)
  | list (elements : List Value)
  | object (members : List (String × Value))
deriving Inhabited

/-- What an object holds under a name: of repeated members the last one counts. -/
def lastMember? {α : Type} (name : String) (members : List (String × α)) : Option α :=
  (members.reverse.find? fun member => member.1 == name).map Prod.snd

end WorkoutBoard.Json
