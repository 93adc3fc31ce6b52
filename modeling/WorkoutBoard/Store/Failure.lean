import WorkoutBoard.Numeric.Magnitude

/-!
# Failures of a store

A call fails because the table refuses it or does not answer, because an item is no record, or
because the store cannot be reached.
-/

namespace WorkoutBoard.Store

/-- Why a table did not do what was asked. A named failure is one that the operation declares. -/
inductive TableFailure where
  | named (code : String) (message : Option String)
  | unnamed (code : Option String)
deriving DecidableEq, Repr

def TableFailure.message : TableFailure → String
  | .named code none => code
  | .named code (some message) => code ++ ": " ++ message
  | .unnamed none => "unhandled error"
  | .unnamed (some code) => "unhandled error (" ++ code ++ ")"

inductive ItemFault where
  | expectedText
  | expectedNumber
  | expectedMap
  | expectedNothing
  | notAnInteger (text : String) (fault : Text.Decimal.Fault)
  | notANumber (text : String) (fault : Numeric.Magnitude.Fault)
  | missingField (name : String)
  | emptyState
deriving DecidableEq, Repr

def ItemFault.message : ItemFault → String
  | .expectedText => "Expected string"
  | .expectedNumber => "Expected num"
  | .expectedMap => "Expected map"
  | .expectedNothing => "Expected unit"
  | .notAnInteger text fault =>
      "Failed to parse '" ++ text ++ "' as an integer: " ++ fault.message
  | .notANumber text fault => "Failed to parse '" ++ text ++ "' as a float: " ++ fault.message
  | .missingField name => "missing field `" ++ name ++ "`"
  | .emptyState => "invalid length 0, expected struct WorkoutState with 1 element"

inductive Failure where
  | table (failure : TableFailure)
  | item (fault : ItemFault)
  | unavailable (message : String)
deriving DecidableEq, Repr

def Failure.message : Failure → String
  | .table failure => "DynamoDB error: " ++ failure.message
  | .item fault => "Serialization error: " ++ fault.message
  | .unavailable message => "Store unavailable: " ++ message

end WorkoutBoard.Store
