import WorkoutBoard.Store.Failure
import WorkoutBoard.Store.Request

/-!
# Replies of a table

By its status a reply grants a request or tells of a failure. The namespace `Body` says what the
body of either must be: an object whose members of certain names hold what belongs there, while all
other members may hold anything that can be passed over. A body that is nothing of the kind is a
failure without a name.
-/

namespace WorkoutBoard.Store

open Json (Document Spelling)

namespace Body

/-- Containers may lie this deep in one another, the body itself among them, unless they are passed
over. -/
def deepest : Nat := 128

/-- The body that bytes spell. In a deeper one there is always a part that is too deep. -/
def ofBytes? (bytes : List UInt8) : Option Document :=
  Document.ofBytes? (deepest + Document.deepestIgnored) bytes

def orNull (holds : Document → Bool) : Document → Bool
  | .null => true
  | value => holds value

def isText (value : Document) : Bool := value.text?.isSome

def magnitude? (text : String) : Option Numeric.Magnitude :=
  (Numeric.Magnitude.ofChars text.toList).toOption

def isNumber : Document → Bool
  | .number written => (magnitude? written).any Numeric.Magnitude.isFinite
  | .text spelling => (spelling.text?.bind magnitude?).any fun magnitude => !magnitude.isFinite
  | _ => false

def isListOf (holds : Document → Bool) : Document → Bool
  | .list elements => elements.all holds
  | _ => false

def isMapOf (holds : Document → Bool) (value : Document) : Bool :=
  value.members?.any fun members => members.all fun member => holds member.2

def isRecord (fields : List (String × (Document → Bool))) (value : Document) : Bool :=
  value.members?.any fun members => members.all fun member =>
    ((fields.lookup member.1).getD Document.isIgnorable) member.2

/-- The item in a member of the body, or of an object that lies `outer` containers deeper. -/
def itemOf? (outer : Nat) (value : Document) : Option Item :=
  Item.ofDocument? (deepest - 1 - outer) value

def isItem (outer : Nat) (value : Document) : Bool := (itemOf? outer value).isSome

def unitCounts : List (String × (Document → Bool)) :=
  [("CapacityUnits", orNull isNumber), ("ReadCapacityUnits", orNull isNumber),
    ("WriteCapacityUnits", orNull isNumber)]

def byteCounts : List (String × (Document → Bool)) :=
  [("VectorSearchRequestBytes", orNull isNumber), ("VectorWriteRequestBytes", orNull isNumber)]

def isConsumption : Document → Bool :=
  isRecord (("TableName", orNull isText) :: ("Table", orNull (isRecord unitCounts)) ::
    ("LocalSecondaryIndexes", orNull (isMapOf (isRecord unitCounts))) ::
    ("GlobalSecondaryIndexes", orNull (isMapOf (isRecord unitCounts))) ::
    ("VectorIndexes", orNull (isMapOf (isRecord byteCounts))) :: unitCounts)

def isGroupSize : Document → Bool :=
  isRecord [("ItemCollectionKey", orNull (isItem 1)),
    ("SizeEstimateRangeGB", orNull (isListOf isNumber))]

def isGrant : TableRequest → Document → Bool
  | .get _ => isRecord [("Item", orNull (isItem 0)), ("ConsumedCapacity", orNull isConsumption)]
  | _ =>
      isRecord [("Attributes", orNull (isItem 0)), ("ConsumedCapacity", orNull isConsumption),
        ("ItemCollectionMetrics", orNull isGroupSize)]

def isReasons : Document → Bool :=
  isListOf (isRecord [("reason", orNull isText), ("resource", orNull isText)])

def messageName (code : String) : String :=
  if code = "InvalidEndpointException" then "Message" else "message"

def details (code : String) : List (String × (Document → Bool)) :=
  if code = "ThrottlingException" then [("throttlingReasons", orNull isReasons)]
  else if code = "ProvisionedThroughputExceededException" ∨ code = "RequestLimitExceeded" then
    [("ThrottlingReasons", orNull isReasons)]
  else if code = "ConditionalCheckFailedException" then [("Item", orNull (isItem 0))]
  else []

def isFailure (code : String) : Document → Bool :=
  isRecord ((messageName code, orNull isText) :: details code)

end Body

/-- What comes over the network: a status and a body, or the end of the connection. -/
inductive Reply where
  | answered (status : Nat) (body : List UInt8)
  | disconnected

namespace Reply

/-- The last string under names that are spelled in one of the given ways, if there is one. All of
these strings must stand for a text. -/
def told? (names : List String) (members : List (Spelling × Document)) :
    Option (Option String) :=
  let spellings := members.filterMap fun member =>
    match member.2 with
    | .text spelling => if names.contains member.1.written then some spelling else none
    | _ => none
  (spellings.mapM Spelling.text?).map List.getLast?

def bareCode (code : String) : String :=
  let beforeColon := code.toList.takeWhile (· != ':')
  match beforeColon.dropWhile (· != '#') with
  | [] => String.ofList beforeColon
  | _ :: bare => String.ofList bare

example :
    bareCode "service#Busy:http://host" = "Busy" ∧ bareCode "http://host#Busy" = "http" := by
  decide +kernel

def ownMessage? (code : String) (document : Document) : Option String := do
  let members ← document.members?
  let value ← Json.lastMember? (Body.messageName code) members
  value.text?

/-- The failure that an object tells of, if it can be read. Whatever else it holds is passed over
before the failure is known. -/
def failureOf? (request : TableRequest) (members : List (Spelling × Document)) :
    Option TableFailure := do
  guard (members.all fun member => member.2.isIgnorable)
  let code ← told? ["code"] members
  let type ← told? ["__type"] members
  let message ← told? ["message", "Message", "errorMessage"] members
  match code <|> type with
  | none => none
  | some fullCode =>
      let code := bareCode fullCode
      if request.declares code then
        if Body.isFailure code (.object members) then
          some (.named code (ownMessage? code (.object members) <|> message))
        else none
      else some (.unnamed (some code))

def failure (request : TableRequest) (body : List UInt8) : TableFailure :=
  match Body.ofBytes? body with
  | some (.object members) => (failureOf? request members).getD (.unnamed none)
  | _ => .unnamed none

def itemOf? (request : TableRequest) (document : Document) : Option Item :=
  match request with
  | .get _ => (document.members?.bind (Json.lastMember? "Item")).bind (Body.itemOf? 0)
  | _ => none

def grantOf (request : TableRequest) (document : Document) : Except TableFailure (Option Item) :=
  if Body.isGrant request document then .ok (itemOf? request document)
  else .error (.unnamed none)

def grant (request : TableRequest) (body : List UInt8) : Except TableFailure (Option Item) :=
  if body.isEmpty then .ok none
  else
    match Body.ofBytes? body with
    | some document => grantOf request document
    | none => .error (.unnamed none)

def isGranted (status : Nat) : Bool := 200 ≤ status && status < 300

def read (request : TableRequest) : Reply → Except TableFailure (Option Item)
  | .disconnected => .error (.unnamed none)
  | .answered status body =>
      if isGranted status then grant request body else .error (failure request body)

end Reply

end WorkoutBoard.Store
