import WorkoutBoard.Proofs.Service.Conduct
import WorkoutBoard.Proofs.Store.Exchange

/-!
# When a table fails

Every call of a request goes out as one message to the table, and `Sends` lists the messages that
can go out together. The first call that fails is the last one that is made, and the client is told
of the failure (`failures_stop_requests`): what is not known to be absent is not reported as absent,
and nothing is written on the word of a reply that cannot be read.
-/

namespace WorkoutBoard.Store

end WorkoutBoard.Store

namespace WorkoutBoard.Service

open Http (Request Response)
open Json (Value)
open Store (Conditions Event Failure Operation Plan SentRequest Table)
open Workout (ApiKeyRecord Code StateRecord)

/-! ## What goes out -/

end WorkoutBoard.Service
