/-!
# Workout codes

A code names a workout; any text is one, the empty text included. It is only used to derive the
two storage keys of the workout.
-/

namespace WorkoutBoard.Workout

structure Code where
  text : String
deriving DecidableEq, Repr

namespace Code

def stateKey (code : Code) : String := "workout-state:" ++ code.text

def apiKeyKey (code : Code) : String := "api-key:" ++ code.text

theorem append_injective_right {front left right : String}
    (equal : front ++ left = front ++ right) : left = right := by
  have lists := congrArg String.toList equal
  rw [String.toList_append, String.toList_append] at lists
  exact String.toList_injective (List.append_cancel_left lists)

theorem stateKey_injective {left right : Code} (equal : left.stateKey = right.stateKey) :
    left = right := by
  cases left
  cases right
  exact congrArg Code.mk (append_injective_right equal)

theorem apiKeyKey_injective {left right : Code} (equal : left.apiKeyKey = right.apiKeyKey) :
    left = right := by
  cases left
  cases right
  exact congrArg Code.mk (append_injective_right equal)

theorem stateKey_ne_apiKeyKey (left right : Code) : left.stateKey ≠ right.apiKeyKey := by
  intro equal
  have lists := congrArg (fun text => text.toList.head?) equal
  simp [stateKey, apiKeyKey, String.toList_append] at lists

end Code

end WorkoutBoard.Workout
