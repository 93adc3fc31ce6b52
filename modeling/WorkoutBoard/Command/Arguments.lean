/-!
# Arguments

The options `--code`, `--key` and `--description`, each with the argument after it as its value,
whatever that looks like. Other arguments are ignored, the last use of an option counts, and an
option at the end has no value.
-/

namespace WorkoutBoard.Command

inductive Flag where
  | code
  | key
  | description
deriving DecidableEq, Repr

namespace Flag

def text : Flag → String
  | .code => "--code"
  | .key => "--key"
  | .description => "--description"

def ofText? (argument : String) : Option Flag :=
  if argument = Flag.code.text then some .code
  else if argument = Flag.key.text then some .key
  else if argument = Flag.description.text then some .description
  else none

end Flag

/-- The value of each option that has one. -/
structure Arguments where
  code : Option String
  key : Option String
  description : Option String
deriving DecidableEq, Repr

namespace Arguments

def empty : Arguments := ⟨none, none, none⟩

def assign (arguments : Arguments) (flag : Flag) (value : Option String) : Arguments :=
  match flag with
  | .code => { arguments with code := value }
  | .key => { arguments with key := value }
  | .description => { arguments with description := value }

def extend : Arguments → List String → Arguments
  | arguments, [] => arguments
  | arguments, [last] =>
      match Flag.ofText? last with
      | some flag => arguments.assign flag none
      | none => arguments
  | arguments, first :: second :: rest =>
      match Flag.ofText? first with
      | some flag => extend (arguments.assign flag (some second)) rest
      | none => extend arguments (second :: rest)

def ofList (list : List String) : Arguments := empty.extend list

example : ofList ["--code", "--key", "x", "--code", "a"] = ⟨some "a", none, none⟩ := by
  decide +kernel

/-- An option at the end takes its earlier value away. -/
example : ofList ["--key", "k", "--key"] = ⟨none, none, none⟩ := by decide +kernel

end Arguments

end WorkoutBoard.Command
