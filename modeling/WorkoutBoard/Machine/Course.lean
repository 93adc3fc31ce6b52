import WorkoutBoard.Text.Utf8

/-!
# Courses of a machine

What a machine comes to that works on bytes by their positions and on numbers in words. A step that
it cannot make traps it: there is no such position, a text would be cut inside a character, or a
number does not fit in its word. A `Course` keeps this apart from the refusal of an input.
-/

namespace WorkoutBoard.Machine

inductive Trap where
  | noSuchPosition
  | insideCharacter
  | outsideWord
  | tooManyDigits
deriving DecidableEq, Repr

inductive Course (α : Type) where
  | value (result : α)
  | refused
  | trapped (trap : Trap)
deriving DecidableEq, Repr

namespace Course

variable {α β : Type}

def andThen : Course α → (α → Course β) → Course β
  | .value result, next => next result
  | .refused, _ => .refused
  | .trapped trap, _ => .trapped trap

instance : Monad Course where
  pure := .value
  bind := andThen

def ofOption : Option α → Course α
  | some result => .value result
  | none => .refused

/-! How courses go on. -/

@[simp] theorem pure_eq_value (result : α) : (pure result : Course α) = .value result := rfl

@[simp] theorem value_bind (result : α) (next : α → Course β) :
    (Course.value result >>= next) = next result := rfl

@[simp] theorem refused_bind (next : α → Course β) :
    ((Course.refused : Course α) >>= next) = .refused := rfl

@[simp] theorem ofOption_some (result : α) : ofOption (some result) = .value result := rfl

@[simp] theorem ofOption_none : ofOption (none : Option α) = .refused := rfl

theorem bind_assoc {γ : Type} (course : Course α) (next : α → Course β) (last : β → Course γ) :
    (course >>= next >>= last) = course >>= fun result => next result >>= last := by
  cases course <;> rfl

end Course

/-! ## Positions -/

def byteAt (bytes : List UInt8) (position : Nat) : Course UInt8 :=
  match bytes[position]? with
  | some byte => .value byte
  | none => .trapped .noSuchPosition

def bytesFrom (bytes : List UInt8) (start : Nat) : Course (List UInt8) :=
  if start ≤ bytes.length then .value (bytes.drop start) else .trapped .noSuchPosition

def bytesUpTo (bytes : List UInt8) (stop : Nat) : Course (List UInt8) :=
  if stop ≤ bytes.length then .value (bytes.take stop) else .trapped .noSuchPosition

def slice? (bytes : List UInt8) (start stop : Nat) : Option (List UInt8) :=
  if start ≤ stop ∧ stop ≤ bytes.length then some ((bytes.take stop).drop start) else none

/-! ## Texts -/

def width (character : Char) : Nat := (Text.Utf8.encodeChar character).length

def cut? : Nat → List Char → Option (List Char × List Char)
  | 0, text => some ([], text)
  | _ + 1, [] => none
  | offset + 1, character :: rest =>
      if width character ≤ offset + 1 then
        (cut? (offset + 1 - width character) rest).map fun parts =>
          (character :: parts.1, parts.2)
      else none

/-- The same parts of a text whose character must end there. -/
def cut (offset : Nat) (text : List Char) : Course (List Char × List Char) :=
  match cut? offset text with
  | some parts => .value parts
  | none => .trapped .insideCharacter

/-! ## Words -/

def word (value : Nat) : Course Nat :=
  if value < 2 ^ 32 then .value value else .trapped .outsideWord

def minus (left right : Nat) : Course Nat :=
  if right ≤ left then .value (left - right) else .trapped .outsideWord

def longWord (value : Int) : Course Int :=
  if -2 ^ 63 ≤ value ∧ value < 2 ^ 63 then .value value else .trapped .outsideWord

end WorkoutBoard.Machine
