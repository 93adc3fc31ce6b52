import WorkoutBoard.Text.Decimal

/-!
# Socket addresses

A network address of version four or six and a port. `ofText?` reads `a.b.c.d:port` and
`[groups%scope]:port`, where `::` stands for one or more zero groups and the last two groups may be
written as four octets. `text` writes the longest run of at least two zero groups as `::`.
-/

namespace WorkoutBoard.Config

inductive SocketAddress where
  | version4 (octets : List Nat) (port : Nat)
  | version6 (groups : List Nat) (scope port : Nat)
deriving DecidableEq, Repr

namespace SocketAddress

def digit? (base : Nat) (character : Char) : Option Nat :=
  let value :=
    if '0' ≤ character ∧ character ≤ '9' then some (character.toNat - '0'.toNat)
    else if 'a' ≤ character ∧ character ≤ 'f' then some (character.toNat - 'a'.toNat + 10)
    else if 'A' ≤ character ∧ character ≤ 'F' then some (character.toNat - 'A'.toNat + 10)
    else none
  value.filter fun value => value < base

def isDigit (base : Nat) (character : Char) : Bool := (digit? base character).isSome

def number? (base high : Nat) (text : List Char) : Option (Nat × Nat × List Char) :=
  let digits := (text.takeWhile (isDigit base)).filterMap (digit? base)
  let value := digits.foldl (fun value digit => value * base + digit) 0
  if digits.isEmpty || high < value then none
  else some (value, digits.length, text.dropWhile (isDigit base))

def after? (character : Char) : List Char → Option (List Char)
  | [] => none
  | first :: rest => if first = character then some rest else none

def octet? (text : List Char) : Option (Nat × List Char) :=
  match number? 10 255 text with
  | none => none
  | some (value, count, rest) =>
      if 3 < count ∨ (1 < count ∧ text.head? = some '0') then none else some (value, rest)

def octets? (text : List Char) : Option (List Nat × List Char) := do
  let (first, rest) ← octet? text
  let (second, rest) ← octet? (← after? '.' rest)
  let (third, rest) ← octet? (← after? '.' rest)
  let (fourth, rest) ← octet? (← after? '.' rest)
  return ([first, second, third, fourth], rest)

def group? (text : List Char) : Option (Nat × List Char) :=
  match number? 16 0xFFFF text with
  | none => none
  | some (value, count, rest) => if 4 < count then none else some (value, rest)

def separated? (isFirst : Bool) (text : List Char) : Option (List Char) :=
  if isFirst then some text else after? ':' text

def embedded? (text : List Char) : Option (List Nat × List Char) :=
  match octets? text with
  | some ([first, second, third, fourth], rest) =>
      some ([first * 256 + second, third * 256 + fourth], rest)
  | _ => none

/-- As many groups as there are, up to a limit; whether they end with four octets; and the rest. -/
def groups : Nat → Bool → List Char → List Nat × Bool × List Char
  | 0, _, text => ([], false, text)
  | more + 1, isFirst, text =>
      match separated? isFirst text with
      | none => ([], false, text)
      | some rest =>
          match if 1 ≤ more then embedded? rest else none with
          | some (last, rest) => (last, true, rest)
          | none =>
              match group? rest with
              | none => ([], false, text)
              | some (value, rest) =>
                  let (later, embedded, rest) := groups more false rest
                  (value :: later, embedded, rest)

/-- Eight groups. The part before `::` may not end with octets, and `::` stands for at least one
group. -/
def eightGroups? (text : List Char) : Option (List Nat × List Char) :=
  let (head, embedded, rest) := groups 8 true text
  if head.length = 8 then some (head, rest)
  else if embedded then none
  else
    match rest with
    | ':' :: ':' :: rest =>
        let (tail, _, rest) := groups (7 - head.length) true rest
        some (head ++ List.replicate (8 - head.length - tail.length) 0 ++ tail, rest)
    | _ => none

def scope? (text : List Char) : Option (Nat × List Char) :=
  match after? '%' text with
  | none => some (0, text)
  | some digits => (number? 10 (2 ^ 32 - 1) digits).map fun (value, _, rest) => (value, rest)

def port? (text : List Char) : Option Nat := do
  let (value, _, rest) ← number? 10 65535 (← after? ':' text)
  if rest.isEmpty then some value else none

def version4? (text : List Char) : Option SocketAddress := do
  let (octets, rest) ← octets? text
  return .version4 octets (← port? rest)

def version6? (text : List Char) : Option SocketAddress := do
  let (groups, rest) ← eightGroups? (← after? '[' text)
  let (scope, rest) ← scope? rest
  return .version6 groups scope (← port? (← after? ']' rest))

def ofText? (text : String) : Option SocketAddress :=
  version4? text.toList <|> version6? text.toList

def joined (mark : String) (numbers : List String) : String := mark.intercalate numbers

def octetsText (octets : List Nat) : String := joined "." (octets.map Text.Decimal.ofNat)

def groupText (group : Nat) : String := String.ofList (Nat.toDigits 16 group)

def groupsText (groups : List Nat) : String := joined ":" (groups.map groupText)

def zerosAhead (groups : List Nat) : Nat := (groups.takeWhile (· == 0)).length

def longestZeros : Nat → List Nat → Nat × Nat
  | place, [] => (place, 0)
  | place, group :: rest =>
      let here := zerosAhead (group :: rest)
      let (laterPlace, later) := longestZeros (place + 1) rest
      if later ≤ here then (place, here) else (laterPlace, later)

/-- The text of eight groups. A version four address within version six shows its octets. -/
def addressText (groups : List Nat) : String :=
  match groups with
  | [0, 0, 0, 0, 0, 0xFFFF, high, low] =>
      "::ffff:" ++ octetsText [high / 256, high % 256, low / 256, low % 256]
  | _ =>
      let (place, length) := longestZeros 0 groups
      if 1 < length then
        groupsText (groups.take place) ++ "::" ++ groupsText (groups.drop (place + length))
      else groupsText groups

def text : SocketAddress → String
  | .version4 octets port => octetsText octets ++ ":" ++ Text.Decimal.ofNat port
  | .version6 groups scope port =>
      "[" ++ addressText groups ++ (if scope = 0 then "" else "%" ++ Text.Decimal.ofNat scope) ++
        "]:" ++ Text.Decimal.ofNat port

example :
    (ofText? "[1:0:2:0:0:0:3:4%5]:80").map text = some "[1:0:2::3:4%5]:80" ∧
      (ofText? "[1:2:3:0:5:6:7:8]:80").map text = some "[1:2:3:0:5:6:7:8]:80" := by
  decide +kernel

example : ofText? "127.0.0.01:80" = none := by decide +kernel

end SocketAddress

end WorkoutBoard.Config
