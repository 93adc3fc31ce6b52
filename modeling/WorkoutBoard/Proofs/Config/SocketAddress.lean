import Mathlib.Data.List.TakeWhile
import WorkoutBoard.Config.SocketAddress

/-!
# How socket addresses are written

Each reader takes as much from the front of a text as belongs to its part, so that what it reads is
spelled by what it has passed, and a spelled part is read if nothing that could belong to it is
next. Together they read exactly the addresses of `Spells` (`ofText?_eq_some_iff`).
-/

namespace WorkoutBoard.Config.SocketAddress

/-! ## Numbers -/

def valueIn (base : Nat) (text : List Char) : Nat :=
  (text.filterMap (digit? base)).foldl (fun value digit => value * base + digit) 0

structure SpellsNumber (base high : Nat) (text : List Char) (value : Nat) : Prop where
  nonempty : text ≠ []
  digits : ∀ digit ∈ text, isDigit base digit = true
  denotes : valueIn base text = value
  fits : value ≤ high

section

variable {base high : Nat} {text rest : List Char} {value count : Nat}

def EndsNumber (base : Nat) (rest : List Char) : Prop :=
  ∀ next ∈ rest.head?, isDigit base next = false

theorem takeWhile_digits (digits : ∀ digit ∈ text, isDigit base digit = true)
    (ends : EndsNumber base rest) :
    (text ++ rest).takeWhile (isDigit base) = text ∧
      (text ++ rest).dropWhile (isDigit base) = rest := by
  rw [List.takeWhile_append_of_pos digits, List.dropWhile_append_of_pos digits]
  cases rest with
  | nil => exact ⟨List.append_nil text, rfl⟩
  | cons next later =>
      have other : ¬isDigit base next = true := Bool.eq_false_iff.mp (ends next rfl)
      rw [List.takeWhile_cons_of_neg other, List.dropWhile_cons_of_neg other]
      exact ⟨List.append_nil text, rfl⟩

theorem number?_append (spells : SpellsNumber base high text value)
    (ends : EndsNumber base rest) :
    number? base high (text ++ rest) = some (value, text.length, rest) := by
  rcases spells with ⟨nonempty, digits, rfl, fits⟩
  rcases takeWhile_digits digits ends with ⟨taken, dropped⟩
  have length : (text.filterMap (digit? base)).length = text.length :=
    List.filterMap_length_eq_length.mpr digits
  have filled : (text.filterMap (digit? base)).isEmpty = false := by
    rw [List.isEmpty_eq_false_iff, ← List.length_pos_iff, length]
    exact List.length_pos_iff.mpr nonempty
  rw [number?, taken, dropped, filled, length, if_neg]
  · rfl
  · rwa [Bool.false_or, decide_eq_true_eq, Nat.not_lt]

theorem spells_of_number? (read : number? base high text = some (value, count, rest)) :
    ∃ written, text = written ++ rest ∧ SpellsNumber base high written value ∧
      count = written.length ∧ EndsNumber base rest := by
  rw [number?] at read
  split at read
  next => cases read
  next found =>
    rw [Bool.or_eq_true, not_or, List.isEmpty_iff, decide_eq_true_eq, Nat.not_lt] at found
    cases read
    have digits : ∀ digit ∈ text.takeWhile (isDigit base), isDigit base digit = true :=
      fun digit inside => List.mem_takeWhile_imp inside
    refine ⟨text.takeWhile (isDigit base), List.takeWhile_append_dropWhile.symm,
      ⟨?_, digits, rfl, found.2⟩, List.filterMap_length_eq_length.mpr digits, ?_⟩
    · intro empty
      rw [empty] at found
      exact found.1 rfl
    · intro next first
      have stopped := List.head?_dropWhile_not (isDigit base) text
      rw [Option.mem_def.mp first] at stopped
      exact stopped

end

theorem isDigit_mono {base larger : Nat} (le : base ≤ larger) {character : Char}
    (digit : isDigit base character = true) : isDigit larger character = true := by
  rw [isDigit, Option.isSome_iff_exists] at digit ⊢
  rcases digit with ⟨value, found⟩
  rw [digit?, Option.filter_eq_some_iff, decide_eq_true_eq] at found
  refine ⟨value, ?_⟩
  rw [digit?, Option.filter_eq_some_iff, decide_eq_true_eq]
  exact ⟨found.1, Nat.lt_of_lt_of_le found.2 le⟩

theorem EndsNumber.mono {base larger : Nat} (le : base ≤ larger) {rest : List Char}
    (ends : EndsNumber larger rest) : EndsNumber base rest := by
  intro next first
  rw [Bool.eq_false_iff]
  intro digit
  have other := ends next first
  rw [isDigit_mono le digit] at other
  cases other

theorem digits_append_inj {base : Nat} {text other rest later : List Char}
    (digits : ∀ digit ∈ text, isDigit base digit = true) (ends : EndsNumber base rest)
    (otherDigits : ∀ digit ∈ other, isDigit base digit = true) (otherEnds : EndsNumber base later)
    (equal : text ++ rest = other ++ later) : text = other ∧ rest = later := by
  rcases takeWhile_digits digits ends with ⟨taken, dropped⟩
  rcases takeWhile_digits otherDigits otherEnds with ⟨otherTaken, otherDropped⟩
  rw [equal, otherTaken] at taken
  rw [equal, otherDropped] at dropped
  exact ⟨taken.symm, dropped.symm⟩

theorem number?_eq_none {base high : Nat} {rest : List Char} (ends : EndsNumber base rest) :
    number? base high rest = none := by
  cases read : number? base high rest with
  | none => rfl
  | some result =>
      rcases result with ⟨value, count, later⟩
      rcases spells_of_number? read with ⟨written, rfl, spells, -, -⟩
      cases written with
      | nil => exact absurd rfl spells.nonempty
      | cons digit more =>
          have isDigit := spells.digits digit List.mem_cons_self
          rw [ends digit rfl] at isDigit
          cases isDigit

theorem after?_eq_some_iff {character : Char} {text rest : List Char} :
    after? character text = some rest ↔ text = character :: rest := by
  cases text with
  | nil => exact ⟨nofun, nofun⟩
  | cons first later =>
      rw [after?, Option.ite_none_right_eq_some, Option.some.injEq, List.cons.injEq]

theorem after?_cons (character : Char) (rest : List Char) :
    after? character (character :: rest) = some rest :=
  if_pos rfl

/-! ## Octets -/

structure SpellsOctet (text : List Char) (value : Nat) : Prop where
  number : SpellsNumber 10 255 text value
  short : text.length ≤ 3
  unpadded : 1 < text.length → text.head? ≠ some '0'

inductive SpellsOctets : List Char → List Nat → Prop where
  | mk {a b c d : List Char} {first second third fourth : Nat} (isFirst : SpellsOctet a first)
      (isSecond : SpellsOctet b second) (isThird : SpellsOctet c third)
      (isFourth : SpellsOctet d fourth) :
      SpellsOctets (a ++ '.' :: (b ++ '.' :: (c ++ '.' :: d))) [first, second, third, fourth]

section

variable {text rest : List Char} {value : Nat} {octets : List Nat}

theorem octet?_append (spells : SpellsOctet text value) (ends : EndsNumber 10 rest) :
    octet? (text ++ rest) = some (value, rest) := by
  rw [octet?, number?_append spells.number ends]
  dsimp only
  rw [if_neg]
  rintro (long | ⟨long, padded⟩)
  · exact absurd spells.short (Nat.not_le.mpr long)
  · cases text with
    | nil => exact spells.number.nonempty rfl
    | cons first later => exact spells.unpadded long padded

theorem spells_of_octet? (read : octet? text = some (value, rest)) :
    ∃ written, text = written ++ rest ∧ SpellsOctet written value ∧ EndsNumber 10 rest := by
  rw [octet?] at read
  split at read
  next => cases read
  next found =>
    split at read
    next => cases read
    next plain =>
      cases read
      rcases spells_of_number? found with ⟨written, rfl, spells, rfl, ends⟩
      rw [not_or, Nat.not_lt, not_and] at plain
      refine ⟨written, rfl, ⟨spells, plain.1, fun long => ?_⟩, ends⟩
      cases written with
      | nil => exact absurd rfl spells.nonempty
      | cons first later => exact plain.2 long

theorem endsNumber_cons {base : Nat} {next : Char} (other : isDigit base next = false)
    (rest : List Char) : EndsNumber base (next :: rest) := by
  rintro _ ⟨⟩
  exact other

theorem octets?_append (spells : SpellsOctets text octets) (ends : EndsNumber 10 rest) :
    octets? (text ++ rest) = some (octets, rest) := by
  rcases spells with ⟨isFirst, isSecond, isThird, isFourth⟩
  have point : isDigit 10 '.' = false := by decide
  simp only [octets?, List.append_assoc, List.cons_append, after?_cons, Option.bind_eq_bind,
    Option.bind_some, octet?_append isFirst (endsNumber_cons point _),
    octet?_append isSecond (endsNumber_cons point _),
    octet?_append isThird (endsNumber_cons point _), octet?_append isFourth ends]
  rfl

theorem spells_of_pointed {α : Type} {next : Nat × List Char → Option α} {result : α}
    (read : (after? '.' text).bind (fun octet => (octet? octet).bind next) = some result) :
    ∃ written value rest, text = '.' :: (written ++ rest) ∧ SpellsOctet written value ∧
      EndsNumber 10 rest ∧ next (value, rest) = some result := by
  rcases Option.bind_eq_some_iff.mp read with ⟨octet, point, readLater⟩
  rcases Option.bind_eq_some_iff.mp readLater with ⟨⟨value, rest⟩, readOctet, readRest⟩
  rcases spells_of_octet? readOctet with ⟨written, rfl, spells, ends⟩
  exact ⟨written, value, rest, after?_eq_some_iff.mp point, spells, ends, readRest⟩

theorem spells_of_octets? (read : octets? text = some (octets, rest)) :
    ∃ written, text = written ++ rest ∧ SpellsOctets written octets ∧ EndsNumber 10 rest := by
  rw [octets?] at read
  rcases Option.bind_eq_some_iff.mp read with ⟨⟨first, afterFirst⟩, readFirst, readOthers⟩
  rcases spells_of_octet? readFirst with ⟨a, rfl, isFirst, -⟩
  rcases spells_of_pointed readOthers with ⟨b, second, afterSecond, rfl, isSecond, -, readLater⟩
  rcases spells_of_pointed readLater with ⟨c, third, afterThird, rfl, isThird, -, readLast⟩
  rcases spells_of_pointed readLast with ⟨d, fourth, afterFourth, rfl, isFourth, ends, result⟩
  cases result
  refine ⟨_, ?_, .mk isFirst isSecond isThird isFourth, ends⟩
  simp only [List.append_assoc, List.cons_append]

end

/-! ## Groups -/

structure SpellsGroup (text : List Char) (value : Nat) : Prop where
  number : SpellsNumber 16 0xFFFF text value
  short : text.length ≤ 4

inductive SpellsGroups : Bool → List Char → List Nat → Prop where
  | last {text : List Char} {value : Nat} (group : SpellsGroup text value) :
      SpellsGroups false text [value]
  | octets {text : List Char} {first second third fourth : Nat}
      (octets : SpellsOctets text [first, second, third, fourth]) :
      SpellsGroups true text [first * 256 + second, third * 256 + fourth]
  | cons {embedded : Bool} {text rest : List Char} {value : Nat} {later : List Nat}
      (group : SpellsGroup text value) (others : SpellsGroups embedded rest later) :
      SpellsGroups embedded (text ++ ':' :: rest) (value :: later)

section

variable {text rest : List Char} {value : Nat}

theorem group?_append (spells : SpellsGroup text value) (ends : EndsNumber 16 rest) :
    group? (text ++ rest) = some (value, rest) := by
  rw [group?, number?_append spells.number ends]
  exact if_neg (Nat.not_lt.mpr spells.short)

theorem spells_of_group? (read : group? text = some (value, rest)) :
    ∃ written, text = written ++ rest ∧ SpellsGroup written value := by
  rw [group?] at read
  split at read
  next => cases read
  next found =>
    split at read
    next => cases read
    next short =>
      cases read
      rcases spells_of_number? found with ⟨written, rfl, spells, rfl, -⟩
      exact ⟨written, rfl, spells, Nat.not_lt.mp short⟩

theorem octets?_of_group (spells : SpellsGroup text value) (ends : EndsNumber 16 rest)
    (noPoint : rest.head? ≠ some '.') : octets? (text ++ rest) = none := by
  cases read : octets? (text ++ rest) with
  | none => rfl
  | some result =>
      rcases result with ⟨octets, later⟩
      rcases spells_of_octets? read with ⟨written, same, ⟨isFirst, -, -, -⟩, -⟩
      have point : isDigit 16 '.' = false := by decide
      rw [List.append_assoc, List.cons_append] at same
      rcases digits_append_inj spells.number.digits ends
        (fun digit inside => isDigit_mono (by decide) (isFirst.number.digits digit inside))
        (endsNumber_cons point _) same with ⟨-, rfl⟩
      exact absurd rfl noPoint

/-- What may follow groups: a scope, the end of the address, or two colons. -/
inductive Stops : List Char → Prop where
  | scope (rest : List Char) : Stops ('%' :: rest)
  | bracket (rest : List Char) : Stops (']' :: rest)
  | zeros (rest : List Char) : Stops (':' :: ':' :: rest)

theorem Stops.ends (stops : Stops rest) : EndsNumber 16 rest ∧ rest.head? ≠ some '.' := by
  cases stops with
  | scope later => exact ⟨endsNumber_cons (by decide) later, nofun⟩
  | bracket later => exact ⟨endsNumber_cons (by decide) later, nofun⟩
  | zeros later => exact ⟨endsNumber_cons (by decide) _, nofun⟩

end

def lead (isFirst : Bool) : List Char := if isFirst then [] else [':']

theorem separated?_lead (isFirst : Bool) (text : List Char) :
    separated? isFirst (lead isFirst ++ text) = some text := by
  cases isFirst with
  | true => rfl
  | false => exact after?_cons ':' text

theorem eq_of_separated? {isFirst : Bool} {text rest : List Char}
    (read : separated? isFirst text = some rest) : text = lead isFirst ++ rest := by
  cases isFirst with
  | true => exact Option.some.inj read
  | false => exact after?_eq_some_iff.mp read

theorem embedded?_eq_none {text : List Char} (read : octets? text = none) :
    embedded? text = none := by
  rw [embedded?, read]

theorem embedded?_append {text rest : List Char} {first second third fourth : Nat}
    (spells : SpellsOctets text [first, second, third, fourth]) (ends : EndsNumber 10 rest) :
    embedded? (text ++ rest) = some ([first * 256 + second, third * 256 + fourth], rest) := by
  rw [embedded?, octets?_append spells ends]

theorem spells_of_embedded? {text rest : List Char} {values : List Nat}
    (read : embedded? text = some (values, rest)) :
    ∃ written, text = written ++ rest ∧ SpellsGroups true written values ∧ values.length = 2 := by
  rw [embedded?] at read
  split at read
  next found =>
    cases read
    rcases spells_of_octets? found with ⟨written, rfl, spells, -⟩
    exact ⟨written, rfl, .octets spells, rfl⟩
  next => cases read

theorem groups_of_ends {isFirst : Bool} {text rest : List Char}
    (separated : separated? isFirst text = some rest) (ends : EndsNumber 16 rest) (limit : Nat) :
    groups limit isFirst text = ([], false, text) := by
  cases limit with
  | zero => rfl
  | succ more =>
      have noOctets : octets? rest = none := by
        rw [octets?, octet?, number?_eq_none (ends.mono (by decide))]
        rfl
      have noGroup : group? rest = none := by rw [group?, number?_eq_none ends]
      rw [groups, separated]
      dsimp only
      rw [embedded?_eq_none noOctets, ite_self, noGroup]

theorem groups_of_stops {rest : List Char} (stops : Stops rest) (limit : Nat) (isFirst : Bool) :
    groups limit isFirst rest = ([], false, rest) := by
  cases isFirst with
  | true => exact groups_of_ends rfl stops.ends.1 limit
  | false =>
      cases stops with
      | scope later => cases limit <;> rfl
      | bracket later => cases limit <;> rfl
      | zeros later =>
          have colon : EndsNumber 16 (':' :: later) := endsNumber_cons (by decide) later
          exact groups_of_ends (separated?_lead false (':' :: later)) colon limit

theorem groups_group {text rest : List Char} {value : Nat} (group : SpellsGroup text value)
    (ends : EndsNumber 16 rest) (noPoint : rest.head? ≠ some '.') (more : Nat) (isFirst : Bool) :
    groups (more + 1) isFirst (lead isFirst ++ (text ++ rest)) =
      (value :: (groups more false rest).1, (groups more false rest).2) := by
  have noOctets := embedded?_eq_none (octets?_of_group group ends noPoint)
  rw [groups, separated?_lead]
  dsimp only
  rw [noOctets, ite_self, group?_append group ends]

theorem groups_append {embedded : Bool} {text rest : List Char} {values : List Nat}
    (spells : SpellsGroups embedded text values) (stops : Stops rest) {limit : Nat}
    (room : values.length ≤ limit) (isFirst : Bool) :
    groups limit isFirst (lead isFirst ++ (text ++ rest)) = (values, embedded, rest) := by
  induction spells generalizing limit isFirst with
  | last group =>
      cases limit with
      | zero => cases room
      | succ more =>
          rcases stops.ends with ⟨ends, noPoint⟩
          rw [groups_group group ends noPoint, groups_of_stops stops]
  | @octets text first second third fourth octets =>
      -- Octets count as two groups, so that there is room for a second one.
      obtain ⟨more, rfl⟩ : ∃ more, limit = more + 2 := Nat.exists_eq_add_of_le' room
      have read := embedded?_append octets (stops.ends.1.mono (by decide : 10 ≤ 16))
      rw [groups, separated?_lead]
      dsimp only
      rw [if_pos (Nat.le_add_left 1 more), read]
  | @cons embedded text others value later group spelled inductive_step =>
      cases limit with
      | zero => cases room
      | succ more =>
          have colon : EndsNumber 16 (':' :: (others ++ rest)) := endsNumber_cons (by decide) _
          have read := inductive_step (Nat.le_of_succ_le_succ room) false
          rw [List.append_assoc, List.cons_append, groups_group group colon nofun]
          rw [lead, if_neg Bool.false_ne_true, List.cons_append, List.nil_append] at read
          rw [read]

theorem spells_of_groups {limit : Nat} {isFirst embedded : Bool} {text rest : List Char}
    {values : List Nat} (read : groups limit isFirst text = (values, embedded, rest)) :
    (values = [] ∧ embedded = false ∧ text = rest) ∨
      ∃ written, text = lead isFirst ++ (written ++ rest) ∧
        SpellsGroups embedded written values ∧ values.length ≤ limit := by
  induction limit generalizing isFirst embedded text rest values with
  | zero =>
      cases read
      exact .inl ⟨rfl, rfl, rfl⟩
  | succ more inductive_step =>
      rw [groups] at read
      split at read
      next =>
        cases read
        exact .inl ⟨rfl, rfl, rfl⟩
      next next separated =>
        obtain rfl := eq_of_separated? separated
        split at read
        next last after found =>
          cases read
          split at found
          next room =>
            rcases spells_of_embedded? found with ⟨written, rfl, spells, two⟩
            exact .inr ⟨written, rfl, spells, by omega⟩
          next => cases found
        next =>
          split at read
          next =>
            cases read
            exact .inl ⟨rfl, rfl, rfl⟩
          next value after found =>
            rcases spells_of_group? found with ⟨written, rfl, group⟩
            rcases later : groups more false after with ⟨others, ended, final⟩
            rw [later] at read
            cases read
            rcases inductive_step later with ⟨rfl, rfl, rfl⟩ | ⟨following, rfl, spells, room⟩
            · exact .inr ⟨written, rfl, .last group, Nat.le_add_left 1 more⟩
            · refine .inr ⟨written ++ ':' :: following, ?_, .cons group spells,
                Nat.succ_le_succ room⟩
              rw [List.append_assoc]
              rfl

/-! ## Addresses -/

def SpellsSide (embedded : Bool) (text : List Char) (values : List Nat) : Prop :=
  (values = [] ∧ embedded = false ∧ text = []) ∨ SpellsGroups embedded text values

/-- All eight groups, or those on both sides of two colons, which stand for at least one zero. Only
the end of an address may be written as octets. -/
inductive SpellsAddress : List Char → List Nat → Prop where
  | full {embedded : Bool} {text : List Char} {values : List Nat}
      (spells : SpellsGroups embedded text values) (eight : values.length = 8) :
      SpellsAddress text values
  | zeros {embedded : Bool} {head tail : List Char} {front back : List Nat}
      (ahead : SpellsSide false head front) (behind : SpellsSide embedded tail back)
      (room : front.length + back.length ≤ 7) :
      SpellsAddress (head ++ ':' :: ':' :: tail)
        (front ++ List.replicate (8 - front.length - back.length) 0 ++ back)

/-- A scope, which is zero if it is left out. -/
inductive SpellsScope : List Char → Nat → Prop where
  | absent : SpellsScope [] 0
  | present {text : List Char} {scope : Nat}
      (number : SpellsNumber 10 (2 ^ 32 - 1) text scope) : SpellsScope ('%' :: text) scope

inductive Spells : List Char → SocketAddress → Prop where
  | version4 {address digits : List Char} {octets : List Nat} {port : Nat}
      (isAddress : SpellsOctets address octets) (isPort : SpellsNumber 10 65535 digits port) :
      Spells (address ++ ':' :: digits) (.version4 octets port)
  | version6 {address zone digits : List Char} {values : List Nat} {scope port : Nat}
      (isAddress : SpellsAddress address values) (isScope : SpellsScope zone scope)
      (isPort : SpellsNumber 10 65535 digits port) :
      Spells ('[' :: (address ++ (zone ++ ']' :: ':' :: digits))) (.version6 values scope port)

section

variable {text rest : List Char} {values : List Nat}

theorem groups_side {embedded : Bool} (spells : SpellsSide embedded text values)
    (stops : Stops rest) {limit : Nat} (room : values.length ≤ limit) :
    groups limit true (text ++ rest) = (values, embedded, rest) := by
  rcases spells with ⟨rfl, rfl, rfl⟩ | spells
  · exact groups_of_stops stops limit true
  · exact groups_append spells stops room true

theorem spells_of_groups_side {limit : Nat} {embedded : Bool}
    (read : groups limit true text = (values, embedded, rest)) :
    ∃ written, text = written ++ rest ∧ SpellsSide embedded written values ∧
      values.length ≤ limit := by
  rcases spells_of_groups read with ⟨rfl, rfl, rfl⟩ | ⟨written, same, spells, room⟩
  · exact ⟨[], rfl, .inl ⟨rfl, rfl, rfl⟩, Nat.zero_le limit⟩
  · exact ⟨written, same, .inr spells, room⟩

theorem eightGroups?_append (spells : SpellsAddress text values) (stops : Stops rest) :
    eightGroups? (text ++ rest) = some (values, rest) := by
  cases spells with
  | full spells eight =>
      have read : groups 8 true (text ++ rest) = _ :=
        groups_append spells stops (Nat.le_of_eq eight) true
      rw [eightGroups?, read]
      exact if_pos eight
  | @zeros embedded head tail front back ahead behind room =>
      have readFront : groups 8 true (head ++ (':' :: ':' :: (tail ++ rest))) = _ :=
        groups_side ahead (.zeros _) (by omega)
      have readBack : groups (7 - front.length) true (tail ++ rest) = _ :=
        groups_side behind stops (by omega)
      have fewer : front.length ≠ 8 := by omega
      rw [List.append_assoc, List.cons_append, List.cons_append, eightGroups?, readFront]
      dsimp only
      rw [if_neg fewer, if_neg Bool.false_ne_true]
      change some (front ++ List.replicate
        (8 - front.length - (groups (7 - front.length) true (tail ++ rest)).1.length) 0 ++
          (groups (7 - front.length) true (tail ++ rest)).1, _) = _
      rw [readBack]

theorem spells_of_eightGroups? (read : eightGroups? text = some (values, rest)) :
    ∃ written, text = written ++ rest ∧ SpellsAddress written values := by
  rw [eightGroups?] at read
  rcases first : groups 8 true text with ⟨front, embedded, after⟩
  rw [first] at read
  rcases spells_of_groups_side first with ⟨head, rfl, ahead, upToEight⟩
  dsimp only at read
  split at read
  next eight =>
    cases read
    rcases ahead with ⟨rfl, -, -⟩ | spells
    · cases eight
    · exact ⟨head, rfl, .full spells eight⟩
  split at read
  next => cases read
  next fewer plain =>
    split at read
    next remaining =>
      rcases second : groups (7 - front.length) true remaining with ⟨back, ended, final⟩
      rw [second] at read
      dsimp only at read
      cases read
      rcases spells_of_groups_side second with ⟨tail, rfl, behind, room⟩
      obtain rfl := Bool.eq_false_iff.mpr plain
      refine ⟨head ++ ':' :: ':' :: tail, ?_, .zeros ahead behind (by omega)⟩
      rw [List.append_assoc]
      rfl
    next => cases read

/-! ## Scopes and ports -/

theorem scope?_append {scope : Nat} (spells : SpellsScope text scope)
    (ends : EndsNumber 10 rest) (noScope : rest.head? ≠ some '%') :
    scope? (text ++ rest) = some (scope, rest) := by
  cases spells with
  | absent =>
      cases rest with
      | nil => rfl
      | cons next later =>
          have other : next ≠ '%' := fun same => noScope (congrArg some same)
          rw [List.nil_append, scope?, after?, if_neg other]
  | present number =>
      rw [List.cons_append, scope?, after?_cons]
      dsimp only
      rw [number?_append number ends, Option.map_some]

theorem spells_of_scope? {scope : Nat} (read : scope? text = some (scope, rest)) :
    ∃ written, text = written ++ rest ∧ SpellsScope written scope := by
  rw [scope?] at read
  split at read
  next =>
    cases read
    exact ⟨[], rfl, .absent⟩
  next digits marked =>
    obtain rfl := after?_eq_some_iff.mp marked
    rcases Option.map_eq_some_iff.mp read with ⟨⟨value, count, after⟩, found, result⟩
    cases result
    rcases spells_of_number? found with ⟨written, rfl, number, -, -⟩
    exact ⟨'%' :: written, rfl, .present number⟩

theorem port?_eq_some_iff {port : Nat} :
    port? text = some port ↔
      ∃ digits, text = ':' :: digits ∧ SpellsNumber 10 65535 digits port := by
  constructor
  · intro read
    rcases Option.bind_eq_some_iff.mp read with ⟨digits, colon, readNumber⟩
    rcases Option.bind_eq_some_iff.mp readNumber with ⟨⟨value, count, after⟩, found, ended⟩
    rcases Option.ite_none_right_eq_some.mp ended with ⟨empty, result⟩
    cases result
    rcases spells_of_number? found with ⟨written, rfl, number, -, -⟩
    obtain rfl := List.isEmpty_iff.mp empty
    rw [List.append_nil] at colon
    exact ⟨written, after?_eq_some_iff.mp colon, number⟩
  · rintro ⟨digits, rfl, number⟩
    have found := @number?_append 10 65535 digits [] port number nofun
    rw [List.append_nil] at found
    rw [port?, after?_cons]
    dsimp only [Option.bind_eq_bind, Option.bind_some]
    rw [found]
    rfl

end

/-! ## Both versions -/

section

variable {text digits : List Char} {address : SocketAddress} {port : Nat}

theorem spells_of_version4? (read : version4? text = some address) : Spells text address := by
  rcases Option.bind_eq_some_iff.mp read with ⟨⟨octets, after⟩, found, readPort⟩
  rcases Option.bind_eq_some_iff.mp readPort with ⟨port, isPort, result⟩
  rcases spells_of_octets? found with ⟨written, rfl, isAddress, -⟩
  rcases port?_eq_some_iff.mp isPort with ⟨digits, rfl, number⟩
  cases result
  exact .version4 isAddress number

theorem spells_of_version6? (read : version6? text = some address) : Spells text address := by
  rcases Option.bind_eq_some_iff.mp read with ⟨inside, opened, readAddress⟩
  rcases Option.bind_eq_some_iff.mp readAddress with ⟨⟨values, afterAddress⟩, found, readScope⟩
  rcases Option.bind_eq_some_iff.mp readScope with ⟨⟨scope, afterScope⟩, limited, readPort⟩
  rcases Option.bind_eq_some_iff.mp readPort with ⟨outside, closed, readNumber⟩
  rcases Option.bind_eq_some_iff.mp readNumber with ⟨port, isPort, result⟩
  rcases port?_eq_some_iff.mp isPort with ⟨digits, rfl, number⟩
  obtain rfl := after?_eq_some_iff.mp closed
  rcases spells_of_scope? limited with ⟨zone, rfl, isScope⟩
  rcases spells_of_eightGroups? found with ⟨written, rfl, isAddress⟩
  obtain rfl := after?_eq_some_iff.mp opened
  cases result
  exact .version6 isAddress isScope number

theorem version4?_append {written : List Char} {octets : List Nat}
    (isAddress : SpellsOctets written octets) (isPort : SpellsNumber 10 65535 digits port) :
    version4? (written ++ ':' :: digits) = some (.version4 octets port) := by
  have colon : EndsNumber 10 (':' :: digits) := endsNumber_cons (by decide) digits
  have read := port?_eq_some_iff.mpr ⟨digits, rfl, isPort⟩
  rw [version4?, octets?_append isAddress colon]
  dsimp only [Option.bind_eq_bind, Option.bind_some]
  rw [read]
  rfl

theorem SpellsScope.stops {zone : List Char} {scope : Nat} (spells : SpellsScope zone scope)
    (rest : List Char) : Stops (zone ++ ']' :: rest) := by
  cases spells with
  | absent => exact .bracket rest
  | present number => exact .scope _

theorem version6?_append {written zone : List Char} {values : List Nat} {scope : Nat}
    (isAddress : SpellsAddress written values) (isScope : SpellsScope zone scope)
    (isPort : SpellsNumber 10 65535 digits port) :
    version6? ('[' :: (written ++ (zone ++ ']' :: ':' :: digits))) =
      some (.version6 values scope port) := by
  have bracket : EndsNumber 10 (']' :: ':' :: digits) := endsNumber_cons (by decide) _
  have read := port?_eq_some_iff.mpr ⟨digits, rfl, isPort⟩
  rw [version6?, after?_cons]
  dsimp only [Option.bind_eq_bind, Option.bind_some]
  rw [eightGroups?_append isAddress (isScope.stops _)]
  dsimp only [Option.bind_some]
  rw [scope?_append isScope bracket nofun]
  dsimp only [Option.bind_some]
  rw [after?_cons]
  dsimp only [Option.bind_some]
  rw [read]
  rfl

theorem version4?_bracket (rest : List Char) : version4? ('[' :: rest) = none := by
  have bracket : EndsNumber 10 ('[' :: rest) := endsNumber_cons (by decide) rest
  rw [version4?, octets?, octet?, number?_eq_none bracket]
  rfl

end

/-- Exactly the texts that spell an address are read, as this address. -/
theorem ofText?_eq_some_iff {text : String} {address : SocketAddress} :
    ofText? text = some address ↔ Spells text.toList address := by
  rw [ofText?, Option.orElse_apply, Option.orElse_eq_or, Option.or_eq_some_iff]
  constructor
  · rintro (four | ⟨-, six⟩)
    · exact spells_of_version4? four
    · exact spells_of_version6? six
  · intro spells
    generalize text.toList = characters at spells
    cases spells with
    | version4 isAddress isPort => exact .inl (version4?_append isAddress isPort)
    | version6 isAddress isScope isPort =>
        exact .inr ⟨version4?_bracket _, version6?_append isAddress isScope isPort⟩

end WorkoutBoard.Config.SocketAddress
