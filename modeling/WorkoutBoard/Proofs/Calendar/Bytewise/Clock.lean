import WorkoutBoard.Proofs.Calendar.Bytewise.Number

/-!
# Clock readings read from bytes

A clock reading is read by a machine as its characters are (`clock_eq`). Its parts are compared from
the last one on: a fraction (`fraction_append`), the seconds (`reading_seconds`), and the minutes
with colons (`reading_extended`) or without (`reading_basic`).
-/

namespace WorkoutBoard.Calendar.Bytewise

open Machine
open Text.Decimal (natural?)

/-! ## Fractions -/

theorem bytesFrom_append (front rest : List UInt8) :
    bytesFrom (front ++ rest) front.length = .value rest := by
  rw [bytesFrom, if_pos (by simp), List.drop_left]

theorem bytesUpTo_min (bytes : List UInt8) (limit : Nat) :
    bytesUpTo bytes (min bytes.length limit) = .value (bytes.take limit) := by
  rw [bytesUpTo, if_pos (Nat.min_le_left _ _), Nat.min_comm, ← List.take_eq_take_min]

theorem scaled_eq {kept : List UInt8} (few : kept.length ≤ 6) :
    (do
      let value ← number kept
      let missing ← minus 6 kept.length
      let scale ← word (10 ^ missing)
      word (value * scale)) =
      .ofOption ((natural? (charsOf kept)).map fun value => value * 10 ^ (6 - kept.length)) := by
  have missing : minus 6 kept.length = .value (6 - kept.length) := if_pos few
  rw [number_eq few]
  cases read : natural? (charsOf kept) with
  | none => rfl
  | some value =>
      have nonempty : 0 < (charsOf kept).length := by
        rw [List.length_pos_iff]
        rintro empty
        rw [empty] at read
        cases read
      have small : value < 10 ^ kept.length := by
        have bound := ((Text.Decimal.natural?_eq_some_iff nonempty rfl value).mp read).1
        rwa [charsOf, List.length_map] at bound
      have scale : 10 ^ (6 - kept.length) ≤ 10 ^ 6 := Nat.pow_le_pow_right (by decide) (by omega)
      have product : value * 10 ^ (6 - kept.length) < 10 ^ 6 := by
        calc value * 10 ^ (6 - kept.length) < 10 ^ kept.length * 10 ^ (6 - kept.length) :=
              Nat.mul_lt_mul_of_pos_right small (Nat.pow_pos (by decide))
          _ = 10 ^ 6 := by rw [← Nat.pow_add, Nat.add_sub_cancel' few]
      have scaleFits : word (10 ^ (6 - kept.length)) = .value (10 ^ (6 - kept.length)) :=
        if_pos (by omega)
      rw [missing, Course.ofOption_some, Course.value_bind, Course.value_bind, scaleFits,
        Course.value_bind]
      exact if_pos (by omega)

theorem isMark_iff (mark : UInt8) :
    (mark = point ∨ mark = comma) ↔ (charOf mark = '.' ∨ charOf mark = ',') := by
  have pointRead : charOf point = '.' := by decide
  have commaRead : charOf comma = ',' := by decide
  rw [← pointRead, ← commaRead, charOf_injective.eq_iff, charOf_injective.eq_iff]

theorem fraction_append (front rest : List UInt8) :
    fraction (front ++ rest) front.length = .ofOption (Clock.tail? (charsOf rest)) := by
  match rest with
  | [] => exact if_neg (by simp)
  | mark :: places =>
      have inside : front.length < (front ++ mark :: places).length := by simp
      have later : bytesFrom (front ++ mark :: places) (front.length + 1) = .value places := by
        simpa using bytesFrom_append (front ++ [mark]) places
      rw [fraction, if_pos inside, byteAt_append, Course.value_bind, later, Course.value_bind,
        charsOf_cons, Clock.tail?]
      by_cases marked : mark = point ∨ mark = comma
      · have known : (mark != point && mark != comma) = false := by
          rcases marked with rfl | rfl <;> decide
        rw [if_pos ((isMark_iff mark).mp marked), known, if_neg Bool.false_ne_true,
          Clock.fraction?, all_isDigit_charsOf, charsOf, List.isEmpty_map]
        by_cases malformed : (places.isEmpty || !places.all isDigit) = true
        · rw [if_pos malformed, if_pos malformed]
          rfl
        · rw [if_neg malformed, if_neg malformed, bytesUpTo_min, Course.value_bind,
            scaled_eq (List.length_take_le 6 places), ← List.map_take]
          dsimp only
          rw [List.length_map, charsOf]
      · have unknown : (mark != point && mark != comma) = true := by simpa using marked
        rw [if_neg (mt (isMark_iff mark).mpr marked), unknown, if_pos rfl]
        rfl

def seconds? (hour minute : Nat) : List Char → Option Clock
  | tens :: ones :: rest => do
      let second ← Clock.twoDigits? tens ones
      let micro ← Clock.tail? rest
      return ⟨hour, minute, second, micro⟩
  | _ => none

theorem extended?_colon (hour : Nat) (tens ones : Char) (rest : List Char) :
    Clock.extended? hour (tens :: ones :: ':' :: rest) =
      (Clock.twoDigits? tens ones).bind fun minute => seconds? hour minute rest := by
  rcases rest with _ | ⟨first, _ | ⟨second, more⟩⟩
  · simp [Clock.extended?, seconds?]
  · simp [Clock.extended?, seconds?]
  · rfl

theorem extended?_of_ne (hour : Nat) (tens ones : Char) {next : Char} (other : next ≠ ':')
    (rest : List Char) : Clock.extended? hour (tens :: ones :: next :: rest) = none := by
  simp [Clock.extended?, other]

theorem basic?_cons (hour : Nat) (tens ones next : Char) (rest : List Char) :
    Clock.basic? hour (tens :: ones :: next :: rest) =
      (Clock.twoDigits? tens ones).bind fun minute => seconds? hour minute (next :: rest) := by
  cases rest with
  | nil => simp [Clock.basic?, seconds?]
  | cons second more => rfl

section

variable (front : List UInt8) (tens ones : UInt8) (make : List Nat → Nat → Clock)

theorem reading_of_short {rest : List UInt8} (short : rest.length < 2) (more : Nat)
    (colons : Option Bool) : reading (front ++ rest) more colons front.length make = .refused := by
  have lacking : numberAt (front ++ rest) front.length (front.length + 2) = .refused :=
    numberAt_of_lt (by simp only [List.length_append]; omega) _
  cases more with
  | zero =>
      rw [reading, parts, lacking]
      rfl
  | succ more =>
      rw [reading, parts, lacking]
      rfl

theorem reading_last (rest : List UInt8) (colons : Option Bool) :
    reading (front ++ tens :: ones :: rest) 0 colons front.length make =
      .ofOption (do
        let part ← Clock.twoDigits? (charOf tens) (charOf ones)
        let micro ← Clock.tail? (charsOf rest)
        return make [part] micro) := by
  have place : front.length + 2 = (front ++ [tens, ones]).length := by simp
  have whole : front ++ tens :: ones :: rest = (front ++ [tens, ones]) ++ rest := by simp
  rw [reading, parts, numberAt_two]
  cases Clock.twoDigits? (charOf tens) (charOf ones) with
  | none => rfl
  | some part =>
      rw [Course.ofOption_some, Course.value_bind, Course.pure_eq_value, Course.value_bind,
        place, whole, fraction_append]
      cases Clock.tail? (charsOf rest) <;> rfl

theorem reading_end (more : Nat) (colons : Option Bool) :
    reading (front ++ [tens, ones]) more colons front.length make =
      .ofOption (do
        let part ← Clock.twoDigits? (charOf tens) (charOf ones)
        return make [part] 0) := by
  have nothing : fraction (front ++ [tens, ones]) (front.length + 2) = .value 0 :=
    if_neg (by simp)
  have past : (front ++ [tens, ones])[front.length + 2]? = none :=
    List.getElem?_eq_none (by simp)
  cases more with
  | zero => exact reading_last front tens ones make [] colons
  | succ more =>
      rw [reading, parts, numberAt_two, past]
      cases Clock.twoDigits? (charOf tens) (charOf ones) with
      | none => rfl
      | some part =>
          simp only [Course.ofOption_some, Course.value_bind, Course.pure_eq_value, nothing]
          rfl

theorem reading_next (next : UInt8) (rest : List UInt8) (more : Nat) (colons : Option Bool) :
    reading (front ++ tens :: ones :: next :: rest) (more + 1) colons front.length make =
      (do
        let part ← Course.ofOption (Clock.twoDigits? (charOf tens) (charOf ones))
        let separated := colons.getD (next == colon)
        if separated && next != colon then .refused
        else
          reading (front ++ tens :: ones :: next :: rest) more (some separated)
            (front.length + 2 + separated.toNat) fun found => make (part :: found)) := by
  have found : (front ++ tens :: ones :: next :: rest)[front.length + 2]? = some next := by
    rw [List.getElem?_append_right (by omega), Nat.add_sub_cancel_left]
    rfl
  rw [reading, parts, numberAt_two, found, Course.bind_assoc]
  cases Clock.twoDigits? (charOf tens) (charOf ones) with
  | none => rfl
  | some part =>
      simp only [Course.ofOption_some, Course.value_bind]
      split
      next => rfl
      next =>
        rw [reading, Course.bind_assoc]
        rfl

theorem reading_seconds (rest : List UInt8) (colons : Option Bool) (hour minute : Nat) :
    reading (front ++ rest) 0 colons front.length
      (fun found micro => ⟨hour, minute, found.getD 0 0, micro⟩) =
      .ofOption (seconds? hour minute (charsOf rest)) := by
  rcases rest with _ | ⟨s1, _ | ⟨s2, more⟩⟩
  · exact reading_of_short front _ (by simp) 0 colons
  · exact reading_of_short front _ (by simp) 0 colons
  · exact reading_last front s1 s2 _ more colons

theorem charOf_colon : charOf colon = ':' := by decide

theorem charOf_eq_colon_iff (byte : UInt8) : charOf byte = ':' ↔ byte = colon := by
  rw [← charOf_colon]
  exact charOf_injective.eq_iff

theorem reading_extended (rest : List UInt8) (hour : Nat) :
    reading (front ++ rest) 1 (some true) front.length
      (fun found micro => ⟨hour, found.getD 0 0, found.getD 1 0, micro⟩) =
      .ofOption (Clock.extended? hour (charsOf rest)) := by
  rcases rest with _ | ⟨m1, _ | ⟨m2, _ | ⟨next, more⟩⟩⟩
  · exact reading_of_short front _ (by simp) 1 _
  · exact reading_of_short front _ (by simp) 1 _
  · exact reading_end front m1 m2 _ 1 _
  · have seconds := reading_seconds (front ++ [m1, m2, next]) more (some true) hour
    simp only [List.length_append, List.append_assoc, List.cons_append, List.nil_append,
      List.length_cons, List.length_nil] at seconds
    rw [reading_next]
    simp only [charsOf_cons]
    by_cases isColon : next = colon
    · subst isColon
      rw [charOf_colon, extended?_colon]
      cases Clock.twoDigits? (charOf m1) (charOf m2) with
      | none => rfl
      | some minute => exact seconds minute
    · rw [extended?_of_ne hour _ _ (mt (charOf_eq_colon_iff next).mp isColon)]
      cases Clock.twoDigits? (charOf m1) (charOf m2) <;> simp [isColon]

theorem reading_basic (rest : List UInt8) (hour : Nat) :
    reading (front ++ rest) 1 (some false) front.length
      (fun found micro => ⟨hour, found.getD 0 0, found.getD 1 0, micro⟩) =
      .ofOption (Clock.basic? hour (charsOf rest)) := by
  rcases rest with _ | ⟨m1, _ | ⟨m2, _ | ⟨next, more⟩⟩⟩
  · exact reading_of_short front _ (by simp) 1 _
  · exact reading_of_short front _ (by simp) 1 _
  · exact reading_end front m1 m2 _ 1 _
  · have seconds := reading_seconds (front ++ [m1, m2]) (next :: more) (some false) hour
    simp only [List.length_append, List.append_assoc, List.cons_append, List.nil_append,
      List.length_cons, List.length_nil] at seconds
    rw [reading_next]
    simp only [charsOf_cons]
    rw [basic?_cons]
    cases Clock.twoDigits? (charOf m1) (charOf m2) with
    | none => rfl
    | some minute => exact seconds minute

end

theorem ofChars?_colon_cons (tens ones : Char) (rest : List Char) :
    Clock.ofChars? (tens :: ones :: ':' :: rest) =
      (Clock.twoDigits? tens ones).bind fun hour => Clock.extended? hour rest := rfl

theorem ofChars?_of_ne (tens ones : Char) {next : Char} (other : next ≠ ':') (rest : List Char) :
    Clock.ofChars? (tens :: ones :: next :: rest) =
      (Clock.twoDigits? tens ones).bind fun hour => Clock.basic? hour (next :: rest) := by
  simp [Clock.ofChars?, other]

theorem clock_eq (bytes : List UInt8) :
    clock bytes = .ofOption (Clock.ofChars? (charsOf bytes)) := by
  rw [clock]
  rcases bytes with _ | ⟨h1, _ | ⟨h2, _ | ⟨next, more⟩⟩⟩
  · exact reading_of_short [] _ (by simp) 2 _
  · exact reading_of_short [] _ (by simp) 2 _
  · exact reading_end [] h1 h2 _ 2 _
  · have first := reading_next [] h1 h2 (fun found micro => (⟨found.getD 0 0, found.getD 1 0,
      found.getD 2 0, micro⟩ : Clock)) next more 1 none
    refine first.trans ?_
    simp only [charsOf_cons]
    by_cases isColon : next = colon
    · rw [isColon, charOf_colon, ofChars?_colon_cons]
      cases Clock.twoDigits? (charOf h1) (charOf h2) with
      | none => rfl
      | some hour => exact reading_extended [h1, h2, colon] more hour
    · rw [ofChars?_of_ne _ _ (mt (charOf_eq_colon_iff next).mp isColon)]
      cases Clock.twoDigits? (charOf h1) (charOf h2) with
      | none => rfl
      | some hour =>
        have basic : (next == colon) = false := by simpa using isColon
        simp only [Option.getD_none, basic]
        exact reading_basic [h1, h2] (next :: more) hour

end WorkoutBoard.Calendar.Bytewise
