import WorkoutBoard.Proofs.Calendar.Bytewise.Width

/-!
# Timestamps read by a machine

A machine reads the same timestamps as are read from the characters of a text (`timestamp_eq`), and
none of its steps is ever trapped (`isAware_eq_value`). It may find another width for the date if
there are characters beyond ASCII; then there is no timestamp at either width (`bind_dateWidth_eq`).
-/

namespace WorkoutBoard.Calendar.Bytewise

open Machine
open Text.Utf8 (encode encode_cons)

/-! ## A date of a given width -/

def timestampAt? (width : Nat) (text : List Char) : Option Timestamp :=
  match text.drop width with
  | [] => none
  | _ :: rest =>
      (Timestamp.date? (text.take width)).bind fun date => timeAndOffset? date rest

theorem ofChars?_eq (text : List Char) :
    Timestamp.ofChars? text = timestampAt? (Timestamp.dateWidth text) text := rfl

theorem timestampAt?_of_length_le {width : Nat} {text : List Char} (short : text.length ≤ width) :
    timestampAt? width text = none := by
  rw [timestampAt?, List.drop_eq_nil_of_le short]

theorem timestampAt?_of_not_isAscii {width : Nat} {text : List Char}
    (beyond : ¬IsAscii (text.take width)) : timestampAt? width text = none := by
  have noDate : Timestamp.date? (text.take width) = none :=
    Option.eq_none_iff_forall_ne_some.mpr fun date read => beyond (isAscii_of_date? read)
  rw [timestampAt?, noDate]
  cases text.drop width <;> rfl

theorem length_encode {text : List Char} (ascii : IsAscii text) :
    (encode text).length = text.length := by
  have lengths := congrArg List.length (charsOf_encode ascii)
  rwa [charsOf, List.length_map] at lengths

theorem length_le_length_encode (text : List Char) : text.length ≤ (encode text).length := by
  induction text with
  | nil => exact Nat.le_refl _
  | cons character rest inductive_step =>
      have positive := width_pos character
      rw [length_encode_cons, List.length_cons]
      omega

/-- A cut inside a character is no cut after a date, and neither is one that such a date does not
reach. -/
theorem timestampAt_eq (width : Nat) (text : List Char) :
    timestampAt width text = .ofOption (timestampAt? width text) := by
  rw [timestampAt]
  cases parts : cut? width text with
  | none =>
      have nothing : timestampAt? width text = none := by
        by_cases reaches : width ≤ text.length
        · refine timestampAt?_of_not_isAscii fun ascii => ?_
          have length : (encode (text.take width)).length = width := by
            rw [length_encode ascii, List.length_take]
            omega
          have whole := cut?_append (text.take width) (text.drop width)
          rw [length, List.take_append_drop, parts] at whole
          cases whole
        · exact timestampAt?_of_length_le (by omega)
      rw [nothing]
      rfl
  | some found =>
      obtain ⟨front, back⟩ := found
      obtain ⟨rfl, length⟩ := of_cut? parts
      rw [Course.ofOption_some, Course.value_bind]
      dsimp only
      rw [date_encode]
      by_cases ascii : IsAscii front
      · rw [length_encode ascii] at length
        subst length
        rw [timestampAt?, List.take_left, List.drop_left]
        cases Timestamp.date? front with
        | none => cases back <;> rfl
        | some date =>
            cases back with
            | nil => rfl
            | cons separator rest => exact timeAndOffset_eq date rest
      · have within := length_le_length_encode front
        have noDate : Timestamp.date? front = none :=
          Option.eq_none_iff_forall_ne_some.mpr fun date read => ascii (isAscii_of_date? read)
        have beyond : ¬IsAscii ((front ++ back).take width) := by
          rw [List.take_append, List.take_of_length_le (by omega)]
          exact fun allAscii => ascii fun character member =>
            allAscii character (List.mem_append_left _ member)
        rw [noDate, timestampAt?_of_not_isAscii beyond]
        rfl

/-! ## Both widths lead to the same timestamp -/

theorem le_dateWidth (text : List Char) : 7 ≤ Timestamp.dateWidth text := by
  unfold Timestamp.dateWidth
  split
  next => split <;> decide
  next => decide
  next =>
    rw [Timestamp.basicWeekWidth]
    split
    next => exact Nat.le_add_right 7 _
    next => split <;> decide
  next => decide

/-- Where no width leads to a timestamp, the one that is found does not. -/
theorem bind_timestampAt?_eq_refused {course : Course Nat} {least : Nat}
    (finds : FindsAtLeast least course) {text : List Char}
    (nothing : ∀ width, least ≤ width → timestampAt? width text = none) :
    (course >>= fun width => .ofOption (timestampAt? width text)) = .refused := by
  rcases finds with refused | ⟨width, atLeast, value⟩
  · rw [refused]
    rfl
  · rw [value, Course.value_bind, nothing width atLeast]
    rfl

theorem isAscii_take_of_le {less more : Nat} (le : less ≤ more) {text : List Char}
    (ascii : IsAscii (text.take more)) : IsAscii (text.take less) := by
  intro character member
  rw [← Nat.min_eq_left le, ← List.take_take] at member
  exact ascii character (List.mem_of_mem_take member)

theorem timestampAt?_eq_none_of_front {text : List Char} {least : Nat}
    (front : text.length ≤ least ∨ ¬IsAscii (text.take least)) {width : Nat}
    (atLeast : least ≤ width) : timestampAt? width text = none := by
  rcases front with short | beyond
  · exact timestampAt?_of_length_le (by omega)
  · exact timestampAt?_of_not_isAscii (mt (isAscii_take_of_le atLeast) beyond)

theorem exists_eight {text : List Char} (long : 7 < text.length) :
    ∃ c0 c1 c2 c3 c4 c5 c6 c7 rest,
      text = c0 :: c1 :: c2 :: c3 :: c4 :: c5 :: c6 :: c7 :: rest := by
  match text with
  | c0 :: c1 :: c2 :: c3 :: c4 :: c5 :: c6 :: c7 :: rest =>
      exact ⟨c0, c1, c2, c3, c4, c5, c6, c7, rest, rfl⟩

theorem timestampAt?_of_hour (front : List Char) (separator : Char) {first : Char}
    (beyond : 0x80 ≤ first.toNat) (rest : List Char) :
    timestampAt? front.length (front ++ separator :: first :: rest) = none := by
  have noSign : (!Timestamp.isSign first) = true := by
    refine Bool.not_eq_true' _ ▸ Bool.eq_false_iff.mpr fun isSign => ?_
    simp only [Timestamp.isSign, Bool.or_eq_true, beq_iff_eq] at isSign
    rcases isSign with rfl | rfl <;> exact absurd beyond (by decide)
  have noTime (later : List Char) : Timestamp.timeOfDay? (first :: later) = none := by
    have noClock : Clock.ofChars? (first :: later) = none :=
      Option.eq_none_iff_forall_ne_some.mpr fun clock read =>
        absurd (isAscii_of_ofChars? read first List.mem_cons_self) (by omega)
    rw [Timestamp.timeOfDay?, noClock]
  rw [timestampAt?, List.drop_left, List.take_left]
  dsimp only
  cases Timestamp.date? front with
  | none => rfl
  | some date =>
      have taken : (first :: rest).takeWhile (fun character => !Timestamp.isSign character) =
          first :: rest.takeWhile fun character => !Timestamp.isSign character :=
        List.takeWhile_cons_of_pos noSign
      rw [Option.bind_some, timeAndOffset?, taken, noTime]
      rfl

section

variable {c0 c1 c2 c3 c4 c5 c6 c7 : Char} (rest : List Char)

theorem dateWidth_encode_cons (ascii : IsAscii [c0, c1, c2, c3, c4, c5, c6]) :
    dateWidth (encode (c0 :: c1 :: c2 :: c3 :: c4 :: c5 :: c6 :: c7 :: rest)) =
      if c4 = '-' then
        extendedWidth (encode (c0 :: c1 :: c2 :: c3 :: c4 :: c5 :: c6 :: c7 :: rest))
      else if c4 = 'W' then .value (Timestamp.basicWeekWidth (c7 :: rest))
      else .value 8 := by
  have front : encode (c0 :: c1 :: c2 :: c3 :: c4 :: c5 :: c6 :: c7 :: rest) =
      [c0, c1, c2, c3, c4, c5, c6].map byteOf ++ encode (c7 :: rest) :=
    encode_front ascii (c7 :: rest)
  have fourth := ascii c4 (by simp)
  rw [front, dateWidth_append rfl rfl (encode_ne_nil c7 rest),
    byteOf_beq fourth (by decide), byteOf_beq fourth (by decide), charOf_hyphen, charOf_weekMark,
    basicWeekWidth_eq (by rfl)]
  simp only [beq_iff_eq]

theorem dateWidth_encode (ascii : IsAscii [c0, c1, c2, c3, c4, c5, c6])
    (notBoth : ¬(c4 = '-' ∧ c5 = 'W')) :
    dateWidth (encode (c0 :: c1 :: c2 :: c3 :: c4 :: c5 :: c6 :: c7 :: rest)) =
      .value (Timestamp.dateWidth (c0 :: c1 :: c2 :: c3 :: c4 :: c5 :: c6 :: c7 :: rest)) := by
  rw [dateWidth_encode_cons rest ascii]
  by_cases isHyphen : c4 = '-'
  · have notW : c5 ≠ 'W' := fun isW => notBoth ⟨isHyphen, isW⟩
    subst isHyphen
    have fifth : (encode (c0 :: c1 :: c2 :: c3 :: '-' :: c5 :: c6 :: c7 :: rest))[5]? =
        some (byteOf c5) :=
      congrArg (·[5]?) (encode_front ascii (c7 :: rest))
    have other : (byteOf c5 == weekMark) = false := by
      rw [byteOf_beq (ascii c5 (by simp)) (by decide), charOf_weekMark]
      simpa using notW
    rw [Timestamp.dateWidth.eq_2 _ _ _ _ _ fun _ _ _ same => notW (List.cons.inj same).1]
    exact extendedWidth_of_ne fifth other
  · rw [if_neg isHyphen]
    by_cases isW : c4 = 'W'
    · subst isW
      rfl
    · rw [Timestamp.dateWidth.eq_4 _ (by simp [isHyphen]) (by simp [isHyphen]) (by simp [isW]),
        if_neg isW]

theorem dateWidth_hyphen_cons (c9 : Char) (last : List Char) :
    Timestamp.dateWidth (c0 :: c1 :: c2 :: c3 :: '-' :: 'W' :: c6 :: c7 :: '-' :: c9 :: last) =
      if last.head?.any Char.isDigit then 8 else 10 := by
  cases last with
  | nil => rfl
  | cons c10 last =>
      have digit : (c10 :: last).head?.any Char.isDigit = c10.isDigit := rfl
      rw [digit]
      simp only [Timestamp.dateWidth, Timestamp.hyphenThenDigit]
      cases c10.isDigit <;> rfl

theorem le_dateWidth_extended (c7 : Char) :
    8 ≤ Timestamp.dateWidth (c0 :: c1 :: c2 :: c3 :: '-' :: 'W' :: c6 :: c7 :: rest) := by
  simp only [Timestamp.dateWidth]
  split <;> decide

theorem dateWidth_of_ne {c8 : Char} (other : c8 ≠ '-') :
    Timestamp.dateWidth (c0 :: c1 :: c2 :: c3 :: '-' :: 'W' :: c6 :: c7 :: c8 :: rest) = 8 := by
  simp only [Timestamp.dateWidth]
  rw [Timestamp.hyphenThenDigit.eq_3 _ (by simp [other]) (by simp [other])]

theorem bind_secondHyphen_eq (c9 : Char) :
    ((if ((encode (c9 :: rest)).drop 1).head?.any isDigit then Course.value 8 else .value 10) >>=
      fun width => .ofOption (timestampAt? width
        (c0 :: c1 :: c2 :: c3 :: '-' :: 'W' :: c6 :: c7 :: '-' :: c9 :: rest))) =
      .ofOption (Timestamp.ofChars?
        (c0 :: c1 :: c2 :: c3 :: '-' :: 'W' :: c6 :: c7 :: '-' :: c9 :: rest)) := by
  rw [ofChars?_eq, dateWidth_hyphen_cons]
  by_cases beyond : 0x80 ≤ c9.toNat
  · obtain ⟨first, second, following, bytes⟩ := exists_second beyond
    have notDigit : ((encode (c9 :: rest)).drop 1).head?.any isDigit = false := by
      rw [encode_cons, bytes]
      exact isDigit_following bytes
    have noTen : timestampAt? 10
        (c0 :: c1 :: c2 :: c3 :: '-' :: 'W' :: c6 :: c7 :: '-' :: c9 :: rest) = none := by
      refine timestampAt?_of_not_isAscii fun ascii => ?_
      have small := ascii c9 (by simp)
      omega
    rw [notDigit, if_neg Bool.false_ne_true, Course.value_bind, noTen]
    cases rest.head?.any Char.isDigit with
    | true =>
        have noEight := timestampAt?_of_hour [c0, c1, c2, c3, '-', 'W', c6, c7] '-' beyond rest
        exact congrArg Course.ofOption noEight.symm
    | false => exact congrArg Course.ofOption noTen.symm
  · have digit : ((encode (c9 :: rest)).drop 1).head?.any isDigit =
        rest.head?.any Char.isDigit := by
      rw [encode_cons, Text.Utf8.encodeChar_of_lt (by omega)]
      exact head?_encode_any rest fun _ _ _ => isDigit_first
    rw [digit]
    cases rest.head?.any Char.isDigit <;> rfl

theorem bind_extendedWidth_eq (ascii : IsAscii [c0, c1, c2, c3, '-', 'W', c6, c7]) :
    (extendedWidth (encode (c0 :: c1 :: c2 :: c3 :: '-' :: 'W' :: c6 :: c7 :: rest)) >>=
      fun width => .ofOption
        (timestampAt? width (c0 :: c1 :: c2 :: c3 :: '-' :: 'W' :: c6 :: c7 :: rest))) =
      .ofOption (Timestamp.ofChars? (c0 :: c1 :: c2 :: c3 :: '-' :: 'W' :: c6 :: c7 :: rest)) := by
  have front : encode (c0 :: c1 :: c2 :: c3 :: '-' :: 'W' :: c6 :: c7 :: rest) =
      [c0, c1, c2, c3, '-', 'W', c6, c7].map byteOf ++ encode rest :=
    encode_front ascii rest
  have week : byteOf 'W' = weekMark := by decide
  have marked : (encode rest).head?.any (· == hyphen) = rest.head?.any (· == '-') :=
    head?_encode_any rest fun _ _ _ bytes => charOf_hyphen ▸ first_beq bytes (by decide)
  rw [front, extendedWidth_append rfl (congrArg some week), marked]
  rcases rest with _ | ⟨c8, rest⟩
  · rfl
  · by_cases separated : c8 = '-'
    · subst separated
      have hyphenBytes : encode ('-' :: rest) = hyphen :: encode rest := by
        rw [encode_cons, Text.Utf8.encodeChar_of_lt (by decide)]
        rfl
      rw [if_pos (by rfl), hyphenBytes]
      rcases rest with _ | ⟨c9, last⟩
      · rfl
      · have long : (hyphen :: encode (c9 :: last)).length ≠ 1 := by
          simpa using encode_ne_nil c9 last
        rw [if_neg long]
        exact bind_secondHyphen_eq last c9
    · rw [if_neg (by simpa using separated), Course.value_bind, ofChars?_eq,
        dateWidth_of_ne rest separated]

end

theorem bind_dateWidth_eq (text : List Char) :
    (dateWidth (encode text) >>= fun width => .ofOption (timestampAt? width text)) =
      .ofOption (Timestamp.ofChars? text) := by
  by_cases front : text.length ≤ 7 ∨ ¬IsAscii (text.take 7)
  · have nothing (width : Nat) (atLeast : 7 ≤ width) : timestampAt? width text = none :=
      timestampAt?_eq_none_of_front front atLeast
    rw [bind_timestampAt?_eq_refused (dateWidth_finds _) nothing, ofChars?_eq,
      nothing _ (le_dateWidth text)]
    rfl
  · obtain ⟨long, ascii⟩ := not_or.mp front
    obtain ⟨c0, c1, c2, c3, c4, c5, c6, c7, rest, rfl⟩ := exists_eight (Nat.not_le.mp long)
    have seven : IsAscii [c0, c1, c2, c3, c4, c5, c6] := Classical.not_not.mp ascii
    by_cases both : c4 = '-' ∧ c5 = 'W'
    · obtain ⟨rfl, rfl⟩ := both
      rw [dateWidth_encode_cons rest seven, if_pos rfl]
      by_cases eighth : c7.toNat < 0x80
      · have eight : IsAscii ([c0, c1, c2, c3, '-', 'W', c6] ++ [c7]) :=
          List.forall_mem_append.mpr ⟨seven, by simpa using eighth⟩
        exact bind_extendedWidth_eq rest eight
      · have nothing (width : Nat) (atLeast : 8 ≤ width) : timestampAt? width
            (c0 :: c1 :: c2 :: c3 :: '-' :: 'W' :: c6 :: c7 :: rest) = none :=
          timestampAt?_eq_none_of_front (.inr fun ascii => eighth (ascii c7 (by simp))) atLeast
        have bytesLong := Nat.lt_of_lt_of_le (Nat.not_le.mp long) (length_le_length_encode _)
        rw [bind_timestampAt?_eq_refused (extendedWidth_finds bytesLong) nothing, ofChars?_eq,
          nothing _ (le_dateWidth_extended rest c7)]
        rfl
    · rw [dateWidth_encode rest seven both]
      rfl

/-! ## The whole -/

theorem timestamp_eq (text : List Char) :
    timestamp text = .ofOption (Timestamp.ofChars? text) := by
  rw [timestamp, ← bind_dateWidth_eq]
  exact congrArg _ (funext fun width => timestampAt_eq width text)

/-- A machine tells which texts denote timestamps, whatever their length and their characters are,
and no step of it is trapped. -/
theorem isAware_eq_value (text : String) : isAware text = .value (Timestamp.isAware text) := by
  rw [isAware, timestamp_eq, Timestamp.isAware]
  cases Timestamp.ofChars? (Timestamp.spellOutZulu text.toList) <;> rfl

end WorkoutBoard.Calendar.Bytewise
