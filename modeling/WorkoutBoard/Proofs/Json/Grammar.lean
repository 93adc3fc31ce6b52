import WorkoutBoard.Proofs.Json.Series
import WorkoutBoard.Proofs.Json.Text

/-!
# What a document holds

`Spells` says which bytes are a JSON text, and of which value, by one case for each form that a
value may have; `Holds` allows blanks around it. A document is read as a value if and only if it
holds it (`Value.ofBytes_eq_ok_iff`).
-/

namespace WorkoutBoard.Json

/-! ## The grammar -/

inductive SpellsMember (SpellsValue : List UInt8 → Value → Prop) :
    List UInt8 → String × Value → Prop where
  | mk {front before after back : List UInt8} {name : String} {value : Value}
      (named : SpellsText front name) (blankBefore : IsBlanks before) (blankAfter : IsBlanks after)
      (spells : SpellsValue back value) :
      SpellsMember SpellsValue (front ++ (before ++ 0x3A :: (after ++ back))) (name, value)

inductive SpellsPair {κ α : Type} (SpellsName : List UInt8 → κ → Prop)
    (SpellsValue : List UInt8 → α → Prop) : List UInt8 → κ × α → Prop where
  | mk {front before after back : List UInt8} {name : κ} {value : α}
      (named : SpellsName front name) (blankBefore : IsBlanks before) (blankAfter : IsBlanks after)
      (spells : SpellsValue back value) :
      SpellsPair SpellsName SpellsValue (front ++ (before ++ 0x3A :: (after ++ back))) (name, value)

theorem SpellsMember.pair {SpellsValue : List UInt8 → Value → Prop} {bytes : List UInt8}
    {member : String × Value} (spells : SpellsMember SpellsValue bytes member) :
    SpellsPair SpellsText SpellsValue bytes member := by
  cases spells with
  | mk named blankBefore blankAfter spells => exact .mk named blankBefore blankAfter spells

/-- A value that is no container. A number is one that a `Number` can stand for. -/
inductive SpellsScalar : List UInt8 → Value → Prop where
  | null : SpellsScalar (0x6E :: nullTail) .null
  | yes : SpellsScalar (0x74 :: trueTail) (.boolean true)
  | no : SpellsScalar (0x66 :: falseTail) (.boolean false)
  | number {bytes : List UInt8} {numeral : Numeral} {number : Number}
      (spells : SpellsNumeral bytes numeral) (denotes : numeral.number = .ok number) :
      SpellsScalar bytes (.number number)
  | text {bytes : List UInt8} {text : String} (spells : SpellsText bytes text) :
      SpellsScalar bytes (.text text)

inductive SpellsOver (SpellsInner : List UInt8 → Value → Prop) : List UInt8 → Value → Prop where
  | scalar {bytes : List UInt8} {value : Value} (spells : SpellsScalar bytes value) :
      SpellsOver SpellsInner bytes value
  | list {bytes : List UInt8} {elements : List Value}
      (spells : SpellsBetween 0x5B 0x5D SpellsInner bytes elements) :
      SpellsOver SpellsInner bytes (.list elements)
  | object {bytes : List UInt8} {members : List (String × Value)}
      (spells : SpellsBetween 0x7B 0x7D (SpellsMember SpellsInner) bytes members) :
      SpellsOver SpellsInner bytes (.object members)

/-- A value with containers up to a depth. At depth zero there is no container, not even an empty
one. -/
def Spells : Nat → List UInt8 → Value → Prop
  | 0 => SpellsScalar
  | depth + 1 => SpellsOver (Spells depth)

def Holds (document : List UInt8) (value : Value) : Prop :=
  ∃ before bytes after, document = before ++ (bytes ++ after) ∧ IsBlanks before ∧
    IsBlanks after ∧ Spells deepest bytes value

/-! ## Reading -/

/-- A reader takes bytes, after blanks and in front of anything that does not prolong a numeral, and
finds a value in them. -/
def Takes {α : Type} (reader : Reader α) (bytes : List UInt8) (value : α) : Prop :=
  ∀ ⦃blanks rest⦄, IsBlanks blanks → EndsNumeral rest →
    reader (blanks ++ (bytes ++ rest)) = .ok (value, rest)

/-- A reader takes blanks and what is spelled, and all of that up to a size, in front of anything
that does not prolong a numeral. -/
structure Recognizes (size : Nat) (SpellsValue : List UInt8 → Value → Prop)
    (reader : Reader Value) : Prop where
  sound : ∀ ⦃input value rest⦄, reader input = .ok (value, rest) →
    ∃ blanks bytes, IsBlanks blanks ∧ input = blanks ++ (bytes ++ rest) ∧ SpellsValue bytes value
  complete : ∀ ⦃bytes value⦄, SpellsValue bytes value → bytes.length ≤ size →
    ∀ ⦃blanks rest⦄, IsBlanks blanks → EndsNumeral rest →
      reader (blanks ++ (bytes ++ rest)) = .ok (value, rest)

theorem colon_eq_ok_iff {input rest : List UInt8} :
    colon input = .ok rest ↔ ∃ blanks, IsBlanks blanks ∧ input = blanks ++ 0x3A :: rest := by
  constructor
  · intro read
    unfold colon at read
    split at read
    next => cases read
    next byte later found =>
      split at read
      next isColon =>
        obtain rfl := Except.ok.inj read
        exact exists_of_skipBlanks (isColon ▸ found)
      next => cases read
  · rintro ⟨blanks, blank, rfl⟩
    rw [colon, blank.skip_cons rfl]
    rfl

def TakesNames {κ : Type} (SpellsName : List UInt8 → κ → Prop) (reader : Reader κ) : Prop :=
  ∀ ⦃bytes name⦄, SpellsName bytes name →
    ∃ later, bytes = 0x22 :: later ∧ ∀ rest, reader (later ++ rest) = .ok (name, rest)

theorem text_takesNames : TakesNames SpellsText text := fun _ _ named => named.exists_cons

theorem TakesNames.begins {κ α : Type} {SpellsName : List UInt8 → κ → Prop} {reader : Reader κ}
    (takes : TakesNames SpellsName reader) (SpellsValue : List UInt8 → α → Prop) :
    BeginsWith (· = 0x22) (SpellsPair SpellsName SpellsValue) := by
  rintro _ _ ⟨named, -, -, -⟩
  obtain ⟨later, rfl, -⟩ := takes named
  exact ⟨0x22, _, rfl, rfl⟩

theorem SpellsPair.read {κ α : Type} {SpellsName : List UInt8 → κ → Prop}
    {SpellsValue : List UInt8 → α → Prop} {reader : Reader κ} {bytes input rest : List UInt8}
    {member : κ × α} (spells : SpellsPair SpellsName SpellsValue bytes member)
    (names : TakesNames SpellsName reader) (same : [0x22] ++ input = bytes ++ rest) :
    ∃ afterName after back, reader input = .ok (member.1, afterName) ∧
      colon afterName = .ok (after ++ (back ++ rest)) ∧ IsBlanks after ∧
      SpellsValue back member.2 ∧ back.length ≤ bytes.length := by
  cases spells with
  | @mk front before after back name value named blankBefore blankAfter isValue =>
      obtain ⟨later, rfl, nameRead⟩ := names named
      simp only [List.append_assoc, List.cons_append, List.nil_append, List.cons.injEq,
        true_and] at same
      refine ⟨_, after, back, same ▸ nameRead _, colon_eq_ok_iff.mpr ⟨before, blankBefore, rfl⟩,
        blankAfter, isValue, ?_⟩
      simp only [List.length_append, List.length_cons]
      omega

theorem spellsMember_begins {SpellsValue : List UInt8 → Value → Prop} :
    BeginsWith (· = 0x22) (SpellsMember SpellsValue) :=
  fun _ _ spells => text_takesNames.begins SpellsValue spells.pair

theorem spellsScalar_begins : BeginsWith IsVisible SpellsScalar := by
  intro bytes value spells
  cases spells with
  | null => exact ⟨_, _, rfl, by decide⟩
  | yes => exact ⟨_, _, rfl, by decide⟩
  | no => exact ⟨_, _, rfl, by decide⟩
  | text spells =>
      obtain ⟨later, rfl, -⟩ := spells.exists_cons
      exact ⟨_, _, rfl, by decide⟩
  | number spells _ =>
      obtain ⟨byte, later, rfl, first⟩ := spells.exists_cons
      exact ⟨byte, later, rfl, visible_of_isMinus_or_isDigit first,
        ne_of_isMinus_or_isDigit first 0x5D (by decide)⟩

theorem spells_begins (depth : Nat) : BeginsWith IsVisible (Spells depth) := by
  intro bytes value spells
  cases depth with
  | zero => exact spellsScalar_begins spells
  | succ depth =>
      cases spells with
      | scalar spells => exact spellsScalar_begins spells
      | list spells =>
          obtain ⟨later, rfl⟩ := spells.exists_cons
          exact ⟨_, _, rfl, by decide⟩
      | object spells =>
          obtain ⟨later, rfl⟩ := spells.exists_cons
          exact ⟨_, _, rfl, by decide⟩

theorem word_eq_ok_iff {letters input rest : List UInt8} :
    word letters input = .ok rest ↔ input = letters ++ rest := by
  fun_induction word letters input with
  | case1 => simp
  | case2 => simp [failHere]
  | case3 letter letters later inductive_step => simpa using inductive_step
  | case4 letter letters byte later other => simp [failHere, other]

namespace Form

/-! What is next decides how a value is read, whatever becomes of it. -/

section

variable {κ α : Type} (form : Form κ α) {blanks : List UInt8} (blank : IsBlanks blanks)
  (budget : Nat) (reader : Option (Reader α)) (rest : List UInt8)

include blank

theorem readOver_quote :
    form.readOver budget reader (blanks ++ 0x22 :: rest) = form.text rest := by
  rw [readOver, blank.skip_cons rfl]
  rfl

theorem readOver_bracket (inner : Reader α) :
    form.readOver budget (some inner) (blanks ++ 0x5B :: rest) =
      form.readList budget inner rest := by
  rw [readOver, blank.skip_cons rfl]
  rfl

theorem readOver_brace (inner : Reader α) :
    form.readOver budget (some inner) (blanks ++ 0x7B :: rest) =
      form.readObject budget inner rest := by
  rw [readOver, blank.skip_cons rfl]
  rfl

theorem readOver_null : form.readOver budget reader (blanks ++ (0x6E :: nullTail ++ rest)) =
    .ok (form.null, rest) := by
  rw [List.cons_append, readOver, blank.skip_cons rfl]
  rfl

theorem readOver_true : form.readOver budget reader (blanks ++ (0x74 :: trueTail ++ rest)) =
    .ok (form.boolean true, rest) := by
  rw [List.cons_append, readOver, blank.skip_cons rfl]
  rfl

theorem readOver_false : form.readOver budget reader (blanks ++ (0x66 :: falseTail ++ rest)) =
    .ok (form.boolean false, rest) := by
  rw [List.cons_append, readOver, blank.skip_cons rfl]
  rfl

theorem readOver_number {byte : UInt8} (first : byte = 0x2D ∨ isDigit byte = true) :
    form.readOver budget reader (blanks ++ byte :: rest) = form.number (byte :: rest) := by
  have differs := ne_of_isMinus_or_isDigit first
  rw [readOver, blank.skip_cons (visible_of_isMinus_or_isDigit first)]
  dsimp only
  rw [if_neg (differs 0x22 (by decide)), if_neg (differs 0x5B (by decide)),
    if_neg (differs 0x7B (by decide)), if_neg (differs 0x6E (by decide)),
    if_neg (differs 0x74 (by decide)), if_neg (differs 0x66 (by decide)), if_pos first]

end

theorem element_goesOn {α : Type} {size : Nat} {SpellsInner : List UInt8 → α → Prop}
    {inner : Reader α}
    (takes : ∀ ⦃bytes value⦄, SpellsInner bytes value → bytes.length ≤ size →
      Takes inner bytes value) :
    GoesOn size [] SpellsInner (fun before value after => after = value :: before)
      (element inner) := by
  rintro bytes value spells fits reversed _ rfl input rest same ends
  have read := takes spells fits isBlanks_nil ends
  rw [List.nil_append] at read same
  rw [element, same, read]

theorem pair_goesOn {κ α : Type} {form : Form κ α} {size : Nat} {SpellsName : List UInt8 → κ → Prop}
    {SpellsInner : List UInt8 → α → Prop} {inner : Reader α}
    (names : TakesNames SpellsName form.name)
    (takes : ∀ ⦃bytes value⦄, SpellsInner bytes value → bytes.length ≤ size →
      Takes inner bytes value) :
    GoesOn size [0x22] (SpellsPair SpellsName SpellsInner)
      (fun before member after => after = member :: before) (form.member inner) := by
  rintro bytes member spells fits reversed _ rfl input rest same ends
  obtain ⟨afterName, after, back, named, separated, blankAfter, isValue, shorter⟩ :=
    spells.read names same
  rw [Form.member, named]
  dsimp only
  rw [separated]
  dsimp only
  rw [takes isValue (Nat.le_trans shorter fits) blankAfter ends]

theorem foldl_cons_reverse {α : Type} (parts : List α) :
    (parts.foldl (fun reversed part => part :: reversed) []).reverse = parts := by
  rw [List.foldl_flip_cons_eq_append', List.append_nil, List.reverse_reverse]

variable {size budget : Nat} {SpellsInner : List UInt8 → Value → Prop} {inner : Reader Value}
  {input rest bytes blanks : List UInt8} {value : Value}

theorem element_sound (recognizes : Recognizes size SpellsInner inner) :
    AddsSpelled [] SpellsInner (fun reversed value => value :: reversed) (element inner) := by
  intro reversed input next rest read
  unfold element at read
  split at read
  next => cases read
  next value later found =>
    obtain ⟨rfl, rfl⟩ := Prod.mk.inj (Except.ok.inj read)
    obtain ⟨blanks, bytes, blank, same, spells⟩ := recognizes.sound found
    exact ⟨blanks, bytes, value, blank, same, spells, rfl⟩

theorem member_sound (recognizes : Recognizes size SpellsInner inner) :
    AddsSpelled [0x22] (SpellsMember SpellsInner) (fun reversed member => member :: reversed)
      (Form.value.member inner) := by
  intro reversed input next rest read
  unfold member at read
  split at read
  next => cases read
  next name afterName named =>
    split at read
    next => cases read
    next afterColon separated =>
      split at read
      next => cases read
      next value later found =>
        obtain ⟨rfl, rfl⟩ := Prod.mk.inj (Except.ok.inj read)
        obtain ⟨front, same, spellsName⟩ := text_eq_ok_iff.mp named
        obtain ⟨before, blankBefore, rfl⟩ := colon_eq_ok_iff.mp separated
        obtain ⟨after, back, blankAfter, rfl, spells⟩ := recognizes.sound found
        refine ⟨[], _, (name, value), isBlanks_nil, ?_,
          .mk spellsName blankBefore blankAfter spells, rfl⟩
        rw [List.singleton_append, same]
        simp only [List.nil_append, List.append_assoc, List.cons_append]

theorem member_goesOn (recognizes : Recognizes size SpellsInner inner) :
    GoesOn size [0x22] (SpellsMember SpellsInner)
      (fun before member after => after = member :: before) (Form.value.member inner) :=
  fun _ _ spells => pair_goesOn text_takesNames recognizes.complete spells.pair

theorem text_sound (read : Form.value.text input = .ok (value, rest)) :
    ∃ bytes, 0x22 :: input = bytes ++ rest ∧ SpellsScalar bytes value := by
  cases spelled : Json.text input with
  | error fault =>
      simp only [Form.value, spelled] at read
      cases read
  | ok result =>
      simp only [Form.value, spelled] at read
      obtain ⟨rfl, rfl⟩ := Prod.mk.inj (Except.ok.inj read)
      obtain ⟨bytes, same, spells⟩ := text_eq_ok_iff.mp spelled
      exact ⟨bytes, same, .text spells⟩

theorem number_sound (read : Form.value.number input = .ok (value, rest)) :
    ∃ bytes, input = bytes ++ rest ∧ SpellsScalar bytes value := by
  cases spelled : numberAt input with
  | error fault =>
      simp only [Form.value, spelled] at read
      cases read
  | ok result =>
      simp only [Form.value, spelled] at read
      obtain ⟨rfl, rfl⟩ := Prod.mk.inj (Except.ok.inj read)
      unfold numberAt at spelled
      split at spelled
      next => cases spelled
      next numeral later found =>
        obtain ⟨bytes, same, spells⟩ := Numeral.spells_of_read found
        split at spelled
        next denotes =>
          obtain rfl := Except.ok.inj spelled
          exact ⟨bytes, same, .number spells denotes⟩
        next => cases spelled

theorem readWord_sound {tail : List UInt8} {found : Value}
    (read : readWord tail found input = .ok (value, rest)) :
    value = found ∧ input = tail ++ rest := by
  unfold readWord at read
  split at read
  next => cases read
  next passed =>
    obtain ⟨rfl, rfl⟩ := Prod.mk.inj (Except.ok.inj read)
    exact ⟨rfl, word_eq_ok_iff.mp passed⟩

theorem readList_sound (recognizes : Recognizes size SpellsInner inner)
    (read : Form.value.readList budget inner input = .ok (value, rest)) :
    ∃ bytes, 0x5B :: input = bytes ++ rest ∧ SpellsOver SpellsInner bytes value := by
  unfold readList at read
  split at read
  next => cases read
  next reversed later found =>
    obtain ⟨rfl, rfl⟩ := Prod.mk.inj (Except.ok.inj read)
    obtain ⟨bytes, elements, same, spells, rfl⟩ :=
      spells_of_listOf (element_sound recognizes) found
    rw [foldl_cons_reverse]
    exact ⟨bytes, same, .list spells⟩

theorem readObject_sound (recognizes : Recognizes size SpellsInner inner)
    (read : Form.value.readObject budget inner input = .ok (value, rest)) :
    ∃ bytes, 0x7B :: input = bytes ++ rest ∧ SpellsOver SpellsInner bytes value := by
  unfold readObject at read
  split at read
  next => cases read
  next reversed later found =>
    obtain ⟨rfl, rfl⟩ := Prod.mk.inj (Except.ok.inj read)
    obtain ⟨bytes, members, same, spells, rfl⟩ :=
      spells_of_objectOf (member_sound recognizes) found
    rw [foldl_cons_reverse]
    exact ⟨bytes, same, .object spells⟩

theorem readOver_cases {reader : Option (Reader Value)}
    (read : Form.value.readOver budget reader input = .ok (value, rest)) :
    ∃ blanks, IsBlanks blanks ∧
      ((∃ bytes, input = blanks ++ (bytes ++ rest) ∧ SpellsScalar bytes value) ∨
        ∃ inner later, reader = some inner ∧
          (input = blanks ++ 0x5B :: later ∧
              Form.value.readList budget inner later = .ok (value, rest) ∨
            input = blanks ++ 0x7B :: later ∧
              Form.value.readObject budget inner later = .ok (value, rest))) := by
  unfold readOver at read
  split at read
  next => cases read
  next byte later found =>
    obtain ⟨blanks, blank, rfl⟩ := exists_of_skipBlanks found
    refine ⟨blanks, blank, ?_⟩
    split at read
    next quote =>
      obtain ⟨bytes, same, spells⟩ := text_sound read
      exact .inl ⟨bytes, by rw [quote, same], spells⟩
    split at read
    next bracket =>
      split at read
      next => cases read
      next inner => exact .inr ⟨inner, later, rfl, .inl ⟨by rw [bracket], read⟩⟩
    split at read
    next brace =>
      split at read
      next => cases read
      next inner => exact .inr ⟨inner, later, rfl, .inr ⟨by rw [brace], read⟩⟩
    split at read
    next letter =>
      obtain ⟨rfl, rfl⟩ := readWord_sound read
      exact .inl ⟨_, by rw [letter]; rfl, .null⟩
    split at read
    next letter =>
      obtain ⟨rfl, rfl⟩ := readWord_sound read
      exact .inl ⟨_, by rw [letter]; rfl, .yes⟩
    split at read
    next letter =>
      obtain ⟨rfl, rfl⟩ := readWord_sound read
      exact .inl ⟨_, by rw [letter]; rfl, .no⟩
    split at read
    next =>
      obtain ⟨bytes, same, spells⟩ := number_sound read
      exact .inl ⟨bytes, by rw [same], spells⟩
    next => cases read

theorem readOver_of_scalar (spells : SpellsScalar bytes value) (blank : IsBlanks blanks)
    (ends : EndsNumeral rest) (budget : Nat) (reader : Option (Reader Value)) :
    Form.value.readOver budget reader (blanks ++ (bytes ++ rest)) = .ok (value, rest) := by
  cases spells with
  | null => exact readOver_null _ blank ..
  | yes => exact readOver_true _ blank ..
  | no => exact readOver_false _ blank ..
  | text spells =>
      obtain ⟨later, rfl, read⟩ := spells.exists_cons
      rw [List.cons_append, readOver_quote _ blank]
      change (Json.text (later ++ rest)).map _ = _
      rw [read]
      rfl
  | number spells denotes =>
      have read := spells.read ends .endOfValue
      obtain ⟨byte, later, rfl, first⟩ := spells.exists_cons
      rw [List.cons_append] at read ⊢
      rw [readOver_number _ blank _ _ _ first]
      change (numberAt _).map _ = _
      rw [numberAt, read]
      dsimp only
      rw [denotes]
      rfl

theorem readOver_of_list (recognizes : Recognizes size SpellsInner inner)
    (begins : BeginsWith IsVisible SpellsInner) {elements : List Value}
    (spells : SpellsBetween 0x5B 0x5D SpellsInner bytes elements) (fits : bytes.length ≤ size)
    (blank : IsBlanks blanks) (rest : List UInt8) :
    Form.value.readOver size (some inner) (blanks ++ (bytes ++ rest)) =
      .ok (.list elements, rest) := by
  obtain ⟨later, rfl, read⟩ := spells.listOf (element_goesOn recognizes.complete) begins
    (leads_foldl _ [] elements) (Nat.le_succ_of_le fits) fits Form.value.bracketAfterComma
  rw [List.cons_append, readOver_bracket _ blank, readList, read]
  dsimp only
  rw [foldl_cons_reverse]
  rfl

theorem readOver_of_object (recognizes : Recognizes size SpellsInner inner)
    {members : List (String × Value)}
    (spells : SpellsBetween 0x7B 0x7D (SpellsMember SpellsInner) bytes members)
    (fits : bytes.length ≤ size) (blank : IsBlanks blanks) (rest : List UInt8) :
    Form.value.readOver size (some inner) (blanks ++ (bytes ++ rest)) =
      .ok (.object members, rest) := by
  obtain ⟨later, rfl, read⟩ := spells.objectOf (member_goesOn recognizes) spellsMember_begins
    (leads_foldl _ [] members) (Nat.le_succ_of_le fits) fits Form.value.braceAfterComma
    Form.value.endAfterComma
  rw [List.cons_append, readOver_brace _ blank, readObject, read]
  dsimp only
  rw [foldl_cons_reverse]
  rfl

theorem readOver_none_recognizes (size : Nat) :
    Recognizes size SpellsScalar (Form.value.readOver size none) where
  sound := by
    intro input value rest read
    obtain ⟨blanks, blank, ⟨bytes, same, spells⟩ | ⟨inner, later, absurdity, -⟩⟩ :=
      readOver_cases read
    · exact ⟨blanks, bytes, blank, same, spells⟩
    · cases absurdity
  complete := fun bytes value spells _ blanks rest blank ends =>
    readOver_of_scalar spells blank ends size none

theorem readOver_some_recognizes (recognizes : Recognizes size SpellsInner inner)
    (begins : BeginsWith IsVisible SpellsInner) :
    Recognizes size (SpellsOver SpellsInner) (Form.value.readOver size (some inner)) where
  sound := by
    intro input value rest read
    obtain ⟨blanks, blank, ⟨bytes, same, spells⟩ | ⟨reader, later, isInner, container⟩⟩ :=
      readOver_cases read
    · exact ⟨blanks, bytes, blank, same, .scalar spells⟩
    obtain rfl := Option.some.inj isInner
    rcases container with list | object
    · obtain ⟨bytes, same, spells⟩ := readList_sound recognizes list.2
      exact ⟨blanks, bytes, blank, by rw [list.1, same], spells⟩
    · obtain ⟨bytes, same, spells⟩ := readObject_sound recognizes object.2
      exact ⟨blanks, bytes, blank, by rw [object.1, same], spells⟩
  complete := by
    intro bytes value spells fits blanks rest blank ends
    cases spells with
    | scalar spells => exact readOver_of_scalar spells blank ends size (some inner)
    | list spells => exact readOver_of_list recognizes begins spells fits blank rest
    | object spells => exact readOver_of_object recognizes spells fits blank rest

theorem read_recognizes (size depth : Nat) :
    Recognizes size (Spells depth) (Form.value.read size depth) := by
  induction depth with
  | zero => exact readOver_none_recognizes size
  | succ depth inductive_step => exact readOver_some_recognizes inductive_step (spells_begins depth)

end Form

theorem Takes.readDocument {α : Type} {reader : Reader α} {before bytes after : List UInt8}
    {value : α} (takes : Takes reader bytes value) (blankBefore : IsBlanks before)
    (blankAfter : IsBlanks after) :
    readDocument reader (before ++ (bytes ++ after)) = .ok value := by
  have ends : EndsNumeral (after ++ []) :=
    blankAfter.endsNumeral fun _ absurdity => by cases absurdity
  rw [List.append_nil] at ends
  have nothing : skipBlanks after = [] := List.dropWhile_eq_nil_iff.mpr blankAfter
  rw [Json.readDocument, takes blankBefore ends]
  dsimp only
  rw [nothing]

/-- A document is read as a value if and only if it holds the value. -/
theorem Value.ofBytes_eq_ok_iff {document : List UInt8} {value : Value} :
    Value.ofBytes document = .ok value ↔ Holds document value := by
  have recognizes := Form.read_recognizes document.length deepest
  constructor
  · intro read
    unfold Value.ofBytes readDocument at read
    split at read
    next => cases read
    next rest found =>
      split at read
      next nothing =>
        obtain rfl := Except.ok.inj read
        obtain ⟨before, bytes, blankBefore, same, spells⟩ := recognizes.sound found
        obtain ⟨after, blankAfter, rfl⟩ := exists_of_skipBlanks nothing
        rw [List.append_nil] at same
        exact ⟨before, bytes, after, same, blankBefore, blankAfter, spells⟩
      next => cases read
  · rintro ⟨before, bytes, after, same, blankBefore, blankAfter, spells⟩
    have fits : bytes.length ≤ document.length := by
      rw [same]
      simp only [List.length_append]
      omega
    have takes : Takes (values document.length) bytes value := recognizes.complete spells fits
    have read := takes.readDocument blankBefore blankAfter
    rw [← same] at read
    exact read

end WorkoutBoard.Json
