import Mathlib.Data.List.Nodup
import WorkoutBoard.Json.Record
import WorkoutBoard.Proofs.Json.Ignored
import WorkoutBoard.Proofs.Json.Integer
import WorkoutBoard.Proofs.Json.Object

/-!
# How records are written

A `Layout` says what the fields of a record may be written as. Its texts are all objects that have
each field once, in any order and among other members, and the lists of all fields in their order.
A shape that gathers the fields of a layout reads every such text as the record
(`Shape.Gathers.takes`).
-/

namespace WorkoutBoard.Json

open Text.Utf8 (encode)

/-! ## Values of fields -/

theorem textValue_takes {bytes : List UInt8} {value : String} (spells : SpellsText bytes value) :
    Takes textValue bytes value := by
  intro blanks rest blank _
  obtain ⟨later, rfl, read⟩ := spells.exists_cons
  rw [List.cons_append, textValue, blank.skip_cons rfl]
  exact read rest

def SpellsInteger (bytes : List UInt8) (value : Int64) : Prop := bytes = decimalBytes value.toInt

theorem SpellsInteger.exists_cons {bytes : List UInt8} {value : Int64}
    (spells : SpellsInteger bytes value) :
    ∃ byte later, bytes = byte :: later ∧ (byte = 0x2D ∨ isDigit byte = true) := by
  obtain ⟨numeral, isNumeral, -⟩ := exists_numeral value.le_toInt value.toInt_lt
  obtain rfl := spells
  exact isNumeral.exists_cons

theorem int64Value_takes {bytes : List UInt8} {value : Int64}
    (spells : SpellsInteger bytes value) : Takes int64Value bytes value := by
  intro blanks rest blank ends
  have read := numberAt_decimalBytes value.le_toInt value.toInt_lt ends
  obtain ⟨byte, later, same, first⟩ := spells.exists_cons
  rw [SpellsInteger.eq_1] at spells
  rw [← spells, same, List.cons_append] at read
  rw [same, List.cons_append, int64Value,
    blank.skip_cons (visible_of_isMinus_or_isDigit first)]
  dsimp only
  rw [if_pos first, read]
  dsimp only
  rw [if_pos ⟨value.le_toInt, value.toInt_lt⟩, Int64.ofInt_toInt]

inductive SpellsOptional {α : Type} (SpellsInner : List UInt8 → α → Prop) :
    List UInt8 → Option α → Prop where
  | null : SpellsOptional SpellsInner (0x6E :: nullTail) none
  | present {bytes : List UInt8} {value : α} (spells : SpellsInner bytes value) :
      SpellsOptional SpellsInner bytes (some value)

def IsVisibleLetter (byte : UInt8) : Prop := IsVisible byte ∧ byte ≠ 0x6E

instance (byte : UInt8) : Decidable (IsVisibleLetter byte) := inferInstanceAs (Decidable (_ ∧ _))

theorem spellsText_begins : BeginsWith IsVisibleLetter SpellsText := by
  intro bytes text spells
  obtain ⟨later, rfl, -⟩ := spells.exists_cons
  exact ⟨_, _, rfl, by decide⟩

theorem spellsInteger_begins : BeginsWith IsVisibleLetter SpellsInteger := by
  intro bytes value spells
  obtain ⟨byte, later, same, first⟩ := spells.exists_cons
  have differs := ne_of_isMinus_or_isDigit first
  exact ⟨byte, later, same, ⟨visible_of_isMinus_or_isDigit first, differs 0x5D (by decide)⟩,
    differs 0x6E (by decide)⟩

section

variable {α : Type} {SpellsInner : List UInt8 → α → Prop}
  (begins : BeginsWith IsVisibleLetter SpellsInner)

include begins

theorem BeginsWith.visible : BeginsWith IsVisible SpellsInner := by
  intro bytes value spells
  obtain ⟨byte, later, same, visible, -⟩ := begins spells
  exact ⟨byte, later, same, visible⟩

theorem BeginsWith.optional : BeginsWith IsVisible (SpellsOptional SpellsInner) := by
  intro bytes value spells
  cases spells with
  | null => exact ⟨_, _, rfl, by decide⟩
  | present spells => exact begins.visible spells

theorem optionalValue_takes {inner : Reader α}
    (takes : ∀ ⦃bytes value⦄, SpellsInner bytes value → Takes inner bytes value)
    {bytes : List UInt8} {value : Option α} (spells : SpellsOptional SpellsInner bytes value) :
    Takes (optionalValue inner) bytes value := by
  intro blanks rest blank ends
  cases spells with
  | null =>
      rw [List.cons_append, optionalValue, blank.skip_cons rfl]
      rfl
  | present spells =>
      have read := takes spells isBlanks_nil ends
      obtain ⟨byte, later, rfl, ⟨visible, -⟩, notNull⟩ := begins spells
      rw [List.nil_append, List.cons_append] at read
      rw [List.cons_append, optionalValue, blank.skip_cons visible]
      split
      next absurdity => exact absurd (List.cons.inj absurdity).1 notNull
      next => rw [read]

end

/-! ## Layouts -/

/-- What a field may be written as, and whether it may not be left out. -/
structure FieldLayout where
  name : String
  isRequired : Bool
  Spells : List UInt8 → Prop

structure Layout where
  fields : List FieldLayout

namespace Layout

def names (layout : Layout) : List String := layout.fields.map FieldLayout.name

/-- A member of an object, with the bytes of its value: a field, or any JSON text under another
name. -/
structure Allows (layout : Layout) (member : String × List UInt8) : Prop where
  field : ∀ field ∈ layout.fields, field.name = member.1 → field.Spells member.2
  other : member.1 ∉ layout.names → IsJsonText member.2

/-- Members that hold each field at most once, in any order and among others. A field that is not
required may be missing. -/
structure Holds (layout : Layout) (members : List (String × List UInt8)) : Prop where
  allowed : ∀ member ∈ members, layout.Allows member
  once : members.Pairwise fun earlier later => earlier.1 = later.1 → earlier.1 ∉ layout.names
  complete : ∀ field ∈ layout.fields, field.isRequired = true → field.name ∈ members.map Prod.fst

inductive Spells (layout : Layout) : List UInt8 → Prop where
  | object {bytes : List UInt8} {members : List (String × List UInt8)}
      (spells : SpellsBetween 0x7B 0x7D (SpellsPair SpellsText Eq) bytes members)
      (holds : layout.Holds members) : Spells layout bytes
  | list {bytes : List UInt8}
      (spells : SpellsBetween 0x5B 0x5D (fun bytes field => field.Spells bytes) bytes
        layout.fields) : Spells layout bytes

theorem Spells.exists_cons {layout : Layout} {bytes : List UInt8} (spells : layout.Spells bytes) :
    ∃ byte later, bytes = byte :: later ∧ IsVisible byte := by
  cases spells with
  | object spells _ =>
      obtain ⟨later, rfl⟩ := spells.exists_cons
      exact ⟨_, _, rfl, by decide⟩
  | list spells =>
      obtain ⟨later, rfl⟩ := spells.exists_cons
      exact ⟨_, _, rfl, by decide⟩

namespace Holds

variable {layout : Layout} {members others : List (String × List UInt8)}

theorem perm (holds : layout.Holds members) (permuted : members.Perm others) :
    layout.Holds others where
  allowed := fun member inside => holds.allowed member (permuted.mem_iff.mpr inside)
  once := permuted.pairwise holds.once fun apart same => same ▸ apart same.symm
  complete := fun field inside isRequired =>
    (permuted.map Prod.fst).mem_iff.mp (holds.complete field inside isRequired)

theorem cons_other (holds : layout.Holds members) {name : String} {bytes : List UInt8}
    (unknown : name ∉ layout.names) (isText : IsJsonText bytes) :
    layout.Holds ((name, bytes) :: members) where
  allowed := by
    intro member inside
    rcases List.mem_cons.mp inside with rfl | inside
    · refine ⟨fun field isField named => absurd ?_ unknown, fun _ => isText⟩
      exact List.mem_map.mpr ⟨field, isField, named⟩
    · exact holds.allowed member inside
  once := List.pairwise_cons.mpr ⟨fun _ _ _ => unknown, holds.once⟩
  complete := fun field inside isRequired =>
    List.mem_cons_of_mem _ (holds.complete field inside isRequired)

end Holds

def IsDocument (layout : Layout) (document : List UInt8) : Prop :=
  ∃ before bytes after, document = before ++ (bytes ++ after) ∧ IsBlanks before ∧
    IsBlanks after ∧ layout.Spells bytes

end Layout

/-! ## Gathering -/

/-- What a draft holds of a field: its value, if the field has been seen. -/
def kept {α : Type} (name : String) (value : α) (seen : List String) : Option α :=
  if name ∈ seen then some value else none

section

variable {α : Type} {name other : String} {value : α} {seen : List String}

@[simp] theorem kept_nil : kept name value [] = none := if_neg List.not_mem_nil

theorem kept_of_mem (isSeen : name ∈ seen) : kept name value seen = some value := if_pos isSeen

theorem kept_of_not_mem (isNew : name ∉ seen) : kept name value seen = none := if_neg isNew

@[simp] theorem kept_cons_self : kept name value (name :: seen) = some value :=
  kept_of_mem (List.mem_cons_self ..)

theorem kept_cons_of_ne (differs : other ≠ name) :
    kept name value (other :: seen) = kept name value seen := by
  simp only [kept, List.mem_cons, differs.symm, false_or]

theorem kept_getD {value : Option α} (present : value.isSome = true → name ∈ seen) :
    (kept name value seen).getD none = value := by
  cases value with
  | none =>
      rw [kept]
      split <;> rfl
  | some inner =>
      rw [kept_of_mem (present rfl)]
      rfl

end

/-- Each draft comes from the names that are seen, and a field takes its texts to the draft of one
more name. -/
structure Field.Gathers {δ : Type} (size : Nat) (draft : List String → δ) (field : Field δ)
    (layout : FieldLayout) : Prop where
  sameName : field.name = layout.name
  unfilled : ∀ ⦃seen⦄, layout.name ∉ seen → field.isFilled (draft seen) = false
  takes : ∀ ⦃bytes⦄, layout.Spells bytes → bytes.length ≤ size → ∀ seen,
    Takes (field.read size (draft seen)) bytes (draft (layout.name :: seen))
  begins : ∀ ⦃bytes⦄, layout.Spells bytes →
    ∃ byte later, bytes = byte :: later ∧ IsVisible byte

theorem Field.of_gathers {δ α : Type} {size : Nat} {draft : List String → δ} {name : String}
    {isRequired : Bool} {get : δ → Option α} {set : δ → α → δ} {reader : Nat → Reader α}
    {SpellsField : List UInt8 → Prop} {value : α}
    (isKept : ∀ seen, get (draft seen) = kept name value seen)
    (keeps : ∀ seen, set (draft seen) value = draft (name :: seen))
    (takes : ∀ ⦃bytes⦄, SpellsField bytes → bytes.length ≤ size →
      Takes (reader size) bytes value)
    (begins : ∀ ⦃bytes⦄, SpellsField bytes →
      ∃ byte later, bytes = byte :: later ∧ IsVisible byte) :
    (Field.of name get set reader).Gathers size draft ⟨name, isRequired, SpellsField⟩ where
  sameName := rfl
  unfilled := by
    intro seen isNew
    change (get (draft seen)).isSome = false
    rw [isKept, kept_of_not_mem isNew]
    rfl
  takes := by
    intro bytes spells fits seen blanks rest blank ends
    have read := takes spells fits blank ends
    rw [Field.of]
    dsimp only
    rw [read]
    dsimp only
    rw [keeps]
  begins := begins

theorem Field.gathers_text {δ : Type} {size : Nat} {draft : List String → δ} {name : String}
    {isRequired : Bool} {get : δ → Option String} {set : δ → String → δ} {value : String}
    (isKept : ∀ seen, get (draft seen) = kept name value seen)
    (keeps : ∀ seen, set (draft seen) value = draft (name :: seen)) :
    (Field.of name get set fun _ => textValue).Gathers size draft
      ⟨name, isRequired, fun bytes => SpellsText bytes value⟩ :=
  Field.of_gathers isKept keeps (fun _ spells _ => textValue_takes spells)
    fun _ spells => spellsText_begins.visible spells

/-- A shape gathers the fields of a layout in drafts, and finishes the record when it has seen all
that may not be left out. -/
structure Shape.Gathers {δ α : Type} (shape : Shape δ α) (layout : Layout) (record : α)
    (size : Nat) (draft : List String → δ) : Prop where
  fields : List.Forall₂ (Field.Gathers size draft) shape.fields layout.fields
  blank : shape.blank = draft []
  others : ∀ ⦃name⦄, name ∉ layout.names → ∀ seen, draft (name :: seen) = draft seen
  finish : ∀ ⦃seen⦄, (∀ field ∈ layout.fields, field.isRequired = true → field.name ∈ seen) →
    shape.finish (draft seen) = .ok record

namespace Shape

section

variable {δ α : Type} {shape : Shape δ α} {layout : Layout} {record : α} {size : Nat}
  {draft : List String → δ}

theorem find?_cases {fields : List (Field δ)} {layouts : List FieldLayout}
    (gathers : List.Forall₂ (Field.Gathers size draft) fields layouts) (name : String) :
    (∃ field spelled, fields.find? (fun field => field.name == name) = some field ∧
        spelled ∈ layouts ∧ spelled.name = name ∧ field.Gathers size draft spelled) ∨
      fields.find? (fun field => field.name == name) = none ∧
        name ∉ layouts.map FieldLayout.name := by
  induction gathers with
  | nil => exact .inr ⟨rfl, List.not_mem_nil⟩
  | @cons field spelled fields layouts first _ inductive_step =>
      rw [List.find?_cons, List.map_cons, List.mem_cons]
      by_cases same : field.name = name
      · rw [beq_iff_eq.mpr same]
        exact .inl ⟨field, spelled, rfl, List.mem_cons_self .., first.sameName ▸ same, first⟩
      · rw [beq_eq_false_iff_ne.mpr same]
        rcases inductive_step with ⟨found, other, isFound, inside, sameName, gathers⟩ | ⟨none, new⟩
        · exact .inl ⟨found, other, isFound, List.mem_cons_of_mem _ inside, sameName, gathers⟩
        · refine .inr ⟨none, fun either => either.elim (fun named => same ?_) new⟩
          rw [named, first.sameName]

def Adds (layout : Layout) (draft : List String → δ) (before : δ)
    (member : String × List UInt8) (after : δ) : Prop :=
  ∃ seen, before = draft seen ∧ after = draft (member.1 :: seen) ∧ layout.Allows member ∧
    (member.1 ∈ layout.names → member.1 ∉ seen)

theorem Gathers.member_goesOn (gathers : shape.Gathers layout record size draft) :
    GoesOn size [0x22] (SpellsPair SpellsText Eq) (Adds layout draft) (shape.member size) := by
  rintro bytes member spells fits _ _ ⟨seen, rfl, rfl, allowed, new⟩ input rest same ends
  obtain ⟨afterName, after, back, named, separated, blankAfter, isBack, shorter⟩ :=
    spells.read text_takesNames same
  have room : back.length ≤ size := Nat.le_trans shorter fits
  rw [Shape.member, named]
  dsimp only
  rcases find?_cases gathers.fields member.1 with
    ⟨field, spelled, found, inside, sameName, fieldGathers⟩ | ⟨none, unknown⟩
  · have isNew : spelled.name ∉ seen := by
      rw [sameName]
      exact new (List.mem_map.mpr ⟨spelled, inside, sameName⟩)
    have isField : spelled.Spells back := isBack ▸ allowed.field spelled inside sameName
    rw [found]
    dsimp only
    rw [fieldGathers.unfilled isNew, separated, ← sameName]
    exact fieldGathers.takes isField room seen blankAfter ends
  · rw [none]
    dsimp only
    rw [separated]
    dsimp only
    rw [skipped_takes (isBack ▸ allowed.other unknown) room blankAfter ends,
      gathers.others unknown seen]
    rfl

theorem leads_of_holds {members : List (String × List UInt8)}
    (allowed : ∀ member ∈ members, layout.Allows member)
    (once : members.Pairwise fun earlier later => earlier.1 = later.1 → earlier.1 ∉ layout.names)
    {seen : List String} (new : ∀ member ∈ members, member.1 ∈ layout.names → member.1 ∉ seen) :
    Leads (Adds layout draft) (draft seen) members
      (draft ((members.map Prod.fst).reverse ++ seen)) := by
  induction members generalizing seen with
  | nil => exact .nil _
  | cons member later inductive_step =>
      obtain ⟨apart, once⟩ := List.pairwise_cons.mp once
      obtain ⟨isAllowed, allowed⟩ := List.forall_mem_cons.mp allowed
      obtain ⟨isNew, new⟩ := List.forall_mem_cons.mp new
      rw [List.map_cons, List.reverse_cons, List.append_assoc, List.singleton_append]
      refine .cons ⟨seen, rfl, rfl, isAllowed, isNew⟩ (inductive_step allowed once ?_)
      intro other inside isField isSeen
      rcases List.mem_cons.mp isSeen with same | isSeen
      · exact apart other inside same.symm (same ▸ isField)
      · exact new other inside isField isSeen

theorem Gathers.readObject (gathers : shape.Gathers layout record size draft)
    {bytes : List UInt8} {members : List (String × List UInt8)}
    (spells : SpellsBetween 0x7B 0x7D (SpellsPair SpellsText Eq) bytes members)
    (holds : layout.Holds members) (fits : bytes.length ≤ size) :
    ∃ later, bytes = 0x7B :: later ∧ ∀ rest,
      shape.readObject size (later ++ rest) = .ok (record, rest) := by
  have leads : Leads (Adds layout draft) (draft []) members
      (draft ((members.map Prod.fst).reverse ++ [])) :=
    leads_of_holds holds.allowed holds.once fun _ _ _ => List.not_mem_nil
  rw [List.append_nil] at leads
  obtain ⟨later, rfl, read⟩ := spells.objectOf gathers.member_goesOn
    (text_takesNames.begins Eq) leads (Nat.le_succ_of_le fits) fits .trailingComma .endOfValue
  refine ⟨later, rfl, fun rest => ?_⟩
  have finish := gathers.finish fun field inside isRequired =>
    List.mem_reverse.mpr (holds.complete field inside isRequired)
  rw [Shape.readObject, gathers.blank, read]
  dsimp only
  rw [finish]

theorem nextElement_first {byte : UInt8} (visible : IsVisible byte) {blanks : List UInt8}
    (blank : IsBlanks blanks) (rest : List UInt8) :
    nextElement true (blanks ++ byte :: rest) = .ok (some (byte :: rest)) := by
  rw [nextElement, blank.skip_cons visible.1]
  dsimp only
  rw [if_neg visible.2, if_pos rfl]

theorem nextElement_later {byte : UInt8} (visible : IsVisible byte) {before after : List UInt8}
    (blankBefore : IsBlanks before) (blankAfter : IsBlanks after) (rest : List UInt8) :
    nextElement false (before ++ 0x2C :: (after ++ byte :: rest)) = .ok (some (byte :: rest)) := by
  rw [nextElement, blankBefore.skip_cons rfl]
  dsimp only
  rw [if_neg (by decide), if_neg Bool.false_ne_true, if_pos rfl, blankAfter.skip_cons visible.1]
  dsimp only
  rw [if_neg visible.2]

theorem exists_cons_of_series {bytes : List UInt8} {layouts : List FieldLayout}
    {fields : List (Field δ)}
    (spells : SpellsSeries (fun bytes field => field.Spells bytes) bytes layouts)
    (gathers : List.Forall₂ (Field.Gathers size draft) fields layouts) :
    ∃ byte later, bytes = byte :: later ∧ IsVisible byte := by
  cases spells with
  | last only =>
      cases gathers with
      | cons first _ => exact first.begins only
  | cons isFirst _ _ _ =>
      cases gathers with
      | cons first _ =>
          obtain ⟨byte, later, rfl, visible⟩ := first.begins isFirst
          exact ⟨byte, _, rfl, visible⟩

/-- Fields are filled by their texts in order. Each is found at the input that `nextElement` gives,
whatever stands before it. -/
theorem fill_of_spells {bytes after : List UInt8} {layouts : List FieldLayout}
    (spells : SpellsSeries (fun bytes field => field.Spells bytes) bytes layouts)
    (blankAfter : IsBlanks after) (fits : bytes.length ≤ size) {rest : List UInt8} :
    ∀ {fields : List (Field δ)}, List.Forall₂ (Field.Gathers size draft) fields layouts →
      ∀ (count : Nat) (seen : List String) {input : List UInt8},
        nextElement (count == 0) input = .ok (some (bytes ++ (after ++ 0x5D :: rest))) →
        fill size count (draft seen) fields input =
          .ok ((count + layouts.length,
            draft ((layouts.map FieldLayout.name).reverse ++ seen)), after ++ 0x5D :: rest) := by
  -- A turn ends before the comma, which the next one passes: hence the count and the input of a
  -- turn are arbitrary.
  induction spells with
  | last only =>
      intro fields gathers count seen input next
      cases gathers with
      | cons first none =>
          cases none
          have ends := blankAfter.endsNumeral (endsNumeral_cons (.inr (.inl rfl)) rest)
          have read := first.takes only fits seen isBlanks_nil ends
          rw [List.nil_append] at read
          rw [fill, next]
          dsimp only
          rw [read]
          rfl
  | @cons front before between back field later isFirst blankBefore blankBetween others
      inductive_step =>
      intro fields gathers count seen input next
      cases gathers with
      | @cons reader _ readers _ first more =>
          simp only [List.length_append, List.length_cons] at fits
          obtain ⟨byte, following, rfl, visible⟩ := exists_cons_of_series others more
          have ends := blankBefore.endsNumeral (endsNumeral_cons (.inl rfl)
            (between ++ byte :: (following ++ (after ++ 0x5D :: rest))))
          have read := first.takes isFirst (by omega) seen isBlanks_nil ends
          have nextLater : nextElement (count + 1 == 0)
              (before ++ 0x2C :: (between ++ byte :: (following ++ (after ++ 0x5D :: rest)))) =
                .ok (some (byte :: following ++ (after ++ 0x5D :: rest))) :=
            nextElement_later visible blankBefore blankBetween _
          have filled := inductive_step (by omega) more (count + 1) (field.name :: seen) nextLater
          simp only [List.nil_append, List.append_assoc, List.cons_append] at read next
          rw [fill, next]
          dsimp only
          rw [read]
          dsimp only
          rw [filled, List.map_cons, List.reverse_cons, List.append_assoc, List.singleton_append,
            List.length_cons, Nat.add_right_comm, Nat.add_assoc]

theorem closeList_of_blanks {blanks : List UInt8} (blank : IsBlanks blanks) (rest : List UInt8) :
    closeList (blanks ++ 0x5D :: rest) = .ok rest := by
  rw [closeList, blank.skip_cons rfl]
  rfl

theorem Gathers.readList (gathers : shape.Gathers layout record size draft) {bytes : List UInt8}
    (spells : SpellsBetween 0x5B 0x5D (fun bytes field => field.Spells bytes) bytes layout.fields)
    (fits : bytes.length ≤ size) :
    ∃ later, bytes = 0x5B :: later ∧ ∀ rest,
      shape.readList size (later ++ rest) = .ok (record, rest) := by
  have fields := gathers.fields
  have finish : shape.finish (draft (layout.fields.map FieldLayout.name).reverse) = .ok record :=
    gathers.finish fun field inside _ => List.mem_reverse.mpr (List.mem_map_of_mem inside)
  -- The list has the fields of the layout and no others, so that the cases are about these.
  generalize layout.fields = layouts at spells fields finish
  cases spells with
  | @empty blanks blank =>
      refine ⟨_, rfl, fun rest => ?_⟩
      have none := List.forall₂_nil_right_iff.mp fields
      rw [List.append_assoc, List.singleton_append, Shape.readList, gathers.blank, none, fill]
      dsimp only
      rw [show shape.finish (draft []) = .ok record from finish]
      dsimp only
      rw [closeList_of_blanks blank]
  | @series before bytes after _ blankBefore spells blankAfter =>
      refine ⟨_, rfl, fun rest => ?_⟩
      simp only [List.length_cons, List.length_append] at fits
      obtain ⟨byte, later, rfl, visible⟩ := exists_cons_of_series spells fields
      have next := nextElement_first visible blankBefore (later ++ (after ++ 0x5D :: rest))
      have filled := fill_of_spells spells blankAfter (by omega) fields 0 [] next
      simp only [List.append_assoc, List.cons_append, List.nil_append, List.append_nil] at filled ⊢
      rw [Shape.readList, gathers.blank, filled]
      dsimp only
      rw [finish]
      dsimp only
      rw [closeList_of_blanks blankAfter]

theorem Gathers.takes (gathers : shape.Gathers layout record size draft) {bytes : List UInt8}
    (spells : layout.Spells bytes) (fits : bytes.length ≤ size) :
    Takes (shape.read size) bytes record := by
  intro blanks rest blank ends
  cases spells with
  | object spells holds =>
      obtain ⟨later, rfl, read⟩ := gathers.readObject spells holds fits
      rw [List.cons_append, Shape.read, blank.skip_cons rfl]
      exact read rest
  | list spells =>
      obtain ⟨later, rfl, read⟩ := gathers.readList spells fits
      rw [List.cons_append, Shape.read, blank.skip_cons rfl]
      exact read rest

theorem readDocument_of_isDocument (gathers : ∀ size, shape.Gathers layout record size draft)
    {document : List UInt8} (isDocument : layout.IsDocument document) :
    readDocument (shape.read document.length) document = .ok record := by
  obtain ⟨before, bytes, after, same, blankBefore, blankAfter, spells⟩ := isDocument
  have fits : bytes.length ≤ document.length := by
    rw [same]
    simp only [List.length_append]
    omega
  have read := ((gathers document.length).takes spells fits).readDocument blankBefore blankAfter
  rw [← same] at read
  exact read

end

end Shape

/-! ## Compact texts -/

inductive WritesFields : List FieldLayout → List (String × List UInt8) → Prop where
  | nil : WritesFields [] []
  | written {field : FieldLayout} {fields : List FieldLayout} {bytes : List UInt8}
      {members : List (String × List UInt8)} (spells : field.Spells bytes)
      (later : WritesFields fields members) :
      WritesFields (field :: fields) ((field.name, bytes) :: members)
  | omitted {field : FieldLayout} {fields : List FieldLayout}
      {members : List (String × List UInt8)} (optional : field.isRequired = false)
      (later : WritesFields fields members) : WritesFields (field :: fields) members

namespace WritesFields

variable {fields : List FieldLayout} {members : List (String × List UInt8)}

theorem sublist (writes : WritesFields fields members) :
    (members.map Prod.fst).Sublist (fields.map FieldLayout.name) := by
  induction writes with
  | nil => exact .slnil
  | written _ _ inductive_step => exact inductive_step.cons_cons _
  | omitted _ _ inductive_step => exact inductive_step.cons _

theorem spells (writes : WritesFields fields members) {member : String × List UInt8}
    (inside : member ∈ members) :
    ∃ field ∈ fields, field.name = member.1 ∧ field.Spells member.2 := by
  induction writes with
  | nil => cases inside
  | @written field _ _ _ spells _ inductive_step =>
      rcases List.mem_cons.mp inside with rfl | inside
      · exact ⟨field, List.mem_cons_self .., rfl, spells⟩
      · obtain ⟨other, isField, found⟩ := inductive_step inside
        exact ⟨other, List.mem_cons_of_mem _ isField, found⟩
  | omitted _ _ inductive_step =>
      obtain ⟨other, isField, found⟩ := inductive_step inside
      exact ⟨other, List.mem_cons_of_mem _ isField, found⟩

theorem complete (writes : WritesFields fields members) {field : FieldLayout}
    (inside : field ∈ fields) (isRequired : field.isRequired = true) :
    field.name ∈ members.map Prod.fst := by
  induction writes with
  | nil => cases inside
  | written _ _ inductive_step =>
      rcases List.mem_cons.mp inside with rfl | inside
      · exact List.mem_cons_self ..
      · exact List.mem_cons_of_mem _ (inductive_step inside)
  | omitted optional _ inductive_step =>
      rcases List.mem_cons.mp inside with rfl | inside
      · rw [optional] at isRequired
        cases isRequired
      · exact inductive_step inside

theorem holds {layout : Layout} (writes : WritesFields layout.fields members)
    (apart : layout.names.Nodup) : layout.Holds members where
  allowed := by
    intro member inside
    obtain ⟨field, isField, sameName, spells⟩ := writes.spells inside
    refine ⟨fun other isOther named => ?_, fun unknown => ?_⟩
    · rw [List.inj_on_of_nodup_map apart isOther isField (named.trans sameName.symm)]
      exact spells
    · exact absurd (sameName ▸ List.mem_map_of_mem isField) unknown
  once := by
    have differ := List.pairwise_map.mp (apart.sublist writes.sublist)
    exact differ.imp fun differs same => absurd same differs
  complete := fun _ inside isRequired => writes.complete inside isRequired

end WritesFields

def compactMember (member : String × Value) : String × List UInt8 :=
  (member.1, encode member.2.characters)

theorem Layout.spells_compact {layout : Layout} {members : List (String × Value)}
    (apart : layout.names.Nodup)
    (writes : WritesFields layout.fields (members.map compactMember)) :
    layout.Spells (encode (Value.object members).characters) := by
  have spells : SpellsOver (fun bytes value => bytes = encode value.characters)
      (encode (Value.object members).characters) (.object members) :=
    spells_compact_object fun _ _ => rfl
  cases spells with
  | scalar absurdity => cases absurdity
  | object spells =>
      refine .object (spells.map compactMember fun bytes member spells => ?_) (writes.holds apart)
      cases spells with
      | mk named blankBefore blankAfter same => exact .mk named blankBefore blankAfter same

theorem Layout.Spells.isDocument {layout : Layout} {bytes : List UInt8}
    (spells : layout.Spells bytes) : layout.IsDocument bytes :=
  ⟨[], bytes, [], (List.append_nil _).symm, isBlanks_nil, isBlanks_nil, spells⟩

end WorkoutBoard.Json
