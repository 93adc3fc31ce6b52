import Mathlib.Data.List.Induction
import WorkoutBoard.Command.Arguments

/-!
# Options and the arguments around them

A list of arguments is in exactly one way a series of segments, perhaps with an option at the end
that has no value (`Split`). What is read depends only on the values that each option has in the
series, and of these only on the last one (`options_have_last_values`).
-/

namespace WorkoutBoard.Command

/-! ## Segments -/

theorem Flag.ofText?_text (flag : Flag) : Flag.ofText? flag.text = some flag := by
  cases flag <;> decide +kernel

theorem Flag.text_injective : Function.Injective Flag.text := by
  intro left right equal
  have read := Flag.ofText?_text left
  rw [equal, Flag.ofText?_text] at read
  exact (Option.some.inj read).symm

theorem Flag.eq_text_of_ofText? {argument : String} {flag : Flag}
    (read : Flag.ofText? argument = some flag) : argument = flag.text := by
  rw [Flag.ofText?] at read
  split at read
  next isCode => rwa [← Option.some.inj read]
  split at read
  next isKey => rwa [← Option.some.inj read]
  split at read
  next isDescription => rwa [← Option.some.inj read]
  next => cases read

theorem Flag.ne_text_of_ofText? {argument : String} (read : Flag.ofText? argument = none)
    (flag : Flag) : argument ≠ flag.text := by
  rintro rfl
  rw [Flag.ofText?_text] at read
  cases read

theorem Flag.ofText?_eq_none {argument : String} (ordinary : ∀ flag : Flag, argument ≠ flag.text) :
    Flag.ofText? argument = none := by
  cases read : Flag.ofText? argument with
  | none => rfl
  | some flag => exact absurd (Flag.eq_text_of_ofText? read) (ordinary flag)

/-- Arguments that belong together: one that is no option, or an option and whatever is next. -/
inductive Segment where
  | other (argument : String) (ordinary : ∀ flag : Flag, argument ≠ flag.text)
  | option (flag : Flag) (value : String)
deriving DecidableEq

namespace Segment

def arguments : Segment → List String
  | .other argument _ => [argument]
  | .option flag value => [flag.text, value]

def isOption : Segment → Bool
  | .other _ _ => false
  | .option _ _ => true

def valueOf? (flag : Flag) : Segment → Option String
  | .other _ _ => none
  | .option given value => if given = flag then some value else none

theorem arguments_append_inj {segment other : Segment} {rest later : List String}
    (equal : segment.arguments ++ rest = other.arguments ++ later) :
    segment = other ∧ rest = later := by
  cases segment with
  | other argument ordinary =>
      cases other with
      | other argument ordinary =>
          obtain ⟨rfl, same⟩ := List.cons.inj equal
          exact ⟨rfl, same⟩
      | option flag value => exact absurd (List.cons.inj equal).1 (ordinary flag)
  | option flag value =>
      cases other with
      | other argument ordinary => exact absurd (List.cons.inj equal).1.symm (ordinary flag)
      | option given second =>
          obtain ⟨first, afterFirst⟩ := List.cons.inj equal
          obtain ⟨rfl, same⟩ := List.cons.inj afterFirst
          rw [Flag.text_injective first]
          exact ⟨rfl, same⟩

end Segment

/-- A series of segments, and an option after them that has no value. -/
structure Split where
  segments : List Segment
  last : Option Flag
deriving DecidableEq

namespace Split

def arguments (split : Split) : List String :=
  split.segments.flatMap Segment.arguments ++ (split.last.map Flag.text).toList

def valuesOf (split : Split) (flag : Flag) : List String :=
  split.segments.filterMap (Segment.valueOf? flag)

def withoutOthers (split : Split) : Split :=
  { split with segments := split.segments.filter Segment.isOption }

/-- The segments have changed places, but not those of one option among themselves. -/
structure Rearranges (before after : Split) : Prop where
  segments : before.segments.Perm after.segments
  values : ∀ flag, before.valuesOf flag = after.valuesOf flag
  last : before.last = after.last

theorem arguments_cons (segment : Segment) (later : List Segment) (last : Option Flag) :
    (Split.mk (segment :: later) last).arguments =
      segment.arguments ++ (Split.mk later last).arguments := by
  rw [arguments, List.flatMap_cons, List.append_assoc, arguments]

theorem arguments_nil_ne (last : Option Flag) (segment : Segment) (rest : List String) :
    (Split.mk [] last).arguments ≠ segment.arguments ++ rest := by
  intro equal
  cases last with
  | none => cases segment <;> cases equal
  | some flag =>
      cases segment with
      | other argument ordinary => exact ordinary flag (List.cons.inj equal).1.symm
      | option given value => cases (List.cons.inj equal).2

theorem arguments_injective : Function.Injective arguments := by
  rintro ⟨segments, last⟩ ⟨others, final⟩ equal
  induction segments generalizing others with
  | nil =>
      cases others with
      | nil =>
          have texts : last.map Flag.text = final.map Flag.text := by
            have heads := congrArg List.head? equal
            rwa [arguments, arguments, List.flatMap_nil, List.nil_append, List.nil_append,
              Option.head?_toList, Option.head?_toList] at heads
          rw [Option.map_injective Flag.text_injective texts]
      | cons other rest =>
          rw [arguments_cons] at equal
          exact absurd equal (arguments_nil_ne last other _)
  | cons segment later inductive_step =>
      rw [arguments_cons] at equal
      cases others with
      | nil => exact absurd equal.symm (arguments_nil_ne final segment _)
      | cons other rest =>
          rw [arguments_cons] at equal
          obtain ⟨rfl, same⟩ := Segment.arguments_append_inj equal
          cases inductive_step rest same
          rfl

theorem exists_arguments_eq (list : List String) : ∃ split : Split, split.arguments = list := by
  induction list using List.twoStepInduction with
  | nil => exact ⟨⟨[], none⟩, rfl⟩
  | singleton last =>
      cases read : Flag.ofText? last with
      | none => exact ⟨⟨[.other last (Flag.ne_text_of_ofText? read)], none⟩, rfl⟩
      | some flag =>
          rw [Flag.eq_text_of_ofText? read]
          exact ⟨⟨[], some flag⟩, rfl⟩
  | cons_cons first second rest afterBoth afterFirst =>
      cases read : Flag.ofText? first with
      | none =>
          obtain ⟨⟨segments, last⟩, same⟩ := afterFirst second
          refine ⟨⟨.other first (Flag.ne_text_of_ofText? read) :: segments, last⟩, ?_⟩
          rw [arguments_cons, same]
          rfl
      | some flag =>
          obtain ⟨⟨segments, last⟩, same⟩ := afterBoth
          refine ⟨⟨.option flag second :: segments, last⟩, ?_⟩
          rw [arguments_cons, same, Flag.eq_text_of_ofText? read]
          rfl

end Split

/-! ## Reading -/

namespace Arguments

def value (arguments : Arguments) : Flag → Option String
  | .code => arguments.code
  | .key => arguments.key
  | .description => arguments.description

theorem ext_value {left right : Arguments} (same : ∀ flag, left.value flag = right.value flag) :
    left = right := by
  cases left
  cases right
  rw [mk.injEq]
  exact ⟨same .code, same .key, same .description⟩

theorem value_assign (arguments : Arguments) (flag other : Flag) (value : Option String) :
    (arguments.assign flag value).value other =
      if flag = other then value else arguments.value other := by
  cases flag <;> cases other <;> rfl

def take (arguments : Arguments) : Segment → Arguments
  | .other _ _ => arguments
  | .option flag value => arguments.assign flag (some value)

theorem value_take (arguments : Arguments) (segment : Segment) (flag : Flag) :
    (arguments.take segment).value flag =
      (segment.valueOf? flag).or (arguments.value flag) := by
  cases segment with
  | other argument ordinary => rfl
  | option given value =>
      rw [take, value_assign, Segment.valueOf?]
      split
      · rfl
      · rfl

theorem extend_segment (arguments : Arguments) (segment : Segment) (rest : List String) :
    arguments.extend (segment.arguments ++ rest) = (arguments.take segment).extend rest := by
  cases segment with
  | other argument ordinary =>
      have none := Flag.ofText?_eq_none ordinary
      cases rest with
      | nil =>
          change arguments.extend [argument] = arguments.extend []
          rw [extend, extend, none]
      | cons second later =>
          change arguments.extend (argument :: second :: later) = arguments.extend (second :: later)
          rw [extend, none]
  | option flag value =>
      change arguments.extend (flag.text :: value :: rest) = _
      rw [extend, Flag.ofText?_text, take]

theorem value_extend (arguments : Arguments) (split : Split) (flag : Flag) :
    (arguments.extend split.arguments).value flag =
      if split.last = some flag then none
      else (split.valuesOf flag).getLast?.or (arguments.value flag) := by
  obtain ⟨segments, last⟩ := split
  induction segments generalizing arguments with
  | nil =>
      cases last with
      | none => rfl
      | some final =>
          have ended : arguments.extend (Split.mk [] (some final)).arguments =
              arguments.assign final none := by
            change arguments.extend [final.text] = _
            rw [extend, Flag.ofText?_text]
          rw [ended, value_assign]
          simp only [Option.some.injEq]
          rfl
  | cons segment later inductive_step =>
      rw [Split.arguments_cons, extend_segment, inductive_step, value_take]
      simp only [Split.valuesOf, List.filterMap_cons]
      cases segment.valueOf? flag with
      | none => rfl
      | some value => rw [List.getLast?_cons, Option.some_or, Option.some_or, Option.or_some]

theorem value_ofList (split : Split) (flag : Flag) :
    (ofList split.arguments).value flag =
      if split.last = some flag then none else (split.valuesOf flag).getLast? := by
  rw [ofList, value_extend]
  cases flag <;> simp only [empty, value, Option.or_none]

theorem ofList_eq_ofList {left right : Split} (last : left.last = right.last)
    (values : ∀ flag, left.valuesOf flag = right.valuesOf flag) :
    ofList left.arguments = ofList right.arguments := by
  apply ext_value
  intro flag
  rw [value_ofList, value_ofList, last, values]

end Arguments

theorem Split.valuesOf_withoutOthers (split : Split) (flag : Flag) :
    split.withoutOthers.valuesOf flag = split.valuesOf flag := by
  rw [valuesOf, withoutOthers, List.filterMap_filter, valuesOf]
  congr 1
  funext segment
  cases segment <;> rfl

/-- Every list of arguments is taken apart in one way. An option has the value of its last segment,
unless it stands at the end once more. So arguments that belong to no option may be left out, and
segments of different options may change places. -/
theorem options_have_last_values :
    (∀ list : List String, ∃! split : Split, split.arguments = list) ∧
    ∀ split : Split,
      (∀ flag, (Arguments.ofList split.arguments).value flag =
        if split.last = some flag then none else (split.valuesOf flag).getLast?) ∧
      Arguments.ofList split.withoutOthers.arguments = Arguments.ofList split.arguments ∧
      ∀ other : Split, split.Rearranges other →
        Arguments.ofList other.arguments = Arguments.ofList split.arguments := by
  refine ⟨fun list => ?_, fun split => ⟨?_, ?_, ?_⟩⟩
  · obtain ⟨split, same⟩ := Split.exists_arguments_eq list
    exact ⟨split, same, fun other equal => Split.arguments_injective (equal.trans same.symm)⟩
  · exact Arguments.value_ofList split
  · exact Arguments.ofList_eq_ofList rfl split.valuesOf_withoutOthers
  · rintro other ⟨-, values, last⟩
    exact (Arguments.ofList_eq_ofList last values).symm

theorem ordinary_verbose : ∀ flag : Flag, "-v" ≠ flag.text := by
  rintro (code | key | description) <;> decide +kernel

def mixedOptions : Split :=
  ⟨[.other "-v" ordinary_verbose, .option .code "--key", .option .key "a", .option .code "c",
    .option .description "d"], some .key⟩

def reorderedOptions : Split :=
  ⟨[.option .description "d", .option .code "--key", .option .code "c",
    .other "-v" ordinary_verbose, .option .key "a"], some .key⟩

theorem options_have_last_values_of_mixed :
    mixedOptions.Rearranges reorderedOptions ∧
      mixedOptions.arguments =
        ["-v", "--code", "--key", "--key", "a", "--code", "c", "--description", "d", "--key"] ∧
      reorderedOptions.arguments =
        ["--description", "d", "--code", "--key", "--code", "c", "-v", "--key", "a", "--key"] ∧
      Arguments.ofList reorderedOptions.arguments = Arguments.ofList mixedOptions.arguments ∧
      (Arguments.ofList mixedOptions.arguments).value .code = some "c" ∧
      (Arguments.ofList mixedOptions.arguments).value .key = none := by
  have rearranged : mixedOptions.Rearranges reorderedOptions := by
    refine ⟨by decide +kernel, ?_, rfl⟩
    rintro (code | key | description) <;> decide +kernel
  obtain ⟨values, -, sameOptions⟩ := options_have_last_values.2 mixedOptions
  refine ⟨rearranged, rfl, rfl, sameOptions reorderedOptions rearranged, ?_, ?_⟩
  · rw [values]
    decide +kernel
  · rw [values]
    decide +kernel

end WorkoutBoard.Command
