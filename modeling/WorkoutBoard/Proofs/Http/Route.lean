import Mathlib.Data.List.TakeWhile
import WorkoutBoard.Http.Route
import WorkoutBoard.Proofs.Text.Percent

/-!
# Routes and their paths

Every route has one path, `Route.toPath`, and `Route.ofPath?` finds a route exactly on its path.
The path of a target that is nothing but an escaped path is the target itself.
-/

namespace WorkoutBoard.Http

theorem segments_of_not_mem {segment : List Char} (whole : '/' ∉ segment) :
    segments segment = [segment] := by
  induction segment with
  | nil => rfl
  | cons character rest inductive_step =>
      obtain ⟨different, restWhole⟩ := List.ne_and_not_mem_of_not_mem_cons whole
      rw [segments, if_neg (Ne.symm different), inductive_step restWhole]

theorem segments_append_slash {segment : List Char} (whole : '/' ∉ segment) (rest : List Char) :
    segments (segment ++ '/' :: rest) = segment :: segments rest := by
  induction segment with
  | nil => rw [List.nil_append, segments, if_pos rfl]
  | cons character later inductive_step =>
      obtain ⟨different, laterWhole⟩ := List.ne_and_not_mem_of_not_mem_cons whole
      rw [List.cons_append, segments, if_neg (Ne.symm different), inductive_step laterWhole]

theorem segments_ne_nil (path : List Char) : segments path ≠ [] := by
  cases path with
  | nil => exact List.cons_ne_nil _ _
  | cons character rest =>
      rw [segments]
      split
      · exact List.cons_ne_nil _ _
      · split <;> exact List.cons_ne_nil _ _

theorem eq_of_segments_eq_cons {path first : List Char} {later : List (List Char)}
    (split : segments path = first :: later) :
    '/' ∉ first ∧
      (later = [] ∧ path = first ∨
        ∃ rest, path = first ++ '/' :: rest ∧ segments rest = later) := by
  induction path generalizing first with
  | nil =>
      obtain ⟨rfl, rfl⟩ := List.cons.inj split
      exact ⟨List.not_mem_nil, .inl ⟨rfl, rfl⟩⟩
  | cons character rest inductive_step =>
      rw [segments] at split
      split at split
      next slash =>
        obtain ⟨rfl, same⟩ := List.cons.inj split
        exact ⟨List.not_mem_nil, .inr ⟨rest, by rw [slash, List.nil_append], same⟩⟩
      next plain =>
        split at split
        next none => exact absurd none (segments_ne_nil rest)
        next head tail restSplit =>
          obtain ⟨rfl, rfl⟩ := List.cons.inj split
          obtain ⟨whole, ending⟩ := inductive_step restSplit
          refine ⟨List.not_mem_cons_of_ne_of_not_mem (Ne.symm plain) whole, ?_⟩
          rcases ending with ⟨last, same⟩ | ⟨others, same, othersSplit⟩
          · exact .inl ⟨last, congrArg (character :: ·) same⟩
          · exact .inr ⟨others, congrArg (character :: ·) same, othersSplit⟩

theorem eq_of_segments_eq_singleton {path only : List Char} (split : segments path = [only]) :
    '/' ∉ only ∧ path = only := by
  obtain ⟨whole, ⟨-, same⟩ | ⟨rest, -, restSplit⟩⟩ := eq_of_segments_eq_cons split
  · exact ⟨whole, same⟩
  · exact absurd restSplit (segments_ne_nil rest)

theorem eq_of_segments_eq_cons_cons {path first second : List Char} {later : List (List Char)}
    (split : segments path = first :: second :: later) :
    '/' ∉ first ∧ ∃ rest, path = first ++ '/' :: rest ∧ segments rest = second :: later := by
  obtain ⟨whole, ⟨none, -⟩ | ending⟩ := eq_of_segments_eq_cons split
  · exact absurd none (List.cons_ne_nil _ _)
  · exact ⟨whole, ending⟩

namespace Route

theorem not_mem_root : '/' ∉ root := by decide

def toPath : Route → List Char
  | .index => ['/']
  | .readState code => '/' :: (root ++ '/' :: code)
  | .keylessWrite code => '/' :: (root ++ '/' :: (code ++ ['/']))
  | .writeState code key => '/' :: (root ++ '/' :: (code ++ '/' :: key))

/-- Whether the segments of a route are segments: they hold no slash, and the last one of a path is
not empty. -/
def HasSegments : Route → Prop
  | .index => True
  | .readState code => '/' ∉ code ∧ code ≠ []
  | .keylessWrite code => '/' ∉ code
  | .writeState code key => '/' ∉ code ∧ '/' ∉ key ∧ key ≠ []

theorem segments_root_append (rest : List Char) :
    segments ('/' :: (root ++ '/' :: rest)) = [] :: root :: segments rest := by
  rw [segments, if_pos rfl, segments_append_slash not_mem_root]

theorem ofPath?_toPath {route : Route} (sound : route.HasSegments) :
    ofPath? route.toPath = some route := by
  cases route with
  | index => rfl
  | readState code =>
      obtain ⟨whole, nonempty⟩ := sound
      rw [toPath, ofPath?, segments_root_append, segments_of_not_mem whole]
      exact if_pos ⟨rfl, nonempty⟩
  | keylessWrite code =>
      rw [toPath, ofPath?, segments_root_append, segments_append_slash sound]
      rfl
  | writeState code key =>
      obtain ⟨codeWhole, keyWhole, nonempty⟩ := sound
      rw [toPath, ofPath?, segments_root_append, segments_append_slash codeWhole,
        segments_of_not_mem keyWhole]
      exact (if_neg (not_not_intro rfl)).trans (if_neg nonempty)

theorem eq_toPath_of_ofPath? {path : List Char} {route : Route}
    (found : ofPath? path = some route) : route.HasSegments ∧ path = route.toPath := by
  rw [ofPath?] at found
  split at found
  next split =>
    obtain rfl := Option.some.inj found
    obtain ⟨-, rest, same, restSplit⟩ := eq_of_segments_eq_cons_cons split
    obtain ⟨-, rfl⟩ := eq_of_segments_eq_singleton restSplit
    exact ⟨trivial, same⟩
  next first code split =>
    obtain ⟨-, rest, same, restSplit⟩ := eq_of_segments_eq_cons_cons split
    obtain ⟨-, later, restSame, laterSplit⟩ := eq_of_segments_eq_cons_cons restSplit
    obtain ⟨whole, rfl⟩ := eq_of_segments_eq_singleton laterSplit
    split at found
    next condition =>
      obtain ⟨rfl, nonempty⟩ := condition
      obtain rfl := Option.some.inj found
      exact ⟨⟨whole, nonempty⟩, by rw [same, restSame]; rfl⟩
    next => cases found
  next first code key split =>
    obtain ⟨-, rest, same, restSplit⟩ := eq_of_segments_eq_cons_cons split
    obtain ⟨-, later, restSame, laterSplit⟩ := eq_of_segments_eq_cons_cons restSplit
    obtain ⟨codeWhole, last, laterSame, lastSplit⟩ := eq_of_segments_eq_cons_cons laterSplit
    obtain ⟨keyWhole, rfl⟩ := eq_of_segments_eq_singleton lastSplit
    split at found
    next => cases found
    next isRoot =>
      obtain rfl := not_not.mp isRoot
      split at found
      next empty =>
        obtain rfl := Option.some.inj found
        exact ⟨codeWhole, by rw [same, restSame, laterSame, empty]; rfl⟩
      next nonempty =>
        obtain rfl := Option.some.inj found
        exact ⟨⟨codeWhole, keyWhole, nonempty⟩, by rw [same, restSame, laterSame]; rfl⟩
  next => cases found

theorem ofPath?_eq_some_iff (path : List Char) (route : Route) :
    ofPath? path = some route ↔ route.HasSegments ∧ path = route.toPath := by
  constructor
  · exact eq_toPath_of_ofPath?
  · rintro ⟨sound, rfl⟩
    exact ofPath?_toPath sound

end Route

namespace Target

theorem path_ofList {rest : List Char}
    (plain : ∀ character ∈ rest, character ≠ '?' ∧ character ≠ '#') :
    path (String.ofList ('/' :: rest)) = '/' :: rest := by
  have kept : beforeQuery ('/' :: rest) = '/' :: rest := by
    refine List.takeWhile_eq_self_iff.mpr fun character member => ?_
    rcases List.mem_cons.mp member with rfl | later
    · decide
    · simpa using plain character later
  rw [path, String.toList_ofList, kept]
  rfl

theorem plain_of_mem_encode {text : String} {character : Char}
    (member : character ∈ Text.Percent.encode text) : character ≠ '?' ∧ character ≠ '#' := by
  have outside := Text.Percent.not_mem_delimiters_of_mem_encode member
  constructor
  · rintro rfl
    exact outside (by decide)
  · rintro rfl
    exact outside (by decide)

theorem plain_of_mem_root {character : Char} (member : character ∈ Route.root) :
    character ≠ '?' ∧ character ≠ '#' := by
  constructor
  · rintro rfl
    exact absurd member (by decide)
  · rintro rfl
    exact absurd member (by decide)

theorem path_readPath (code : String) :
    path (String.ofList (Route.readPath code)) = Route.readPath code := by
  refine path_ofList ?_
  rw [List.forall_mem_append, List.forall_mem_cons]
  exact ⟨fun _ => plain_of_mem_root, by decide, fun _ => plain_of_mem_encode⟩

theorem path_writePath (code key : String) :
    path (String.ofList (Route.writePath code key)) = Route.writePath code key := by
  refine path_ofList ?_
  rw [List.forall_mem_append, List.forall_mem_cons, List.forall_mem_append, List.forall_mem_cons]
  exact ⟨fun _ => plain_of_mem_root, by decide, fun _ => plain_of_mem_encode, by decide,
    fun _ => plain_of_mem_encode⟩

end Target

end WorkoutBoard.Http
