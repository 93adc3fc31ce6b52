import WorkoutBoard.Directory

/-!
# Directories from their entries

A directory is rebuilt from its own list of entries, because no key occurs twice in it.
-/

namespace WorkoutBoard.Directory

variable {α : Type}

theorem find?_foldl_insert {entries : List (String × α)}
    (distinct : entries.Pairwise fun left right => left.1 < right.1) (start : Directory α)
    (key : String) :
    (entries.foldl (fun directory entry => directory.insert entry.1 entry.2) start).find? key =
      (lookup key entries).or (start.find? key) := by
  induction entries generalizing start with
  | nil => rfl
  | cons head rest inductive_step =>
      obtain ⟨headFirst, restDistinct⟩ := List.pairwise_cons.mp distinct
      rw [List.foldl_cons, inductive_step restDistinct, find?_insert, lookup]
      by_cases equal : key = head.1
      · have absent : lookup key rest = none :=
          lookup_eq_none_of_forall_ne fun entry member =>
            ne_of_lt_fst (equal ▸ headFirst entry member)
        rw [if_pos equal, if_pos equal, absent, Option.none_or, Option.some_or]
      · rw [if_neg equal, if_neg equal]

@[simp] theorem ofList_toList (directory : Directory α) : ofList directory.toList = directory := by
  refine ext_find fun key => ?_
  rw [ofList, toList, find?_foldl_insert directory.sorted, find?]
  exact Option.or_none

def insertAll (directory : Directory α) (entries : List (String × α)) : Directory α :=
  entries.foldl (fun reached entry => reached.insert entry.1 entry.2) directory

theorem find?_insertAll (entries : List (String × α)) (directory : Directory α) (key : String) :
    (directory.insertAll entries).find? key = directory.find? key ∨
      ∃ value, (key, value) ∈ entries ∧ (directory.insertAll entries).find? key = some value := by
  induction entries generalizing directory with
  | nil => exact .inl rfl
  | cons head rest inductive_step =>
      rcases inductive_step (directory.insert head.1 head.2) with before | ⟨value, later, found⟩
      · rw [find?_insert] at before
        split at before
        next same => exact .inr ⟨head.2, same ▸ List.mem_cons_self, before⟩
        next => exact .inl before
      · exact .inr ⟨value, List.mem_cons_of_mem _ later, found⟩

theorem find?_insertAll_of_apart {entries : List (String × α)} {key : String}
    (apart : ∀ entry ∈ entries, entry.1 ≠ key) (directory : Directory α) :
    (directory.insertAll entries).find? key = directory.find? key := by
  rcases find?_insertAll entries directory key with same | ⟨value, inside, -⟩
  · exact same
  · exact absurd rfl (apart _ inside)

theorem mem_insertAll {entries : List (String × α)} {directory : Directory α}
    {entry : String × α} (inside : entry ∈ (directory.insertAll entries).toList) :
    entry ∈ directory.toList ∨ entry ∈ entries := by
  induction entries generalizing directory with
  | nil => exact .inl inside
  | cons head rest inductive_step =>
      rcases inductive_step inside with before | later
      · rcases mem_insertEntry before with rfl | old
        · exact .inr List.mem_cons_self
        · exact .inl old
      · exact .inr (List.mem_cons_of_mem _ later)

end WorkoutBoard.Directory
