/-!
# Directories

A finite map from text to values, listed in the order of its keys. A directory is determined by
its lookups: `Directory.ext_find` says that two of them with the same answers are equal.
-/

namespace WorkoutBoard

/-- Entries in strictly increasing order of their keys. -/
structure Directory (α : Type) where
  entries : List (String × α)
  sorted : entries.Pairwise fun left right => left.1 < right.1

namespace Directory

variable {α : Type}

def lookup (key : String) : List (String × α) → Option α
  | [] => none
  | (other, value) :: rest => if key = other then some value else lookup key rest

def insertEntry (key : String) (value : α) : List (String × α) → List (String × α)
  | [] => [(key, value)]
  | (other, previous) :: rest =>
      if key = other then (key, value) :: rest
      else if key < other then (key, value) :: (other, previous) :: rest
      else (other, previous) :: insertEntry key value rest

def eraseEntry (key : String) : List (String × α) → List (String × α)
  | [] => []
  | (other, value) :: rest =>
      if key = other then rest else (other, value) :: eraseEntry key rest

theorem mem_insertEntry {key : String} {value : α} {entries : List (String × α)}
    {entry : String × α} (member : entry ∈ insertEntry key value entries) :
    entry = (key, value) ∨ entry ∈ entries := by
  induction entries with
  | nil => simpa [insertEntry] using member
  | cons head rest inductive_step =>
      rw [insertEntry] at member
      split at member
      · grind
      · split at member
        · grind
        · rcases List.mem_cons.mp member with same | later
          · exact .inr (by simp [same])
          · exact (inductive_step later).imp id (List.mem_cons_of_mem _)

theorem mem_of_mem_eraseEntry {key : String} {entries : List (String × α)}
    {entry : String × α} (member : entry ∈ eraseEntry key entries) : entry ∈ entries := by
  induction entries with
  | nil => simp [eraseEntry] at member
  | cons head rest inductive_step =>
      rw [eraseEntry] at member
      split at member
      · exact List.mem_cons_of_mem _ member
      · rcases List.mem_cons.mp member with same | later
        · simp [same]
        · exact List.mem_cons_of_mem _ (inductive_step later)

theorem lt_of_not_lt_of_ne {key other : String} (different : key ≠ other)
    (notBelow : ¬key < other) : other < key := by
  have below : other ≤ key := String.not_lt.mp notBelow
  exact Std.lt_of_le_of_ne below (Ne.symm different)

theorem sorted_insertEntry {key : String} {value : α} {entries : List (String × α)}
    (sorted : entries.Pairwise fun left right => left.1 < right.1) :
    (insertEntry key value entries).Pairwise fun left right => left.1 < right.1 := by
  induction entries with
  | nil => simp [insertEntry]
  | cons head rest inductive_step =>
      obtain ⟨headFirst, restSorted⟩ := List.pairwise_cons.mp sorted
      rw [insertEntry]
      split
      next equal =>
        exact List.pairwise_cons.mpr
          ⟨fun entry member => equal ▸ headFirst entry member, restSorted⟩
      next different =>
        split
        next below =>
          refine List.pairwise_cons.mpr ⟨fun entry member => ?_, sorted⟩
          rcases List.mem_cons.mp member with same | later
          · simpa [same] using below
          · exact String.lt_trans below (headFirst entry later)
        next notBelow =>
          refine List.pairwise_cons.mpr ⟨fun entry member => ?_, inductive_step restSorted⟩
          rcases mem_insertEntry member with same | old
          · simpa [same] using lt_of_not_lt_of_ne different notBelow
          · exact headFirst entry old

theorem sorted_eraseEntry {key : String} {entries : List (String × α)}
    (sorted : entries.Pairwise fun left right => left.1 < right.1) :
    (eraseEntry key entries).Pairwise fun left right => left.1 < right.1 := by
  induction entries with
  | nil => simp [eraseEntry]
  | cons head rest inductive_step =>
      obtain ⟨headFirst, restSorted⟩ := List.pairwise_cons.mp sorted
      rw [eraseEntry]
      split
      · exact restSorted
      · exact List.pairwise_cons.mpr
          ⟨fun entry member => headFirst entry (mem_of_mem_eraseEntry member),
            inductive_step restSorted⟩

def empty : Directory α := ⟨[], .nil⟩

instance : EmptyCollection (Directory α) := ⟨empty⟩

instance : Inhabited (Directory α) := ⟨empty⟩

def find? (directory : Directory α) (key : String) : Option α := lookup key directory.entries

def insert (directory : Directory α) (key : String) (value : α) : Directory α :=
  ⟨insertEntry key value directory.entries, sorted_insertEntry directory.sorted⟩

def erase (directory : Directory α) (key : String) : Directory α :=
  ⟨eraseEntry key directory.entries, sorted_eraseEntry directory.sorted⟩

/-- The directory of some entries. Of entries with the same key the last one counts. -/
def ofList (entries : List (String × α)) : Directory α :=
  entries.foldl (fun directory entry => directory.insert entry.1 entry.2) ∅

def toList (directory : Directory α) : List (String × α) := directory.entries

/-! ## Lookups

Each operation is known by what it does to `find?`. -/

theorem ne_of_lt_fst {key other : String} (below : key < other) : key ≠ other :=
  fun equal => String.lt_irrefl other (equal ▸ below)

theorem lookup_eq_none_of_forall_ne {key : String} {entries : List (String × α)}
    (absent : ∀ entry ∈ entries, key ≠ entry.1) : lookup key entries = none := by
  induction entries with
  | nil => rfl
  | cons head rest inductive_step =>
      rw [lookup, if_neg (absent head List.mem_cons_self)]
      exact inductive_step fun entry member => absent entry (List.mem_cons_of_mem _ member)

theorem mem_of_lookup {key : String} {value : α} {entries : List (String × α)}
    (found : lookup key entries = some value) : (key, value) ∈ entries := by
  induction entries with
  | nil => simp [lookup] at found
  | cons head rest inductive_step =>
      rw [lookup] at found
      split at found
      · grind
      · exact List.mem_cons_of_mem _ (inductive_step found)

theorem lookup_head (head : String × α) (rest : List (String × α)) :
    lookup head.1 (head :: rest) = some head.2 := if_pos rfl

theorem lookup_insertEntry (key other : String) (value : α) (entries : List (String × α)) :
    lookup other (insertEntry key value entries) =
      if other = key then some value else lookup other entries := by
  induction entries with
  | nil => rfl
  | cons head rest inductive_step => grind [insertEntry, lookup]

theorem lookup_eraseEntry_of_ne {key other : String} (different : other ≠ key)
    (entries : List (String × α)) :
    lookup other (eraseEntry key entries) = lookup other entries := by
  induction entries with
  | nil => rfl
  | cons head rest inductive_step => grind [eraseEntry, lookup]

theorem lookup_eraseEntry_self {key : String} {entries : List (String × α)}
    (sorted : entries.Pairwise fun left right => left.1 < right.1) :
    lookup key (eraseEntry key entries) = none := by
  induction entries with
  | nil => rfl
  | cons head rest inductive_step =>
      obtain ⟨headFirst, restSorted⟩ := List.pairwise_cons.mp sorted
      rw [eraseEntry]
      split
      next equal =>
        refine lookup_eq_none_of_forall_ne fun entry member same => ?_
        have first := headFirst entry member
        rw [← equal, ← same] at first
        exact String.lt_irrefl key first
      next different => rw [lookup, if_neg different, inductive_step restSorted]

theorem find?_insert (directory : Directory α) (key other : String) (value : α) :
    (directory.insert key value).find? other =
      if other = key then some value else directory.find? other :=
  lookup_insertEntry key other value directory.entries

@[simp] theorem find?_insert_self (directory : Directory α) (key : String) (value : α) :
    (directory.insert key value).find? key = some value := by
  simp [find?_insert]

theorem find?_insert_of_ne {key other : String} (different : other ≠ key)
    (directory : Directory α) (value : α) :
    (directory.insert key value).find? other = directory.find? other := by
  simp [find?_insert, different]

@[simp] theorem find?_erase_self (directory : Directory α) (key : String) :
    (directory.erase key).find? key = none :=
  lookup_eraseEntry_self directory.sorted

theorem find?_erase_of_ne {key other : String} (different : other ≠ key)
    (directory : Directory α) :
    (directory.erase key).find? other = directory.find? other :=
  lookup_eraseEntry_of_ne different directory.entries

theorem find?_erase (directory : Directory α) (key other : String) :
    (directory.erase key).find? other = if other = key then none else directory.find? other := by
  split
  next equal => rw [equal, find?_erase_self]
  next different => exact find?_erase_of_ne different directory

theorem eq_of_lookup_eq {left right : List (String × α)}
    (leftSorted : left.Pairwise fun one other => one.1 < other.1)
    (rightSorted : right.Pairwise fun one other => one.1 < other.1)
    (same : ∀ key, lookup key left = lookup key right) : left = right := by
  induction left generalizing right with
  | nil =>
      cases right with
      | nil => rfl
      | cons head rest => simpa [lookup] using same head.1
  | cons head rest inductive_step =>
      cases right with
      | nil => simpa [lookup] using same head.1
      | cons otherHead otherRest =>
          obtain ⟨headFirst, restSorted⟩ := List.pairwise_cons.mp leftSorted
          obtain ⟨otherFirst, otherRestSorted⟩ := List.pairwise_cons.mp rightSorted
          have keys : head.1 = otherHead.1 := by
            by_cases equal : head.1 = otherHead.1
            · exact equal
            · have inRight : (head.1, head.2) ∈ otherHead :: otherRest :=
                mem_of_lookup ((same head.1).symm.trans (lookup_head head rest))
              have inLeft : (otherHead.1, otherHead.2) ∈ head :: rest :=
                mem_of_lookup ((same otherHead.1).trans (lookup_head otherHead otherRest))
              rcases List.mem_cons.mp inRight with atHead | inRight
              · exact absurd (congrArg Prod.fst atHead) equal
              rcases List.mem_cons.mp inLeft with atHead | inLeft
              · exact absurd (congrArg Prod.fst atHead).symm equal
              exact absurd (String.lt_trans (headFirst _ inLeft) (otherFirst _ inRight))
                (String.lt_irrefl _)
          have values : head.2 = otherHead.2 := by
            simpa [lookup, keys] using same head.1
          have heads : head = otherHead := Prod.ext keys values
          have rests : rest = otherRest := by
            refine inductive_step restSorted otherRestSorted fun key => ?_
            by_cases equal : key = head.1
            · have absentLeft : lookup key rest = none :=
                lookup_eq_none_of_forall_ne fun entry member =>
                  ne_of_lt_fst (equal ▸ headFirst entry member)
              have absentRight : lookup key otherRest = none :=
                lookup_eq_none_of_forall_ne fun entry member =>
                  ne_of_lt_fst (equal.trans keys ▸ otherFirst entry member)
              rw [absentLeft, absentRight]
            · have atKey := same key
              rwa [lookup, if_neg equal, lookup, if_neg (keys ▸ equal)] at atKey
          rw [heads, rests]

/-- A directory is determined by its lookups. -/
theorem ext_find {left right : Directory α}
    (same : ∀ key, left.find? key = right.find? key) : left = right := by
  cases left
  cases right
  congr
  exact eq_of_lookup_eq ‹_› ‹_› same

end Directory

end WorkoutBoard
