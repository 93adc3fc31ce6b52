import WorkoutBoard.Proofs.Store.KeyItem

/-!
# Which start an item holds

The state that an item is read as has the start that stands in the item's own state, whatever else
the item has (`StateRecord.holdsStart_of_ofItem`).
-/

namespace WorkoutBoard.Workout

open Store (Attribute Item)
open Store.Item

/-- The start in the state of an item. A state is a map with the start under its name, or a list
that begins with it. -/
inductive HoldsStart (item : Item) (start : String) : Prop where
  | named {entries : List (String × Attribute)}
      (state : item.find? "state" = some (.fields entries))
      (held : (Directory.ofList entries).find? "startDateTime" = some (.text start)) :
      HoldsStart item start
  | first {later : List Attribute}
      (state : item.find? "state" = some (.list (.text start :: later))) : HoldsStart item start

theorem required_eq_ok_iff {α : Type} (name : String) (held : Option α) (value : α) :
    Store.Item.required name held = .ok value ↔ held = some value := by
  cases held <;> simp [Store.Item.required]

theorem readPresent_eq_some_iff {α : Type} (inner : Attribute → Except Store.ItemFault α)
    (held : Option Attribute) (value : α) :
    readPresent inner held = .ok (some value) ↔
      ∃ present, held = some present ∧ inner present = .ok value := by
  cases held with
  | none => simp [readPresent]
  | some present => cases read : inner present <;> simp [readPresent, Except.map, read]

theorem StateRecord.holdsStart_of_readState {item : Item} {held : Attribute} {state : State}
    (present : item.find? "state" = some held) (read : readState held = .ok state) :
    HoldsStart item state.startDateTime := by
  cases held with
  | fields entries =>
      obtain ⟨start, startRead, read⟩ := exists_of_bind_eq_ok read
      obtain ⟨⟨⟩, -, read⟩ := exists_of_bind_eq_ok read
      obtain ⟨value, found, read⟩ := exists_of_bind_eq_ok read
      obtain rfl := Except.ok.inj read
      rw [readPresent_readText_iff, (required_eq_ok_iff _ _ _).mp found] at startRead
      exact .named present startRead
  | list elements =>
      cases elements with
      | nil => cases read
      | cons first later =>
          obtain ⟨value, found, read⟩ := exists_of_bind_eq_ok read
          obtain rfl := Except.ok.inj read
          obtain rfl := (readText_eq_ok_iff _ _).mp found
          exact .first present
  | _ => cases read

theorem StateRecord.holdsStart_of_ofItem {item : Item} {record : StateRecord}
    (read : StateRecord.ofItem item = .ok record) : HoldsStart item record.state.startDateTime := by
  obtain ⟨key, -, read⟩ := exists_of_bind_eq_ok read
  obtain ⟨state, stateRead, read⟩ := exists_of_bind_eq_ok read
  obtain ⟨ttl, -, read⟩ := exists_of_bind_eq_ok read
  obtain ⟨⟨⟩, -, read⟩ := exists_of_bind_eq_ok read
  obtain ⟨keyText, -, read⟩ := exists_of_bind_eq_ok read
  obtain ⟨found, present, read⟩ := exists_of_bind_eq_ok read
  obtain ⟨time, -, read⟩ := exists_of_bind_eq_ok read
  obtain rfl := Except.ok.inj read
  rw [(required_eq_ok_iff _ _ _).mp present] at stateRead
  obtain ⟨held, stored, inner⟩ := (readPresent_eq_some_iff _ _ _).mp stateRead
  exact holdsStart_of_readState stored inner

end WorkoutBoard.Workout
