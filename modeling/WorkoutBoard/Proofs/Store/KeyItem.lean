import WorkoutBoard.Store.Item

/-!
# Which items are records of keys

An item is read as the record of a key if and only if its attributes hold what belongs there
(`ApiKeyRecord.exists_of_isKeyItem`, `ApiKeyRecord.isKeyItem_of_ofItem`). Then the record has the
key that the item holds, which is empty if there is no such attribute.
-/

namespace WorkoutBoard.Store.Item

theorem readPresent_readText_iff (held : Option Attribute) (found : Option String) :
    readPresent readText held = .ok found ↔ held = found.map .text := by
  match held with
  | none => cases found <;> simp [readPresent]
  | some value =>
      cases value <;> cases found <;> simp [readPresent, readText, Except.map]

theorem readInteger_eq_ok_iff (value : Attribute) (number : Int64) :
    readInteger value = .ok number ↔
      ∃ digits, value = .number digits ∧ Text.Decimal.int64 digits.toList = .ok number := by
  cases value with
  | number digits =>
      rw [readInteger]
      cases read : Text.Decimal.int64 digits.toList <;> simp [read]
  | _ => simp [readInteger]

theorem readText_eq_ok_iff (value : Attribute) (text : String) :
    readText value = .ok text ↔ value = .text text := by
  cases value <;> simp [readText]

theorem exists_readOptional_iff {α : Type} (inner : Attribute → Except ItemFault α)
    (held : Option Attribute) :
    (∃ found, readPresent (readOptional inner) held = .ok found) ↔
      ∀ value, held = some value → value = .null true ∨ ∃ inside, inner value = .ok inside := by
  cases held with
  | none => simp [readPresent]
  | some value =>
      by_cases isNull : value = .null true
      · simp [readPresent, readOptional, isNull, Except.map]
      · rw [readPresent, readOptional.eq_2 _ _ isNull]
        cases read : inner value <;> simp [isNull, read, Except.map]

end WorkoutBoard.Store.Item

namespace WorkoutBoard.Workout

open Store (Attribute Item)
open Store.Item

/-- What an item must hold to be read as the record of a key. Attributes with other names may hold
anything that can be passed over. -/
structure IsKeyItem (item : Item) : Prop where
  key : ∃ text, item.find? "key" = some (.text text)
  apiKey : ∃ held : Option String, item.find? "api_key" = held.map .text
  description : ∀ held, item.find? "description" = some held →
    held = .null true ∨ ∃ text, held = .text text
  createdAt : ∀ held, item.find? "created_at" = some held → held = .null true ∨
    ∃ number digits, held = .number digits ∧ Text.Decimal.int64 digits.toList = .ok number
  others : passOthers ["key", "api_key", "description", "created_at"] item = .ok ()

/-- The key that an item holds. Without the attribute, it is the empty one. -/
def HoldsKey (item : Item) (stored : String) : Prop :=
  item.find? "api_key" = some (.text stored) ∨ item.find? "api_key" = none ∧ stored = ""

theorem HoldsKey.unique {item : Item} {stored other : String} (holds : HoldsKey item stored)
    (holdsOther : HoldsKey item other) : stored = other := by
  rcases holds with held | ⟨missing, rfl⟩
  · rcases holdsOther with same | ⟨missing, -⟩
    · rw [held] at same
      cases same
      rfl
    · rw [held] at missing
      cases missing
  · rcases holdsOther with held | ⟨-, rfl⟩
    · rw [missing] at held
      cases held
    · rfl

theorem exists_of_bind_eq_ok {ε α β : Type} {first : Except ε α} {next : α → Except ε β}
    {last : β} (found : (first >>= next) = .ok last) :
    ∃ value, first = .ok value ∧ next value = .ok last := by
  cases first with
  | error fault => cases found
  | ok value => exact ⟨value, rfl, found⟩

theorem ApiKeyRecord.isKeyItem_of_ofItem {item : Item} {record : ApiKeyRecord}
    (read : ApiKeyRecord.ofItem item = .ok record) :
    IsKeyItem item ∧ HoldsKey item record.apiKey := by
  obtain ⟨key, keyRead, read⟩ := exists_of_bind_eq_ok read
  obtain ⟨apiKey, apiKeyRead, read⟩ := exists_of_bind_eq_ok read
  obtain ⟨description, descriptionRead, read⟩ := exists_of_bind_eq_ok read
  obtain ⟨createdAt, createdAtRead, read⟩ := exists_of_bind_eq_ok read
  obtain ⟨⟨⟩, others, read⟩ := exists_of_bind_eq_ok read
  obtain ⟨keyText, present, read⟩ := exists_of_bind_eq_ok read
  obtain rfl := Except.ok.inj read
  rw [readPresent_readText_iff] at keyRead apiKeyRead
  refine ⟨⟨?_, ⟨apiKey, apiKeyRead⟩, ?_, ?_, others⟩, ?_⟩
  · cases key with
    | none => cases present
    | some text => exact ⟨text, keyRead⟩
  · simpa only [readText_eq_ok_iff] using (exists_readOptional_iff _ _).mp ⟨_, descriptionRead⟩
  · simpa only [readInteger_eq_ok_iff] using
      (exists_readOptional_iff _ _).mp ⟨_, createdAtRead⟩
  · cases apiKey with
    | none => exact .inr ⟨apiKeyRead, rfl⟩
    | some text => exact .inl apiKeyRead

theorem ApiKeyRecord.exists_of_isKeyItem {item : Item} (isKeyItem : IsKeyItem item) :
    ∃ record, ApiKeyRecord.ofItem item = .ok record := by
  obtain ⟨⟨text, key⟩, ⟨held, apiKey⟩, description, createdAt, others⟩ := isKeyItem
  have keyRead := (readPresent_readText_iff _ (some text)).mpr key
  have apiKeyRead := (readPresent_readText_iff _ held).mpr apiKey
  obtain ⟨described, descriptionRead⟩ := (exists_readOptional_iff readText _).mpr
    (by simpa only [readText_eq_ok_iff] using description)
  obtain ⟨created, createdAtRead⟩ := (exists_readOptional_iff readInteger _).mpr
    (by simpa only [readInteger_eq_ok_iff] using createdAt)
  rw [ApiKeyRecord.ofItem, keyRead, apiKeyRead, descriptionRead, createdAtRead, others]
  exact ⟨_, rfl⟩

end WorkoutBoard.Workout
