import WorkoutBoard.Proofs.Directory
import WorkoutBoard.Proofs.Text.Decimal
import WorkoutBoard.Store.Table

/-!
# Items of records are read back

An item is read as the record for which it was written, both from its attributes
(`StateRecord.ofItem_toItem`, `ApiKeyRecord.ofItem_toItem`) and from the document that a table sends
(`Item.IsReadable.itemOf?`). Its key in the table is the key of the record.
-/

namespace WorkoutBoard.Store

open Json (Document Spelling Value)
open Workout (ApiKeyRecord StateRecord)

namespace Attribute

theorem ofDocument?_kind {kind : String} (known : kinds.contains kind = true)
    (notType : kind ≠ "__type") {value : Document} (present : value.isNull = false) (room : Nat) :
    ofDocument? (room + 1) (.object [(Spelling.ofText kind, value)]) = ofKind? room kind value := by
  simp only [ofDocument?, ofVariants?, present, Spelling.ofText, Bool.false_eq_true, if_false,
    if_neg notType, Option.isSome_none, if_pos known]
  cases ofKind? room kind value <;> rfl

theorem ofDocument?_text (room : Nat) (value : String) :
    ofDocument? (room + 1) (.ofValue (text value).toJson) = some (text value) := by
  rw [toJson, Document.ofValue, Document.ofMembers, Document.ofMembers,
    ofDocument?_kind (by decide +kernel) (by decide) rfl]
  rfl

theorem ofDocument?_number (room : Nat) (value : String) :
    ofDocument? (room + 1) (.ofValue (number value).toJson) = some (number value) := by
  rw [toJson, Document.ofValue, Document.ofMembers, Document.ofMembers,
    ofDocument?_kind (by decide +kernel) (by decide) rfl]
  rfl

theorem ofMembers?_entriesToJson {room : Nat} {entries : List (String × Attribute)}
    (read : ∀ entry ∈ entries, ofDocument? room (.ofValue entry.2.toJson) = some entry.2) :
    ofMembers? room (Document.ofMembers (entriesToJson entries)) = some entries := by
  induction entries with
  | nil => rfl
  | cons head rest inductive_step =>
      obtain ⟨headRead, restRead⟩ := List.forall_mem_cons.mp read
      simp only [entriesToJson, Document.ofMembers, ofMembers?, Spelling.ofText, headRead,
        inductive_step restRead]
      rfl

theorem ofDocument?_fields (room : Nat) (entries : Directory Attribute)
    (read : ∀ entry ∈ entries.toList,
      ofDocument? room (.ofValue entry.2.toJson) = some entry.2) :
    ofDocument? (room + 2) (.ofValue (fields entries.toList).toJson) =
      some (fields entries.toList) := by
  rw [toJson, Document.ofValue, Document.ofMembers, Document.ofMembers,
    ofDocument?_kind (by decide +kernel) (by decide) rfl, Document.ofValue, ofKind?]
  rw [if_pos rfl, ofMembers?_entriesToJson read, Option.map_some, Directory.ofList_toList]

end Attribute

namespace Item

/-- Whether every attribute of an item is read as it was written, at the depth of a table's
items. -/
def IsReadable (item : Item) : Prop :=
  ∀ entry ∈ item.toList,
    Attribute.ofDocument? (Body.deepest - 2) (.ofValue entry.2.toJson) = some entry.2

theorem IsReadable.itemOf? {item : Item} (readable : item.IsReadable) :
    Body.itemOf? 0 (.ofValue item.toJson) = some item := by
  have entries : Attribute.ofMembers? (Body.deepest - 2)
      (Document.ofMembers (Attribute.entriesToJson item.toList)) = some item.toList :=
    Attribute.ofMembers?_entriesToJson readable
  rw [toJson, Document.ofValue]
  exact (congrArg (Option.map Directory.ofList) entries).trans
    (congrArg some (Directory.ofList_toList item))

theorem members?_answer (value : Value) :
    (Document.ofValue (.object [("Item", value)])).members? = some [("Item", .ofValue value)] := by
  simp [Document.ofValue, Document.ofMembers, Document.members?, Document.named?,
    Spelling.ofText]

theorem grantOf_of_itemOf? {value : Value} {item : Item}
    (read : Body.itemOf? 0 (.ofValue value) = some item) (key : String) :
    Reply.grantOf (.get key) (.ofValue (.object [("Item", value)])) = .ok (some item) := by
  have isItem : Body.isItem 0 (.ofValue value) = true := congrArg Option.isSome read
  have present : Body.orNull (Body.isItem 0) (.ofValue value) = true := by
    unfold Body.orNull
    split
    · rfl
    · exact isItem
  have granted : Body.isGrant (.get key) (.ofValue (.object [("Item", value)])) = true := by
    simp [Body.isGrant, Body.isRecord, members?_answer, present]
  rw [Reply.grantOf, if_pos granted, Reply.itemOf?, members?_answer]
  exact congrArg Except.ok read

theorem IsReadable.grantOf {item : Item} (readable : item.IsReadable) (key : String) :
    Reply.grantOf (.get key) (.ofValue (.object [("Item", item.toJson)])) = .ok (some item) :=
  grantOf_of_itemOf? readable.itemOf? key

end Item

end WorkoutBoard.Store

namespace WorkoutBoard.Workout

open Store (Attribute Item)
open Store.Item

theorem StateRecord.toList_toItem (record : StateRecord) :
    record.toItem.toList = [("key", .text record.key),
      ("state", .fields [("startDateTime", .text record.state.startDateTime)]),
      ("ttl", integer record.ttl)] := by
  simp only [StateRecord.toItem, Directory.ofList, Directory.toList, Directory.insert,
    Directory.insertEntry, Directory.empty, EmptyCollection.emptyCollection, List.foldl_cons,
    List.foldl_nil, String.reduceEq, String.reduceLT, if_false]

theorem ApiKeyRecord.toList_toItem (record : ApiKeyRecord) :
    record.toItem.toList = ("api_key", .text record.apiKey) ::
      (optionalEntry "created_at" (record.createdAt.map integer) ++
        optionalEntry "description" (record.description.map .text) ++
        [("key", .text record.key)]) := by
  obtain ⟨key, apiKey, description | description, createdAt | createdAt⟩ := record <;>
    simp only [ApiKeyRecord.toItem, Directory.ofList, Directory.toList, Directory.insert,
      Directory.insertEntry, Directory.empty, EmptyCollection.emptyCollection, optionalEntry,
      Option.map_none, Option.map_some, List.cons_append, List.nil_append, List.append_nil,
      List.foldl_cons, List.foldl_nil, String.reduceEq, String.reduceLT, if_false, if_true]

theorem StateRecord.keyOf_toItem (record : StateRecord) :
    Store.Table.keyOf record.toItem.toJson = record.key := by
  rw [Store.Item.toJson, StateRecord.toList_toItem]
  rfl

theorem ApiKeyRecord.keyOf_toItem (record : ApiKeyRecord) :
    Store.Table.keyOf record.toItem.toJson = record.key := by
  rw [Store.Item.toJson, ApiKeyRecord.toList_toItem]
  obtain ⟨key, apiKey, description | description, createdAt | createdAt⟩ := record <;> rfl

theorem StateRecord.isReadable_toItem (record : StateRecord) : record.toItem.IsReadable := by
  have inner : (Directory.ofList
      [("startDateTime", Attribute.text record.state.startDateTime)]).toList =
        [("startDateTime", .text record.state.startDateTime)] := rfl
  have state := Attribute.ofDocument?_fields (Store.Body.deepest - 4)
    (Directory.ofList [("startDateTime", .text record.state.startDateTime)])
  rw [inner] at state
  intro entry member
  rw [StateRecord.toList_toItem] at member
  simp only [List.mem_cons, List.not_mem_nil, or_false] at member
  rcases member with rfl | rfl | rfl
  · exact Attribute.ofDocument?_text _ _
  · refine state fun entry member => ?_
    obtain rfl := List.mem_singleton.mp member
    exact Attribute.ofDocument?_text _ _
  · exact Attribute.ofDocument?_number _ _

theorem mem_optionalEntry {name : String} {held : Option Attribute}
    {entry : String × Attribute} (member : entry ∈ optionalEntry name held) :
    held = some entry.2 := by
  cases held with
  | none => cases member
  | some value => rw [List.mem_singleton.mp member]

theorem ApiKeyRecord.isReadable_toItem (record : ApiKeyRecord) : record.toItem.IsReadable := by
  intro entry member
  rw [ApiKeyRecord.toList_toItem] at member
  simp only [List.mem_cons, List.mem_append, List.not_mem_nil, or_false] at member
  rcases member with rfl | (created | described) | rfl
  · exact Attribute.ofDocument?_text _ _
  · obtain ⟨time, -, same⟩ := Option.map_eq_some_iff.mp (mem_optionalEntry created)
    rw [← same]
    exact Attribute.ofDocument?_number _ _
  · obtain ⟨text, -, same⟩ := Option.map_eq_some_iff.mp (mem_optionalEntry described)
    rw [← same]
    exact Attribute.ofDocument?_text _ _
  · exact Attribute.ofDocument?_text _ _

theorem readInteger_integer (value : Int64) : readInteger (integer value) = .ok value := by
  rw [integer, readInteger, Text.Decimal.int64_ofInt]

theorem readState_fields {entries : List (String × Attribute)} {state : State}
    (start : (Directory.ofList entries).find? "startDateTime" = some (.text state.startDateTime))
    (others : passOthers ["startDateTime"] (Directory.ofList entries) = .ok ()) :
    readState (.fields entries) = .ok state := by
  rw [readState]
  simp only [start, others]
  rfl

theorem StateRecord.ofItem_of_find? {item : Item} {record : StateRecord} {held : Attribute}
    (key : item.find? "key" = some (.text record.key))
    (state : item.find? "state" = some held) (stateRead : readState held = .ok record.state)
    (ttl : item.find? "ttl" = some (integer record.ttl))
    (others : passOthers ["key", "state", "ttl"] item = .ok ()) :
    StateRecord.ofItem item = .ok record := by
  rw [StateRecord.ofItem, key, state, ttl, others]
  simp only [readPresent, readInteger_integer, stateRead]
  rfl

section

variable (record : StateRecord)

theorem StateRecord.find?_key : record.toItem.find? "key" = some (.text record.key) := by
  rw [Directory.find?, show record.toItem.entries = _ from StateRecord.toList_toItem record]
  rfl

theorem StateRecord.find?_state : record.toItem.find? "state" =
    some (.fields [("startDateTime", .text record.state.startDateTime)]) := by
  rw [Directory.find?, show record.toItem.entries = _ from StateRecord.toList_toItem record]
  rfl

theorem StateRecord.find?_ttl : record.toItem.find? "ttl" = some (integer record.ttl) := by
  rw [Directory.find?, show record.toItem.entries = _ from StateRecord.toList_toItem record]
  rfl

theorem StateRecord.ofItem_toItem : StateRecord.ofItem record.toItem = .ok record := by
  refine StateRecord.ofItem_of_find? record.find?_key record.find?_state rfl record.find?_ttl ?_
  rw [passOthers, StateRecord.toList_toItem]
  rfl

end

theorem readPresent_optionalText (value : Option String) :
    readPresent (readOptional readText) (value.map .text) = .ok (value.map some) := by
  cases value <;> rfl

theorem readPresent_optionalInteger (value : Option Int64) :
    readPresent (readOptional readInteger) (value.map integer) = .ok (value.map some) := by
  cases value with
  | none => rfl
  | some number =>
      rw [Option.map_some, readPresent, integer, readOptional, ← integer, readInteger_integer]
      · rfl
      · exact fun absurdity => by cases absurdity

theorem getD_map_some {α : Type} (value : Option α) : (value.map some).getD none = value := by
  cases value <;> rfl

def ReadsOptional {α : Type} (inner : Attribute → Except Store.ItemFault α)
    (held : Option Attribute) (value : Option α) : Prop :=
  ∃ found, readPresent (readOptional inner) held = .ok found ∧ found.getD none = value

theorem ApiKeyRecord.ofItem_of_find? {item : Item} {record : ApiKeyRecord}
    (key : item.find? "key" = some (.text record.key))
    (apiKey : item.find? "api_key" = some (.text record.apiKey))
    (description : ReadsOptional readText (item.find? "description") record.description)
    (createdAt : ReadsOptional readInteger (item.find? "created_at") record.createdAt)
    (others : passOthers ["key", "api_key", "description", "created_at"] item = .ok ()) :
    ApiKeyRecord.ofItem item = .ok record := by
  obtain ⟨described, describedRead, describedSame⟩ := description
  obtain ⟨created, createdRead, createdSame⟩ := createdAt
  rw [ApiKeyRecord.ofItem, key, apiKey, others, describedRead, createdRead]
  simp only [readPresent, bind, Except.bind, readText, Except.map, required, Option.getD_some,
    describedSame, createdSame]
  rfl

section

variable (record : ApiKeyRecord)

theorem ApiKeyRecord.find?_key : record.toItem.find? "key" = some (.text record.key) := by
  rw [Directory.find?, show record.toItem.entries = _ from ApiKeyRecord.toList_toItem record]
  obtain ⟨key, apiKey, description | description, createdAt | createdAt⟩ := record <;> rfl

theorem ApiKeyRecord.find?_apiKey : record.toItem.find? "api_key" = some (.text record.apiKey) := by
  rw [Directory.find?, show record.toItem.entries = _ from ApiKeyRecord.toList_toItem record]
  rfl

theorem ApiKeyRecord.find?_description :
    record.toItem.find? "description" = record.description.map .text := by
  rw [Directory.find?, show record.toItem.entries = _ from ApiKeyRecord.toList_toItem record]
  obtain ⟨key, apiKey, description | description, createdAt | createdAt⟩ := record <;> rfl

theorem ApiKeyRecord.find?_createdAt :
    record.toItem.find? "created_at" = record.createdAt.map integer := by
  rw [Directory.find?, show record.toItem.entries = _ from ApiKeyRecord.toList_toItem record]
  obtain ⟨key, apiKey, description | description, createdAt | createdAt⟩ := record <;> rfl

theorem ApiKeyRecord.readsOptional_description :
    ReadsOptional readText (record.toItem.find? "description") record.description :=
  ⟨_, record.find?_description ▸ readPresent_optionalText _, getD_map_some _⟩

theorem ApiKeyRecord.readsOptional_createdAt :
    ReadsOptional readInteger (record.toItem.find? "created_at") record.createdAt :=
  ⟨_, record.find?_createdAt ▸ readPresent_optionalInteger _, getD_map_some _⟩

theorem ApiKeyRecord.ofItem_toItem : ApiKeyRecord.ofItem record.toItem = .ok record := by
  refine ApiKeyRecord.ofItem_of_find? record.find?_key record.find?_apiKey
    record.readsOptional_description record.readsOptional_createdAt ?_
  rw [passOthers, ApiKeyRecord.toList_toItem]
  obtain ⟨key, apiKey, description | description, createdAt | createdAt⟩ := record <;> rfl

end

end WorkoutBoard.Workout
