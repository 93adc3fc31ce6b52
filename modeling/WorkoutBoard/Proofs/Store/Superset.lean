import WorkoutBoard.Proofs.Store.Agreement

/-!
# Items with more than a record

A record is read back from the item that is written for it, and from every item that has sound
attributes besides (`StateRecord.ofItem_toItemWith`, `ApiKeyRecord.ofItem_toItemWith`). The item
lies under the key by which the record is asked for, so that it is found there until it is deleted
or written over (`records_survive_storage`).
-/

namespace WorkoutBoard.Store

open Workout (ApiKeyRecord Code State StateRecord)

namespace Attribute

def IsNumber (text : String) : Prop := ∃ size, Numeric.Magnitude.ofChars text.toList = .ok size

/-- An attribute of a known kind whose numbers are numbers and whose nulls say that they are null,
as deep as there are attributes in it. -/
inductive IsSound : Attribute → Prop where
  | text (value : String) : IsSound (.text value)
  | number {value : String} (isNumber : IsNumber value) : IsSound (.number value)
  | binary (value : String) : IsSound (.binary value)
  | boolean (value : Bool) : IsSound (.boolean value)
  | null : IsSound (.null true)
  | list {elements : List Attribute} (sound : ∀ element ∈ elements, IsSound element) :
      IsSound (.list elements)
  | fields {entries : List (String × Attribute)} (sound : ∀ entry ∈ entries, IsSound entry.2) :
      IsSound (.fields entries)
  | texts (values : List String) : IsSound (.texts values)
  | numbers {values : List String} (areNumbers : ∀ value ∈ values, IsNumber value) :
      IsSound (.numbers values)
  | binaries (values : List String) : IsSound (.binaries values)

end Attribute

namespace Item

theorem passNumber_of_isNumber {text : String} (isNumber : Attribute.IsNumber text) :
    passNumber text = .ok () := by
  obtain ⟨size, read⟩ := isNumber
  rw [passNumber, read]

theorem passNumbers {values : List String}
    (areNumbers : ∀ value ∈ values, Attribute.IsNumber value) :
    values.forM passNumber = .ok () := by
  induction values with
  | nil => rfl
  | cons value later inductive_step =>
      obtain ⟨isNumber, others⟩ := List.forall_mem_cons.mp areNumbers
      rw [List.forM, passNumber_of_isNumber isNumber]
      exact inductive_step others

theorem passElements_eq_ok {elements : List Attribute}
    (passed : ∀ element ∈ elements, pass element = .ok ()) : passElements elements = .ok () := by
  induction elements with
  | nil => rfl
  | cons head rest inductive_step =>
      obtain ⟨headPassed, restPassed⟩ := List.forall_mem_cons.mp passed
      rw [passElements, headPassed]
      exact inductive_step restPassed

theorem passEntries_eq_ok {entries : List (String × Attribute)}
    (passed : ∀ entry ∈ entries, pass entry.2 = .ok ()) : passEntries entries = .ok () := by
  induction entries with
  | nil => rfl
  | cons head rest inductive_step =>
      obtain ⟨headPassed, restPassed⟩ := List.forall_mem_cons.mp passed
      rw [passEntries, headPassed]
      exact inductive_step restPassed

theorem pass_of_isSound {value : Attribute} (sound : value.IsSound) : pass value = .ok () := by
  induction sound with
  | number isNumber => rw [pass, passNumber_of_isNumber isNumber]
  | null => rfl
  | list _ inductive_step => rw [pass, passElements_eq_ok inductive_step]
  | fields _ inductive_step => rw [pass, passEntries_eq_ok inductive_step]
  | numbers areNumbers => rw [pass, passNumbers areNumbers]
  | _ => rfl

def IsExtra (known : List String) (entry : String × Attribute) : Prop :=
  entry.1 ∉ known ∧ entry.2.IsSound

theorem passOthers_eq_ok {known : List String} {item : Item}
    (sound : ∀ entry ∈ item.toList, entry.1 ∈ known ∨ entry.2.IsSound) :
    passOthers known item = .ok () := by
  refine passEntries_eq_ok fun entry inside => ?_
  obtain ⟨present, other⟩ := List.mem_filter.mp inside
  rcases sound entry present with own | isSound
  · rw [List.contains_iff_mem.mpr own] at other
    cases other
  · exact pass_of_isSound isSound

end Item

end WorkoutBoard.Store

namespace WorkoutBoard.Workout

open Store (Attribute Item)
open Store.Item

/-! ## States -/

def State.toAttributeWith (state : State) (within : List (String × Attribute)) : Attribute :=
  let own := Directory.ofList [("startDateTime", .text state.startDateTime)]
  .fields (own.insertAll within).toList

def StateRecord.names : List String := ["key", "state", "ttl"]

def StateRecord.toItemWith (record : StateRecord) (within beside : List (String × Attribute)) :
    Item :=
  (record.toItem.insert "state" (record.state.toAttributeWith within)).insertAll beside

theorem readState_toAttributeWith (state : State) {within : List (String × Attribute)}
    (extra : ∀ entry ∈ within, IsExtra ["startDateTime"] entry) :
    readState (state.toAttributeWith within) = .ok state := by
  refine readState_fields ?_ ?_ <;> rw [Directory.ofList_toList]
  · refine Directory.find?_insertAll_of_apart (fun entry inside same => ?_) _
    exact (extra entry inside).1 (List.mem_singleton.mpr same)
  · refine passOthers_eq_ok fun entry inside => ?_
    rcases Directory.mem_insertAll inside with own | added
    · rw [List.mem_singleton.mp own]
      exact .inl List.mem_cons_self
    · exact .inr (extra entry added).2

theorem StateRecord.ofItem_toItemWith (record : StateRecord)
    {within beside : List (String × Attribute)}
    (extraWithin : ∀ entry ∈ within, IsExtra ["startDateTime"] entry)
    (extraBeside : ∀ entry ∈ beside, IsExtra names entry) :
    StateRecord.ofItem (record.toItemWith within beside) = .ok record := by
  have kept {name : String} (own : name ∈ names) :
      (record.toItemWith within beside).find? name =
        (record.toItem.insert "state" (record.state.toAttributeWith within)).find? name :=
    Directory.find?_insertAll_of_apart
      (fun entry inside same => (extraBeside entry inside).1 (same ▸ own)) _
  refine StateRecord.ofItem_of_find? ?_ ?_ (readState_toAttributeWith record.state extraWithin) ?_
    (passOthers_eq_ok fun entry inside => ?_)
  · rw [kept (by decide), Directory.find?_insert_of_ne (by decide), record.find?_key]
  · rw [kept (by decide), Directory.find?_insert_self]
  · rw [kept (by decide), Directory.find?_insert_of_ne (by decide), record.find?_ttl]
  · rcases Directory.mem_insertAll inside with own | added
    · rcases Directory.mem_insertEntry own with rfl | own
      · exact .inl (by decide : "state" ∈ names)
      · refine .inl ?_
        rw [← Directory.toList, StateRecord.toList_toItem] at own
        exact List.mem_map_of_mem own
    · exact .inr (extraBeside entry added).2

/-! ## Keys -/

def ApiKeyRecord.toItemWith (record : ApiKeyRecord) (beside : List (String × Attribute)) : Item :=
  record.toItem.insertAll beside

def ApiKeyRecord.names : List String := ["key", "api_key", "description", "created_at"]

/-- What may be added to the item for a record of a key. What the record does not have may be said
to be null. -/
inductive ApiKeyRecord.IsExtra (record : ApiKeyRecord) (entry : String × Attribute) : Prop where
  | other (extra : Store.Item.IsExtra names entry)
  | description (same : entry = ("description", .null true)) (absent : record.description = none)
  | createdAt (same : entry = ("created_at", .null true)) (absent : record.createdAt = none)

theorem ApiKeyRecord.IsExtra.isSound {record : ApiKeyRecord} {entry : String × Attribute}
    (extra : record.IsExtra entry) : entry.2.IsSound := by
  cases extra with
  | other extra => exact extra.2
  | description same absent => exact same ▸ .null
  | createdAt same absent => exact same ▸ .null

theorem ApiKeyRecord.find?_toItemWith (record : ApiKeyRecord) {beside : List (String × Attribute)}
    (extra : ∀ entry ∈ beside, record.IsExtra entry) {name : String} (own : name ∈ names) :
    (record.toItemWith beside).find? name = record.toItem.find? name ∨
      (record.toItemWith beside).find? name = some (.null true) ∧
        (name = "description" ∧ record.description = none ∨
          name = "created_at" ∧ record.createdAt = none) := by
  rcases Directory.find?_insertAll beside record.toItem name with same | ⟨value, added, found⟩
  · exact .inl same
  cases extra _ added with
  | other extra => exact absurd own extra.1
  | description same absent =>
      obtain ⟨rfl, rfl⟩ := Prod.mk.inj same
      exact .inr ⟨found, .inl ⟨rfl, absent⟩⟩
  | createdAt same absent =>
      obtain ⟨rfl, rfl⟩ := Prod.mk.inj same
      exact .inr ⟨found, .inr ⟨rfl, absent⟩⟩

theorem ApiKeyRecord.name_mem_names (record : ApiKeyRecord) {entry : String × Attribute}
    (inside : entry ∈ record.toItem.toList) : entry.1 ∈ names := by
  have named : entry.1 ∈ record.toItem.toList.map Prod.fst := List.mem_map_of_mem inside
  rw [toList_toItem] at named
  obtain ⟨key, apiKey, description | description, createdAt | createdAt⟩ := record <;>
    grind [optionalEntry, names]

theorem readsOptional_null {α : Type} (inner : Attribute → Except Store.ItemFault α) :
    ReadsOptional inner (some (.null true)) none := ⟨some none, rfl, rfl⟩

theorem ApiKeyRecord.ofItem_toItemWith (record : ApiKeyRecord)
    {beside : List (String × Attribute)} (extra : ∀ entry ∈ beside, record.IsExtra entry) :
    ApiKeyRecord.ofItem (record.toItemWith beside) = .ok record := by
  have found {name : String} (own : name ∈ names) := record.find?_toItemWith extra own
  refine ApiKeyRecord.ofItem_of_find? ?_ ?_ ?_ ?_ (passOthers_eq_ok fun entry inside => ?_)
  · rcases found (by decide : "key" ∈ names) with same | ⟨-, other⟩
    · exact same.trans record.find?_key
    · simp at other
  · rcases found (by decide : "api_key" ∈ names) with same | ⟨-, other⟩
    · exact same.trans record.find?_apiKey
    · simp at other
  · rcases found (by decide : "description" ∈ names) with same | ⟨null, absent⟩
    · exact same ▸ record.readsOptional_description
    · simp at absent
      rw [null, absent]
      exact readsOptional_null readText
  · rcases found (by decide : "created_at" ∈ names) with same | ⟨null, absent⟩
    · exact same ▸ record.readsOptional_createdAt
    · simp at absent
      rw [null, absent]
      exact readsOptional_null readInteger
  · rcases Directory.mem_insertAll inside with own | added
    · exact .inl (record.name_mem_names own)
    · exact .inr (extra entry added).isSound

end WorkoutBoard.Workout

namespace WorkoutBoard.Store

open Workout (ApiKeyRecord Code State StateRecord)

/-! ## What lies in a table -/

def TableRequest.Spares (key : String) : TableRequest → Prop
  | .get _ => True
  | .put item => Table.keyOf item.toJson ≠ key
  | .delete other => other ≠ key

namespace Table

def exchangeAll (requests : List TableRequest) (table : Table) : Table :=
  requests.foldl (fun reached request => (exchange request reached).2) table

theorem find?_exchange_of_spares {key : String} {request : TableRequest}
    (spares : request.Spares key) (table : Table) :
    (exchange request table).2.items.find? key = table.items.find? key := by
  rcases items_exchange request table with same | applied
  · rw [same]
  rw [applied]
  cases request with
  | get _ => rfl
  | put item => exact Directory.find?_insert_of_ne (Ne.symm spares) table.items item.toJson
  | delete other => exact Directory.find?_erase_of_ne (Ne.symm spares) table.items

theorem find?_exchangeAll_of_spares {key : String} {requests : List TableRequest}
    (spare : ∀ request ∈ requests, request.Spares key) (table : Table) :
    (exchangeAll requests table).items.find? key = table.items.find? key := by
  induction requests generalizing table with
  | nil => rfl
  | cons request later inductive_step =>
      obtain ⟨first, others⟩ := List.forall_mem_cons.mp spare
      exact (inductive_step others _).trans (find?_exchange_of_spares first table)

theorem IsFaithful.exchangeAll {table : Table} (faithful : table.IsFaithful)
    (requests : List TableRequest) : (exchangeAll requests table).IsFaithful := by
  induction requests generalizing table with
  | nil => exact faithful
  | cons request later inductive_step =>
      exact inductive_step (exchange_of_isFaithful faithful request).2.2

/-- The state that the table holds for a code, which is only kept from those who come too late. -/
structure ShowsState (code : Code) (found : Option StateRecord) (table : Table) : Prop where
  item : recordOf StateRecord.ofItem (table.exchange (.get code.stateKey)).1 = .ok found
  state : ∀ now, (perform (.getState code now) table).1 =
    .ok (found.filter fun record => !record.isExpired now)

theorem IsFaithful.showsState {table : Table} (faithful : table.IsFaithful) {code : Code}
    {found : Option StateRecord}
    (held : table.items.find? code.stateKey = found.map fun record => record.toItem.toJson) :
    table.ShowsState code found where
  item := by
    rw [(exchange_of_isFaithful faithful (.get code.stateKey)).1]
    exact recordOf_answer StateRecord.isReadable_toItem StateRecord.ofItem_toItem held
  state := perform_getState_of_isFaithful faithful held

theorem put_state_is_found {table : Table} (faithful : table.IsFaithful) {code : Code}
    {record : StateRecord} (own : record.key = code.stateKey) :
    (perform (.putState record) table).1 = .ok () ∧
      (perform (.putState record) table).2.IsFaithful ∧
      ∀ later : List TableRequest, (∀ request ∈ later, request.Spares code.stateKey) →
        (exchangeAll later (perform (.putState record) table).2).ShowsState code
          (some record) := by
  obtain ⟨answer, items, still⟩ := exchange_of_isFaithful faithful (.put record.toItem)
  refine ⟨congrArg granted answer, still, fun later spare => ?_⟩
  refine (still.exchangeAll later).showsState ?_
  have stored : (perform (.putState record) table).2.items.find? code.stateKey =
      some record.toItem.toJson := by
    change (exchange (.put record.toItem) table).2.items.find? code.stateKey = _
    rw [items, apply, putItem, StateRecord.keyOf_toItem, own, Directory.find?_insert_self]
  exact (find?_exchangeAll_of_spares spare _).trans stored

theorem deleted_state_is_not_found {table : Table} (faithful : table.IsFaithful) (code : Code) :
    (perform (.deleteState code) table).1 = .ok () ∧
      ∀ later : List TableRequest, (∀ request ∈ later, request.Spares code.stateKey) →
        (exchangeAll later (perform (.deleteState code) table).2).ShowsState code none := by
  obtain ⟨answer, items, still⟩ := exchange_of_isFaithful faithful (.delete code.stateKey)
  refine ⟨congrArg granted answer, fun later spare => ?_⟩
  refine (still.exchangeAll later).showsState ?_
  have gone : (perform (.deleteState code) table).2.items.find? code.stateKey = none := by
    change (exchange (.delete code.stateKey) table).2.items.find? code.stateKey = _
    rw [items, apply, Directory.find?_erase_self]
  exact (find?_exchangeAll_of_spares spare _).trans gone

theorem put_key_is_found {table : Table} (faithful : table.IsFaithful) {code : Code}
    {record : ApiKeyRecord} (own : record.key = code.apiKeyKey) :
    (putApiKey record table).1 = .ok () ∧
      ∀ later : List TableRequest, (∀ request ∈ later, request.Spares code.apiKeyKey) →
        (perform (.getApiKey code) (exchangeAll later (putApiKey record table).2)).1 =
          .ok (some record) := by
  obtain ⟨granted, items, still⟩ := putApiKey_of_isFaithful faithful record
  refine ⟨granted, fun later spare => ?_⟩
  refine perform_getApiKey_of_isFaithful (still.exchangeAll later) ?_
  have stored : (putApiKey record table).2.items.find? code.apiKeyKey =
      some record.toItem.toJson := by
    rw [items, own, Directory.find?_insert_self]
  exact (find?_exchangeAll_of_spares spare _).trans stored

end Table

/-- Records are read back from their items, from those with other sound attributes, also in the
state, and from those in which what a record does not have is null. A record lies under the key that
belongs to its code, where it is found by whoever asks for the code, until a state is deleted or a
record is written over; a state is hidden when its time has come. -/
theorem records_survive_storage :
    (∀ (record : StateRecord) (within beside : List (String × Attribute)),
      (∀ entry ∈ within, Item.IsExtra ["startDateTime"] entry) →
      (∀ entry ∈ beside, Item.IsExtra StateRecord.names entry) →
        StateRecord.ofItem record.toItem = .ok record ∧
          StateRecord.ofItem (record.toItemWith within beside) = .ok record) ∧
    (∀ (record : ApiKeyRecord) (beside : List (String × Attribute)),
      (∀ entry ∈ beside, record.IsExtra entry) →
        ApiKeyRecord.ofItem record.toItem = .ok record ∧
          ApiKeyRecord.ofItem (record.toItemWith beside) = .ok record) ∧
    (∀ (code : Code) (record : StateRecord), record.key = code.stateKey →
      record.toItem.find? "key" = some (.text code.stateKey) ∧
        (∀ now, Table.request (.getState code now) = .get code.stateKey) ∧
        Table.request (.deleteState code) = .delete code.stateKey ∧
        ∀ table : Table, table.IsFaithful →
          let put := table.perform (.putState record)
          put.1 = .ok () ∧
            ∀ later : List TableRequest, (∀ request ∈ later, request.Spares code.stateKey) →
              let reached := Table.exchangeAll later put.2
              reached.ShowsState code (some record) ∧
                (reached.perform (.deleteState code)).1 = .ok () ∧
                ∀ last : List TableRequest, (∀ request ∈ last, request.Spares code.stateKey) →
                  (Table.exchangeAll last (reached.perform (.deleteState code)).2).ShowsState
                    code none) ∧
    ∀ (code : Code) (record : ApiKeyRecord), record.key = code.apiKeyKey →
      record.toItem.find? "key" = some (.text code.apiKeyKey) ∧
        Table.request (.getApiKey code) = .get code.apiKeyKey ∧
        ∀ table : Table, table.IsFaithful →
          (table.putApiKey record).1 = .ok () ∧
            ∀ later : List TableRequest, (∀ request ∈ later, request.Spares code.apiKeyKey) →
              ((Table.exchangeAll later (table.putApiKey record).2).perform
                (.getApiKey code)).1 = .ok (some record) := by
  refine ⟨fun record within beside extraWithin extraBeside =>
      ⟨record.ofItem_toItem, record.ofItem_toItemWith extraWithin extraBeside⟩,
    fun record beside extra => ⟨record.ofItem_toItem, record.ofItem_toItemWith extra⟩,
    fun code record own => ⟨own ▸ record.find?_key, fun _ => rfl, rfl, fun table faithful => ?_⟩,
    fun code record own => ⟨own ▸ record.find?_key, rfl, fun table faithful =>
      Table.put_key_is_found faithful own⟩⟩
  obtain ⟨granted, still, found⟩ := Table.put_state_is_found faithful own
  exact ⟨granted, fun later spare => ⟨found later spare,
    Table.deleted_state_is_not_found (still.exchangeAll later) code⟩⟩

theorem records_survive_storage_with_more :
    let record : ApiKeyRecord := ⟨"api-key:a", "k", none, some (-9223372036854775808)⟩
    ApiKeyRecord.ofItem (record.toItemWith
      [("x", .list [.number "-1e400", .null true]), ("description", .null true)]) = .ok record := by
  refine (records_survive_storage.2.1 ⟨"api-key:a", "k", none, some (-9223372036854775808)⟩ _
    fun entry inside => ?_).2
  simp only [List.mem_cons, List.not_mem_nil, or_false] at inside
  rcases inside with rfl | rfl
  · refine .other ⟨by decide, .list fun element inside => ?_⟩
    simp only [List.mem_cons, List.not_mem_nil, or_false] at inside
    rcases inside with rfl | rfl
    · exact .number ⟨_, rfl⟩
    · exact .null
  · exact .description rfl rfl

/-- An attribute that calls itself a number has to be one, and a null may not deny that it is null,
even if nobody asks for it. -/
theorem unsound_attributes_are_refused :
    let record : StateRecord := ⟨"workout-state:a", ⟨"q"⟩, 9⟩
    "x" ∉ StateRecord.names ∧
      StateRecord.ofItem (record.toItemWith [] [("x", .number "abc")]) ≠ .ok record ∧
      StateRecord.ofItem (record.toItemWith [] [("x", .null false)]) ≠ .ok record := by
  have refused : ∀ value ∈ [Attribute.number "abc", .null false],
      (StateRecord.ofItem (StateRecord.toItemWith ⟨"workout-state:a", ⟨"q"⟩, 9⟩ []
        [("x", value)])).toOption = none := by
    decide +kernel
  obtain ⟨number, others⟩ := List.forall_mem_cons.mp refused
  obtain ⟨null, -⟩ := List.forall_mem_cons.mp others
  refine ⟨by decide, fun read => ?_, fun read => ?_⟩
  · rw [read] at number
    cases number
  · rw [read] at null
    cases null

end WorkoutBoard.Store
