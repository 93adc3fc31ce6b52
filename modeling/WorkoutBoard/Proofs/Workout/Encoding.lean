import WorkoutBoard.Proofs.Json.Record
import WorkoutBoard.Workout.Encoding

/-!
# Records and their texts

The layouts of the records say what their JSON texts are: objects in any order and with anything
else in them, or lists. Every such text is read as its record, and the compact text of a record is
one of them, so that it stays as it is when it is read and written again
(`record_texts_are_read_and_rewritten`).
-/

namespace WorkoutBoard.Workout

open Json
open Text.Utf8 (bytes encode)

/-! ## Layouts -/

namespace State

def layout (state : State) : Layout where
  fields := [⟨"startDateTime", true, fun bytes => SpellsText bytes state.startDateTime⟩]

def draft (state : State) (seen : List String) : StateDraft where
  startDateTime := kept "startDateTime" state.startDateTime seen

end State

namespace StateRecord

def layout (record : StateRecord) : Layout where
  fields := [
    ⟨"key", true, fun bytes => SpellsText bytes record.key⟩,
    ⟨"state", true, fun bytes => record.state.layout.Spells bytes⟩,
    ⟨"ttl", true, fun bytes => SpellsInteger bytes record.ttl⟩]

def draft (record : StateRecord) (seen : List String) : StateRecordDraft where
  key := kept "key" record.key seen
  state := kept "state" record.state seen
  ttl := kept "ttl" record.ttl seen

end StateRecord

namespace ApiKeyRecord

def layout (record : ApiKeyRecord) : Layout where
  fields := [
    ⟨"key", true, fun bytes => SpellsText bytes record.key⟩,
    ⟨"api_key", true, fun bytes => SpellsText bytes record.apiKey⟩,
    ⟨"description", record.description.isSome,
      fun bytes => SpellsOptional SpellsText bytes record.description⟩,
    ⟨"created_at", record.createdAt.isSome,
      fun bytes => SpellsOptional SpellsInteger bytes record.createdAt⟩]

def draft (record : ApiKeyRecord) (seen : List String) : ApiKeyDraft where
  key := kept "key" record.key seen
  apiKey := kept "api_key" record.apiKey seen
  description := kept "description" record.description seen
  createdAt := kept "created_at" record.createdAt seen

end ApiKeyRecord

/-! ## Reading -/

theorem State.gathers (state : State) (size : Nat) :
    State.shape.Gathers state.layout state size state.draft where
  fields := .cons
    (Field.gathers_text (fun _ => rfl) fun _ => by simp [draft])
    .nil
  blank := by simp [shape, draft]
  others := by
    intro name unknown seen
    simp only [layout, Layout.names, List.map_cons, List.map_nil, List.mem_singleton] at unknown
    simp [draft, kept_cons_of_ne, unknown]
  finish := by
    intro seen all
    obtain ⟨startDateTime, -⟩ := List.forall_mem_cons.mp all
    simp only [shape, draft, kept_of_mem (startDateTime rfl)]
    rfl

theorem StateRecord.gathers (record : StateRecord) (size : Nat) :
    StateRecord.shape.Gathers record.layout record size record.draft where
  fields := .cons
    (Field.gathers_text (fun _ => rfl) fun _ => by simp [draft, kept_cons_of_ne]) <| .cons
    (Field.of_gathers (fun _ => rfl) (fun _ => by simp [draft, kept_cons_of_ne])
      (fun _ spells fits => (State.gathers record.state size).takes spells fits)
      fun _ spells => spells.exists_cons) <| .cons
    (Field.of_gathers (fun _ => rfl) (fun _ => by simp [draft, kept_cons_of_ne])
      (fun _ spells _ => int64Value_takes spells)
      (fun _ spells => spellsInteger_begins.visible spells))
    .nil
  blank := by simp [shape, draft]
  others := by
    intro name unknown seen
    simp only [layout, Layout.names, List.map_cons, List.map_nil, List.mem_cons, List.not_mem_nil,
      or_false, not_or] at unknown
    simp [draft, kept_cons_of_ne, unknown]
  finish := by
    intro seen all
    simp only [layout, List.forall_mem_cons] at all
    obtain ⟨key, state, ttl, -⟩ := all
    simp only [shape, draft, kept_of_mem (key trivial), kept_of_mem (state trivial),
      kept_of_mem (ttl trivial)]
    rfl

theorem ApiKeyRecord.gathers (record : ApiKeyRecord) (size : Nat) :
    ApiKeyRecord.shape.Gathers record.layout record size record.draft where
  fields := .cons
    (Field.gathers_text (fun _ => rfl) fun _ => by simp [draft, kept_cons_of_ne]) <| .cons
    (Field.gathers_text (fun _ => rfl) fun _ => by simp [draft, kept_cons_of_ne]) <| .cons
    (Field.of_gathers (fun _ => rfl) (fun _ => by simp [draft, kept_cons_of_ne])
      (fun _ spells _ => optionalValue_takes spellsText_begins
        (fun _ _ spells => textValue_takes spells) spells)
      (fun _ spells => spellsText_begins.optional spells)) <| .cons
    (Field.of_gathers (fun _ => rfl) (fun _ => by simp [draft, kept_cons_of_ne])
      (fun _ spells _ => optionalValue_takes spellsInteger_begins
        (fun _ _ spells => int64Value_takes spells) spells)
      (fun _ spells => spellsInteger_begins.optional spells))
    .nil
  blank := by simp [shape, draft]
  others := by
    intro name unknown seen
    simp only [layout, Layout.names, List.map_cons, List.map_nil, List.mem_cons, List.not_mem_nil,
      or_false, not_or] at unknown
    simp [draft, kept_cons_of_ne, unknown]
  finish := by
    intro seen all
    simp only [layout, List.forall_mem_cons] at all
    obtain ⟨key, apiKey, description, createdAt, -⟩ := all
    simp only [shape, draft, kept_of_mem (key trivial), kept_of_mem (apiKey trivial),
      kept_getD description, kept_getD createdAt]
    rfl

/-! ## Writing -/

theorem spellsInteger_characters (value : Int64) :
    SpellsInteger (encode (integer value).characters) value := rfl

theorem State.spells_compact (state : State) :
    state.layout.Spells (encode state.toJson.characters) :=
  Layout.spells_compact (by simp [layout, Layout.names])
    (.written (spellsText_literal state.startDateTime) .nil)

theorem StateRecord.spells_compact (record : StateRecord) :
    record.layout.Spells (encode record.toJson.characters) :=
  Layout.spells_compact (by simp [layout, Layout.names]) <|
    .written (spellsText_literal record.key) <|
    .written record.state.spells_compact <|
    .written (spellsInteger_characters record.ttl) .nil

theorem writesFields_optionalMember {α : Type} {SpellsInner : List UInt8 → α → Prop}
    (write : α → Value) (spells : ∀ value, SpellsInner (encode (write value).characters) value)
    (name : String) (content : Option α) {fields : List FieldLayout}
    {members : List (String × List UInt8)} (later : WritesFields fields members) :
    WritesFields
      (⟨name, content.isSome, fun bytes => SpellsOptional SpellsInner bytes content⟩ :: fields)
      ((optionalMember name (content.map write)).map compactMember ++ members) := by
  cases content with
  | none => exact .omitted rfl later
  | some value => exact .written (.present (spells value)) later

theorem ApiKeyRecord.spells_compact (record : ApiKeyRecord) :
    record.layout.Spells (encode record.toJson.characters) := by
  have createdAt := writesFields_optionalMember integer spellsInteger_characters
    "created_at" record.createdAt .nil
  have description := writesFields_optionalMember Value.text spellsText_literal
    "description" record.description createdAt
  refine Layout.spells_compact (by simp [layout, Layout.names]) ?_
  rw [List.map_append, List.map_append, List.append_assoc]
  rw [List.append_nil] at description
  exact .written (spellsText_literal record.key) <|
    .written (spellsText_literal record.apiKey) description

/-! ## Documents -/

theorem State.decode_of_isDocument (state : State) {document : List UInt8}
    (isDocument : state.layout.IsDocument document) : State.codec.decode document = .ok state :=
  Shape.readDocument_of_isDocument state.gathers isDocument

theorem StateRecord.decode_of_isDocument (record : StateRecord) {document : List UInt8}
    (isDocument : record.layout.IsDocument document) :
    StateRecord.codec.decode document = .ok record :=
  Shape.readDocument_of_isDocument record.gathers isDocument

theorem ApiKeyRecord.decode_of_isDocument (record : ApiKeyRecord) {document : List UInt8}
    (isDocument : record.layout.IsDocument document) :
    ApiKeyRecord.codec.decode document = .ok record :=
  Shape.readDocument_of_isDocument record.gathers isDocument

namespace Codec

variable {α : Type} (codec : Codec α)

def rewrite (document : List UInt8) : Except Json.Fault String :=
  (codec.decode document).map fun value => (codec.toJson value).compact

/-- What is written is read: every value from its compact text, and what is written for an accepted
document as the same value, so that it is written the same again. -/
structure RoundTrips : Prop where
  reads : ∀ value, codec.decode (bytes (codec.toJson value).compact) = .ok value
  rewrites : ∀ ⦃document text⦄, codec.rewrite document = .ok text →
    codec.decode (bytes text) = codec.decode document ∧ codec.rewrite (bytes text) = .ok text

theorem roundTrips_of_decode
    (reads : ∀ value, codec.decode (encode (codec.toJson value).characters) = .ok value) :
    codec.RoundTrips where
  reads := by
    intro value
    rw [Value.bytes_compact]
    exact reads value
  rewrites := by
    intro document text written
    unfold rewrite at written
    cases found : codec.decode document with
    | error fault =>
        rw [found] at written
        cases written
    | ok value =>
        rw [found] at written
        obtain rfl := Except.ok.inj written
        rw [rewrite, Value.bytes_compact, reads]
        exact ⟨rfl, rfl⟩

end Codec

theorem Code.codec_takes {bytes : List UInt8} {code : Code} (spells : SpellsText bytes code.text)
    (size : Nat) : Takes (Code.codec.read size) bytes code := by
  intro blanks rest blank ends
  change (textValue _).map _ = _
  rw [textValue_takes spells blank ends]
  rfl

theorem Code.decode_compact (code : Code) :
    Code.codec.decode (encode code.toJson.characters) = .ok code := by
  have takes := Code.codec_takes (spellsText_literal code.text) (encode (literal code.text)).length
  have read := takes.readDocument isBlanks_nil isBlanks_nil
  rw [List.append_nil, List.nil_append] at read
  exact read

/-- Every text of a record is read as the record. What is written for a record or a code is read as
that, and what is written for an accepted document is written the same again. -/
theorem record_texts_are_read_and_rewritten :
    (∀ (state : State) (document : List UInt8), state.layout.IsDocument document →
      State.codec.decode document = .ok state) ∧
    (∀ (record : StateRecord) (document : List UInt8), record.layout.IsDocument document →
      StateRecord.codec.decode document = .ok record) ∧
    (∀ (record : ApiKeyRecord) (document : List UInt8), record.layout.IsDocument document →
      ApiKeyRecord.codec.decode document = .ok record) ∧
    State.codec.RoundTrips ∧ StateRecord.codec.RoundTrips ∧ ApiKeyRecord.codec.RoundTrips ∧
    Code.codec.RoundTrips :=
  ⟨fun state _ => state.decode_of_isDocument, fun record _ => record.decode_of_isDocument,
    fun record _ => record.decode_of_isDocument,
    State.codec.roundTrips_of_decode fun state =>
      state.decode_of_isDocument state.spells_compact.isDocument,
    StateRecord.codec.roundTrips_of_decode fun record =>
      record.decode_of_isDocument record.spells_compact.isDocument,
    ApiKeyRecord.codec.roundTrips_of_decode fun record =>
      record.decode_of_isDocument record.spells_compact.isDocument,
    Code.codec.roundTrips_of_decode Code.decode_compact⟩

def plainKey : ApiKeyRecord := ⟨"k", "a", none, none⟩

def shuffledKey : List UInt8 :=
  bytes "\x7b\"x\":[],\"api_key\":\"\\u0061\",\"key\":\"k\",\"created_at\":null\x7d"

theorem isDocument_shuffledKey : plainKey.layout.IsDocument shuffledKey := by
  have character : SpellsCharacter (bytes "\\u0061") 'a' :=
    .unit (show fourDigits? 0x30 0x30 0x36 0x31 = some 0x61 by decide) (by decide) (by decide)
  have escaped : SpellsText (bytes "\"\\u0061\"") "a" :=
    ⟨_, by decide, .cons character .nil⟩
  have writes : WritesFields plainKey.layout.fields
      [("key", bytes "\"k\""), ("api_key", bytes "\"\\u0061\""), ("created_at", bytes "null")] :=
    .written (spellsText_literal "k") <| .written escaped <| .omitted rfl <| .written .null .nil
  have isText : IsJsonText (bytes "[]") :=
    isJsonText_of_spells (show Spells 1 _ (.list []) from .list (.empty isBlanks_nil))
  have apart : plainKey.layout.names.Nodup ∧ "x" ∉ plainKey.layout.names := by decide
  have holds := (writes.holds apart.1).cons_other apart.2 isText
  have pair (name : String) (value : List UInt8) : SpellsPair SpellsText Eq
      (encode (literal name) ++ ([] ++ 0x3A :: ([] ++ value))) (name, value) :=
    .mk (spellsText_literal name) isBlanks_nil isBlanks_nil rfl
  have spells : SpellsBetween 0x7B 0x7D (SpellsPair SpellsText Eq) _ _ :=
    .series isBlanks_nil
      (.cons (pair "x" (bytes "[]")) isBlanks_nil isBlanks_nil <|
        .cons (pair "api_key" (bytes "\"\\u0061\"")) isBlanks_nil isBlanks_nil <|
        .cons (pair "key" (bytes "\"k\"")) isBlanks_nil isBlanks_nil <|
        .last (pair "created_at" (bytes "null")))
      isBlanks_nil
  exact (Layout.Spells.object spells (holds.perm (by decide))).isDocument

theorem record_texts_are_read_and_rewritten_of_shuffled :
    plainKey.layout.IsDocument shuffledKey ∧
      ApiKeyRecord.codec.decode shuffledKey = .ok plainKey ∧
      ApiKeyRecord.codec.decode (bytes "\x7b\"key\":\"k\",\"api_key\":\"a\"\x7d") =
        ApiKeyRecord.codec.decode shuffledKey := by
  obtain ⟨-, -, reads, -, -, roundTrips, -⟩ := record_texts_are_read_and_rewritten
  have read := reads plainKey shuffledKey isDocument_shuffledKey
  have written : ApiKeyRecord.codec.rewrite shuffledKey =
      .ok "\x7b\"key\":\"k\",\"api_key\":\"a\"\x7d" := by
    rw [Codec.rewrite, read]
    decide +kernel
  exact ⟨isDocument_shuffledKey, read, (roundTrips.rewrites written).1⟩

end WorkoutBoard.Workout
