import WorkoutBoard.Command.Provision
import WorkoutBoard.Proofs.Service.Authorization
import WorkoutBoard.Proofs.Store.Agreement

/-!
# What provisioning does

The program stores one record, from which the service reads the key back, or it changes nothing
(`provisioned_key_opens_its_code`). The table is all that the two programs share.
-/

namespace WorkoutBoard.Command

open Service (authorize)
open Store (Failure SentRequest Table)
open Workout (ApiKeyRecord Code)

/-! ## What is to be stored -/

theorem length_keyOfBytes (bytes : List UInt8) :
    (keyOfBytes bytes).toList.length = 2 * bytes.length := by
  rw [keyOfBytes, String.toList_ofList]
  induction bytes with
  | nil => rfl
  | cons byte rest inductive_step =>
      rw [List.flatMap_cons, List.length_append, inductive_step, List.length_cons]
      simp only [List.length_cons, List.length_nil]
      omega

theorem keyOfBytes_ne_empty {bytes : List UInt8} (nonempty : bytes ≠ []) :
    keyOfBytes bytes ≠ "" := by
  intro empty
  have length := length_keyOfBytes bytes
  rw [empty] at length
  have positive := List.length_pos_iff.mpr nonempty
  change 0 = 2 * bytes.length at length
  omega

/-- Why nothing is to be stored: the environment names no table, or the arguments name no code or an
empty key. -/
def IsIncomplete (tableName : Option String) (arguments : Arguments) : Prop :=
  tableName = none ∨ tableName = some "" ∨ arguments.code = none ∨ arguments.key = some ""

/-- The environment names a table by a name that no table has. -/
def IsUnnamed (tableName : Option String) : Prop :=
  ∃ name, tableName = some name ∧ name.toList.all Text.isBlank = true

structure Provision.IsFor (tableName : Option String) (arguments : Arguments)
    (random : List UInt8) (provision : Provision) : Prop where
  table : tableName = some provision.tableName
  code : arguments.code = some provision.code.text
  place : provision.record.key = provision.code.apiKeyKey
  key : provision.record.apiKey = arguments.key.getD (keyOfBytes random)
  nonempty : provision.record.apiKey ≠ ""

theorem chosenKey_cases {random : List UInt8} (drawn : random ≠ []) (given : Option String) :
    (given = some "" ∧ chosenKey random given = .error .emptyKey) ∨
      given ≠ some "" ∧ chosenKey random given = .ok (given.getD (keyOfBytes random)) ∧
        given.getD (keyOfBytes random) ≠ "" := by
  cases given with
  | none => exact .inr ⟨nofun, rfl, keyOfBytes_ne_empty drawn⟩
  | some key =>
      by_cases empty : key = ""
      · rw [empty]
        exact .inl ⟨rfl, rfl⟩
      · have visible : ¬key.isEmpty = true := mt String.isEmpty_iff.mp empty
        exact .inr ⟨mt Option.some.inj empty, if_neg visible, empty⟩

theorem chosenTable_cases (tableName : Option String) :
    ((tableName = none ∨ tableName = some "") ∧ chosenTable tableName = .error .tableName) ∨
      ∃ name, name ≠ "" ∧ tableName = some name ∧ chosenTable tableName = .ok name := by
  cases tableName with
  | none => exact .inl ⟨.inl rfl, rfl⟩
  | some name =>
      by_cases empty : name = ""
      · rw [empty]
        exact .inl ⟨.inr rfl, rfl⟩
      · have visible : ¬name.isEmpty = true := mt String.isEmpty_iff.mp empty
        exact .inr ⟨name, empty, rfl, if_neg visible⟩

theorem prepare_cases {random : List UInt8} (drawn : random ≠ []) (tableName : Option String)
    (arguments : Arguments) (now : Int64) :
    (IsIncomplete tableName arguments ∧
        ∃ incomplete, Provision.prepare tableName arguments random now = .error incomplete) ∨
      ¬IsIncomplete tableName arguments ∧
        ∃ provision, Provision.prepare tableName arguments random now = .ok provision ∧
          provision.IsFor tableName arguments random := by
  rw [Provision.prepare, IsIncomplete]
  obtain ⟨unnamed, stopped⟩ | ⟨name, named, rfl, chosen⟩ := chosenTable_cases tableName
  · rw [stopped]
    exact .inl ⟨unnamed.elim .inl fun empty => .inr (.inl empty), _, rfl⟩
  cases code : arguments.code with
  | none =>
      rw [chosen]
      exact .inl ⟨.inr (.inr (.inl rfl)), _, rfl⟩
  | some text =>
      rw [chosen]
      obtain ⟨empty, stopped⟩ | ⟨given, key, nonempty⟩ := chosenKey_cases drawn arguments.key
      · rw [stopped]
        exact .inl ⟨.inr (.inr (.inr empty)), _, rfl⟩
      · rw [key]
        refine .inr ⟨?_, _, rfl, rfl, code, rfl, rfl, nonempty⟩
        rintro (none | empty | none | empty)
        · cases none
        · exact named (Option.some.inj empty)
        · cases none
        · exact given empty

/-! ## What is stored -/

/-- The key that is provisioned for a code is the one that the service accepts for it, and nothing
else has become of the table, to which one item was sent by its name. -/
structure Provisioned (tableName : String) (code : Code) (apiKey : String) (before after : Table) :
    Prop where
  outgoing : ∃ item, after.outgoing = before.outgoing ++ [⟨tableName, .put item⟩]
  opens : ∀ supplied limit,
    ((authorize code supplied).run Table.backend limit after).1 = some (.ok ()) ↔
      supplied = apiKey
  others : ∀ key, key ≠ "api-key:" ++ code.text →
    after.items.find? key = before.items.find? key

theorem provisioned_putApiKey {name : String} {table : Table}
    (faithful : (table.withName name).IsFaithful) {code : Code} {record : ApiKeyRecord}
    (place : record.key = code.apiKeyKey) (nonempty : record.apiKey ≠ "") :
    Provisioned name code record.apiKey table
      (Table.putApiKey record (table.withName name)).2 := by
  obtain ⟨-, items, still⟩ := Table.putApiKey_of_isFaithful faithful record
  rw [place] at items
  refine ⟨⟨record.toItem, ?_⟩, fun supplied limit => ?_, fun key different => ?_⟩
  · have outgoing := (Table.outgoing_exchange (.put record.toItem) (table.withName name)).2
    rw [faithful.named] at outgoing
    exact outgoing
  · have held : (Table.putApiKey record (table.withName name)).2.items.find? code.apiKeyKey =
        (some record).map fun record => record.toItem.toJson := by
      rw [items, Directory.find?_insert, if_pos rfl, Option.map_some]
    have found : (Table.backend.perform (.getApiKey code)
        (Table.putApiKey record (table.withName name)).2).1 = .ok (some record) :=
      Table.perform_getApiKey_of_isFaithful still held
    rw [Service.run_authorize_eq_ok_iff (Nat.zero_le limit), found]
    constructor
    · rintro ⟨other, same, accepted, -⟩
      obtain rfl := Option.some.inj (Except.ok.inj same)
      exact accepted.symm
    · rintro rfl
      exact ⟨record, rfl, rfl, nonempty⟩
  · have apart : key ≠ code.apiKeyKey := different
    rw [items, Directory.find?_insert_of_ne apart]
    rfl

/-! ## The program -/

theorem exitCode_outcome (provision : Provision) (answer : Except Failure Unit) :
    (provision.outcome answer).exitCode = 0 ↔ answer = .ok () := by
  cases answer with
  | ok stored => exact ⟨fun _ => rfl, fun _ => rfl⟩
  | error failure => exact ⟨nofun, nofun⟩

theorem items_storeKey_of_error {host : Host} {record : ApiKeyRecord} {table : Table}
    {failure : Failure} (failed : (storeKey host record table).1 = .error failure) :
    (storeKey host record table).2.items = table.items := by
  rw [storeKey] at failed ⊢
  split
  next => rfl
  next reached =>
    rw [reached] at failed
    exact Table.items_putApiKey_of_error failed

theorem storeKey_of_blank {table : Table} (blank : table.name.toList.all Text.isBlank = true)
    (host : Host) (record : ApiKeyRecord) :
    (∃ failure, (storeKey host record table).1 = .error failure) ∧
      (storeKey host record table).2 = table := by
  rw [storeKey]
  split
  next => exact ⟨⟨_, rfl⟩, rfl⟩
  next =>
    rw [Table.putApiKey, Table.exchange_of_blank blank]
    exact ⟨⟨_, rfl⟩, rfl⟩

theorem of_storeKey_eq_ok {host : Host} {record : ApiKeyRecord} {table : Table}
    (stored : (storeKey host record table).1 = .ok ()) (answering : table.replies = []) :
    table.IsFaithful ∧ storeKey host record table = Table.putApiKey record table := by
  have named : table.name.toList.all Text.isBlank = false := by
    rw [Bool.eq_false_iff]
    intro blank
    obtain ⟨⟨failure, failed⟩, -⟩ := storeKey_of_blank blank host record
    rw [failed] at stored
    cases stored
  rw [storeKey] at stored ⊢
  split at stored
  next => cases stored
  next => exact ⟨⟨named, answering⟩, rfl⟩

/-- Whatever a table holds, a program that ends well has sent it one record by the chosen name and
told of the key in it, which is from then on the only one that the service accepts for the code.
Incomplete arguments, or a name that no table has, stop the program before it sends anything. It
always ends well if they do not and the table answers by itself. A program that does not end well
has changed nothing. -/
theorem provisioned_key_opens_its_code (host : Host) (tableName : Option String)
    (arguments : List String) {random : List UInt8} (drawn : random.length = 32) (now : Int64)
    (table : Table) :
    let chosen := Arguments.ofList arguments
    let apiKey := chosen.key.getD (keyOfBytes random)
    let outcome := (provisionKey host tableName arguments random now table).1
    let after := (provisionKey host tableName arguments random now table).2
    (outcome.exitCode = 0 → table.replies = [] →
      ∃ (name : String) (code : Code), tableName = some name ∧ chosen.code = some code.text ∧
        apiKey ≠ "" ∧ outcome.output = "API key for " ++ code.text ++ ": " ++ apiKey ++ "\n" ∧
        Provisioned name code apiKey table after) ∧
    (IsIncomplete tableName chosen → outcome.exitCode ≠ 0 ∧ after = table) ∧
    (IsUnnamed tableName → outcome.exitCode ≠ 0 ∧ after = table.withName after.name) ∧
    (outcome.exitCode ≠ 0 → after.items = table.items) ∧
    (¬IsIncomplete tableName chosen → ¬IsUnnamed tableName → host.connectFault = none →
      table.replies = [] → outcome.exitCode = 0) := by
  intro chosen apiKey outcome after
  have nonempty : random ≠ [] := by
    rintro rfl
    cases drawn
  obtain ⟨incomplete, reason, stopped⟩ | ⟨complete, provision, prepared, isFor⟩ :=
    prepare_cases nonempty tableName chosen now
  · have ended : provisionKey host tableName arguments random now table =
        (.failed reason.message, table) := by
      rw [provisionKey, stopped]
    have failed : outcome = .failed reason.message := congrArg Prod.fst ended
    have same : after = table := congrArg Prod.snd ended
    rw [failed, same]
    exact ⟨nofun, fun _ => ⟨nofun, rfl⟩, fun _ => ⟨nofun, rfl⟩, fun _ => rfl,
      fun complete => absurd incomplete complete⟩
  · let addressed := table.withName provision.tableName
    have ended : provisionKey host tableName arguments random now table =
        (provision.outcome (storeKey host provision.record addressed).1,
          (storeKey host provision.record addressed).2) := by
      rw [provisionKey, prepared]
    have said : outcome = provision.outcome (storeKey host provision.record addressed).1 :=
      congrArg Prod.fst ended
    have reached : after = (storeKey host provision.record addressed).2 := congrArg Prod.snd ended
    have isKey : apiKey = provision.record.apiKey := isFor.key.symm
    have endsWell := exitCode_outcome provision (storeKey host provision.record addressed).1
    rw [said, reached, isKey]
    refine ⟨fun good answering => ?_, fun incomplete => absurd incomplete complete,
      fun unnamed => ?_, fun bad => ?_, fun _ named connected answering => endsWell.mpr ?_⟩
    · have stored := endsWell.mp good
      obtain ⟨faithful, put⟩ := of_storeKey_eq_ok stored answering
      rw [stored, put]
      exact ⟨provision.tableName, provision.code, isFor.table, isFor.code, isFor.nonempty, rfl,
        provisioned_putApiKey faithful isFor.place isFor.nonempty⟩
    · obtain ⟨name, chosen, blank⟩ := unnamed
      obtain rfl := Option.some.inj (chosen.symm.trans isFor.table)
      obtain ⟨⟨failure, failed⟩, same⟩ :=
        storeKey_of_blank (show addressed.name.toList.all Text.isBlank = true from blank) host
          provision.record
      rw [failed, same]
      exact ⟨nofun, rfl⟩
    · cases answer : (storeKey host provision.record addressed).1 with
      | ok stored => exact absurd (endsWell.mpr answer) bad
      | error failure => exact items_storeKey_of_error answer
    · have named : addressed.name.toList.all Text.isBlank = false :=
        Bool.eq_false_iff.mpr fun blank => named ⟨provision.tableName, isFor.table, blank⟩
      rw [storeKey, connected]
      exact (Table.putApiKey_of_isFaithful ⟨named, answering⟩ provision.record).1

def provisionedBefore : Table :=
  (Table.empty "").putItem (ApiKeyRecord.ofKey ⟨"a/b"⟩ "old").toItem.toJson

theorem provisioned_key_opens_its_code_again :
    let arguments := ["--code", "c", "--key", "new", "--description", "", "--code", "a/b"]
    let random := List.replicate 32 (7 : UInt8)
    let result := provisionKey .connected (some "cache") arguments random 9 provisionedBefore
    result.1 = ⟨0, "API key for a/b: new\n", ""⟩ ∧
      ((authorize ⟨"a/b"⟩ "new").run Table.backend 0 result.2).1 = some (.ok ()) ∧
      ((authorize ⟨"a/b"⟩ "old").run Table.backend 0 result.2).1 ≠ some (.ok ()) ∧
      result.2.outgoing.map SentRequest.tableName = ["cache"] := by
  intro arguments random result
  have said : result.1 = ⟨0, "API key for a/b: new\n", ""⟩ := by decide +kernel
  have read : Arguments.ofList arguments = ⟨some "a/b", some "new", some ""⟩ := by decide +kernel
  obtain ⟨name, code, named, given, -, -, provisioned⟩ := (provisioned_key_opens_its_code .connected
    (some "cache") arguments List.length_replicate 9 provisionedBefore).1
      (congrArg Outcome.exitCode said) rfl
  rw [read] at given provisioned
  obtain rfl : code = ⟨"a/b"⟩ := congrArg Code.mk (Option.some.inj given).symm
  obtain rfl := Option.some.inj named
  obtain ⟨item, outgoing⟩ := provisioned.outgoing
  refine ⟨said, (provisioned.opens "new" 0).mpr rfl, fun accepted => ?_, ?_⟩
  · exact absurd ((provisioned.opens "old" 0).mp accepted) (by decide)
  · exact congrArg (List.map SentRequest.tableName) outgoing

end WorkoutBoard.Command
