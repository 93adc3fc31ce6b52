import WorkoutBoard.Proofs.Json.Grammar
import WorkoutBoard.Proofs.Json.Literal

/-!
# How much room values take

Nothing in a document is shorter than the printer would write it, numbers apart: what spells a value
has at least `Value.leastSize` bytes (`Value.leastSize_le_of_ofBytes`).
-/

namespace WorkoutBoard.Json

namespace Value

mutual

/-- How many bytes a value takes at least: those of its strings, colons and brackets. -/
def leastSize : Value → Nat
  | .text value => literalSize value
  | .list elements => leastSizeOfElements elements + 2
  | .object members => leastSizeOfMembers members + 2
  | _ => 0

def leastSizeOfElements : List Value → Nat
  | [] => 0
  | value :: rest => value.leastSize + leastSizeOfElements rest

def leastSizeOfMembers : List (String × Value) → Nat
  | [] => 0
  | (name, value) :: rest => literalSize name + 1 + value.leastSize + leastSizeOfMembers rest

end

theorem leastSizeOfMembers_append (front back : List (String × Value)) :
    leastSizeOfMembers (front ++ back) = leastSizeOfMembers front + leastSizeOfMembers back := by
  induction front with
  | nil => exact (Nat.zero_add _).symm
  | cons member rest inductive_step =>
      rw [List.cons_append, leastSizeOfMembers, inductive_step, leastSizeOfMembers]
      exact (Nat.add_assoc _ _ _).symm

end Value

def Covers (SpellsValue : List UInt8 → Value → Prop) : Prop :=
  ∀ ⦃bytes value⦄, SpellsValue bytes value → value.leastSize ≤ bytes.length

namespace Covers

variable {SpellsValue : List UInt8 → Value → Prop} {bytes : List UInt8}

theorem elements (covers : Covers SpellsValue) {values : List Value}
    (spells : SpellsSeries SpellsValue bytes values) :
    Value.leastSizeOfElements values ≤ bytes.length := by
  induction spells with
  | last only =>
      have size := covers only
      rwa [Value.leastSizeOfElements, Value.leastSizeOfElements]
  | cons first _ _ _ inductive_step =>
      have size := covers first
      simp only [Value.leastSizeOfElements, List.length_append, List.length_cons]
      omega

theorem member (covers : Covers SpellsValue) {member : String × Value}
    (spells : SpellsMember SpellsValue bytes member) :
    literalSize member.1 + 1 + member.2.leastSize ≤ bytes.length := by
  cases spells with
  | mk named _ _ spells =>
      have nameSize := literalSize_le_of_spellsText named
      have size := covers spells
      simp only [List.length_append, List.length_cons]
      omega

theorem members (covers : Covers SpellsValue) {members : List (String × Value)}
    (spells : SpellsSeries (SpellsMember SpellsValue) bytes members) :
    Value.leastSizeOfMembers members ≤ bytes.length := by
  induction spells with
  | last only =>
      have size := covers.member only
      rwa [Value.leastSizeOfMembers, Value.leastSizeOfMembers]
  | cons first _ _ _ inductive_step =>
      have size := covers.member first
      simp only [Value.leastSizeOfMembers, List.length_append, List.length_cons]
      omega

theorem scalar : Covers SpellsScalar := by
  intro bytes value spells
  cases spells with
  | text spells => exact literalSize_le_of_spellsText spells
  | _ => exact Nat.zero_le _

theorem spellsOver (covers : Covers SpellsValue) : Covers (SpellsOver SpellsValue) := by
  intro bytes value spells
  cases spells with
  | scalar spells => exact scalar spells
  | list spells =>
      rw [Value.leastSize]
      cases spells with
      | empty _ => simp [Value.leastSizeOfElements]
      | series _ spells _ =>
          have size := covers.elements spells
          simp only [List.length_append, List.length_cons, List.length_nil]
          omega
  | object spells =>
      rw [Value.leastSize]
      cases spells with
      | empty _ => simp [Value.leastSizeOfMembers]
      | series _ spells _ =>
          have size := covers.members spells
          simp only [List.length_append, List.length_cons, List.length_nil]
          omega

end Covers

theorem spells_covers (depth : Nat) : Covers (Spells depth) := by
  induction depth with
  | zero => exact .scalar
  | succ depth inductive_step => exact inductive_step.spellsOver

namespace Value

theorem leastSize_le_of_ofBytes {document : List UInt8} {value : Value}
    (read : Value.ofBytes document = .ok value) : value.leastSize ≤ document.length := by
  obtain ⟨before, bytes, after, rfl, -, -, spells⟩ := ofBytes_eq_ok_iff.mp read
  have size := spells_covers deepest spells
  simp only [List.length_append]
  omega

theorem leastSize_le_of_lastMember? {name : String} {members : List (String × Value)}
    {value : Value} (last : lastMember? name members = some value) :
    (Value.object [(name, value)]).leastSize ≤ (Value.object members).leastSize := by
  obtain ⟨member, found, rfl⟩ := Option.map_eq_some_iff.mp last
  have isMember := List.mem_reverse.mp (List.mem_of_find?_eq_some found)
  have same : member.1 = name := by simpa using List.find?_some found
  obtain ⟨before, after, rfl⟩ := List.append_of_mem isMember
  simp only [leastSize, leastSizeOfMembers_append, leastSizeOfMembers, same]
  omega

theorem length_compact_member (name text : String) :
    (Text.Utf8.bytes (Value.object [(name, .text text)]).compact).length =
      (Value.object [(name, .text text)]).leastSize := by
  have brace : Text.Utf8.encodeChar '\x7b' = [0x7B] := rfl
  have closing : Text.Utf8.encodeChar '\x7d' = [0x7D] := rfl
  have colon : Text.Utf8.encodeChar ':' = [0x3A] := rfl
  have first := length_encode_literal name
  have second := length_encode_literal text
  rw [Text.Utf8.encode] at first second
  simp only [compact, Text.Utf8.bytes, String.toList_ofList, characters, memberCharacters,
    leastSize, leastSizeOfMembers, Text.Utf8.encode, List.flatMap_cons, List.flatMap_append,
    List.flatMap_nil, List.length_append, List.length_cons, List.length_nil, brace, closing, colon,
    first, second]
  omega

end Value

end WorkoutBoard.Json
