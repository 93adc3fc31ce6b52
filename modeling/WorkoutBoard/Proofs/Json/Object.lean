import WorkoutBoard.Proofs.Json.Grammar
import WorkoutBoard.Proofs.Json.Literal

/-!
# Compact texts hold their values

The compact text of an object spells the object, with its members in their order, if those of its
members do (`spells_compact_object`). Without numbers and containers in it, it is read back
(`Value.ofBytes_compact_object`).
-/

namespace WorkoutBoard.Json

open Text.Utf8 (encode encode_append)

theorem Value.bytes_compact (value : Value) :
    Text.Utf8.bytes value.compact = encode value.characters := by
  rw [compact, Text.Utf8.bytes, String.toList_ofList]

/-- Neither a number nor a container. -/
def Value.IsScalar : Value → Prop
  | .null | .boolean _ | .text _ => True
  | _ => False

theorem spellsScalar_compact {value : Value} (scalar : value.IsScalar) :
    SpellsScalar (encode value.characters) value := by
  cases value with
  | null => exact .null
  | boolean truth =>
      cases truth with
      | true => exact .yes
      | false => exact .no
  | text content => exact .text (spellsText_literal content)
  | number _ => cases scalar
  | list _ => cases scalar
  | object _ => cases scalar

section

variable {SpellsValue : List UInt8 → Value → Prop}

theorem spellsMember_compact (name : String) {value : Value}
    (spells : SpellsValue (encode value.characters) value) :
    SpellsMember SpellsValue (encode (literal name ++ ':' :: value.characters)) (name, value) := by
  have bytes : encode (literal name ++ ':' :: value.characters) =
      encode (literal name) ++ ([] ++ 0x3A :: ([] ++ encode value.characters)) := by
    rw [encode_append]
    rfl
  rw [bytes]
  exact .mk (spellsText_literal name) isBlanks_nil isBlanks_nil spells

theorem spellsSeries_compact (first : String × Value) (later : List (String × Value))
    (spells : ∀ member ∈ first :: later, SpellsValue (encode member.2.characters) member.2) :
    SpellsSeries (SpellsMember SpellsValue) (encode (Value.memberCharacters (first :: later)))
      (first :: later) := by
  induction later generalizing first with
  | nil => exact .last (spellsMember_compact first.1 (spells first (List.mem_cons_self ..)))
  | cons second others inductive_step =>
      have bytes : encode (Value.memberCharacters (first :: second :: others)) =
          encode (literal first.1 ++ ':' :: first.2.characters) ++
            ([] ++ 0x2C :: ([] ++ encode (Value.memberCharacters (second :: others)))) := by
        have split : Value.memberCharacters (first :: second :: others) =
            (literal first.1 ++ ':' :: first.2.characters) ++
              ',' :: Value.memberCharacters (second :: others) := by
          rw [Value.memberCharacters, List.append_assoc, List.cons_append]
          simp
        rw [split, encode_append]
        rfl
      rw [bytes]
      exact .cons (spellsMember_compact first.1 (spells first (List.mem_cons_self ..)))
        isBlanks_nil isBlanks_nil
        (inductive_step second fun member inside => spells member (List.mem_cons_of_mem _ inside))

theorem spells_compact_object {members : List (String × Value)}
    (spells : ∀ member ∈ members, SpellsValue (encode member.2.characters) member.2) :
    SpellsOver SpellsValue (encode (Value.object members).characters) (.object members) := by
  have bytes : encode (Value.object members).characters =
      0x7B :: (encode (Value.memberCharacters members) ++ [0x7D]) := by
    have opened : encode (Value.object members).characters =
        0x7B :: encode (Value.memberCharacters members ++ ['\x7d']) := rfl
    rw [opened, encode_append]
    rfl
  rw [bytes]
  cases members with
  | nil => exact .object (.empty isBlanks_nil)
  | cons first later =>
      exact .object (.series isBlanks_nil (spellsSeries_compact first later spells) isBlanks_nil)

end

/-- The compact text of an object is read back, unless it has numbers or containers in it. -/
theorem Value.ofBytes_compact_object {members : List (String × Value)}
    (scalar : ∀ member ∈ members, member.2.IsScalar) :
    Value.ofBytes (Text.Utf8.bytes (Value.object members).compact) = .ok (.object members) := by
  have spells : Spells deepest (encode (Value.object members).characters) (.object members) :=
    spells_compact_object fun member inside => .scalar (spellsScalar_compact (scalar member inside))
  rw [Value.ofBytes_eq_ok_iff, Value.bytes_compact]
  exact ⟨[], _, [], (List.append_nil _).symm, isBlanks_nil, isBlanks_nil, spells⟩

theorem Value.compact_object_inj {members others : List (String × Value)}
    (scalar : ∀ member ∈ members, member.2.IsScalar)
    (otherScalar : ∀ member ∈ others, member.2.IsScalar)
    (same : (Value.object members).compact = (Value.object others).compact) : members = others := by
  have read := Value.ofBytes_compact_object scalar
  rw [same, Value.ofBytes_compact_object otherScalar] at read
  exact (Value.object.inj (Except.ok.inj read)).symm

end WorkoutBoard.Json
