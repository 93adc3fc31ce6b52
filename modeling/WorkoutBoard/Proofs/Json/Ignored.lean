import WorkoutBoard.Proofs.Json.Grammar

/-!
# What is passed over

`IsJsonText` says which bytes are a JSON text at all, of any depth, whatever its strings and numbers
stand for. All of that is passed over where nobody asks for it (`skipped_takes`).
-/

namespace WorkoutBoard.Json

/-! ## Any text -/

/-- The bytes of a part of a string: a byte as it is, an escape by a letter, or one by the number of
a code unit, which may be half of a pair. -/
inductive IsPiece : List UInt8 → Prop where
  | plain {byte : UInt8} (notQuote : byte ≠ 0x22) (notBackslash : byte ≠ 0x5C)
      (visible : ¬byte < 0x20) : IsPiece [byte]
  | short {letter : UInt8} {character : Char} (short : shortEscape? letter = some character) :
      IsPiece [0x5C, letter]
  | unit {first second third fourth : UInt8} {unit : Nat}
      (digits : fourDigits? first second third fourth = some unit) :
      IsPiece [0x5C, 0x75, first, second, third, fourth]

inductive ArePieces : List UInt8 → Prop where
  | nil : ArePieces []
  | cons {front back : List UInt8} (first : IsPiece front) (rest : ArePieces back) :
      ArePieces (front ++ back)

def IsString (bytes : List UInt8) : Prop :=
  ∃ inner, bytes = 0x22 :: (inner ++ [0x22]) ∧ ArePieces inner

/-- A text that is no container. A number may be of any size. -/
inductive IsSimple : List UInt8 → Prop where
  | null : IsSimple (0x6E :: nullTail)
  | yes : IsSimple (0x74 :: trueTail)
  | no : IsSimple (0x66 :: falseTail)
  | number {bytes : List UInt8} {numeral : Numeral} (spells : SpellsNumeral bytes numeral) :
      IsSimple bytes
  | text {bytes : List UInt8} (isString : IsString bytes) : IsSimple bytes

inductive IsTextOver (IsInner : List UInt8 → Prop) : List UInt8 → Prop where
  | simple {bytes : List UInt8} (isSimple : IsSimple bytes) : IsTextOver IsInner bytes
  | list {bytes : List UInt8} {elements : List Unit}
      (spells : SpellsBetween 0x5B 0x5D (fun bytes _ => IsInner bytes) bytes elements) :
      IsTextOver IsInner bytes
  | object {bytes : List UInt8} {members : List (Unit × Unit)}
      (spells : SpellsBetween 0x7B 0x7D
        (SpellsPair (fun bytes _ => IsString bytes) (fun bytes _ => IsInner bytes)) bytes
        members) : IsTextOver IsInner bytes

def IsTextOf : Nat → List UInt8 → Prop
  | 0 => IsSimple
  | depth + 1 => IsTextOver (IsTextOf depth)

def IsJsonText (bytes : List UInt8) : Prop := ∃ depth, IsTextOf depth bytes

/-! ## Passing over it -/

theorem IsPiece.skippedText {bytes : List UInt8} (isPiece : IsPiece bytes) (rest : List UInt8) :
    skippedText (bytes ++ rest) = skippedText rest := by
  have long : shortEscape? 0x75 = none := by decide
  cases isPiece with
  | plain notQuote notBackslash visible =>
      rw [List.singleton_append, Json.skippedText, if_neg notQuote, if_neg notBackslash,
        if_neg visible]
  | short short =>
      simp only [List.cons_append, List.nil_append]
      rw [Json.skippedText]
      simp [skippedEscape, short]
  | unit digits =>
      simp only [List.cons_append, List.nil_append]
      rw [Json.skippedText]
      simp [skippedEscape, long, codeUnit, digits, Except.map]

theorem ArePieces.skippedText {bytes : List UInt8} (arePieces : ArePieces bytes)
    (rest : List UInt8) : skippedText (bytes ++ 0x22 :: rest) = .ok ((), rest) := by
  induction arePieces with
  | nil => rw [List.nil_append, Json.skippedText, if_pos rfl]
  | cons first _ inductive_step => rw [List.append_assoc, first.skippedText, inductive_step]

theorem skippedText_takesNames : TakesNames (fun bytes (_ : Unit) => IsString bytes)
    skippedText := by
  rintro _ _ ⟨inner, rfl, arePieces⟩
  refine ⟨_, rfl, fun rest => ?_⟩
  rw [List.append_assoc]
  exact arePieces.skippedText rest

theorem IsSimple.begins {bytes : List UInt8} (isSimple : IsSimple bytes) :
    ∃ byte later, bytes = byte :: later ∧ IsVisible byte := by
  cases isSimple with
  | null => exact ⟨_, _, rfl, by decide⟩
  | yes => exact ⟨_, _, rfl, by decide⟩
  | no => exact ⟨_, _, rfl, by decide⟩
  | number spells =>
      obtain ⟨byte, later, rfl, first⟩ := spells.exists_cons
      exact ⟨byte, later, rfl, visible_of_isMinus_or_isDigit first,
        ne_of_isMinus_or_isDigit first 0x5D (by decide)⟩
  | text isString =>
      obtain ⟨inner, rfl, -⟩ := isString
      exact ⟨_, _, rfl, by decide⟩

theorem isTextOf_begins (depth : Nat) :
    BeginsWith IsVisible (fun bytes (_ : Unit) => IsTextOf depth bytes) := by
  intro bytes _ isText
  cases depth with
  | zero => exact isText.begins
  | succ depth =>
      cases isText with
      | simple isSimple => exact isSimple.begins
      | list spells =>
          obtain ⟨later, rfl⟩ := spells.exists_cons
          exact ⟨_, _, rfl, by decide⟩
      | object spells =>
          obtain ⟨later, rfl⟩ := spells.exists_cons
          exact ⟨_, _, rfl, by decide⟩

namespace Form

theorem readOver_of_simple {bytes : List UInt8} (isSimple : IsSimple bytes) (budget : Nat)
    (reader : Option (Reader Unit)) : Takes (Form.nothing.readOver budget reader) bytes () := by
  intro blanks rest blank ends
  cases isSimple with
  | null => exact readOver_null _ blank ..
  | yes => exact readOver_true _ blank ..
  | no => exact readOver_false _ blank ..
  | number spells =>
      have read := spells.read ends .invalidNumber
      obtain ⟨byte, later, rfl, first⟩ := spells.exists_cons
      rw [List.cons_append] at read ⊢
      rw [readOver_number _ blank _ _ _ first]
      change skippedNumber _ = _
      rw [skippedNumber, read]
  | text isString =>
      obtain ⟨later, rfl, read⟩ := @skippedText_takesNames _ () isString
      rw [List.cons_append, readOver_quote _ blank]
      exact read rest

theorem nothing_takes {size : Nat} (depth : Nat) {limit : Nat} (room : limit ≤ size)
    {bytes : List UInt8} (isText : IsTextOf depth bytes) (fits : bytes.length ≤ limit) :
    Takes (Form.nothing.read size limit) bytes () := by
  induction depth generalizing limit bytes with
  | zero =>
      cases limit with
      | zero => exact readOver_of_simple isText size _
      | succ limit => exact readOver_of_simple isText size _
  | succ depth inductive_step =>
      -- What lies in brackets is shorter than what the brackets are part of.
      cases limit with
      | zero =>
          obtain ⟨byte, later, rfl, -⟩ := @isTextOf_begins (depth + 1) bytes () isText
          cases fits
      | succ limit =>
          have takes ⦃bytes : List UInt8⦄ ⦃value : Unit⦄ (isText : IsTextOf depth bytes)
              (fits : bytes.length ≤ limit) := inductive_step (Nat.le_of_succ_le room) isText fits
          intro blanks rest blank ends
          rw [Form.read]
          cases isText with
          | simple isSimple => exact readOver_of_simple isSimple size _ blank ends
          | @list elements spells =>
              obtain ⟨later, rfl, read⟩ := spells.listOf (element_goesOn takes)
                (isTextOf_begins depth) (leads_foldl _ [] elements) fits
                (Nat.le_trans fits room) Form.nothing.bracketAfterComma
              rw [List.cons_append, readOver_bracket _ blank, readList, read]
          | @object members spells =>
              have names : TakesNames (fun bytes (_ : Unit) => IsString bytes) Form.nothing.name :=
                skippedText_takesNames
              obtain ⟨later, rfl, read⟩ := spells.objectOf (pair_goesOn names takes)
                (names.begins _) (leads_foldl _ [] members) fits (Nat.le_trans fits room)
                Form.nothing.braceAfterComma Form.nothing.endAfterComma
              rw [List.cons_append, readOver_brace _ blank, readObject, read]

end Form

/-- Any JSON text is passed over, if there is room for its bytes. -/
theorem skipped_takes {bytes : List UInt8} (isText : IsJsonText bytes) {budget : Nat}
    (fits : bytes.length ≤ budget) : Takes (skipped budget) bytes () := by
  obtain ⟨depth, isText⟩ := isText
  exact Form.nothing_takes depth (Nat.le_refl budget) isText fits

/-! ## Texts of values -/

theorem ArePieces.append {front back : List UInt8} (arePieces : ArePieces front)
    (areToo : ArePieces back) : ArePieces (front ++ back) := by
  induction arePieces with
  | nil => exact areToo
  | cons first _ inductive_step =>
      rw [List.append_assoc]
      exact .cons first inductive_step

theorem arePieces_of_plain {bytes : List UInt8}
    (plain : ∀ byte ∈ bytes, byte ≠ 0x22 ∧ byte ≠ 0x5C ∧ ¬byte < 0x20) : ArePieces bytes := by
  induction bytes with
  | nil => exact .nil
  | cons byte later inductive_step =>
      obtain ⟨⟨notQuote, notBackslash, visible⟩, others⟩ := List.forall_mem_cons.mp plain
      exact .cons (.plain notQuote notBackslash visible) (inductive_step others)

theorem toNat_of_mem_encodeChar {character : Char} {byte : UInt8}
    (inside : byte ∈ Text.Utf8.encodeChar character) :
    byte.toNat = character.toNat ∨ 0x80 ≤ byte.toNat := by
  obtain ⟨first, following, same, -⟩ := Text.Utf8.decodeChar?_encodeChar character
  have continues (value : Nat) : 0x80 ≤ (Text.Utf8.continuation value).toNat := by
    rw [Text.Utf8.toNat_continuation]
    exact Nat.le_add_right ..
  have later : ∀ other ∈ following, 0x80 ≤ other.toNat := by
    intro other isLater
    unfold Text.Utf8.encodeChar at same
    dsimp only at same
    split at same
    next =>
      rw [← (List.cons.inj same).2] at isLater
      cases isLater
    split at same
    next =>
      rw [← (List.cons.inj same).2] at isLater
      rw [List.mem_singleton.mp isLater]
      exact continues _
    split at same
    next =>
      rw [← (List.cons.inj same).2] at isLater
      simp only [List.mem_cons, List.not_mem_nil, or_false] at isLater
      rcases isLater with rfl | rfl <;> exact continues _
    next =>
      rw [← (List.cons.inj same).2] at isLater
      simp only [List.mem_cons, List.not_mem_nil, or_false] at isLater
      rcases isLater with rfl | rfl | rfl <;> exact continues _
  rw [same] at inside
  rcases List.mem_cons.mp inside with rfl | isLater
  · rcases Text.Utf8.toNat_head_encodeChar same with value | ⟨-, large⟩
    · exact .inl value
    · exact .inr (Nat.le_trans (by decide) large)
  · exact .inr (later byte isLater)

theorem SpellsCharacter.arePieces {bytes : List UInt8} {character : Char}
    (spells : SpellsCharacter bytes character) : ArePieces bytes := by
  cases spells with
  | plain notQuote notBackslash visible =>
      refine arePieces_of_plain fun byte inside => ?_
      have value := toNat_of_mem_encodeChar inside
      have quote : character.toNat ≠ 0x22 := fun same => notQuote (Char.toNat_inj.mp same)
      have backslash : character.toNat ≠ 0x5C := fun same => notBackslash (Char.toNat_inj.mp same)
      rw [UInt8.lt_iff_toNat_lt, Ne, Ne, ← UInt8.toNat_inj, ← UInt8.toNat_inj]
      have numbers : (0x22 : UInt8).toNat = 0x22 ∧ (0x5C : UInt8).toNat = 0x5C ∧
        (0x20 : UInt8).toNat = 0x20 := ⟨rfl, rfl, rfl⟩
      omega
  | short short => exact .cons (.short short) .nil
  | unit digits _ _ => exact .cons (.unit digits) .nil
  | pair digits _ otherDigits _ => exact .cons (.unit digits) (.cons (.unit otherDigits) .nil)

theorem SpellsCharacters.arePieces {bytes : List UInt8} {characters : List Char}
    (spells : SpellsCharacters bytes characters) : ArePieces bytes := by
  induction spells with
  | nil => exact .nil
  | cons first _ inductive_step => exact first.arePieces.append inductive_step

theorem SpellsText.isString {bytes : List UInt8} {text : String} (spells : SpellsText bytes text) :
    IsString bytes := by
  obtain ⟨inner, rfl, spells⟩ := spells
  exact ⟨inner, rfl, spells.arePieces⟩

theorem SpellsScalar.isSimple {bytes : List UInt8} {value : Value}
    (spells : SpellsScalar bytes value) : IsSimple bytes := by
  cases spells with
  | null => exact .null
  | yes => exact .yes
  | no => exact .no
  | number spells _ => exact .number spells
  | text spells => exact .text spells.isString

theorem isTextOf_of_spells {depth : Nat} {bytes : List UInt8} {value : Value}
    (spells : Spells depth bytes value) : IsTextOf depth bytes := by
  induction depth generalizing bytes value with
  | zero => exact spells.isSimple
  | succ depth inductive_step =>
      cases spells with
      | scalar spells => exact .simple spells.isSimple
      | list spells => exact .list (spells.map (fun _ => ()) fun _ _ => inductive_step)
      | object spells =>
          refine .object (spells.map (fun _ => ((), ())) fun bytes member spells => ?_)
          cases spells with
          | mk named blankBefore blankAfter spells =>
              exact .mk named.isString blankBefore blankAfter (inductive_step spells)

theorem isJsonText_of_spells {depth : Nat} {bytes : List UInt8} {value : Value}
    (spells : Spells depth bytes value) : IsJsonText bytes :=
  ⟨depth, isTextOf_of_spells spells⟩

end WorkoutBoard.Json
