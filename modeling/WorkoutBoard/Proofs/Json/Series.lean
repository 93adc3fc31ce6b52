import Mathlib.Data.List.TakeWhile
import WorkoutBoard.Json.Tree
import WorkoutBoard.Proofs.Json.Numeral

/-!
# Blanks and series

The parts of lists and objects stand between brackets, with commas between them and blanks anywhere
around (`SpellsBetween`). The loops that read them are related to series of anything that a step
reads: what they read is spelled so, and is read if every step does its part.
-/

namespace WorkoutBoard.Json

/-! ## Blanks -/

def IsBlanks (bytes : List UInt8) : Prop := ∀ byte ∈ bytes, isBlank byte = true

theorem skipBlanks_cons {byte : UInt8} (visible : isBlank byte = false) (rest : List UInt8) :
    skipBlanks (byte :: rest) = byte :: rest := by
  rw [skipBlanks, List.dropWhile_cons, visible]
  rfl

theorem IsBlanks.skip {blanks : List UInt8} (blank : IsBlanks blanks) (input : List UInt8) :
    skipBlanks (blanks ++ input) = skipBlanks input :=
  List.dropWhile_append_of_pos blank

theorem IsBlanks.skip_cons {blanks : List UInt8} (blank : IsBlanks blanks) {byte : UInt8}
    (visible : isBlank byte = false) (rest : List UInt8) :
    skipBlanks (blanks ++ byte :: rest) = byte :: rest := by
  rw [blank.skip, skipBlanks_cons visible]

theorem IsBlanks.append {front back : List UInt8} (blank : IsBlanks front)
    (blankToo : IsBlanks back) : IsBlanks (front ++ back) :=
  fun byte inside => (List.mem_append.mp inside).elim (blank byte) (blankToo byte)

theorem isBlanks_nil : IsBlanks [] := fun _ inside => nomatch inside

theorem exists_of_skipBlanks {input rest : List UInt8} (skipped : skipBlanks input = rest) :
    ∃ blanks, IsBlanks blanks ∧ input = blanks ++ rest := by
  refine ⟨input.takeWhile isBlank, fun byte inside => List.mem_takeWhile_imp inside, ?_⟩
  rw [← skipped]
  exact List.takeWhile_append_dropWhile.symm

theorem IsBlanks.endsNumeral {blanks : List UInt8} (blank : IsBlanks blanks) {rest : List UInt8}
    (ends : EndsNumeral rest) : EndsNumeral (blanks ++ rest) := by
  cases blanks with
  | nil => exact ends
  | cons byte later =>
      rintro _ next
      obtain rfl := Option.some.inj next
      have isBlank := blank byte (List.mem_cons_self ..)
      simp only [Json.isBlank, Bool.or_eq_true, beq_iff_eq] at isBlank
      rcases isBlank with ((rfl | rfl) | rfl) | rfl <;> decide

theorem visible_of_isMinus_or_isDigit {byte : UInt8} (first : byte = 0x2D ∨ isDigit byte = true) :
    isBlank byte = false := by
  have differs := ne_of_isMinus_or_isDigit first
  simp only [isBlank, Bool.or_eq_false_iff, beq_eq_false_iff_ne]
  exact ⟨⟨⟨differs 0x20 (by decide), differs 0x09 (by decide)⟩, differs 0x0A (by decide)⟩,
    differs 0x0D (by decide)⟩

theorem endsNumeral_cons {byte : UInt8} (separates : byte = 0x2C ∨ byte = 0x5D ∨ byte = 0x7D)
    (rest : List UInt8) : EndsNumeral (byte :: rest) := by
  rintro _ next
  obtain rfl := Option.some.inj next
  rcases separates with rfl | rfl | rfl <;> decide

/-! ## Series -/

section

variable {α : Type}

/-- Parts one after the other, with commas between them and blanks around the commas. -/
inductive SpellsSeries (SpellsPart : List UInt8 → α → Prop) : List UInt8 → List α → Prop where
  | last {bytes : List UInt8} {part : α} (only : SpellsPart bytes part) :
      SpellsSeries SpellsPart bytes [part]
  | cons {front before after back : List UInt8} {part : α} {later : List α}
      (first : SpellsPart front part) (blankBefore : IsBlanks before) (blankAfter : IsBlanks after)
      (rest : SpellsSeries SpellsPart back later) :
      SpellsSeries SpellsPart (front ++ (before ++ 0x2C :: (after ++ back))) (part :: later)

inductive SpellsBetween (opening closing : UInt8) (SpellsPart : List UInt8 → α → Prop) :
    List UInt8 → List α → Prop where
  | empty {blanks : List UInt8} (blank : IsBlanks blanks) :
      SpellsBetween opening closing SpellsPart (opening :: (blanks ++ [closing])) []
  | series {before bytes after : List UInt8} {parts : List α} (blankBefore : IsBlanks before)
      (spells : SpellsSeries SpellsPart bytes parts) (blankAfter : IsBlanks after) :
      SpellsBetween opening closing SpellsPart
        (opening :: (before ++ (bytes ++ (after ++ [closing])))) parts

end

section

variable {σ α : Type}

/-- Whatever a step adds to a state is spelled by the bytes that it passes and by those that are
passed already. -/
def AddsSpelled (passed : List UInt8) (SpellsPart : List UInt8 → α → Prop) (add : σ → α → σ)
    (step : σ → Reader σ) : Prop :=
  ∀ ⦃state input next rest⦄, step state input = .ok (next, rest) →
    ∃ blanks bytes part, IsBlanks blanks ∧ passed ++ input = blanks ++ (bytes ++ rest) ∧
      SpellsPart bytes part ∧ next = add state part

/-- A step goes on to another state by what is spelled at the front of its input, up to a size. -/
def GoesOn (size : Nat) (passed : List UInt8) (SpellsPart : List UInt8 → α → Prop)
    (Next : σ → α → σ → Prop) (step : σ → Reader σ) : Prop :=
  ∀ ⦃bytes part⦄, SpellsPart bytes part → bytes.length ≤ size → ∀ ⦃state next⦄,
    Next state part next → ∀ ⦃input rest⦄, passed ++ input = bytes ++ rest → EndsNumeral rest →
      step state input = .ok (next, rest)

/-- Parts lead from one state to another if each goes on from where the one before it has led. -/
inductive Leads (Next : σ → α → σ → Prop) : σ → List α → σ → Prop where
  | nil (state : σ) : Leads Next state [] state
  | cons {state next final : σ} {part : α} {later : List α} (first : Next state part next)
      (rest : Leads Next next later final) : Leads Next state (part :: later) final

theorem leads_foldl (add : σ → α → σ) (state : σ) (parts : List α) :
    Leads (fun before part after => after = add before part) state parts
      (parts.foldl add state) := by
  induction parts generalizing state with
  | nil => exact .nil state
  | cons part later inductive_step => exact .cons rfl (inductive_step (add state part))

variable {SpellsPart : List UInt8 → α → Prop} {add : σ → α → σ} {Next : σ → α → σ → Prop}
  {step : σ → Reader σ} {budget : Nat} {state final : σ} {input rest : List UInt8}

theorem spells_of_elements {bracketAfterComma : Reason}
    (adds : AddsSpelled [] SpellsPart add step)
    (read : elements bracketAfterComma step budget state input = .ok (final, rest)) :
    ∃ before bytes after parts, IsBlanks before ∧ IsBlanks after ∧
      input = before ++ (bytes ++ (after ++ 0x5D :: rest)) ∧
      SpellsSeries SpellsPart bytes parts ∧ final = parts.foldl add state := by
  -- Each turn reads one part and the bracket or the comma after it. The blanks after a comma are
  -- passed before the next turn, so that they are put back in front of what that turn reads.
  induction budget generalizing state input with
  | zero => cases read
  | succ budget inductive_step =>
      rw [elements] at read
      split at read
      next => cases read
      next next later stepped =>
        obtain ⟨before, front, part, blankBefore, same, spelled, rfl⟩ := adds stepped
        rw [List.nil_append] at same
        split at read
        next => cases read
        next byte afterByte found =>
          obtain ⟨between, blankBetween, rfl⟩ := exists_of_skipBlanks found
          split at read
          next closes =>
            obtain ⟨rfl, rfl⟩ := Prod.mk.inj (Except.ok.inj read)
            refine ⟨before, front, between, [part], blankBefore, blankBetween, ?_, .last spelled,
              rfl⟩
            rw [same, closes]
          split at read
          next comma =>
            split at read
            next => cases read
            next next following foundNext =>
              obtain ⟨others, blankOthers, rfl⟩ := exists_of_skipBlanks foundNext
              split at read
              next => cases read
              next =>
                obtain ⟨more, back, after, parts, blankMore, blankAfter, sameBack, spells, rfl⟩ :=
                  inductive_step read
                refine ⟨before, _, after, part :: parts, blankBefore, blankAfter, ?_,
                  .cons spelled blankBetween (blankOthers.append blankMore) spells, rfl⟩
                rw [same, comma, sameBack]
                simp only [List.append_assoc, List.cons_append]
          next => cases read

theorem spells_of_listOf {bracketAfterComma : Reason} (adds : AddsSpelled [] SpellsPart add step)
    (read : listOf bracketAfterComma step budget state input = .ok (final, rest)) :
    ∃ bytes parts, 0x5B :: input = bytes ++ rest ∧ SpellsBetween 0x5B 0x5D SpellsPart bytes parts ∧
      final = parts.foldl add state := by
  unfold listOf at read
  split at read
  next => cases read
  next byte later found =>
    obtain ⟨blanks, blank, rfl⟩ := exists_of_skipBlanks found
    split at read
    next closes =>
      obtain ⟨rfl, rfl⟩ := Prod.mk.inj (Except.ok.inj read)
      refine ⟨_, [], ?_, .empty blank, rfl⟩
      rw [closes]
      simp only [List.append_assoc, List.cons_append, List.nil_append]
    next =>
      obtain ⟨before, bytes, after, parts, blankBefore, blankAfter, same, spells, rfl⟩ :=
        spells_of_elements adds read
      refine ⟨_, parts, ?_, .series (blank.append blankBefore) spells blankAfter, rfl⟩
      rw [same]
      simp only [List.append_assoc, List.cons_append, List.nil_append]

theorem spells_of_members {braceAfterComma endAfterComma : Reason}
    (adds : AddsSpelled [0x22] SpellsPart add step)
    (read : members braceAfterComma endAfterComma step budget state input = .ok (final, rest)) :
    ∃ before bytes after parts, IsBlanks before ∧ IsBlanks after ∧
      0x22 :: input = before ++ (bytes ++ (after ++ 0x7D :: rest)) ∧
      SpellsSeries SpellsPart bytes parts ∧ final = parts.foldl add state := by
  -- As for elements, but for the quote of each member, which is passed before its step.
  induction budget generalizing state input with
  | zero => cases read
  | succ budget inductive_step =>
      rw [members] at read
      split at read
      next => cases read
      next next later stepped =>
        obtain ⟨before, front, part, blankBefore, same, spelled, rfl⟩ := adds stepped
        rw [List.singleton_append] at same
        split at read
        next => cases read
        next byte afterByte found =>
          obtain ⟨between, blankBetween, rfl⟩ := exists_of_skipBlanks found
          split at read
          next closes =>
            obtain ⟨rfl, rfl⟩ := Prod.mk.inj (Except.ok.inj read)
            refine ⟨before, front, between, [part], blankBefore, blankBetween, ?_, .last spelled,
              rfl⟩
            rw [same, closes]
          split at read
          next comma =>
            split at read
            next => cases read
            next next following foundNext =>
              obtain ⟨others, blankOthers, rfl⟩ := exists_of_skipBlanks foundNext
              split at read
              next quote =>
                obtain ⟨more, back, after, parts, blankMore, blankAfter, sameBack, spells, rfl⟩ :=
                  inductive_step read
                refine ⟨before, _, after, part :: parts, blankBefore, blankAfter, ?_,
                  .cons spelled blankBetween (blankOthers.append blankMore) spells, rfl⟩
                rw [same, comma, quote, sameBack]
                simp only [List.append_assoc, List.cons_append]
              split at read <;> cases read
          next => cases read

theorem spells_of_objectOf {braceAfterComma endAfterComma : Reason}
    (adds : AddsSpelled [0x22] SpellsPart add step)
    (read : objectOf braceAfterComma endAfterComma step budget state input = .ok (final, rest)) :
    ∃ bytes parts, 0x7B :: input = bytes ++ rest ∧ SpellsBetween 0x7B 0x7D SpellsPart bytes parts ∧
      final = parts.foldl add state := by
  unfold objectOf at read
  split at read
  next => cases read
  next byte later found =>
    obtain ⟨blanks, blank, rfl⟩ := exists_of_skipBlanks found
    split at read
    next closes =>
      obtain ⟨rfl, rfl⟩ := Prod.mk.inj (Except.ok.inj read)
      refine ⟨_, [], ?_, .empty blank, rfl⟩
      rw [closes]
      simp only [List.append_assoc, List.cons_append, List.nil_append]
    split at read
    next quote =>
      obtain ⟨before, bytes, after, parts, blankBefore, blankAfter, same, spells, rfl⟩ :=
        spells_of_members adds read
      refine ⟨_, parts, ?_, .series (blank.append blankBefore) spells blankAfter, rfl⟩
      rw [quote, same]
      simp only [List.append_assoc, List.cons_append, List.nil_append]
    next => cases read

/-! The other way round, there must be room for the parts, and each begins with something to see. -/

def BeginsWith (IsFirst : UInt8 → Prop) (SpellsPart : List UInt8 → α → Prop) : Prop :=
  ∀ ⦃bytes part⦄, SpellsPart bytes part → ∃ byte later, bytes = byte :: later ∧ IsFirst byte

theorem SpellsSeries.exists_cons {IsFirst : UInt8 → Prop} (begins : BeginsWith IsFirst SpellsPart)
    {bytes : List UInt8} {parts : List α} (spells : SpellsSeries SpellsPart bytes parts) :
    ∃ byte later, bytes = byte :: later ∧ IsFirst byte := by
  cases spells with
  | last only => exact begins only
  | cons first _ _ _ =>
      obtain ⟨byte, later, rfl, isFirst⟩ := begins first
      exact ⟨byte, _, rfl, isFirst⟩

theorem SpellsSeries.length_le {IsFirst : UInt8 → Prop} (begins : BeginsWith IsFirst SpellsPart)
    {bytes : List UInt8} {parts : List α} (spells : SpellsSeries SpellsPart bytes parts) :
    parts.length ≤ bytes.length := by
  induction spells with
  | last only =>
      obtain ⟨byte, later, rfl, -⟩ := begins only
      exact Nat.le_add_left 1 _
  | cons first _ _ _ inductive_step =>
      simp only [List.length_cons, List.length_append]
      omega

def IsVisible (byte : UInt8) : Prop := isBlank byte = false ∧ byte ≠ 0x5D

instance (byte : UInt8) : Decidable (IsVisible byte) := inferInstanceAs (Decidable (_ ∧ _))

theorem SpellsSeries.elements {size : Nat} (goesOn : GoesOn size [] SpellsPart Next step)
    (begins : BeginsWith IsVisible SpellsPart) {bytes after : List UInt8} {parts : List α}
    (spells : SpellsSeries SpellsPart bytes parts) (leads : Leads Next state parts final)
    (blankAfter : IsBlanks after) (fits : bytes.length ≤ size) (enough : parts.length ≤ budget)
    (bracketAfterComma : Reason) (rest : List UInt8) :
    elements bracketAfterComma step budget state (bytes ++ (after ++ 0x5D :: rest)) =
      .ok (final, rest) := by
  -- A part ends before blanks and a comma or a bracket, so that its step reads all of it.
  induction spells generalizing budget state with
  | last only =>
      obtain ⟨budget, rfl⟩ := Nat.exists_eq_succ_of_ne_zero (Nat.ne_of_gt enough)
      obtain - | ⟨next, ⟨⟩⟩ := leads
      have ends := blankAfter.endsNumeral (endsNumeral_cons (.inr (.inl rfl)) rest)
      rw [Json.elements, goesOn only fits next (List.nil_append _) ends]
      dsimp only
      rw [blankAfter.skip_cons rfl]
      rfl
  | @cons front before between back part later first blankBefore blankBetween others
      inductive_step =>
      obtain ⟨budget, rfl⟩ := Nat.exists_eq_succ_of_ne_zero
        (Nat.ne_of_gt (Nat.lt_of_lt_of_le (Nat.succ_pos _) enough))
      obtain - | ⟨next, leads⟩ := leads
      simp only [List.length_append, List.length_cons] at fits enough
      have more := inductive_step leads (by omega) (Nat.le_of_succ_le_succ enough)
      have ends (later : List UInt8) := blankBefore.endsNumeral (endsNumeral_cons (.inl rfl) later)
      obtain ⟨byte, following, rfl, visible, notBracket⟩ := others.exists_cons begins
      simp only [List.append_assoc, List.cons_append] at more ⊢
      rw [Json.elements, goesOn first (by omega) next (List.nil_append _) (ends _)]
      dsimp only
      rw [blankBefore.skip_cons rfl]
      dsimp only
      rw [if_neg (by decide), if_pos rfl, blankBetween.skip_cons visible]
      dsimp only
      rw [if_neg notBracket]
      exact more

theorem SpellsSeries.members {size : Nat} (goesOn : GoesOn size [0x22] SpellsPart Next step)
    (begins : BeginsWith (· = 0x22) SpellsPart) {bytes after : List UInt8} {parts : List α}
    (spells : SpellsSeries SpellsPart bytes parts) (leads : Leads Next state parts final)
    (blankAfter : IsBlanks after) (fits : bytes.length ≤ size) (enough : parts.length ≤ budget)
    (braceAfterComma endAfterComma : Reason) (rest : List UInt8) ⦃input : List UInt8⦄
    (same : 0x22 :: input = bytes ++ (after ++ 0x7D :: rest)) :
    members braceAfterComma endAfterComma step budget state input = .ok (final, rest) := by
  induction spells generalizing budget state input with
  | last only =>
      obtain ⟨budget, rfl⟩ := Nat.exists_eq_succ_of_ne_zero (Nat.ne_of_gt enough)
      obtain - | ⟨next, ⟨⟩⟩ := leads
      have ends := blankAfter.endsNumeral (endsNumeral_cons (.inr (.inr rfl)) rest)
      rw [Json.members, goesOn only fits next same ends]
      dsimp only
      rw [blankAfter.skip_cons rfl]
      rfl
  | @cons front before between back part later first blankBefore blankBetween others
      inductive_step =>
      obtain ⟨budget, rfl⟩ := Nat.exists_eq_succ_of_ne_zero
        (Nat.ne_of_gt (Nat.lt_of_lt_of_le (Nat.succ_pos _) enough))
      obtain - | ⟨next, leads⟩ := leads
      simp only [List.length_append, List.length_cons] at fits enough
      obtain ⟨_, following, rfl, rfl⟩ := others.exists_cons begins
      have more := inductive_step leads (by omega) (Nat.le_of_succ_le_succ enough)
        List.cons_append.symm
      have ends (later : List UInt8) := blankBefore.endsNumeral (endsNumeral_cons (.inl rfl) later)
      simp only [List.append_assoc, List.cons_append] at same
      rw [Json.members, goesOn first (by omega) next same (ends _)]
      dsimp only
      rw [blankBefore.skip_cons rfl]
      dsimp only
      rw [if_neg (by decide), if_pos rfl, blankBetween.skip_cons rfl]
      exact more

theorem SpellsBetween.exists_cons {opening closing : UInt8} {bytes : List UInt8} {parts : List α}
    (spells : SpellsBetween opening closing SpellsPart bytes parts) :
    ∃ later, bytes = opening :: later := by
  cases spells <;> exact ⟨_, rfl⟩

theorem SpellsBetween.listOf {size : Nat} (goesOn : GoesOn size [] SpellsPart Next step)
    (begins : BeginsWith IsVisible SpellsPart) {bytes : List UInt8} {parts : List α}
    (spells : SpellsBetween 0x5B 0x5D SpellsPart bytes parts)
    (leads : Leads Next state parts final) (fits : bytes.length ≤ size + 1)
    (enough : bytes.length ≤ budget) (bracketAfterComma : Reason) :
    ∃ later, bytes = 0x5B :: later ∧ ∀ rest,
      listOf bracketAfterComma step budget state (later ++ rest) = .ok (final, rest) := by
  cases spells with
  | empty blank =>
      refine ⟨_, rfl, fun rest => ?_⟩
      cases leads
      rw [List.append_assoc, List.singleton_append, Json.listOf, blank.skip_cons rfl]
      rfl
  | series blankBefore spells blankAfter =>
      refine ⟨_, rfl, fun rest => ?_⟩
      simp only [List.length_append, List.length_cons] at fits enough
      have few := spells.length_le begins
      have room : parts.length ≤ budget := by omega
      have read := spells.elements goesOn begins leads blankAfter (by omega) room
        bracketAfterComma rest
      obtain ⟨byte, later, rfl, visible, notBracket⟩ := spells.exists_cons begins
      simp only [List.append_assoc, List.cons_append, List.nil_append] at read ⊢
      rw [Json.listOf, blankBefore.skip_cons visible]
      dsimp only
      rw [if_neg notBracket]
      exact read

theorem SpellsBetween.objectOf {size : Nat} (goesOn : GoesOn size [0x22] SpellsPart Next step)
    (begins : BeginsWith (· = 0x22) SpellsPart) {bytes : List UInt8} {parts : List α}
    (spells : SpellsBetween 0x7B 0x7D SpellsPart bytes parts)
    (leads : Leads Next state parts final) (fits : bytes.length ≤ size + 1)
    (enough : bytes.length ≤ budget) (braceAfterComma endAfterComma : Reason) :
    ∃ later, bytes = 0x7B :: later ∧ ∀ rest,
      objectOf braceAfterComma endAfterComma step budget state (later ++ rest) =
        .ok (final, rest) := by
  cases spells with
  | empty blank =>
      refine ⟨_, rfl, fun rest => ?_⟩
      cases leads
      rw [List.append_assoc, List.singleton_append, Json.objectOf, blank.skip_cons rfl]
      rfl
  | series blankBefore spells blankAfter =>
      refine ⟨_, rfl, fun rest => ?_⟩
      simp only [List.length_append, List.length_cons] at fits enough
      have few := spells.length_le begins
      have room : parts.length ≤ budget := by omega
      have read := spells.members goesOn begins leads blankAfter (by omega) room braceAfterComma
        endAfterComma rest
      obtain ⟨_, later, rfl, rfl⟩ := spells.exists_cons begins
      simp only [List.append_assoc, List.cons_append, List.nil_append] at read ⊢
      rw [Json.objectOf, blankBefore.skip_cons rfl]
      exact read rfl

end

/-! ## Parts of parts -/

section

variable {α β : Type} {SpellsPart : List UInt8 → α → Prop} {SpellsOther : List UInt8 → β → Prop}
  (change : α → β)

theorem SpellsSeries.map (spellsToo : ∀ bytes part, SpellsPart bytes part →
    SpellsOther bytes (change part)) {bytes : List UInt8} {parts : List α}
    (spells : SpellsSeries SpellsPart bytes parts) :
    SpellsSeries SpellsOther bytes (parts.map change) := by
  induction spells with
  | last only => exact .last (spellsToo _ _ only)
  | cons first blankBefore blankAfter _ inductive_step =>
      exact .cons (spellsToo _ _ first) blankBefore blankAfter inductive_step

theorem SpellsBetween.map (spellsToo : ∀ bytes part, SpellsPart bytes part →
    SpellsOther bytes (change part)) {opening closing : UInt8} {bytes : List UInt8}
    {parts : List α} (spells : SpellsBetween opening closing SpellsPart bytes parts) :
    SpellsBetween opening closing SpellsOther bytes (parts.map change) := by
  cases spells with
  | empty blank => exact .empty blank
  | series blankBefore spells blankAfter =>
      exact .series blankBefore (spells.map change spellsToo) blankAfter

end

end WorkoutBoard.Json
