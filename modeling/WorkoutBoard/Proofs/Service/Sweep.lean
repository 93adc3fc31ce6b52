import WorkoutBoard.Proofs.Service.Agreement
import WorkoutBoard.Proofs.Store.Sweep

/-!
# Sweeps cannot be noticed

Requests are served while the clock goes on and states that are expired disappear at any time
(`SweptRun`). Nobody can tell from the answers whether that has happened (`sweeps_are_invisible`):
the contents of the run are those of the run without sweeps, less what no later read would show.
-/

namespace WorkoutBoard.Service

open Http (Request Response)
open Store (Agree Backend Call Memory Table)
open Workout (Code State StateRecord)

/-- Requests, their answers, and any number of sweeps in between, from the time `clock` on. -/
inductive SweptRun {σ : Type} (options : Options) (backend : Backend σ)
    (IsSweep : Int64 → σ → σ → Prop) :
    Int64 → List (Int64 × Request) → σ → List Response → Prop where
  | done (clock : Int64) (contents : σ) : SweptRun options backend IsSweep clock [] contents []
  | sweep {clock time : Int64} {history : List (Int64 × Request)} {contents swept : σ}
      {answers : List Response} (later : clock ≤ time) (sweeps : IsSweep time contents swept)
      (rest : SweptRun options backend IsSweep time history swept answers) :
      SweptRun options backend IsSweep clock history contents answers
  | serve {clock now : Int64} {request : Request} {history : List (Int64 × Request)}
      {contents : σ} {answers : List Response} (later : clock ≤ now)
      (rest : SweptRun options backend IsSweep now history
        (serve options backend now request contents).2 answers) :
      SweptRun options backend IsSweep clock ((now, request) :: history) contents
        ((serve options backend now request contents).1 :: answers)

/-- Sweeps add up, and contents from which they have removed something answer as before. -/
structure Sweepable {σ : Type} (backend : Backend σ) (IsSweep : Int64 → σ → σ → Prop) : Prop where
  refl : ∀ clock contents, IsSweep clock contents contents
  trans : ∀ {clock now before between after}, IsSweep clock before between → clock ≤ now →
    IsSweep now between after → IsSweep now before after
  agree : ∀ {clock now}, clock ≤ now → Agree backend backend (IsSweep clock) (Call.IsMadeAt now)

namespace Sweepable

variable {σ : Type} {backend : Backend σ} {IsSweep : Int64 → σ → σ → Prop}

theorem answers_eq (sweepable : Sweepable backend IsSweep) {options : Options} {clock : Int64}
    {history : List (Int64 × Request)} {full swept : σ} {answers : List Response}
    (run : SweptRun options backend IsSweep clock history swept answers)
    (sweep : IsSweep clock full swept) :
    answers = (serveAll options backend history full).1 := by
  induction run generalizing full with
  | done clock contents => rfl
  | sweep later sweeps rest inductive_step =>
      exact inductive_step (sweepable.trans sweep later sweeps)
  | serve later rest inductive_step =>
      obtain ⟨first, between⟩ :=
        serve_simulation (sweepable.agree later) options _ sweep
      have later' := sweepable.trans between later (sweepable.refl _ _)
      rw [serveAll_cons, ← inductive_step later', first]

theorem continuation (sweepable : Sweepable backend IsSweep) (options : Options) {clock : Int64}
    {full swept : σ} (sweep : IsSweep clock full swept) {history : List (Int64 × Request)}
    (later : ∀ entry ∈ history, clock ≤ entry.1) :
    (serveAll options backend history full).1 = (serveAll options backend history swept).1 :=
  (serveAll_simulation_of_times options (fun entry member => sweepable.agree (later entry member))
    sweep).1

end Sweepable

theorem memory_sweepable : Sweepable Memory.backend Memory.IsSweep where
  refl := Memory.IsSweep.refl
  trans := Memory.IsSweep.trans
  agree := Memory.IsSweep.agree

theorem table_sweepable : Sweepable Table.backend Table.IsSweep where
  refl := Table.IsSweep.refl
  trans := Table.IsSweep.trans
  agree := Table.IsSweep.agree

/-- Whatever is removed of expired states and whenever that happens, the answers are those of a run
in which nothing is removed. A code whose state has expired is like one that was never written. -/
theorem sweeps_are_invisible (options : Options) (clock : Int64) :
    (∀ (memory : Memory) (history : List (Int64 × Request)),
      (∀ answers, SweptRun options Memory.backend Memory.IsSweep clock history memory answers →
        answers = (serveAll options Memory.backend history memory).1) ∧
      ∀ (code : Code) (record : StateRecord), memory.state? code = some record →
        record.ttl ≤ clock → (∀ entry ∈ history, clock ≤ entry.1) →
          (serveAll options Memory.backend history memory).1 =
            (serveAll options Memory.backend history (memory.deleteState code)).1) ∧
    ∀ (table : Table) (history : List (Int64 × Request)),
      (∀ answers, SweptRun options Table.backend Table.IsSweep clock history table answers →
        answers = (serveAll options Table.backend history table).1) ∧
      ∀ (code : Code) (record : StateRecord), table.state? code = some record →
        record.ttl ≤ clock → (∀ entry ∈ history, clock ≤ entry.1) →
          (serveAll options Table.backend history table).1 =
            (serveAll options Table.backend history
              { table with items := table.items.erase code.stateKey }).1 := by
  refine ⟨fun memory history => ⟨fun answers run => ?_, ?_⟩,
    fun table history => ⟨fun answers run => ?_, ?_⟩⟩
  · exact memory_sweepable.answers_eq run (.refl clock memory)
  · intro code record held expired later
    exact memory_sweepable.continuation options (.of_deleteState held expired) later
  · exact table_sweepable.answers_eq run (.refl clock table)
  · intro code record held expired later
    exact table_sweepable.continuation options (.of_erase held expired) later

def agedRecord : StateRecord := ⟨"workout-state:a", ⟨"2025-01-01T00Z"⟩, 5⟩

def agedMemory : Memory := Memory.empty.putState agedRecord

def agedTable : Table := (Table.empty "cache").putItem agedRecord.toItem.toJson

def agedHistory : List (Int64 × Request) :=
  [(5, ⟨"GET", "/workout-state/a", [], []⟩), (6, ⟨"HEAD", "/workout-state/a", [], []⟩)]

theorem sweeps_are_invisible_in_last_second :
    (∃ answers, SweptRun .standard Memory.backend Memory.IsSweep 4 agedHistory agedMemory answers ∧
      answers = (serveAll .standard Memory.backend agedHistory agedMemory).1) ∧
    agedTable.state? ⟨"a"⟩ = some agedRecord ∧
      (serveAll .standard Table.backend agedHistory agedTable).1 =
        (serveAll .standard Table.backend agedHistory
          { agedTable with items := agedTable.items.erase "workout-state:a" }).1 := by
  have held : agedMemory.state? ⟨"a"⟩ = some agedRecord := by decide +kernel
  have heldInTable : agedTable.state? ⟨"a"⟩ = some agedRecord := by decide +kernel
  have rest : ∃ answers, SweptRun .standard Memory.backend Memory.IsSweep 5 agedHistory
      (agedMemory.deleteState ⟨"a"⟩) answers :=
    ⟨_, .serve (Int64.le_refl 5) (.serve (by decide) (.done 6 _))⟩
  obtain ⟨answers, rest⟩ := rest
  have run : SweptRun .standard Memory.backend Memory.IsSweep 4 agedHistory agedMemory answers :=
    .sweep (by decide) (.of_deleteState held (Int64.le_refl 5)) rest
  refine ⟨⟨answers, run, ((sweeps_are_invisible .standard 4).1 agedMemory agedHistory).1 _ run⟩,
    heldInTable, ?_⟩
  exact ((sweeps_are_invisible .standard 5).2 agedTable agedHistory).2 ⟨"a"⟩ agedRecord
    heldInTable (Int64.le_refl 5) (by decide)

end WorkoutBoard.Service
