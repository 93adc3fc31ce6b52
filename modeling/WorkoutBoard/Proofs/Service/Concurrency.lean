import WorkoutBoard.Proofs.Service.Locality
import WorkoutBoard.Proofs.Store.Interleaving

/-!
# Requests at the same time

Requests in flight share one memory, and their calls mix in any way. Before its last call a request
only looks up a key, and no request changes one. The answers and the memory are therefore those of
serving the requests one after the other, in the order of their last calls
(`interleavings_are_serializable`).
-/

namespace WorkoutBoard.Service

open Http (Request Response)
open Store (Interleaves IsInOrder Memory Plan inTurn)
open Workout (Code)

theorem memory_keepsKeys : Memory.backend.KeepsKeys where
  kept := fun _ _ => rfl
  steady := by
    intro code call memory
    cases call <;> rfl

theorem handle_looksUpFirst (origins : Http.OriginPolicy) (now : Int64) (request : Request) :
    (handle origins now request).LooksUpFirst := by
  rcases handle_cases request with ⟨code, isRead⟩ | ⟨code, key, isWrite⟩ | unasked
  · rw [handle_of_isRead isRead]
    exact ⟨.inr fun _ => ⟨_, rfl⟩, fun _ => trivial⟩
  · rw [handle_eq_ask_of_isWrite isWrite]
    refine ⟨.inl ⟨code, rfl⟩, fun answer => ?_⟩
    dsimp only
    rcases proceed_cases origins now request code (judge key answer) with
      ⟨response, ended⟩ | ⟨change, -, continued⟩
    · rw [ended]
      exact trivial
    · rw [continued]
      exact ⟨.inr fun _ => ⟨_, rfl⟩, fun _ => trivial⟩
  · obtain ⟨response, plan, -⟩ := unasked origins now
    rw [plan]
    exact trivial

def planOf (options : Options) (entry : Int64 × Request) : Plan Response :=
  if options.limit = 0 then .done (tooLate entry.2)
  else handle options.origins entry.1 entry.2

theorem planOf_looksUpFirst (options : Options) (entry : Int64 × Request) :
    (planOf options entry).LooksUpFirst := by
  rw [planOf]
  split
  · exact trivial
  · exact handle_looksUpFirst options.origins entry.1 entry.2

theorem serve_eq_complete_planOf (options : Options) (entry : Int64 × Request) (memory : Memory) :
    serve options Memory.backend entry.1 entry.2 memory =
      (planOf options entry).complete Memory.backend memory := by
  rw [planOf]
  split
  next none =>
    rw [serve, none]
    rfl
  next given => exact serve_eq_complete (Nat.pos_of_ne_zero given) (fun _ => rfl) _ _ memory

theorem serveAll_eq_inTurn {Client : Type} (options : Options)
    (requests : Client → Int64 × Request) (order : List Client) (memory : Memory) :
    serveAll options Memory.backend (order.map requests) memory =
      inTurn Memory.backend (fun client => planOf options (requests client)) order memory := by
  induction order generalizing memory with
  | nil => rfl
  | cons client later inductive_step =>
      rw [List.map_cons, serveAll_cons, Store.inTurn_cons, serve_eq_complete_planOf, inductive_step]

/-- The last successful write to a code decides its state. Without any, the state is kept. -/
def LastWriteDecides (code : Code) (history : List (Int64 × Request)) (answers : List Response)
    (before after : Memory) : Prop :=
  match lastWrite? code history answers with
  | none => after.state? code = before.state? code
  | some (time, request) =>
      ∃ change, Change.ofBody request.body = .ok change ∧
        after.state? code = change.left time code

theorem lastWriteDecides_serveAll (options : Options) (history : List (Int64 × Request))
    (before : Memory) (code : Code) :
    LastWriteDecides code history (serveAll options Memory.backend history before).1 before
      (serveAll options Memory.backend history before).2 := by
  rw [LastWriteDecides]
  rcases state?_serveAll options history before code with
    ⟨unwritten, same⟩ | ⟨entry, change, last, asked, left⟩
  · rw [unwritten]
    exact same
  · rw [last]
    exact ⟨change, asked, left⟩

/-- However the calls of some requests mix, the answers and the memory are those of serving the
requests one after the other, in the order of their last calls. Neighbours in that order that are
about different codes may change places. The last successful write to a code decides its state, and
requests that are not about the code have no influence. -/
theorem interleavings_are_serializable {Client : Type} [DecidableEq Client] (options : Options)
    (requests : Client → Int64 × Request) {before after : Memory} {schedule : List Client}
    {answers : Client → Response}
    (run : Interleaves Memory.backend (fun client => planOf options (requests client)) before
      schedule answers after)
    {order : List Client} (once : order.Nodup) (inOrder : IsInOrder order schedule) :
    serveAll options Memory.backend (order.map requests) before = (order.map answers, after) ∧
    (∀ earlier first second later, order = earlier ++ first :: second :: later →
      Apart (requests first).2 (requests second).2 →
        let swapped := earlier ++ second :: first :: later
        serveAll options Memory.backend (swapped.map requests) before =
          (swapped.map answers, after)) ∧
    ∀ code : Code,
      LastWriteDecides code (order.map requests) (order.map answers) before after ∧
      let own := order.filter fun client => addressedCode? (requests client).2 = some code
      (serveAll options Memory.backend (own.map requests) before).1 = own.map answers ∧
        (serveAll options Memory.backend (own.map requests) before).2.state? code =
          after.state? code := by
  have served : serveAll options Memory.backend (order.map requests) before =
      (order.map answers, after) := by
    rw [serveAll_eq_inTurn]
    exact run.inTurn_eq memory_keepsKeys (fun client => planOf_looksUpFirst options _) once inOrder
  refine ⟨served, ?_, fun code => ⟨?_, ?_⟩⟩
  · rintro earlier first second later rfl apart
    simp only [List.map_append, List.map_cons] at served ⊢
    exact serveAll_swap options apart before (by simp) served
  · have last := lastWriteDecides_serveAll options (order.map requests) before code
    rwa [served] at last
  · have alone := serveAll_filter options code (order.map requests) (.refl code before)
    simp only [served, List.zip_map', List.filter_map, List.map_map] at alone
    obtain ⟨said, reached⟩ := alone
    exact ⟨said, reached.state.symm⟩

def sharedStart : Memory := Memory.empty.insertApiKey ⟨"a"⟩ "k"

def sharedRequests : Fin 3 → Int64 × Request
  | 0 => (4, ⟨"POST", "/workout-state/a/k", [],
      Text.Utf8.bytes "\x7b\"startDateTime\":\"2025-01-01T00Z\"\x7d"⟩)
  | 1 => (5, ⟨"POST", "/workout-state/a/k", [], []⟩)
  | 2 => (6, ⟨"GET", "/workout-state/b", [], []⟩)

theorem isWrite_shared (body : List UInt8) :
    IsWrite ⟨"POST", "/workout-state/a/k", [], body⟩ ⟨"a"⟩ "k" := by
  have path : Http.Target.path "/workout-state/a/k" = Http.Route.writePath "a" "k" := by
    decide +kernel
  exact isWrite_writePath (by decide) rfl path

theorem isRead_shared : IsRead (sharedRequests 2).2 ⟨"b"⟩ :=
  isRead_readPath (by decide) rfl (by decide +kernel)

/-- Both writers are let in. The update is made last, although its key is looked up first. -/
theorem exists_interleaves_shared :
    ∃ answers after,
      Interleaves Memory.backend (fun client => planOf .standard (sharedRequests client))
        sharedStart [0, 1, 2, 1, 0] answers after := by
  have found : (Memory.backend.perform (.getApiKey ⟨"a"⟩) sharedStart).1 =
      .ok (some (.ofKey ⟨"a"⟩ "k")) :=
    congrArg Except.ok ((Memory.empty.apiKey?_insertApiKey ⟨"a"⟩ ⟨"a"⟩ "k").trans (if_pos rfl))
  have passed : judge "k" (Memory.backend.perform (.getApiKey ⟨"a"⟩) sharedStart).1 = .ok () :=
    (judge_eq_ok_iff _ _).mpr ⟨_, found, rfl, by decide⟩
  have clear : Change.ofBody (sharedRequests 1).2.body = .ok .clear := by decide +kernel
  have set : Change.ofBody (sharedRequests 0).2.body = .ok (.set ⟨"2025-01-01T00Z"⟩) := by
    decide +kernel
  have third := proceed_of_ofBody (by decide) clear .any 5 ⟨"a"⟩
  have fourth := proceed_of_ofBody (by decide +kernel) set .any 4 ⟨"a"⟩
  rw [← passed] at third fourth
  have first := handle_eq_ask_of_isWrite (isWrite_shared (sharedRequests 0).2.body) .any 4
  have second := handle_eq_ask_of_isWrite (isWrite_shared (sharedRequests 1).2.body) .any 5
  have between := handle_of_isRead isRead_shared .any 6
  exact ⟨fun | 0 => _ | 1 => _ | 2 => _, _, .call first (.call second (.call between (.call third
    (.call fourth (.ended _ fun | 0 => rfl | 1 => rfl | 2 => rfl)))))⟩

theorem interleavings_are_serializable_when_racing :
    ∃ answers after,
      Interleaves Memory.backend (fun client => planOf .standard (sharedRequests client))
        sharedStart [0, 1, 2, 1, 0] answers after ∧
      serveAll .standard Memory.backend ([2, 1, 0].map sharedRequests) sharedStart =
        ([2, 1, 0].map answers, after) ∧
      serveAll .standard Memory.backend ([1, 2, 0].map sharedRequests) sharedStart =
        ([1, 2, 0].map answers, after) ∧
      after.state? ⟨"a"⟩ = some (.ofWrite ⟨"a"⟩ ⟨"2025-01-01T00Z"⟩ 4) := by
  obtain ⟨answers, after, run⟩ := exists_interleaves_shared
  have inOrder : IsInOrder [2, 1, 0] ([0, 1, 2, 1, 0] : List (Fin 3)) := by decide
  have apart : Apart (sharedRequests 2).2 (sharedRequests 1).2 := by
    intro code read written
    rw [addressedCode?_of_isRead isRead_shared] at read
    have same := (addressedCode?_of_isWrite (isWrite_shared _)).symm.trans written
    exact absurd (same.trans read.symm) (by decide)
  obtain ⟨served, swap, -⟩ := interleavings_are_serializable .standard sharedRequests run
    (by decide) inOrder
  refine ⟨answers, after, run, served, swap [] 2 1 [0] rfl apart, ?_⟩
  have state : (serveAll .standard Memory.backend ([2, 1, 0].map sharedRequests)
      sharedStart).2.state? ⟨"a"⟩ = some (.ofWrite ⟨"a"⟩ ⟨"2025-01-01T00Z"⟩ 4) := by
    decide +kernel
  rwa [served] at state

end WorkoutBoard.Service
