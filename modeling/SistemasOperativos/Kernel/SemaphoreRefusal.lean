import SistemasOperativos.Kernel.Handles

/-!
# A `semCreate` that returns `ERROR`

`semCreate` takes the mutex of the semaphore table and refuses a name that is in use, or any
name when there is no free slot. The second exit gives the mutex back and leaves both
tables as they were. The first one returns with the mutex locked, and every later
`semCreate` waits for it (`refusal_blocks_later`). `refusal_restores_iff` says exactly when
a refusal leaves everything in place.
-/

namespace SistemasOperativos.Kernel

open SistemasOperativos.Semantics

namespace SyncRun

/-- The mutexes while the caller is outside of `semCreate`. One that waited in it was handed
the mutex of the semaphore table, and gives it back. -/
def outside (state : SyncRun) : SyncAction → MutexState
  | .resume _ _ => state.kernel.freeMutex state.kernel.semaphoreMutex
  | _ => state.kernel.toMutexState

/-- A later `semCreate` of a name that is not in use, with room in the semaphore table,
returns without waiting, whoever calls it. -/
def LaterCompletes (kernel : SyncState) : Prop :=
  ∀ later : SyncState, later.mutexes = kernel.mutexes →
    later.semaphoreMutex = kernel.semaphoreMutex →
    ∀ name start garbage, later.getSemIndex name = MUTEX_NOT_FOUND →
      later.getFreePositionSemaphores ≠ NO_SPACE_LEFT_M →
      ∃ value, (later.semCreate name start garbage).2 = .returned value

/-- Both tables are as they were before the call, and the mutex of the semaphore table is not
in the way of a later `semCreate`. -/
structure Restored (state : SyncRun) (action : SyncAction) (kernel : SyncState) : Prop where
  semaphores : kernel.semaphores = state.kernel.semaphores
  mutexes : kernel.mutexes = (state.outside action).mutexes
  later : LaterCompletes kernel

/-- The part of the call holds no mutex of the semaphore table: the handle is not valid, or
whoever handed it over opened it. -/
def LocksNothing (state : SyncRun) : SyncAction → Prop
  | .resume _ _ => state.kernel.Uncontended state.kernel.semaphoreMutex
  | _ => state.kernel.isValidMutex state.kernel.semaphoreMutex = false

/-- The name is not in use, so that it is the table that is full, or no mutex is held. Nobody
else waits for the mutex of the semaphore table, and that of the mutex table is free. -/
structure LeavesFree (state : SyncRun) (action : SyncAction) (name : Option String) : Prop where
  exit : state.kernel.getSemIndex name = MUTEX_NOT_FOUND ∨ state.LocksNothing action
  nobodyWaits : (state.outside action).Uncontended state.kernel.semaphoreMutex
  adminFree : state.kernel.Uncontended MutexState.adminMutex

end SyncRun

/-! ## Which `semCreate` returns at once -/

namespace MutexState

theorem Uncontended.congr {a b : MutexState} {m : Int} (same : b.mutexes m = a.mutexes m) :
    b.Uncontended m ↔ a.Uncontended m := by
  simp only [Uncontended, isValidMutex, same]

/-- Opening a mutex that is open changes nothing. -/
theorem freeMutex_open {state : MutexState} {m : Int} (uncontended : state.Uncontended m) :
    (state.freeMutex m).mutexes = state.mutexes := by
  simp only [freeMutex]
  split
  · rfl
  · rename_i valid
    have free := uncontended (by simpa using valid)
    simp only [Busy, not_or, not_not] at free
    rw [if_neg (by omega)]
    funext i
    by_cases here : i = m
    · subst here
      rw [setMutex_same, ← free.1]
    · rw [setMutex_ne here]

/-- `getMutex` returns at once exactly when the mutex of the table is free. -/
theorem getMutex_returns_iff {state : MutexState} {name : Option String} {garbage : Int} :
    (∃ i, (state.getMutex name garbage).2 = some i) ↔ state.Uncontended adminMutex := by
  rw [← @lockMutex_returned state adminMutex garbage]
  simp only [getMutex]
  split <;> rename_i locked <;> simp [locked]

end MutexState

/-- With room in the table `createSemaphore` returns when its `getMutex` does. -/
theorem SemaphoreState.createSemaphore_returns_iff {state : SemaphoreState} {name : Option String}
    {start garbage : Int} (room : state.getFreePositionSemaphores ≠ NO_SPACE_LEFT_M) :
    (∃ index, (state.createSemaphore name start garbage).2 = some index) ↔
      ∃ i, (state.getMutex name garbage).2 = some i := by
  simp only [createSemaphore, if_neg room, setSemaphore_toMutexState]
  split <;> rename_i got <;> simp [got]

namespace SyncState

open MutexState

/-- A `semCreate` of a new name with room in the table returns at once exactly when both
mutexes that it takes are free. -/
theorem semCreate_returns_iff {state : SyncState} (apart : state.semaphoreMutex ≠ adminMutex)
    {name : Option String} (start garbage : Int)
    (fresh : state.getSemIndex name = MUTEX_NOT_FOUND)
    (room : state.getFreePositionSemaphores ≠ NO_SPACE_LEFT_M) :
    (∃ value, (state.semCreate name start garbage).2 = .returned value) ↔
      state.Uncontended state.semaphoreMutex ∧ state.Uncontended adminMutex := by
  have locks := @lockMutex_returned state.toMutexState state.semaphoreMutex garbage
  have other := lockMutex_ne apart.symm state.toMutexState garbage
  simp only [semCreate]
  split <;> rename_i mutexes locked <;> rw [locked] at locks other
  · have gets := @getMutex_returns_iff mutexes name garbage
    have creates := @SemaphoreState.createSemaphore_returns_iff
      { state.toSemaphoreState with toMutexState := mutexes } name start garbage room
    rw [Uncontended.congr other] at gets
    rw [gets] at creates
    have notInUse : ¬ ({ state with toMutexState := mutexes } : SyncState).getSemIndex name ≠
        MUTEX_NOT_FOUND := not_not.mpr fresh
    simp only [locks.mp rfl, true_and, ← creates, semCreateLocked, if_neg notInUse]
    split <;> rename_i created <;> simp [created, semCreateReturn]
  · have contended : ¬ state.Uncontended state.semaphoreMutex := fun free => by
      cases locks.mpr free
    simp [contended]

/-- The two exits of `semCreate` that return `ERROR`. -/
theorem semCreateLocked_refused {state kernel : SyncState} {name : Option String}
    {start garbage : Int}
    (refused : state.semCreateLocked name start garbage = (kernel, .returned (some ERROR))) :
    state.getSemIndex name ≠ MUTEX_NOT_FOUND ∧ kernel = state ∨
      state.getSemIndex name = MUTEX_NOT_FOUND ∧
        kernel = { state with toMutexState := state.freeMutex state.semaphoreMutex } := by
  simp only [semCreateLocked] at refused
  split at refused
  · rename_i inUse
    exact .inl ⟨inUse, (Prod.mk.inj refused).1.symm⟩
  · rename_i fresh
    refine .inr ⟨not_not.mp fresh, ?_⟩
    by_cases space : state.getFreePositionSemaphores = NO_SPACE_LEFT_M
    · have full : state.createSemaphore name start garbage =
          (state.toSemaphoreState, some ERROR) := by
        simp [SemaphoreState.createSemaphore, space]
      rw [full] at refused
      exact (Prod.mk.inj refused).1.symm
    · -- A slot that is taken is what `semCreate` returns.
      have low := (SemaphoreState.getFreePositionSemaphores_spec
        state.toSemaphoreState).resolve_left space
      have index : ∀ i, (state.createSemaphore name start garbage).2 = some i → i ≠ ERROR := by
        intro i same
        simp only [SemaphoreState.createSemaphore, if_neg space] at same
        split at same
        · cases same
        · obtain rfl := Option.some.inj same
          simp only [ERROR]
          omega
      split at refused <;> rename_i created <;> rw [created] at index
      · simp only [semCreateReturn, Prod.mk.injEq, Outcome.returned.injEq] at refused
        exact absurd (Option.some.inj refused.2) (index _ rfl)
      · cases (Prod.mk.inj refused).2

end SyncState

/-! ## Refusals in runs -/

namespace SyncRun

open MutexState

theorem laterCompletes_iff {kernel : SyncState} (apart : kernel.semaphoreMutex ≠ adminMutex) :
    LaterCompletes kernel ↔
      kernel.Uncontended kernel.semaphoreMutex ∧ kernel.Uncontended adminMutex := by
  constructor
  · intro completes
    let later : SyncState :=
      { kernel with semaphores := fun s => { kernel.semaphores s with used := false } }
    have fresh : later.getSemIndex none = MUTEX_NOT_FOUND := by
      rcases later.getSemIndex_cases none with ⟨here, -⟩ | here
      · exact here
      · cases here.used
    have room : later.getFreePositionSemaphores ≠ NO_SPACE_LEFT_M :=
      @SemaphoreState.getFreePositionSemaphores_room later.toSemaphoreState 0 (by decide)
        (by decide) rfl
    exact (@SyncState.semCreate_returns_iff later apart none 0 0 fresh room).mp
      (completes later rfl rfl none 0 0 fresh room)
  · rintro ⟨semaphores, admin⟩ later same handle name start garbage fresh room
    rw [SyncState.semCreate_returns_iff (by rw [handle]; exact apart) start garbage fresh room,
      handle, Uncontended.congr (congrFun same _), Uncontended.congr (congrFun same _)]
    exact ⟨semaphores, admin⟩

/-- The handle of the mutex of the semaphore table never changes. -/
theorem semaphoreMutex_apart {start state : SyncRun} {actions : List SyncAction}
    (begins : Start start) (ran : run step start actions = some state) :
    state.kernel.semaphoreMutex ≠ adminMutex := by
  obtain ⟨before, -, -, handle⟩ := begins.initialized
  refine @run_invariant SyncRun SyncAction step
    (fun state => state.kernel.semaphoreMutex ≠ adminMutex)
    (fun state action next apart stepped => ?_) start state actions ?_ ran
  · rcases step_performs stepped with
      ⟨kernel, outcome, pending, processes, performed, rfl, -⟩ | ⟨-, processes, rfl⟩
    · change kernel.semaphoreMutex ≠ adminMutex
      rwa [perform_semaphoreMutex performed]
    · exact apart
  · rw [handle]
    exact before.initializeTables_names.2.2.2

/-- An exit that gives back what it locked, or locked nothing. -/
theorem restored_iff {state : SyncRun} {action : SyncAction} {kernel : SyncState}
    {name : Option String} (apart : state.kernel.semaphoreMutex ≠ adminMutex)
    (handle : kernel.semaphoreMutex = state.kernel.semaphoreMutex)
    (semaphores : kernel.semaphores = state.kernel.semaphores)
    (mutexes : kernel.mutexes = (state.outside action).mutexes)
    (exit : state.kernel.getSemIndex name = MUTEX_NOT_FOUND ∨ state.LocksNothing action) :
    Restored state action kernel ↔ LeavesFree state action name := by
  have admin : (state.outside action).mutexes adminMutex = state.kernel.mutexes adminMutex := by
    cases action with
    | resume => exact freeMutex_ne apart.symm state.kernel.toMutexState
    | call | timerTick | createProcess | removeProcess => rfl
  have later : LaterCompletes kernel ↔
      (state.outside action).Uncontended state.kernel.semaphoreMutex ∧
        state.kernel.Uncontended adminMutex := by
    rw [laterCompletes_iff (by rw [handle]; exact apart), handle,
      Uncontended.congr (congrFun mutexes _), Uncontended.congr (congrFun mutexes _),
      Uncontended.congr admin]
  constructor
  · intro restored
    obtain ⟨nobodyWaits, adminFree⟩ := later.mp restored.later
    exact ⟨exit, nobodyWaits, adminFree⟩
  · intro leaves
    exact ⟨semaphores, mutexes, later.mpr ⟨leaves.nobodyWaits, leaves.adminFree⟩⟩

/-- In every state that a run reaches, a `semCreate` that returns `ERROR` leaves both tables
as they were and later ones free to go on exactly when it leaves by the exit of the full
table, or held no mutex, and nobody else has the mutexes. The part that fills a slot after
a wait in `getMutex` always returns that slot. -/
theorem refusal_restores_iff {start state : SyncRun} {actions : List SyncAction}
    (begins : Start start) (ran : run step start actions = some state) {action : SyncAction}
    {name : Option String} {kernel : SyncState}
    (asked : state.request action = .semCreate name)
    (refused : state.perform action = some (kernel, .returned (some ERROR))) :
    Restored state action kernel ↔ LeavesFree state action name := by
  have apart := semaphoreMutex_apart begins ran
  have handle := perform_semaphoreMutex refused
  rcases perform_eq_some.mp refused with
    ⟨call, garbage, next, rfl, -, -, result⟩ | ⟨pending, garbage, next, rfl, stood, -, result⟩
  · cases call with
    | lockMutex | freeMutex | getMutex | closeMutex | wait | signal | semClose => cases asked
    | semCreate other start =>
        obtain rfl := Request.semCreate.inj asked
        simp only [SyncState.enter, SyncState.semCreate] at result
        split at result
        · rename_i locked taken
          have free := lockMutex_returned.mp (congrArg Prod.snd taken)
          obtain ⟨mutexes, lock, frees⟩ := lockMutex_uncontended free garbage
          rw [lock] at taken
          obtain ⟨rfl, -⟩ := Prod.mk.inj taken
          rcases SyncState.semCreateLocked_refused result with ⟨inUse, rfl⟩ | ⟨fresh, rfl⟩
          · cases valid : state.kernel.isValidMutex state.kernel.semaphoreMutex with
            | false =>
                have ignored : mutexes = state.kernel.mutexes := by
                  simp only [lockMutex, valid, if_true, Prod.mk.injEq, and_true] at lock
                  exact (congrArg MutexState.mutexes lock).symm
                exact restored_iff apart handle rfl ignored (.inr valid)
            | true =>
                -- The mutex was open and is locked now.
                have before := free valid
                simp only [Busy, not_or, not_not] at before
                rw [lockMutex_acquires valid before.1 before.2] at lock
                have after : mutexes = _ :=
                  (congrArg MutexState.mutexes (Prod.mk.inj lock).1).symm
                refine iff_of_false (fun restored => ?_) fun leaves => ?_
                · have same := congrFun restored.mutexes state.kernel.semaphoreMutex
                  change mutexes _ = state.kernel.mutexes _ at same
                  rw [after, setMutex_same] at same
                  have flag := congrArg Mutex.mutex same
                  rw [before.1] at flag
                  cases flag
                · rcases leaves.exit with fresh | nothing
                  · exact inUse fresh
                  · change state.kernel.isValidMutex _ = false at nothing
                    rw [valid] at nothing
                    cases nothing
          · refine restored_iff apart handle rfl ?_ (.inl fresh)
            exact congrArg MutexState.mutexes (frees _)
        · cases (Prod.mk.inj result).2
  · simp only [request, stood] at asked
    cases pending with
    | lockMutex | getMutex | createSemaphore | waitLocked | wait => cases asked
    | semCreate other start =>
        obtain rfl := Request.semCreate.inj asked
        rcases SyncState.semCreateLocked_refused result with ⟨inUse, rfl⟩ | ⟨fresh, rfl⟩
        · by_cases free : state.kernel.Uncontended state.kernel.semaphoreMutex
          · exact restored_iff apart rfl rfl (freeMutex_open free).symm (.inr free)
          · refine iff_of_false (fun restored => ?_) fun leaves => ?_
            · exact free ((laterCompletes_iff apart).mp restored.later).1
            · rcases leaves.exit with fresh | nothing
              · exact inUse fresh
              · exact free nothing
        · exact restored_iff apart rfl rfl rfl (.inl fresh)

/-- Process 0 creates a semaphore. -/
def createsOne : List SyncAction := [.call (.semCreate (some "a") 1) 0 0]

theorem second_of_a_name_refused : ∃ state kernel,
    run step (booted 2) createsOne = some state ∧
      state.perform (.call (.semCreate (some "a") 1) 0 0) =
        some (kernel, .returned (some ERROR)) ∧
      ¬ Restored state (.call (.semCreate (some "a") 1) 0 0) kernel := by
  have result : ((run step (booted 2) createsOne).bind fun state =>
      (state.perform (.call (.semCreate (some "a") 1) 0 0)).map fun performed =>
        (performed.2, decide (state.kernel.getSemIndex (some "a") = MUTEX_NOT_FOUND),
          state.kernel.isValidMutex state.kernel.semaphoreMutex)) =
      some (.returned (some ERROR), false, true) := by
    decide +kernel
  obtain ⟨state, ran, rest⟩ := Option.bind_eq_some_iff.mp result
  obtain ⟨⟨kernel, outcome⟩, performed, facts⟩ := Option.map_eq_some_iff.mp rest
  simp only [Prod.mk.injEq, decide_eq_false_iff_not] at facts
  obtain ⟨rfl, inUse, valid⟩ := facts
  refine ⟨state, kernel, ran, performed, fun restored => ?_⟩
  have leaves := (refusal_restores_iff (booted_start (by omega)) ran rfl performed).mp restored
  rcases leaves.exit with fresh | nothing
  · exact inUse fresh
  · change state.kernel.isValidMutex _ = false at nothing
    rw [valid] at nothing
    cases nothing

/-- Then it tries to create another one of the name, and process 1 one of a new name. -/
def createsSecond : List SyncAction :=
  [.call (.semCreate (some "a") 1) 0 0, .timerTick 1, .call (.semCreate (some "b") 1) 0 0]

/-- The refused call leaves the mutex of the semaphore table locked, and process 1 waits for
it although "b" is not in use and there is room. -/
theorem refusal_blocks_later : Start (booted 2) ∧
    ∃ state kernel final, run step (booted 2) createsOne = some state ∧
      state.perform (.call (.semCreate (some "a") 1) 0 0) =
        some (kernel, .returned (some ERROR)) ∧
      (state.kernel.mutexes state.kernel.semaphoreMutex).mutex = 0 ∧
      (kernel.mutexes state.kernel.semaphoreMutex).mutex = 1 ∧
      run step state createsSecond = some final ∧
      final.pending 1 = some (.semCreate (some "b") 1) ∧
      final.kernel.processes.state 1 = some .blocked ∧
      final.kernel.getSemIndex (some "b") = MUTEX_NOT_FOUND ∧
      final.kernel.getFreePositionSemaphores ≠ NO_SPACE_LEFT_M := by
  have result : ((run step (booted 2) createsOne).bind fun state =>
      (state.perform (.call (.semCreate (some "a") 1) 0 0)).bind fun performed =>
        (run step state createsSecond).map fun final =>
          (performed.2, (state.kernel.mutexes state.kernel.semaphoreMutex).mutex,
            (performed.1.mutexes state.kernel.semaphoreMutex).mutex, final.pending 1,
            decide (final.kernel.processes.state 1 = some .blocked ∧
              final.kernel.getSemIndex (some "b") = MUTEX_NOT_FOUND ∧
              final.kernel.getFreePositionSemaphores ≠ NO_SPACE_LEFT_M))) =
      some (.returned (some ERROR), 0, 1, some (.semCreate (some "b") 1), true) := by
    decide +kernel
  obtain ⟨state, ran, rest⟩ := Option.bind_eq_some_iff.mp result
  obtain ⟨⟨kernel, outcome⟩, performed, rest⟩ := Option.bind_eq_some_iff.mp rest
  obtain ⟨final, further, facts⟩ := Option.map_eq_some_iff.mp rest
  simp only [Prod.mk.injEq, decide_eq_true_eq] at facts
  obtain ⟨rfl, before, after, facts⟩ := facts
  exact ⟨booted_start (by omega), state, kernel, final, ran, performed, before, after, further,
    facts⟩

end SyncRun

end SistemasOperativos.Kernel
