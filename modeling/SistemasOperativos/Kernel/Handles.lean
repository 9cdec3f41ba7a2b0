import SistemasOperativos.Kernel.ProcessRemoval
import SistemasOperativos.Kernel.TableNames

/-!
# Names and handles of mutexes and semaphores

Runs of `getMutex`, `closeMutex`, `semCreate`, `semOpen` and `semClose` after the
initialisation of both tables. `mutexHandles` and `semaphoreHandles` are not part of the
kernel: they keep what `getMutex` and `semCreate` returned for a name until the slot is
closed. `getMutex` goes on returning that handle and `semOpen` finds it
(`names_have_one_handle`).

None of these calls stands at a `_yield` with the mutex of the mutex table, so that mutex
is free between them and `semCreate` fills a slot that it took in one go.
-/

namespace SistemasOperativos.Kernel

open SistemasOperativos.Semantics

namespace SyncRun

/-- What the action is for: a call, or the rest of the one that the current process is in. -/
def request (state : SyncRun) : SyncAction → Request
  | .call call _ _ => call.request
  | .resume _ _ =>
      match state.pending state.current with
      | some pending => pending.request
      | none => .other
  | _ => .other

/-- Every part of a call has one of the effects on the names. -/
theorem perform_effect {state : SyncRun} {action : SyncAction} {kernel : SyncState}
    {outcome : Outcome} (performed : state.perform action = some (kernel, outcome)) :
    NameEffect state.kernel kernel (state.request action) outcome := by
  rcases perform_eq_some.mp performed with
    ⟨call, garbage, next, rfl, -, -, result⟩ | ⟨pending, garbage, next, rfl, stands, -, result⟩
  · have effect := state.kernel.enter_effect garbage call
    rwa [result] at effect
  · have effect := state.kernel.resume_effect garbage pending
    rw [result] at effect
    simpa only [request, stands] using effect

/-- The handle that the part of a call returns, `ERROR` apart. -/
def returnedHandle (state : SyncRun) (action : SyncAction) : Option Int :=
  match state.perform action with
  | some (_, .returned (some i)) => if i = ERROR then none else some i
  | _ => none

/-- When a step returns a handle. -/
theorem returnedHandle_eq_some {state : SyncRun} {action : SyncAction} {i : Int} :
    state.returnedHandle action = some i ↔
      i ≠ ERROR ∧ ∃ kernel, state.perform action = some (kernel, .returned (some i)) := by
  simp only [returnedHandle]
  split
  · rename_i kernel j performed
    rw [performed]
    split
    · rename_i error
      simp only [reduceCtorEq, false_iff, not_and, not_exists]
      rintro handle kernel ⟨⟩
      exact handle error
    · rename_i handle
      constructor
      · rintro ⟨⟩
        exact ⟨handle, kernel, rfl⟩
      · rintro ⟨-, kernel, ⟨⟩⟩
        rfl
  · rename_i other
    simp only [reduceCtorEq, false_iff, not_and, not_exists]
    intro _ kernel performed
    exact other kernel i performed

end SyncRun

/-- The kernel, and the handles that were returned for each name. -/
structure HandleRun where
  sync : SyncRun
  mutexHandles : String → Option Int
  semaphoreHandles : String → Option Int

/-- `semOpen` only looks. -/
inductive HandleAction where
  | sync (action : SyncAction)
  | semOpen (name : Option String)
  deriving DecidableEq, Repr

/-- The handle kept for a name: the one returned now, or the one from before unless its
slot was closed. -/
def keptHandle (asked : Bool) (returned kept : Option Int) (isOpen : Int → Bool) : Option Int :=
  match asked, returned with
  | true, some i => some i
  | _, _ => kept.filter isOpen

namespace HandleRun

def step (state : HandleRun) : HandleAction → Option HandleRun
  | .sync action =>
      (state.sync.step action).map fun sync =>
        { sync
          mutexHandles := fun name =>
            keptHandle (decide (state.sync.request action = .getMutex (some name)))
              (state.sync.returnedHandle action) (state.mutexHandles name)
              fun i => (sync.kernel.mutexes i).used
          semaphoreHandles := fun name =>
            keptHandle (decide (state.sync.request action = .semCreate (some name)))
              (state.sync.returnedHandle action) (state.semaphoreHandles name)
              fun s => (sync.kernel.semaphores s).used }
  | .semOpen _ =>
      if state.sync.pending state.sync.current = none then some state else none

/-- A run starts after the initialisation, before any handle is given out. -/
structure Start (state : HandleRun) : Prop where
  sync : state.sync.Start
  mutexHandles : ∀ name, state.mutexHandles name = none
  semaphoreHandles : ∀ name, state.semaphoreHandles name = none

/-- The calls are those of the tables; the timer ticks and processes come and go. -/
def TableCalls (_ : HandleRun) : HandleAction → Prop
  | .sync (.call (.lockMutex _) _ _) | .sync (.call (.freeMutex _) _ _)
  | .sync (.call (.wait _) _ _) | .sync (.call (.signal _) _ _) => False
  | _ => True

instance (state : HandleRun) (action : HandleAction) : Decidable (state.TableCalls action) :=
  match action with
  | .sync (.call (.lockMutex _) _ _) | .sync (.call (.freeMutex _) _ _)
  | .sync (.call (.wait _) _ _) | .sync (.call (.signal _) _ _) =>
      inferInstanceAs (Decidable False)
  | .sync (.call (.getMutex _) _ _) | .sync (.call (.closeMutex _) _ _)
  | .sync (.call (.semCreate _ _) _ _) | .sync (.call (.semClose _) _ _)
  | .sync (.resume _ _) | .sync (.timerTick _) | .sync (.createProcess _)
  | .sync (.removeProcess _ _) | .semOpen _ =>
      inferInstanceAs (Decidable True)

/-- Names and handles belong together: no two slots in use have the same name, `getMutex`
returns the handle that it returned before for the name, different names have different
handles, and `semOpen` finds the handle that `semCreate` returned. -/
structure OneHandle (state : HandleRun) : Prop where
  mutexNames : MutexState.NamesUnique state.sync.kernel.mutexes
  semaphoreNames : SemaphoreState.NamesUnique state.sync.kernel.semaphores
  getMutex : ∀ name i action kernel j, state.mutexHandles name = some i →
    state.sync.request action = .getMutex (some name) →
    state.sync.perform action = some (kernel, .returned (some j)) → j = i
  different : ∀ name other i, state.mutexHandles name = some i →
    state.mutexHandles other = some i → name = other
  semOpen : ∀ name s, state.semaphoreHandles name = some s →
    state.sync.kernel.semOpen (some name) = s

end HandleRun

/-! ## Between the calls -/

namespace SyncRun

/-- A step does a part of a call, or it does not and changes the processes only. -/
theorem step_performs {state after : SyncRun} {action : SyncAction}
    (stepped : state.step action = some after) :
    (∃ kernel outcome pending processes, state.perform action = some (kernel, outcome) ∧
      after = (state.settle kernel pending).setProcesses processes ∧
      (∀ p, pending = some p ↔ outcome = .yielded p)) ∨
    state.perform action = none ∧ ∃ processes, after = state.setProcesses processes := by
  have performs : ∀ next, (state.perform action).bind (state.finish next) = some after →
      ∃ kernel outcome pending processes, state.perform action = some (kernel, outcome) ∧
        after = (state.settle kernel pending).setProcesses processes ∧
        (∀ p, pending = some p ↔ outcome = .yielded p) := by
    intro next result
    obtain ⟨⟨kernel, outcome⟩, performed, finished⟩ := Option.bind_eq_some_iff.mp result
    obtain ⟨pending, processes, -, shape, stands⟩ := finish_eq_some finished
    exact ⟨kernel, outcome, pending, processes, performed, shape, stands⟩
  cases action with
  | call call garbage next => exact .inl (performs next stepped)
  | resume garbage next => exact .inl (performs next stepped)
  | timerTick | createProcess | removeProcess =>
      rcases step_eq_some stepped with ⟨_, _, _, _, performed, -⟩ | ⟨processes, shape, -⟩
      · cases performed
      · exact .inr ⟨rfl, processes, shape⟩

/-- The calls of the tables leave the mutex of the mutex table free, and where they wait
they wait for the one of the semaphore table. -/
theorem perform_idle {state : SyncRun} {action : SyncAction} {kernel : SyncState}
    {outcome : Outcome} (idle : ¬ Busy (state.kernel.mutexes MutexState.adminMutex))
    (apart : state.kernel.semaphoreMutex ≠ MutexState.adminMutex)
    (waits : ∀ pid pending, state.pending pid = some pending →
      ∃ name start, pending = .semCreate name start)
    (calls : HandleRun.TableCalls ⟨state, fun _ => none, fun _ => none⟩ (.sync action))
    (performed : state.perform action = some (kernel, outcome)) :
    ¬ Busy (kernel.mutexes MutexState.adminMutex) ∧
      ∀ pending, outcome = .yielded pending → ∃ name start, pending = .semCreate name start := by
  rcases perform_eq_some.mp performed with
    ⟨call, garbage, next, rfl, -, -, result⟩ | ⟨pending, garbage, next, rfl, stands, -, result⟩
  · cases call with
    | lockMutex | freeMutex | wait | signal => exact calls.elim
    | getMutex name =>
        obtain ⟨⟨i, got⟩, free⟩ := state.kernel.getMutex_idle idle name garbage
        simp only [SyncState.enter] at result
        split at result <;> rename_i found <;> rw [found] at got free
        · obtain ⟨rfl, rfl⟩ := Prod.mk.inj result
          exact ⟨free, fun _ yields => by cases yields⟩
        · cases got
    | closeMutex index =>
        obtain ⟨rfl, rfl⟩ := Prod.mk.inj result
        refine ⟨?_, fun _ yields => by cases yields⟩
        simp only [MutexState.closeMutex]
        split
        · exact idle
        · split
          · by_cases same : MutexState.adminMutex = index
            · rw [← same]
              simpa [Busy] using idle
            · rwa [MutexState.setMutex_ne same]
          · exact idle
    | semCreate name start =>
        obtain ⟨free, yields⟩ := SyncState.semCreate_idle idle apart name start garbage
        simp only [SyncState.enter] at result
        rw [result] at free yields
        exact ⟨free, fun pending yielded => ⟨name, start, yields pending yielded⟩⟩
    | semClose index =>
        obtain ⟨rfl, rfl⟩ := Prod.mk.inj result
        refine ⟨?_, fun _ yields => by cases yields⟩
        simp only [SemaphoreState.semClose]
        split
        · exact idle
        · split <;> exact idle
  · obtain ⟨name, start, rfl⟩ := waits _ _ stands
    obtain ⟨free, never⟩ := SyncState.resume_semCreate_idle idle apart result
    exact ⟨free, fun pending yields => absurd yields (never pending)⟩

end SyncRun

namespace HandleRun

/-- The invariant of the runs. -/
structure Named (state : HandleRun) : Prop where
  mutexNames : MutexState.NamesUnique state.sync.kernel.mutexes
  semaphoreNames : SemaphoreState.NamesUnique state.sync.kernel.semaphores
  mutexHandles : ∀ name i, state.mutexHandles name = some i →
    MutexState.Listed state.sync.kernel.mutexes i (some name)
  semaphoreHandles : ∀ name s, state.semaphoreHandles name = some s →
    SemaphoreState.Listed state.sync.kernel.semaphores s (some name)
  idle : ¬ Busy (state.sync.kernel.mutexes MutexState.adminMutex)
  apart : state.sync.kernel.semaphoreMutex ≠ MutexState.adminMutex
  waits : ∀ pid pending, state.sync.pending pid = some pending →
    ∃ name start, pending = .semCreate name start

/-- The invariant holds at the start. -/
theorem Start.named {state : HandleRun} (start : Start state) : Named state := by
  obtain ⟨before, mutexes, semaphores, guard⟩ := start.sync.initialized
  obtain ⟨unique, unused, idle, apart⟩ := before.initializeTables_names
  refine ⟨by rwa [mutexes], ?_, ?_, ?_, ?_, ?_, ?_⟩
  · intro s k name first _
    have used := first.used
    rw [semaphores, unused s first.low first.high] at used
    cases used
  · intro name i kept
    rw [start.mutexHandles] at kept
    cases kept
  · intro name s kept
    rw [start.semaphoreHandles] at kept
    cases kept
  · rwa [mutexes]
  · rwa [guard]
  · intro pid pending stands
    rw [start.sync.pending] at stands
    cases stands

/-- Where a kept handle comes from. -/
theorem keptHandle_eq_some {asked : Bool} {returned kept : Option Int} {isOpen : Int → Bool}
    {i : Int} (here : keptHandle asked returned kept isOpen = some i) :
    asked = true ∧ returned = some i ∨ kept = some i ∧ isOpen i = true := by
  cases asked <;> cases returned <;>
    simp only [keptHandle, Option.filter_eq_some_iff, Option.some.injEq] at here
  case true.some => exact .inl ⟨rfl, by rw [here]⟩
  all_goals exact .inr here

/-- A step keeps the invariant. -/
theorem named_step (state : HandleRun) (action : HandleAction) (next : HandleRun)
    (named : Named state) (calls : state.TableCalls action)
    (stepped : state.step action = some next) : Named next := by
  cases action with
  | semOpen name =>
      simp only [step] at stepped
      split at stepped
      · obtain rfl := Option.some.inj stepped
        exact named
      · cases stepped
  | sync action =>
      obtain ⟨sync, synced, rfl⟩ := Option.map_eq_some_iff.mp stepped
      rcases SyncRun.step_performs synced with
        ⟨kernel, outcome, pending, processes, performed, rfl, yields⟩ | ⟨idles, processes, rfl⟩
      · have effect := SyncRun.perform_effect performed
        obtain ⟨idle, waits⟩ :=
          SyncRun.perform_idle named.idle named.apart named.waits calls performed
        refine ⟨effect.mutexNames named.mutexNames, effect.semaphoreNames named.semaphoreNames,
          fun name i kept => ?_, fun name s kept => ?_, idle, ?_, fun pid stood stands => ?_⟩
        · rcases keptHandle_eq_some kept with ⟨asked, returned⟩ | ⟨before, used⟩
          · obtain ⟨handle, after, same⟩ := SyncRun.returnedHandle_eq_some.mp returned
            rw [performed] at same
            obtain ⟨rfl, rfl⟩ := Prod.mk.inj (Option.some.inj same)
            rw [of_decide_eq_true asked] at effect
            cases effect with
            | kept _ _ plain => exact plain.elim
            | got gets => exact gets.listed handle (by simp)
          · exact effect.keepsMutex (named.mutexHandles name i before) used
        · rcases keptHandle_eq_some kept with ⟨asked, returned⟩ | ⟨before, used⟩
          · obtain ⟨handle, after, same⟩ := SyncRun.returnedHandle_eq_some.mp returned
            rw [performed] at same
            obtain ⟨rfl, rfl⟩ := Prod.mk.inj (Option.some.inj same)
            rw [of_decide_eq_true asked] at effect
            cases effect with
            | kept _ _ plain => exact absurd plain handle
            | built _ _ taken => exact taken.isListed (by simp)
          · exact effect.keepsSemaphore (named.semaphoreHandles name s before) used
        · change kernel.semaphoreMutex ≠ MutexState.adminMutex
          rw [SyncRun.perform_semaphoreMutex performed]
          exact named.apart
        · change Function.update state.sync.pending state.sync.current pending pid = some stood
            at stands
          rw [Function.update_apply] at stands
          split at stands
          · exact waits stood ((yields stood).mp stands)
          · exact named.waits pid stood stands
      · have nothing : state.sync.returnedHandle action = none := by
          simp only [SyncRun.returnedHandle, idles]
        refine ⟨named.mutexNames, named.semaphoreNames, fun name i kept => ?_,
          fun name s kept => ?_,
          named.idle, named.apart, named.waits⟩
        · rcases keptHandle_eq_some kept with ⟨-, returned⟩ | ⟨before, -⟩
          · rw [nothing] at returned
            cases returned
          · exact named.mutexHandles name i before
        · rcases keptHandle_eq_some kept with ⟨-, returned⟩ | ⟨before, -⟩
          · rw [nothing] at returned
            cases returned
          · exact named.semaphoreHandles name s before

/-- In a state of the invariant a name has one handle. -/
theorem Named.oneHandle {state : HandleRun} (named : Named state) : OneHandle state where
  mutexNames := named.mutexNames
  semaphoreNames := named.semaphoreNames
  getMutex name i action kernel j kept asks performed := by
    have listed := named.mutexHandles name i kept
    have effect := SyncRun.perform_effect performed
    rw [asks] at effect
    cases effect with
    | kept _ _ plain => exact plain.elim
    | got gets =>
        cases gets with
        | found here => exact named.mutexNames j i _ here listed
        | full missing | created missing => exact absurd listed (missing i)
  different name other i first second := by
    have same := (named.mutexHandles name i first).name_eq
    rw [(named.mutexHandles other i second).name_eq] at same
    exact (Option.some.inj same).symm
  semOpen name s kept := by
    have listed := named.semaphoreHandles name s kept
    rcases state.sync.kernel.getSemIndex_cases (some name) with ⟨-, missing⟩ | found
    · exact absurd listed (missing s)
    · have same := named.semaphoreNames _ s _ found listed
      have low := listed.low
      simp only [SemaphoreState.semOpen, same, MUTEX_NOT_FOUND]
      rw [if_neg (by omega)]

/-- In every run of the calls after the initialisation, names and handles belong together. -/
theorem names_have_one_handle {start final : HandleRun} {actions : List HandleAction}
    (begins : Start start) (calls : Along step TableCalls start actions)
    (ran : run step start actions = some final) : OneHandle final :=
  (Along.invariant named_step begins.named calls ran).oneHandle

/-- Two processes after the initialisation. -/
def noHandles : HandleRun where
  sync := .booted 2
  mutexHandles := fun _ => none
  semaphoreHandles := fun _ => none

theorem noHandles_start : Start noHandles where
  sync := SyncRun.booted_start (by omega)
  mutexHandles _ := rfl
  semaphoreHandles _ := rfl

/-- Two processes share a mutex and a semaphore of one name; a mutex is closed and its
slot goes to another name. -/
def sharedNames : List HandleAction :=
  [.sync (.call (.getMutex (some "a")) 0 0), .sync (.call (.getMutex (some "b")) 0 0),
    .sync (.call (.semCreate (some "a") 1) 0 0), .sync (.call (.closeMutex 2) 0 0),
    .sync (.timerTick 1), .semOpen (some "a"), .sync (.call (.getMutex (some "c")) 0 0),
    .sync (.call (.getMutex (some "b")) 0 0)]

theorem sharedNames_have_one_handle : ∃ final, run step noHandles sharedNames = some final ∧
    final.mutexHandles "a" = none ∧ final.mutexHandles "b" = some 3 ∧
    final.mutexHandles "c" = some 2 ∧ final.semaphoreHandles "a" = some 0 ∧
    OneHandle final := by
  have result : (run step noHandles sharedNames).map (fun final =>
      (final.mutexHandles "a", final.mutexHandles "b", final.mutexHandles "c",
        final.semaphoreHandles "a")) = some (none, some 3, some 2, some 0) := by
    decide +kernel
  obtain ⟨final, ran, handles⟩ := Option.map_eq_some_iff.mp result
  simp only [Prod.mk.injEq] at handles
  obtain ⟨a, b, c, semaphore⟩ := handles
  exact ⟨final, ran, a, b, c, semaphore,
    names_have_one_handle noHandles_start (by decide +kernel) ran⟩

end HandleRun

end SistemasOperativos.Kernel
