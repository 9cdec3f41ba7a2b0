import SistemasOperativos.Kernel.Semaphore
import SistemasOperativos.Semantics.Run

/-!
# The calls on both synchronisation tables

`SyncState` is the kernel state of mutex.c and semaphores.c together, and
`SyncRun` adds where each process stands in a call. A call runs to its end or to
a `_yield` in it; `Pending` is what is left of the call there, and `resume` does
it when the process runs again. `owner` is not part of the kernel: it follows
who took a mutex and to whom `freeMutex` handed it.

A negative handle makes the code read and write in front of a table, so such a
call is no step (`InBounds`). The handle `ERROR` of a `getMutex` that found the
table full is the one the kernel itself produces.
-/

namespace SistemasOperativos.Kernel

open SistemasOperativos.Semantics

/-- Both tables, the processes and the handle of the mutex of the semaphore table. -/
structure SyncState extends SemaphoreState where
  semaphoreMutex : Int

/-- What is left of a call that stands at a `_yield`. -/
inductive Pending where
  | lockMutex
  | getMutex (mutexName : Option String)
  | semCreate (name : Option String) (start : Int)
  | createSemaphore (name : Option String) (start pid index : Int)
  | waitLocked (semaphore : Int)
  | wait
  deriving DecidableEq, Repr

/-- How far a call or the rest of one got; `value` is what it returns. -/
inductive Outcome where
  | returned (value : Option Int)
  | yielded (pending : Pending)
  deriving DecidableEq, Repr

/-- The calls. -/
inductive SyncCall where
  | lockMutex (mutex : Int)
  | freeMutex (mutex : Int)
  | getMutex (mutexName : Option String)
  | closeMutex (index : Int)
  | semCreate (name : Option String) (start : Int)
  | wait (semaphore : Int)
  | signal (semaphore : Int)
  | semClose (index : Int)
  deriving DecidableEq, Repr

namespace SyncState

/-- `initializeSemaphores`. The mutex table has just been initialised, so
`getMutex` does not wait. -/
def initializeSemaphores (state : SyncState) : SyncState :=
  let semaphores := (List.range MAX_SEMAPHORES).foldl
    (fun state (i : Nat) => state.cleanSemaphore i) state.toSemaphoreState
  match semaphores.getMutex (some "semaphoreMutex") 0 with
  | (mutexes, some index) =>
      { semaphores with toMutexState := mutexes, semaphoreMutex := index }
  | (mutexes, none) =>
      { semaphores with toMutexState := mutexes, semaphoreMutex := state.semaphoreMutex }

/-- `initializeMutexes` and `initializeSemaphores`, as `main` and `restartSHELL` call them. -/
def initializeTables (state : SyncState) : SyncState :=
  { state with toMutexState := state.initializeMutexes }.initializeSemaphores

/-- `semCreate` from the return of `createSemaphore` on. -/
def semCreateReturn (state : SyncState) (index : Int) : SyncState × Outcome :=
  ({ state with toMutexState := state.freeMutex state.semaphoreMutex }, .returned (some index))

/-- `semCreate` from the return of `lockMutex` on. A name in use is refused with
the mutex still locked. -/
def semCreateLocked (state : SyncState) (name : Option String) (start garbage : Int) :
    SyncState × Outcome :=
  if state.getSemIndex name ≠ MUTEX_NOT_FOUND then (state, .returned (some ERROR))
  else
    match state.createSemaphore name start garbage with
    | (semaphores, some index) =>
        semCreateReturn { state with toSemaphoreState := semaphores } index
    | (semaphores, none) =>
        ({ state with toSemaphoreState := semaphores },
          .yielded (.createSemaphore name start state.processes.getCurrentPid
            state.getFreePositionSemaphores))

/-- `semCreate`, to its end or to its first `_yield`. -/
def semCreate (state : SyncState) (name : Option String) (start garbage : Int) :
    SyncState × Outcome :=
  match state.lockMutex state.semaphoreMutex garbage with
  | (mutexes, .returned) =>
      semCreateLocked { state with toMutexState := mutexes } name start garbage
  | (mutexes, .yielded) =>
      ({ state with toMutexState := mutexes }, .yielded (.semCreate name start))

/-- A call, to its end or to its first `_yield`. -/
def enter (state : SyncState) (garbage : Int) : SyncCall → SyncState × Outcome
  | .lockMutex mutex =>
      match state.lockMutex mutex garbage with
      | (mutexes, .returned) => ({ state with toMutexState := mutexes }, .returned none)
      | (mutexes, .yielded) => ({ state with toMutexState := mutexes }, .yielded .lockMutex)
  | .freeMutex mutex => ({ state with toMutexState := state.freeMutex mutex }, .returned none)
  | .getMutex mutexName =>
      match state.getMutex mutexName garbage with
      | (mutexes, some index) => ({ state with toMutexState := mutexes }, .returned (some index))
      | (mutexes, none) =>
          ({ state with toMutexState := mutexes }, .yielded (.getMutex mutexName))
  | .closeMutex index => ({ state with toMutexState := state.closeMutex index }, .returned none)
  | .semCreate name start => state.semCreate name start garbage
  | .wait semaphore =>
      match state.wait semaphore garbage with
      | (semaphores, .returned) => ({ state with toSemaphoreState := semaphores }, .returned none)
      | (semaphores, .yieldedInLock) =>
          ({ state with toSemaphoreState := semaphores }, .yielded (.waitLocked semaphore))
      | (semaphores, .yielded) => ({ state with toSemaphoreState := semaphores }, .yielded .wait)
  | .signal semaphore => ({ state with toSemaphoreState := state.signal semaphore }, .returned none)
  | .semClose index => ({ state with toSemaphoreState := state.semClose index }, .returned none)

/-- The rest of a call after a `_yield`, to its end or to the next `_yield`. -/
def resume (state : SyncState) (garbage : Int) : Pending → SyncState × Outcome
  | .lockMutex | .wait => (state, .returned none)
  | .getMutex mutexName =>
      let (mutexes, index) := state.getMutexLocked mutexName
      ({ state with toMutexState := mutexes }, .returned (some index))
  | .semCreate name start => state.semCreateLocked name start garbage
  | .createSemaphore name start pid index =>
      let (mutexes, mutex) := state.getMutexLocked name
      let semaphores := SemaphoreState.createSemaphoreLocked
        { state with toMutexState := mutexes } pid index start mutex
      semCreateReturn { state with toSemaphoreState := semaphores } index
  | .waitLocked semaphore =>
      match state.toSemaphoreState.waitLocked semaphore with
      | (semaphores, .returned) => ({ state with toSemaphoreState := semaphores }, .returned none)
      | (semaphores, .yielded) => ({ state with toSemaphoreState := semaphores }, .yielded .wait)

/-- The call uses no handle in front of a table. -/
def InBounds (state : SyncState) : SyncCall → Prop
  | .lockMutex mutex | .freeMutex mutex => 0 ≤ mutex
  | .closeMutex index => 0 ≤ index
  | .wait semaphore => 0 ≤ semaphore ∧ 0 ≤ (state.semaphores semaphore).mutex
  | .signal semaphore => 0 ≤ semaphore
  | .semClose index => 0 ≤ index
  | .getMutex _ | .semCreate _ _ => True

/-- The rest of a call uses no handle in front of a table. -/
def RestInBounds (state : SyncState) : Pending → Prop
  | .waitLocked semaphore => 0 ≤ (state.semaphores semaphore).mutex
  | _ => True

instance (state : SyncState) (call : SyncCall) : Decidable (state.InBounds call) := by
  cases call <;> unfold InBounds <;> infer_instance

instance (state : SyncState) (pending : Pending) : Decidable (state.RestInBounds pending) := by
  cases pending <;> unfold RestInBounds <;> infer_instance

/-- `semCreate` does not assign `semaphoreMutex`. -/
@[simp] theorem semCreateLocked_semaphoreMutex (state : SyncState) (name : Option String)
    (start garbage : Int) :
    (state.semCreateLocked name start garbage).1.semaphoreMutex = state.semaphoreMutex := by
  unfold semCreateLocked
  split
  · rfl
  · split <;> rfl

/-- No call assigns `semaphoreMutex` up to its first lock. -/
@[simp] theorem enter_semaphoreMutex (state : SyncState) (garbage : Int) (call : SyncCall) :
    (state.enter garbage call).1.semaphoreMutex = state.semaphoreMutex := by
  cases call with
  | semCreate name start =>
      simp only [enter, semCreate]
      split <;> simp
  | lockMutex | getMutex | wait =>
      simp only [enter]
      split <;> rfl
  | freeMutex | closeMutex | signal | semClose => rfl

/-- No call assigns `semaphoreMutex` behind its lock. -/
@[simp] theorem resume_semaphoreMutex (state : SyncState) (garbage : Int) (pending : Pending) :
    (state.resume garbage pending).1.semaphoreMutex = state.semaphoreMutex := by
  cases pending with
  | semCreate name start => simp [resume]
  | waitLocked semaphore =>
      simp only [resume]
      split <;> rfl
  | lockMutex | getMutex | createSemaphore | wait => rfl

/-! ## What the calls keep -/

/-- A part of a call locks first and then creates and frees. `P` lives through the
first, `Q` through the second half of the operations of mutex.c in it, with
`closeMutex` left out. -/
structure Phased (P Q : MutexState → Prop) : Prop where
  lockMutex : ∀ {state : MutexState} (mutex garbage : Int), 0 ≤ mutex → P state →
    P (state.lockMutex mutex garbage).1
  changeProcessState : ∀ {state : MutexState} (pid : Int) (processState : ProcessState),
    P state → P (state.changeProcessState pid processState)
  locked : ∀ {state : MutexState}, P state → Q state
  createMutex : ∀ {state : MutexState} (mutexName : Option String), P state →
    Q (state.createMutex mutexName).1
  freeMutex : ∀ {state : MutexState} (mutex : Int), 0 ≤ mutex → Q state →
    Q (state.freeMutex mutex)

section Phased

variable {P Q : MutexState → Prop} (phased : Phased P Q)

include phased

/-- The two halves of `getMutex` behind its lock. -/
theorem Phased.getMutexLocked {state : MutexState} (mutexName : Option String) (holds : P state) :
    Q (state.getMutexLocked mutexName).1 := by
  have admin : (0 : Int) ≤ MutexState.adminMutex := Int.le_refl 0
  simp only [MutexState.getMutexLocked]
  split
  · exact phased.freeMutex _ admin (phased.createMutex mutexName holds)
  · exact phased.freeMutex _ admin (phased.locked holds)

/-- The two halves of `getMutex`. -/
theorem Phased.getMutex {state : MutexState} (mutexName : Option String) (garbage : Int)
    (holds : P state) : Q (state.getMutex mutexName garbage).1 := by
  have locked := phased.lockMutex MutexState.adminMutex garbage (Int.le_refl 0) holds
  simp only [MutexState.getMutex]
  split
  · rename_i mutexes result
    rw [result] at locked
    exact phased.getMutexLocked mutexName locked
  · rename_i mutexes result
    rw [result] at locked
    exact phased.locked locked

/-- The two halves of `createSemaphore`. -/
theorem Phased.createSemaphore {state : SemaphoreState} (semName : Option String)
    (start garbage : Int) (holds : P state.toMutexState) :
    Q (state.createSemaphore semName start garbage).1.toMutexState := by
  have got := phased.getMutex semName garbage holds
  simp only [SemaphoreState.createSemaphore]
  split
  · exact phased.locked holds
  · split
    · rename_i mutexes result
      rw [SemaphoreState.setSemaphore_toMutexState] at result
      rwa [result] at got
    · rename_i mutexes mutex result
      rw [SemaphoreState.setSemaphore_toMutexState] at result
      rwa [result] at got

/-- The two halves of `wait` behind its lock. -/
theorem Phased.waitLocked {state : SemaphoreState} (semaphore : Int)
    (inBounds : 0 ≤ (state.semaphores semaphore).mutex) (holds : P state.toMutexState) :
    Q (state.waitLocked semaphore).1.toMutexState := by
  simp only [SemaphoreState.waitLocked]
  split
  · exact phased.freeMutex _ inBounds (phased.locked holds)
  · exact phased.freeMutex _ inBounds (phased.locked (phased.changeProcessState _ _ holds))

/-- The two halves of `wait`. -/
theorem Phased.wait {state : SemaphoreState} (semaphore garbage : Int)
    (inBounds : 0 ≤ (state.semaphores semaphore).mutex) (holds : P state.toMutexState) :
    Q (state.wait semaphore garbage).1.toMutexState := by
  have locked := phased.lockMutex _ garbage inBounds holds
  simp only [SemaphoreState.wait]
  split
  · exact phased.locked holds
  · split
    · rename_i mutexes result
      rw [result] at locked
      exact phased.locked locked
    · rename_i mutexes result
      rw [result] at locked
      have rest := @Phased.waitLocked _ _ phased { state with toMutexState := mutexes }
        semaphore inBounds locked
      split <;> rename_i done <;> rwa [done] at rest

/-- The two halves of `signal`. -/
theorem Phased.signal {state : SemaphoreState} (semaphore : Int) (holds : P state.toMutexState) :
    Q (state.signal semaphore).toMutexState := by
  apply phased.locked
  simp only [SemaphoreState.signal]
  split
  · exact holds
  · split
    · simp only [SemaphoreState.setSemaphore_toMutexState,
        SemaphoreState.unblockProcessSemaphore, WaitQueue.unblockProcess]
      split
      · exact phased.changeProcessState _ _ holds
      · exact holds
    · exact holds

/-- The two halves of `semCreate` behind its lock. -/
theorem Phased.semCreateLocked {state : SyncState} (name : Option String) (start garbage : Int)
    (guard : 0 ≤ state.semaphoreMutex) (holds : P state.toMutexState) :
    Q (state.semCreateLocked name start garbage).1.toMutexState := by
  have created := phased.createSemaphore name start garbage holds
  simp only [SyncState.semCreateLocked]
  split
  · exact phased.locked holds
  · split
    · rename_i semaphores index result
      rw [result] at created
      exact phased.freeMutex _ guard created
    · rename_i semaphores result
      rwa [result] at created

/-- A call leads from `P` to `Q`, when `closeMutex` does on this state. -/
theorem Phased.enter {state : SyncState} {call : SyncCall} (garbage : Int)
    (guard : 0 ≤ state.semaphoreMutex) (inBounds : state.InBounds call)
    (close : ∀ index, call = .closeMutex index → Q (state.closeMutex index))
    (holds : P state.toMutexState) : Q (state.enter garbage call).1.toMutexState := by
  cases call with
  | lockMutex mutex =>
      have locked := phased.locked (phased.lockMutex mutex garbage inBounds holds)
      simp only [SyncState.enter]
      split <;> rename_i result <;> rwa [result] at locked
  | freeMutex mutex => exact phased.freeMutex mutex inBounds (phased.locked holds)
  | getMutex mutexName =>
      have got := phased.getMutex mutexName garbage holds
      simp only [SyncState.enter]
      split <;> rename_i result <;> rwa [result] at got
  | closeMutex index => exact close index rfl
  | semCreate name start =>
      have locked := phased.lockMutex state.semaphoreMutex garbage guard holds
      simp only [SyncState.enter, SyncState.semCreate]
      split
      · rename_i mutexes result
        rw [result] at locked
        exact @Phased.semCreateLocked _ _ phased { state with toMutexState := mutexes }
          name start garbage guard locked
      · rename_i mutexes result
        rw [result] at locked
        exact phased.locked locked
  | wait semaphore =>
      have waited := phased.wait semaphore garbage inBounds.2 holds
      simp only [SyncState.enter]
      split <;> rename_i result <;> rwa [result] at waited
  | signal semaphore => exact phased.signal semaphore holds
  | semClose index =>
      apply phased.locked
      simp only [SyncState.enter, SemaphoreState.semClose]
      split
      · exact holds
      · split <;> exact holds

/-- The rest of a call leads from `P` to `Q`. -/
theorem Phased.resume {state : SyncState} {pending : Pending} (garbage : Int)
    (guard : 0 ≤ state.semaphoreMutex) (inBounds : state.RestInBounds pending)
    (holds : P state.toMutexState) : Q (state.resume garbage pending).1.toMutexState := by
  cases pending with
  | lockMutex => exact phased.locked holds
  | getMutex mutexName => exact phased.getMutexLocked mutexName holds
  | semCreate name start => exact phased.semCreateLocked name start garbage guard holds
  | createSemaphore name start pid index =>
      exact phased.freeMutex _ guard (phased.getMutexLocked name holds)
  | waitLocked semaphore =>
      have waited := phased.waitLocked semaphore inBounds holds
      simp only [SyncState.resume]
      split <;> rename_i result <;> rwa [result] at waited
  | wait => exact phased.locked holds

end Phased

/-- A property of the waiting processes of a semaphore that lives through the
recording of the process `caller` and through `signal`. -/
structure QueueKept (caller : Int) (Q : WaitQueue → Prop) : Prop where
  addToBlocked : ∀ {waiters : WaitQueue}, Q waiters → Q (waiters.addToBlocked caller)
  unblockProcess : ∀ {waiters : WaitQueue} (processes : ProcessTable),
    0 < waiters.cardinalBlocked → Q waiters →
      Q { (waiters.unblockProcess processes).2 with
          cardinalBlocked := (waiters.unblockProcess processes).2.cardinalBlocked - 1 }

/-- A store that leaves the waiting processes of the entry as they are. -/
theorem setSemaphore_waiters {state : SemaphoreState} {index s : Int} {sem : Semaphore}
    (same : sem.toWaitQueue = (state.semaphores index).toWaitQueue) :
    ((state.setSemaphore index sem).semaphores s).toWaitQueue =
      (state.semaphores s).toWaitQueue := by
  by_cases here : s = index
  · rw [here, SemaphoreState.setSemaphore_same, same]
  · rw [SemaphoreState.setSemaphore_ne here]

/-- `createSemaphore` leaves the slots of every queue. -/
@[simp] theorem createSemaphoreLocked_waiters (state : SemaphoreState)
    (pid index start mutex s : Int) :
    ((state.createSemaphoreLocked pid index start mutex).semaphores s).toWaitQueue =
      (state.semaphores s).toWaitQueue :=
  setSemaphore_waiters rfl

/-- `createSemaphore` records nobody and wakes nobody. -/
@[simp] theorem createSemaphore_waiters (state : SemaphoreState) (semName : Option String)
    (start garbage s : Int) :
    ((state.createSemaphore semName start garbage).1.semaphores s).toWaitQueue =
      (state.semaphores s).toWaitQueue := by
  simp only [SemaphoreState.createSemaphore]
  split
  · rfl
  · split
    · exact setSemaphore_waiters rfl
    · rw [createSemaphoreLocked_waiters]
      exact setSemaphore_waiters rfl

/-- `semClose` leaves the slots of every queue. -/
@[simp] theorem semClose_waiters (state : SemaphoreState) (index s : Int) :
    ((state.semClose index).semaphores s).toWaitQueue = (state.semaphores s).toWaitQueue := by
  simp only [SemaphoreState.semClose]
  split
  · rfl
  · split
    · exact setSemaphore_waiters rfl
    · rfl

/-- `semCreate` leaves the slots of every queue. -/
@[simp] theorem semCreateLocked_waiters (state : SyncState) (name : Option String)
    (start garbage s : Int) :
    ((state.semCreateLocked name start garbage).1.semaphores s).toWaitQueue =
      (state.semaphores s).toWaitQueue := by
  have created := createSemaphore_waiters state.toSemaphoreState name start garbage s
  simp only [semCreateLocked]
  split
  · rfl
  · split <;> rename_i result <;> rwa [result] at created

section QueueKept

variable {caller : Int} {Q : WaitQueue → Prop} (kept : QueueKept caller Q)

include kept

/-- `wait` behind its lock keeps what recording its caller keeps. -/
theorem QueueKept.waitLocked {state : SemaphoreState} (runs : state.processes.current = caller)
    (semaphore s : Int) (holds : Q (state.semaphores s).toWaitQueue) :
    Q ((state.waitLocked semaphore).1.semaphores s).toWaitQueue := by
  have counted : ∀ value, ((state.setSemaphore semaphore
      { state.semaphores semaphore with semaphore := value }).semaphores s).toWaitQueue =
        (state.semaphores s).toWaitQueue := fun _ => setSemaphore_waiters rfl
  simp only [SemaphoreState.waitLocked]
  split
  · rwa [counted]
  · simp only [SemaphoreState.addToSemBlocked, SemaphoreState.setSemaphore_toMutexState,
      ProcessTable.getCurrentPid, runs]
    by_cases here : s = semaphore
    · subst here
      simpa using kept.addToBlocked holds
    · rw [SemaphoreState.setSemaphore_ne here, counted]
      exact holds

/-- `wait` keeps what recording its caller keeps. -/
theorem QueueKept.wait {state : SemaphoreState} (runs : state.processes.current = caller)
    (semaphore garbage s : Int) (holds : Q (state.semaphores s).toWaitQueue) :
    Q ((state.wait semaphore garbage).1.semaphores s).toWaitQueue := by
  have locked := state.lockMutex_current (state.semaphores semaphore).mutex garbage
  simp only [SemaphoreState.wait]
  split
  · exact holds
  · split
    · exact holds
    · rename_i mutexes result
      rw [result, runs] at locked
      have rest := @QueueKept.waitLocked _ _ kept { state with toMutexState := mutexes }
        locked semaphore s holds
      split <;> rename_i done <;> rwa [done] at rest

/-- `signal` keeps what taking the first one out keeps. -/
theorem QueueKept.signal {state : SemaphoreState} (semaphore s : Int)
    (holds : Q (state.semaphores s).toWaitQueue) :
    Q ((state.signal semaphore).semaphores s).toWaitQueue := by
  have raised : ∀ (woken : SemaphoreState) value, ((woken.setSemaphore semaphore
      { woken.semaphores semaphore with semaphore := value }).semaphores s).toWaitQueue =
        (woken.semaphores s).toWaitQueue := fun _ _ => setSemaphore_waiters rfl
  simp only [SemaphoreState.signal]
  split
  · exact holds
  · rw [raised]
    split
    · rename_i waiting
      by_cases here : s = semaphore
      · subst here
        simpa [SemaphoreState.unblockProcessSemaphore] using
          kept.unblockProcess state.processes waiting holds
      · simpa [SemaphoreState.unblockProcessSemaphore, SemaphoreState.setSemaphore_ne here]
          using holds
    · exact holds

/-- Every call up to its first lock keeps what its parts keep. -/
theorem QueueKept.enter {state : SyncState} (runs : state.processes.current = caller)
    (garbage : Int) (call : SyncCall) (s : Int) (holds : Q (state.semaphores s).toWaitQueue) :
    Q ((state.enter garbage call).1.semaphores s).toWaitQueue := by
  cases call with
  | lockMutex | getMutex =>
      simp only [SyncState.enter]
      split <;> exact holds
  | freeMutex | closeMutex => exact holds
  | semCreate name start =>
      simp only [SyncState.enter, SyncState.semCreate]
      split
      · rw [semCreateLocked_waiters]
        exact holds
      · exact holds
  | wait semaphore =>
      have waited := kept.wait runs semaphore garbage s holds
      simp only [SyncState.enter]
      split <;> rename_i result <;> rwa [result] at waited
  | signal semaphore => exact kept.signal semaphore s holds
  | semClose index =>
      simp only [SyncState.enter]
      rwa [semClose_waiters]

/-- Every call behind a lock keeps what its parts keep. -/
theorem QueueKept.resume {state : SyncState} (runs : state.processes.current = caller)
    (garbage : Int) (pending : Pending) (s : Int) (holds : Q (state.semaphores s).toWaitQueue) :
    Q ((state.resume garbage pending).1.semaphores s).toWaitQueue := by
  cases pending with
  | lockMutex | getMutex | wait => exact holds
  | semCreate name start =>
      simp only [SyncState.resume]
      rwa [semCreateLocked_waiters]
  | createSemaphore name start pid index =>
      simp only [SyncState.resume, semCreateReturn]
      rwa [createSemaphoreLocked_waiters]
  | waitLocked semaphore =>
      have waited := kept.waitLocked runs semaphore s holds
      simp only [SyncState.resume]
      split <;> rename_i result <;> rwa [result] at waited

end QueueKept

/-- The same process runs and the same pids are on the ring. -/
def RingOf (processes : ProcessTable) (state : MutexState) : Prop :=
  state.processes.current = processes.current ∧
    ∀ pid, state.processes.state pid = none ↔ processes.state pid = none

/-- No operation adds or removes a process. -/
theorem ringOf_phased (processes : ProcessTable) :
    Phased (RingOf processes) (RingOf processes) where
  locked := id
  changeProcessState pid processState holds := by
    simpa [RingOf] using holds
  lockMutex mutex garbage _ holds := by
    simp only [MutexState.lockMutex]
    split
    · exact holds
    · split
      · exact holds
      · split <;> simpa [RingOf] using holds
  freeMutex mutex _ holds := by
    simp only [MutexState.freeMutex]
    split
    · exact holds
    · split
      · simp only [MutexState.unblockProcess, WaitQueue.unblockProcess]
        split <;> simpa [RingOf] using holds
      · exact holds
  createMutex mutexName holds := by
    simp only [MutexState.createMutex]
    split <;> exact holds

end SyncState

/-- The kernel, where each process stands, and who owns each mutex. -/
structure SyncRun where
  kernel : SyncState
  pending : Int → Option Pending
  owner : Int → Option Int

/-- What the current process, or the timer, does. `next` is the process that
`schedule` picks if there is a switch. -/
inductive SyncAction where
  | call (call : SyncCall) (garbage next : Int)
  | resume (garbage next : Int)
  | timerTick (next : Int)
  | createProcess (pid : Int)
  | removeProcess (pid next : Int)
  deriving DecidableEq, Repr

/-- The owner of a mutex after the current process, `caller`, went through a part
of a call: nobody when it is open, the caller when it was open before, and
otherwise the waiting process that was taken out of the array, if there is one. -/
def ownerAfter (before after : Mutex) (caller : Int) (owner : Option Int) : Option Int :=
  if after.mutex = 0 then none
  else if before.mutex = 0 then some caller
  else
    match before.entries.find? fun pid =>
        decide (after.entries.count pid < before.entries.count pid) with
    | some pid => some pid
    | none => owner

namespace SyncRun

/-- The process that runs. -/
def current (state : SyncRun) : Int := state.kernel.processes.current

/-- Replace the processes. -/
def setProcesses (state : SyncRun) (processes : ProcessTable) : SyncRun :=
  { state with kernel := { state.kernel with processes } }

/-- Switch to `next`. -/
def dispatch (state : SyncRun) (next : Int) : Option SyncRun :=
  (state.kernel.processes.schedule next).map state.setProcesses

/-- What the current process does to the kernel in a step. A process that stands
at a `_yield` first does the rest of its call. -/
def perform (state : SyncRun) : SyncAction → Option (SyncState × Outcome)
  | .call call garbage _ =>
      if state.pending state.current = none ∧ state.kernel.InBounds call then
        some (state.kernel.enter garbage call)
      else none
  | .resume garbage _ =>
      match state.pending state.current with
      | some pending =>
          if state.kernel.RestInBounds pending then some (state.kernel.resume garbage pending)
          else none
      | none => none
  | _ => none

/-- Take over what the current process did. -/
def settle (state : SyncRun) (kernel : SyncState) (pending : Option Pending) : SyncRun where
  kernel := kernel
  pending := Function.update state.pending state.current pending
  owner := fun m => ownerAfter (state.kernel.mutexes m) (kernel.mutexes m) state.current
    (state.owner m)

/-- A call that stands at a `_yield` gives the processor away. -/
def finish (state : SyncRun) (next : Int) : SyncState × Outcome → Option SyncRun
  | (kernel, .returned _) => some (state.settle kernel none)
  | (kernel, .yielded pending) => (state.settle kernel (some pending)).dispatch next

/-- `removeProcess` takes the process off the ring and looks at nothing else.
Process `0` is never removed, so the ring never gets empty. -/
def removeProcess (state : SyncRun) (pid next : Int) : Option SyncRun :=
  if pid = 0 then state.dispatch next
  else if state.kernel.processes.state pid = none then some state
  else
    let removed := state.setProcesses
      { state.kernel.processes with
        state := Function.update state.kernel.processes.state pid none }
    if pid = state.current then removed.dispatch next else some removed

/-- A part of a call, a tick of the timer, or a process that comes or goes. -/
def step (state : SyncRun) : SyncAction → Option SyncRun
  | .call call garbage next => (state.perform (.call call garbage next)).bind (state.finish next)
  | .resume garbage next => (state.perform (.resume garbage next)).bind (state.finish next)
  | .timerTick next => state.dispatch next
  | .createProcess pid =>
      if 0 ≤ pid ∧ state.kernel.processes.state pid = none then
        some (state.setProcesses
          { state.kernel.processes with
            state := Function.update state.kernel.processes.state pid (some .ready) })
      else none
  | .removeProcess pid next => state.removeProcess pid next

/-! ## The shape of a step -/

@[simp] theorem setProcesses_mutexes (state : SyncRun) (processes : ProcessTable) :
    (state.setProcesses processes).kernel.mutexes = state.kernel.mutexes := rfl

@[simp] theorem setProcesses_semaphores (state : SyncRun) (processes : ProcessTable) :
    (state.setProcesses processes).kernel.semaphores = state.kernel.semaphores := rfl

@[simp] theorem setProcesses_semaphoreMutex (state : SyncRun) (processes : ProcessTable) :
    (state.setProcesses processes).kernel.semaphoreMutex = state.kernel.semaphoreMutex := rfl

@[simp] theorem setProcesses_processes (state : SyncRun) (processes : ProcessTable) :
    (state.setProcesses processes).kernel.processes = processes := rfl

@[simp] theorem setProcesses_pending (state : SyncRun) (processes : ProcessTable) :
    (state.setProcesses processes).pending = state.pending := rfl

@[simp] theorem setProcesses_owner (state : SyncRun) (processes : ProcessTable) :
    (state.setProcesses processes).owner = state.owner := rfl

/-- Between two states of the processes no process came or went, and one of them runs. -/
structure SameProcesses (before after : ProcessTable) : Prop where
  present : ∀ pid, after.state pid = none ↔ before.state pid = none
  current : before.state before.current ≠ none → after.state after.current ≠ none

/-- A table has its own processes. -/
theorem SameProcesses.refl (processes : ProcessTable) : SameProcesses processes processes :=
  ⟨fun _ => Iff.rfl, id⟩

/-- A switch lets another process run and brings or removes nobody. -/
theorem dispatch_eq_some {state after : SyncRun} {next : Int}
    (switched : state.dispatch next = some after) :
    ∃ processes, SameProcesses state.kernel.processes processes ∧
      state.kernel.processes.state next ≠ none ∧ processes.current = next ∧
      after = state.setProcesses processes := by
  obtain ⟨processes, picked, rfl⟩ := Option.map_eq_some_iff.mp switched
  have dispatched := ProcessTable.schedule_dispatched picked
  refine ⟨processes, ⟨dispatched.present, fun _ => ?_⟩, dispatched.next_present,
    dispatched.current, rfl⟩
  rw [dispatched.current]
  exact mt (dispatched.present next).mp dispatched.next_present

/-- What the current process did is taken over, and there may be a switch. -/
theorem finish_eq_some {state after : SyncRun} {next : Int} {kernel : SyncState}
    {outcome : Outcome} (finished : state.finish next (kernel, outcome) = some after) :
    ∃ pending processes, SameProcesses kernel.processes processes ∧
      after = (state.settle kernel pending).setProcesses processes ∧
      (∀ p, pending = some p ↔ outcome = .yielded p) := by
  cases outcome with
  | returned value =>
      obtain rfl := Option.some.inj finished
      exact ⟨none, kernel.processes, .refl _, rfl, by simp⟩
  | yielded pending =>
      obtain ⟨processes, same, -, -, rfl⟩ := dispatch_eq_some finished
      exact ⟨some pending, processes, same, rfl, by simp⟩

/-- A step either does a part of a call or changes the processes only. -/
theorem step_eq_some {state after : SyncRun} {action : SyncAction}
    (stepped : state.step action = some after) :
    (∃ kernel outcome pending processes, state.perform action = some (kernel, outcome) ∧
      SameProcesses kernel.processes processes ∧
      after = (state.settle kernel pending).setProcesses processes ∧
      (∀ p, pending = some p ↔ outcome = .yielded p)) ∨
    ∃ processes, after = state.setProcesses processes ∧
      (state.kernel.processes.state state.current ≠ none →
        processes.state processes.current ≠ none) ∧
      ∀ pid, processes.state pid ≠ none ↔
        (state.kernel.processes.state pid ≠ none ∧ ∀ next, action = .removeProcess pid next →
          pid = 0) ∨ action = .createProcess pid ∧ 0 ≤ pid := by
  have performs : ∀ next, (state.perform action).bind (state.finish next) = some after →
      ∃ kernel outcome pending processes, state.perform action = some (kernel, outcome) ∧
        SameProcesses kernel.processes processes ∧
        after = (state.settle kernel pending).setProcesses processes ∧
        (∀ p, pending = some p ↔ outcome = .yielded p) := by
    intro next result
    obtain ⟨⟨kernel, outcome⟩, performed, finished⟩ := Option.bind_eq_some_iff.mp result
    obtain ⟨pending, processes, same, shape, stands⟩ := finish_eq_some finished
    exact ⟨kernel, outcome, pending, processes, performed, same, shape, stands⟩
  cases action with
  | call call garbage next => exact .inl (performs next stepped)
  | resume garbage next => exact .inl (performs next stepped)
  | timerTick next =>
      obtain ⟨processes, same, -, -, rfl⟩ := dispatch_eq_some stepped
      exact .inr ⟨processes, rfl, same.current, fun pid => by simp [same.present]⟩
  | createProcess pid =>
      simp only [step] at stepped
      split at stepped
      · rename_i fresh
        obtain rfl := Option.some.inj stepped
        refine .inr ⟨_, rfl, fun present => ?_, fun other => ?_⟩
        · have different : state.kernel.processes.current ≠ pid := fun same =>
            present (by rw [current, same, fresh.2])
          simpa [current, Function.update_of_ne different] using present
        · by_cases same : other = pid
          · simp [same, fresh.1, fresh.2]
          · have others : pid ≠ other := fun reverse => same reverse.symm
            simp [same, others]
      · cases stepped
  | removeProcess pid next =>
      simp only [step, removeProcess] at stepped
      split at stepped
      · rename_i init
        obtain ⟨processes, same, -, -, rfl⟩ := dispatch_eq_some stepped
        refine .inr ⟨processes, rfl, same.current, fun other => ?_⟩
        simp only [ne_eq, same.present, SyncAction.removeProcess.injEq, reduceCtorEq, false_and,
          or_false, iff_self_and]
        rintro - _ ⟨rfl, -⟩
        exact init
      · rename_i notInit
        split at stepped
        · rename_i absent
          obtain rfl := Option.some.inj stepped
          refine .inr ⟨state.kernel.processes, rfl, id, fun other => ?_⟩
          simp only [ne_eq, SyncAction.removeProcess.injEq, reduceCtorEq, false_and, or_false,
            iff_self_and]
          rintro present _ ⟨rfl, -⟩
          exact absurd absent present
        · have gone : ∀ other, Function.update state.kernel.processes.state pid none other ≠ none ↔
              (state.kernel.processes.state other ≠ none ∧
                ∀ switch, SyncAction.removeProcess pid next =
                  .removeProcess other switch → other = 0) ∨
              SyncAction.removeProcess pid next = .createProcess other ∧ 0 ≤ other := by
            intro other
            by_cases same : other = pid
            · simp [same, notInit]
            · have others : pid ≠ other := fun reverse => same reverse.symm
              simp [same, others]
          split at stepped
          · obtain ⟨processes, same, picked, runs, rfl⟩ := dispatch_eq_some stepped
            refine .inr ⟨processes, rfl, fun _ => ?_, fun other => ?_⟩
            · rw [runs, ne_eq, same.present]
              exact picked
            · rw [ne_eq, same.present]
              exact gone other
          · rename_i notCurrent
            obtain rfl := Option.some.inj stepped
            refine .inr ⟨_, rfl, fun present => ?_, gone⟩
            have different : state.kernel.processes.current ≠ pid := fun same =>
              notCurrent same.symm
            simpa [current, Function.update_of_ne different] using present

/-- A part of a call is a call that the current process enters or the rest of
the one it stands in. -/
theorem perform_eq_some {state : SyncRun} {action : SyncAction} {result : SyncState × Outcome} :
    state.perform action = some result ↔
      (∃ call garbage next, action = .call call garbage next ∧
        state.pending state.current = none ∧ state.kernel.InBounds call ∧
        state.kernel.enter garbage call = result) ∨
      ∃ pending garbage next, action = .resume garbage next ∧
        state.pending state.current = some pending ∧ state.kernel.RestInBounds pending ∧
        state.kernel.resume garbage pending = result := by
  cases action with
  | call call garbage next => simp [perform, and_assoc]
  | resume garbage next =>
      cases stands : state.pending state.current with
      | none => simp [perform, stands]
      | some pending => simp [perform, stands]
  | timerTick next => simp [perform]
  | createProcess pid => simp [perform]
  | removeProcess pid next => simp [perform]

/-- A step of a run never assigns `semaphoreMutex`. -/
theorem perform_semaphoreMutex {state : SyncRun} {action : SyncAction} {kernel : SyncState}
    {outcome : Outcome} (performed : state.perform action = some (kernel, outcome)) :
    kernel.semaphoreMutex = state.kernel.semaphoreMutex := by
  rcases perform_eq_some.mp performed with
    ⟨call, garbage, next, -, -, -, result⟩ | ⟨pending, garbage, next, -, -, -, result⟩
  · rw [← SyncState.enter_semaphoreMutex state.kernel garbage call, result]
  · rw [← SyncState.resume_semaphoreMutex state.kernel garbage pending, result]

/-- A part of a call leads from `P` to `Q`. -/
theorem perform_phased {P Q : MutexState → Prop} (phased : SyncState.Phased P Q)
    {state : SyncRun} {action : SyncAction} {kernel : SyncState} {outcome : Outcome}
    (guard : 0 ≤ state.kernel.semaphoreMutex)
    (close : ∀ index garbage next, action = .call (.closeMutex index) garbage next →
      0 ≤ index → Q (state.kernel.closeMutex index))
    (holds : P state.kernel.toMutexState)
    (performed : state.perform action = some (kernel, outcome)) : Q kernel.toMutexState := by
  rcases perform_eq_some.mp performed with
    ⟨call, garbage, next, rfl, -, inBounds, result⟩ |
    ⟨pending, garbage, next, -, -, inBounds, result⟩
  · have entered := phased.enter garbage guard inBounds (fun index same => by
      subst same
      exact close index garbage next rfl inBounds) holds
    rwa [result] at entered
  · have resumed := phased.resume garbage guard inBounds holds
    rwa [result] at resumed

/-- A part of a call keeps what the recording of its caller and `signal` keep. -/
theorem perform_queueKept {Q : WaitQueue → Prop} {state : SyncRun}
    (kept : SyncState.QueueKept state.current Q) {action : SyncAction} {kernel : SyncState}
    {outcome : Outcome} {s : Int} (holds : Q (state.kernel.semaphores s).toWaitQueue)
    (performed : state.perform action = some (kernel, outcome)) :
    Q (kernel.semaphores s).toWaitQueue := by
  rcases perform_eq_some.mp performed with
    ⟨call, garbage, next, -, -, -, result⟩ | ⟨pending, garbage, next, -, -, -, result⟩
  · have entered := kept.enter rfl garbage call s holds
    rwa [result] at entered
  · have resumed := kept.resume rfl garbage pending s holds
    rwa [result] at resumed

/-- No call adds or removes a process, and none switches before its `_yield`. -/
theorem perform_processes {state : SyncRun} {action : SyncAction} {kernel : SyncState}
    {outcome : Outcome} (guard : 0 ≤ state.kernel.semaphoreMutex)
    (performed : state.perform action = some (kernel, outcome)) :
    kernel.processes.current = state.current ∧
      ∀ pid, kernel.processes.state pid = none ↔ state.kernel.processes.state pid = none := by
  refine perform_phased (SyncState.ringOf_phased state.kernel.processes) guard ?_
    ⟨rfl, fun _ => Iff.rfl⟩ performed
  intro index garbage next _ _
  simp only [MutexState.closeMutex, SyncState.RingOf]
  split
  · simp
  · split <;> simp

/-! ## A system after boot -/

/-- The tables before they are initialised, as the kernel image has them. -/
def zeroed : SyncState where
  processes := { state := fun _ => none, current := -1 }
  mutexes := fun _ =>
    { WaitQueue.empty with used := false, name := none, mutex := 0, pidCreator := 0 }
  semaphores := fun _ =>
    { WaitQueue.empty with
      used := false, name := none, semaphore := 0, mutex := 0, pidCreator := 0 }
  semaphoreMutex := 0

/-- The initialised tables with the processes `0` to `count - 1`; process `0` runs. -/
def booted (count : Nat) : SyncRun where
  kernel :=
    { zeroed.initializeTables with
      processes :=
        { state := fun pid =>
            if 0 ≤ pid ∧ pid < count then some (if pid = 0 then .running else .ready) else none
          current := 0 } }
  pending := fun _ => none
  owner := fun _ => none

/-- The processes after boot have no negative pid. -/
theorem booted_pids {count : Nat} {pid : Int}
    (present : (booted count).kernel.processes.state pid ≠ none) : 0 ≤ pid := by
  simp only [booted, ne_eq, ite_eq_right_iff, reduceCtorEq, imp_false, not_not] at present
  exact present.1

/-- The process that runs after boot exists. -/
theorem booted_present {count : Nat} (positive : 0 < count) :
    (booted count).kernel.processes.state (booted count).current ≠ none := by
  simp [booted, current]
  omega

end SyncRun

end SistemasOperativos.Kernel
