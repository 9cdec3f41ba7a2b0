import SistemasOperativos.Kernel.MutexTable
import SistemasOperativos.Kernel.PipeTable

/-!
# Handles outside of the tables

`isValidMutex` and `isValidSemaphore` refuse the handles behind their table, but not those in front
of it, and `ERROR` is one of them. `around` puts another memory around the tables: a call stays
inside them if it does the same with every such memory and leaves it as it is (`Contained`). The
calls with a handle do so exactly if the handle is not negative, and neither is the handle of the
mutex that a semaphore or a pipe stored when it was created (`handles_fit_iff`).
-/

namespace SistemasOperativos.Kernel

open SistemasOperativos.Semantics

/-- What lies in memory where a handle outside of its table leads to. -/
structure Outside where
  mutexes : Int → Mutex
  semaphores : Int → Semaphore

/-- A memory in which every entry is in use and nobody waits. -/
def Outside.inUse (flag creator : Int) : Outside where
  mutexes _ :=
    { WaitQueue.empty with used := true, name := none, mutex := flag, pidCreator := creator }
  semaphores _ :=
    { WaitQueue.empty with
      used := true, name := none, semaphore := 1, mutex := MAX_MUTEXES, pidCreator := creator }

/-- A memory of zeros. -/
def Outside.zeros : Outside where
  mutexes _ :=
    { WaitQueue.empty with used := false, name := none, mutex := 0, pidCreator := 0 }
  semaphores _ :=
    { WaitQueue.empty with
      used := false, name := none, semaphore := 0, mutex := 0, pidCreator := 0 }

namespace MutexState

/-- The same table with another memory around it. -/
def around (state : MutexState) (outside : Outside) : MutexState :=
  { state with mutexes := fun i =>
      if 0 ≤ i ∧ i < MAX_MUTEXES then state.mutexes i else outside.mutexes i }

/-- The handle is the one of an entry in use. -/
def InUse (state : MutexState) (mutex : Int) : Prop :=
  0 ≤ mutex ∧ mutex < MAX_MUTEXES ∧ (state.mutexes mutex).used = true

section Around

variable {state : MutexState} {outside : Outside} {mutex : Int}

@[simp] theorem around_processes (state : MutexState) (outside : Outside) :
    (state.around outside).processes = state.processes := rfl

/-- An entry of the table does not depend on the memory around it. -/
theorem around_inside (low : 0 ≤ mutex) (high : mutex < MAX_MUTEXES) :
    (state.around outside).mutexes mutex = state.mutexes mutex := if_pos ⟨low, high⟩

/-- In front of the table stands the memory around it. -/
theorem around_before (before : mutex < 0) :
    (state.around outside).mutexes mutex = outside.mutexes mutex :=
  if_neg fun inside => absurd inside.1 (by omega)

/-- A handle of no entry in use is not valid, if it is not negative. -/
theorem isValidMutex_eq_false (low : 0 ≤ mutex) (unused : ¬ state.InUse mutex) :
    state.isValidMutex mutex = false := by
  by_contra valid
  rw [Bool.not_eq_false] at valid
  have high := lt_of_isValidMutex valid
  rw [isValidMutex, if_neg (by omega)] at valid
  exact unused ⟨low, high, valid⟩

/-- The test of a handle that is not negative reads entries of the table only. -/
theorem isValidMutex_around (low : 0 ≤ mutex) :
    (state.around outside).isValidMutex mutex = state.isValidMutex mutex := by
  unfold isValidMutex
  split
  · rfl
  · rw [around_inside low (by omega)]

/-- In front of the table the test reads the memory around it. -/
theorem isValidMutex_before (before : mutex < 0) :
    (state.around outside).isValidMutex mutex = (outside.mutexes mutex).used := by
  rw [isValidMutex, if_neg (by omega), around_before before]

/-- Writing an entry of the table leaves the memory around it. -/
theorem setMutex_around (low : 0 ≤ mutex) (high : mutex < MAX_MUTEXES) (m : Mutex) :
    (state.around outside).setMutex mutex m = (state.setMutex mutex m).around outside := by
  refine congrArg (MutexState.mk state.processes) (funext fun i => ?_)
  by_cases same : i = mutex
  · subst same
    simp [around, setMutex, low, high]
  · simp [around, setMutex, same]

/-- With a handle that is not negative `lockMutex` stays inside the table. -/
theorem lockMutex_around (low : 0 ≤ mutex) (garbage : Int) :
    (state.around outside).lockMutex mutex garbage =
      ((state.lockMutex mutex garbage).1.around outside, (state.lockMutex mutex garbage).2) := by
  have validity := @isValidMutex_around state outside _ low
  cases valid : state.isValidMutex mutex with
  | false =>
      rw [valid] at validity
      simp [lockMutex, valid, validity]
  | true =>
      rw [valid] at validity
      have high := lt_of_isValidMutex valid
      have same := @around_inside state outside _ low high
      by_cases busy : Busy (state.mutexes mutex)
      · have busy' : Busy ((state.around outside).mutexes mutex) := same.symm ▸ busy
        cases full : state.isQueueFull mutex with
        | true =>
            have full' : (state.around outside).isQueueFull mutex = true := by
              rw [isQueueFull, same]
              exact full
            rw [lockMutex_full valid busy full, lockMutex_full validity busy' full']
            rfl
        | false =>
            have full' : (state.around outside).isQueueFull mutex = false := by
              rw [isQueueFull, same]
              exact full
            rw [lockMutex_queues valid busy full, lockMutex_queues validity busy' full',
              addToBlocked, same, setMutex_around low high]
            rfl
      · simp only [Busy, not_or, not_not] at busy
        rw [lockMutex_acquires valid busy.1 busy.2,
          lockMutex_acquires validity (same.symm ▸ busy.1) (same.symm ▸ busy.2), same,
          setMutex_around low high]

/-- With a handle that is not negative `freeMutex` stays inside the table. -/
theorem freeMutex_around (low : 0 ≤ mutex) :
    (state.around outside).freeMutex mutex = (state.freeMutex mutex).around outside := by
  have validity := @isValidMutex_around state outside _ low
  cases valid : state.isValidMutex mutex with
  | false =>
      rw [valid] at validity
      simp [freeMutex, valid, validity]
  | true =>
      rw [valid] at validity
      have high := lt_of_isValidMutex valid
      have same := @around_inside state outside _ low high
      by_cases waiting : 0 < (state.mutexes mutex).cardinalBlocked
      · have woken : (state.around outside).unblockProcess mutex =
            (state.unblockProcess mutex).around outside := by
          simp only [unblockProcess, same]
          exact @setMutex_around { state with processes := _ } _ _ low high _
        simp only [freeMutex, valid, validity, same, waiting, if_true, woken,
          around_inside low high, setMutex_around low high, Bool.true_eq_false, if_false]
      · rw [freeMutex_opens valid waiting, freeMutex_opens validity (by rwa [same]), same,
          setMutex_around low high]

/-- With a handle that is not negative `closeMutex` stays inside the table. -/
theorem closeMutex_around (low : 0 ≤ mutex) :
    (state.around outside).closeMutex mutex = (state.closeMutex mutex).around outside := by
  unfold closeMutex
  rw [isValidMutex_around low]
  split
  · rfl
  · rename_i valid
    have high := lt_of_isValidMutex (Bool.not_eq_false _ ▸ valid)
    simp only [around_inside low high, around_processes]
    split
    · exact setMutex_around low high _
    · rfl

/-! ### In front of the table -/

/-- With a negative handle `lockMutex` may write in front of the table. -/
theorem lockMutex_before (before : mutex < 0) (garbage : Int) : ∃ outside : Outside,
    ((state.around outside).lockMutex mutex garbage).1.mutexes mutex ≠
      outside.mutexes mutex := by
  refine ⟨.inUse 0 0, ?_⟩
  rw [lockMutex_acquires (by rw [isValidMutex_before before]; rfl)
    (by rw [around_before before]; rfl) (by rw [around_before before]; rfl), setMutex_same,
    around_before before]
  exact fun same => by simpa [Outside.inUse] using congrArg Mutex.mutex same

/-- With a negative handle `freeMutex` may write in front of the table. -/
theorem freeMutex_before (before : mutex < 0) : ∃ outside : Outside,
    ((state.around outside).freeMutex mutex).mutexes mutex ≠ outside.mutexes mutex := by
  refine ⟨.inUse 1 0, ?_⟩
  rw [freeMutex_opens (by rw [isValidMutex_before before]; rfl)
    (by rw [around_before before]; exact Int.lt_irrefl 0), setMutex_same, around_before before]
  exact fun same => by simpa [Outside.inUse] using congrArg Mutex.mutex same

/-- With a negative handle `closeMutex` may write in front of the table. -/
theorem closeMutex_before (before : mutex < 0) : ∃ outside : Outside,
    ((state.around outside).closeMutex mutex).mutexes mutex ≠ outside.mutexes mutex := by
  refine ⟨.inUse 0 state.processes.current, ?_⟩
  have valid : (state.around (.inUse 0 state.processes.current)).isValidMutex mutex = true := by
    rw [isValidMutex_before before]
    rfl
  have own : (state.around (.inUse 0 state.processes.current)).processes.getCurrentPid =
      ((Outside.inUse 0 state.processes.current).mutexes mutex).pidCreator := rfl
  simp only [closeMutex, valid, Bool.true_eq_false, if_false, around_before before]
  rw [if_pos own, setMutex_same]
  exact fun same => Bool.false_ne_true (congrArg Mutex.used same)

/-- A lock in front of the table waits or does not, as the memory there says. -/
theorem lockMutex_progress (before : mutex < 0) (garbage : Int) :
    ((state.around .zeros).lockMutex mutex garbage).2 = .returned ∧
      ((state.around (.inUse 1 0)).lockMutex mutex garbage).2 = .yielded := by
  constructor
  · have unused : (state.around .zeros).isValidMutex mutex = false := by
      rw [isValidMutex_before before]
      rfl
    simp only [lockMutex, unused, if_true]
  · rw [lockMutex_queues (by rw [isValidMutex_before before]; rfl)
      (by rw [around_before before]; exact .inl Int.one_ne_zero)
      (by rw [isQueueFull, around_before before]; rfl)]

end Around

end MutexState

namespace SemaphoreState

/-- The same tables with another memory around them. -/
def around (state : SemaphoreState) (outside : Outside) : SemaphoreState where
  toMutexState := state.toMutexState.around outside
  semaphores := fun i =>
    if 0 ≤ i ∧ i < MAX_SEMAPHORES then state.semaphores i else outside.semaphores i

/-- The handle is the one of an entry in use. -/
def SemaphoreInUse (state : SemaphoreState) (semaphore : Int) : Prop :=
  0 ≤ semaphore ∧ semaphore < MAX_SEMAPHORES ∧ (state.semaphores semaphore).used = true

section Around

variable {state : SemaphoreState} {outside : Outside} {semaphore : Int}

@[simp] theorem around_toMutexState (state : SemaphoreState) (outside : Outside) :
    (state.around outside).toMutexState = state.toMutexState.around outside := rfl

/-- An entry of the table does not depend on the memory around it. -/
theorem around_inside (low : 0 ≤ semaphore) (high : semaphore < MAX_SEMAPHORES) :
    (state.around outside).semaphores semaphore = state.semaphores semaphore := if_pos ⟨low, high⟩

/-- In front of the table stands the memory around it. -/
theorem around_before (before : semaphore < 0) :
    (state.around outside).semaphores semaphore = outside.semaphores semaphore :=
  if_neg fun inside => absurd inside.1 (by omega)

/-- A handle of no entry in use is not valid, if it is not negative. -/
theorem isValidSemaphore_eq_false (low : 0 ≤ semaphore)
    (unused : ¬ state.SemaphoreInUse semaphore) : state.isValidSemaphore semaphore = false := by
  by_contra valid
  rw [Bool.not_eq_false] at valid
  have high := lt_of_isValidSemaphore valid
  rw [isValidSemaphore, if_neg (by omega)] at valid
  exact unused ⟨low, high, valid⟩

/-- The test of a handle that is not negative reads entries of the table only. -/
theorem isValidSemaphore_around (low : 0 ≤ semaphore) :
    (state.around outside).isValidSemaphore semaphore = state.isValidSemaphore semaphore := by
  unfold isValidSemaphore
  split
  · rfl
  · rw [around_inside low (by omega)]

/-- In front of the table the test reads the memory around it. -/
theorem isValidSemaphore_before (before : semaphore < 0) :
    (state.around outside).isValidSemaphore semaphore =
      (outside.semaphores semaphore).used := by
  rw [isValidSemaphore, if_neg (by omega), around_before before]

/-- Writing an entry of the table leaves the memory around it. -/
theorem setSemaphore_around (low : 0 ≤ semaphore) (high : semaphore < MAX_SEMAPHORES)
    (sem : Semaphore) : (state.around outside).setSemaphore semaphore sem =
      (state.setSemaphore semaphore sem).around outside := by
  refine congrArg (SemaphoreState.mk (state.toMutexState.around outside)) (funext fun i => ?_)
  by_cases same : i = semaphore
  · subst same
    simp [around, setSemaphore, low, high]
  · simp [around, setSemaphore, same]

/-- Recording a process in an entry of the table leaves the memory around it. -/
theorem addToSemBlocked_around (low : 0 ≤ semaphore) (high : semaphore < MAX_SEMAPHORES)
    (pid : Int) : (state.around outside).addToSemBlocked semaphore pid =
      (state.addToSemBlocked semaphore pid).around outside := by
  simp only [addToSemBlocked, around_inside low high, setSemaphore_around low high]

/-- `wait` behind its lock stays inside the tables if its handle and its guard are entries. -/
theorem waitLocked_around (low : 0 ≤ semaphore) (high : semaphore < MAX_SEMAPHORES)
    (stored : 0 ≤ (state.semaphores semaphore).mutex) :
    (state.around outside).waitLocked semaphore =
      ((state.waitLocked semaphore).1.around outside, (state.waitLocked semaphore).2) := by
  simp only [waitLocked, around_inside low high, setSemaphore_around low high]
  split
  · refine Prod.ext ?_ rfl
    exact congrArg (fun mutexes => SemaphoreState.mk mutexes _)
      (MutexState.freeMutex_around stored)
  · refine Prod.ext ?_ rfl
    simp only [addToSemBlocked_around low high]
    exact congrArg (fun mutexes => SemaphoreState.mk mutexes _)
      (@MutexState.freeMutex_around (MutexState.changeProcessState _ _ _) _ _ stored)

/-- A `wait` that has to wait for the mutex of the semaphore stands in `lockMutex`. -/
theorem wait_of_yielded {mutexes : MutexState} {garbage : Int}
    (valid : state.isValidSemaphore semaphore = true)
    (locked : state.lockMutex (state.semaphores semaphore).mutex garbage = (mutexes, .yielded)) :
    state.wait semaphore garbage = ({ state with toMutexState := mutexes }, .yieldedInLock) := by
  simp only [wait, valid, locked, Bool.true_eq_false, if_false]

/-- A `wait` that gets the mutex of the semaphore goes on with `waitLocked`. -/
theorem wait_of_locked {mutexes : MutexState} {garbage : Int}
    (valid : state.isValidSemaphore semaphore = true)
    (locked : state.lockMutex (state.semaphores semaphore).mutex garbage = (mutexes, .returned)) :
    state.wait semaphore garbage =
      ((waitLocked { state with toMutexState := mutexes } semaphore).1,
        if (waitLocked { state with toMutexState := mutexes } semaphore).2 = .returned
        then .returned else .yielded) := by
  simp only [wait, valid, locked, Bool.true_eq_false, if_false]
  cases waitLocked { state with toMutexState := mutexes } semaphore with
  | mk after progress => cases progress <;> rfl

/-- `wait` stays inside the tables if neither its handle nor the guard of a valid one is
negative. -/
theorem wait_around (low : 0 ≤ semaphore)
    (stored : state.isValidSemaphore semaphore = true → 0 ≤ (state.semaphores semaphore).mutex)
    (garbage : Int) : (state.around outside).wait semaphore garbage =
      ((state.wait semaphore garbage).1.around outside, (state.wait semaphore garbage).2) := by
  have validity := @isValidSemaphore_around state outside _ low
  cases valid : state.isValidSemaphore semaphore with
  | false =>
      rw [valid] at validity
      simp [wait, valid, validity]
  | true =>
      rw [valid] at validity
      have high := lt_of_isValidSemaphore valid
      have handle := stored valid
      have locks := @MutexState.lockMutex_around state.toMutexState outside _
        handle garbage
      rw [← around_toMutexState, ← @around_inside _ outside _ low high] at locks
      cases locked : state.lockMutex (state.semaphores semaphore).mutex garbage with
      | mk mutexes progress =>
          rw [around_inside low high, locked] at locks
          cases progress with
          | yielded =>
              rw [wait_of_yielded valid locked, wait_of_yielded validity (by
                rw [around_inside low high]
                exact locks)]
              rfl
          | returned =>
              have rest := @waitLocked_around { state with toMutexState := mutexes }
                outside _ low high handle
              rw [wait_of_locked valid locked, wait_of_locked validity (by
                rw [around_inside low high]
                exact locks)]
              exact congrArg (fun done : SemaphoreState × Progress =>
                (done.1, if done.2 = .returned then WaitProgress.returned else .yielded)) rest

/-- With a handle that is not negative `signal` stays inside the tables. -/
theorem signal_around (low : 0 ≤ semaphore) :
    (state.around outside).signal semaphore = (state.signal semaphore).around outside := by
  unfold signal
  rw [isValidSemaphore_around low]
  split
  · rfl
  · rename_i valid
    have high := lt_of_isValidSemaphore (Bool.not_eq_false _ ▸ valid)
    have woken : (state.around outside).unblockProcessSemaphore semaphore =
        (state.unblockProcessSemaphore semaphore).around outside := by
      simp only [unblockProcessSemaphore, around_inside low high]
      exact @setSemaphore_around
        { state with toMutexState := { state.toMutexState with processes := _ } } _ _
        low high _
    simp only [around_inside low high, woken]
    split <;> simp only [around_inside low high, setSemaphore_around low high]

/-- With a handle that is not negative `semClose` stays inside the table. -/
theorem semClose_around (low : 0 ≤ semaphore) :
    (state.around outside).semClose semaphore = (state.semClose semaphore).around outside := by
  unfold semClose
  rw [isValidSemaphore_around low]
  split
  · rfl
  · rename_i valid
    have high := lt_of_isValidSemaphore (Bool.not_eq_false _ ▸ valid)
    simp only [around_inside low high, around_toMutexState, MutexState.around_processes]
    split
    · exact setSemaphore_around low high _
    · rfl

/-! ### In front of the tables -/

/-- With a negative handle `signal` may write in front of the table. -/
theorem signal_before (before : semaphore < 0) : ∃ outside : Outside,
    ((state.around outside).signal semaphore).semaphores semaphore ≠
      outside.semaphores semaphore := by
  refine ⟨.inUse 0 0, ?_⟩
  rw [signal_counts (by rw [isValidSemaphore_before before]; rfl)
    (by rw [around_before before]; exact Int.lt_irrefl 0), setSemaphore_same, around_before before]
  exact fun same => absurd (congrArg Semaphore.semaphore same) (by simp [Outside.inUse, toInt32])

/-- With a negative handle `semClose` may write in front of the table. -/
theorem semClose_before (before : semaphore < 0) : ∃ outside : Outside,
    ((state.around outside).semClose semaphore).semaphores semaphore ≠
      outside.semaphores semaphore := by
  refine ⟨.inUse 0 state.processes.current, ?_⟩
  have valid : (state.around (.inUse 0 state.processes.current)).isValidSemaphore semaphore =
      true := by
    rw [isValidSemaphore_before before]
    rfl
  have own : (state.around (.inUse 0 state.processes.current)).processes.getCurrentPid =
      ((Outside.inUse 0 state.processes.current).semaphores semaphore).pidCreator := rfl
  simp only [semClose, valid, Bool.true_eq_false, if_false, around_before before]
  rw [if_pos own, setSemaphore_same]
  exact fun same => Bool.false_ne_true (congrArg Semaphore.used same)

/-- With a negative handle `wait` may write in front of the table. -/
theorem wait_before (before : semaphore < 0) (garbage : Int) : ∃ outside : Outside,
    ((state.around outside).wait semaphore garbage).1.semaphores semaphore ≠
      outside.semaphores semaphore := by
  refine ⟨.inUse 0 0, ?_⟩
  have handle : ((state.around (.inUse 0 0)).semaphores semaphore).mutex = MAX_MUTEXES := by
    rw [around_before before]
    rfl
  rw [wait_proceeds (by rw [isValidSemaphore_before before]; rfl)
    (fun valid => absurd (MutexState.lt_of_isValidMutex valid) (by rw [handle]; omega))
    (by rw [around_before before]; simp [Outside.inUse, toInt32]), setSemaphore_same,
    around_before before]
  exact fun same => absurd (congrArg Semaphore.semaphore same) (by simp [Outside.inUse, toInt32])

/-- A `wait` on a semaphore whose mutex is in front of the table waits for that mutex or does
not, as the memory there says. -/
theorem wait_goesOn (inUse : state.SemaphoreInUse semaphore)
    (before : (state.semaphores semaphore).mutex < 0) (garbage : Int) :
    ((state.around .zeros).wait semaphore garbage).2 ≠ .yieldedInLock ∧
      ((state.around (.inUse 1 0)).wait semaphore garbage).2 = .yieldedInLock := by
  obtain ⟨low, high, used⟩ := inUse
  have valid : ∀ outside, (state.around outside).isValidSemaphore semaphore = true := by
    intro outside
    rw [isValidSemaphore_around low, isValidSemaphore, if_neg (by omega)]
    exact used
  have locks : ∀ outside, (state.around outside).lockMutex
      ((state.around outside).semaphores semaphore).mutex garbage =
        (state.toMutexState.around outside).lockMutex (state.semaphores semaphore).mutex
          garbage := by
    intro outside
    rw [around_inside low high]
    rfl
  obtain ⟨returned, yielded⟩ :=
    @MutexState.lockMutex_progress state.toMutexState _ before garbage
  constructor
  · rw [wait_of_locked (valid _) ((locks _).trans (Prod.ext rfl returned))]
    dsimp only
    split <;> exact fun same => by cases same
  · rw [wait_of_yielded (valid _) ((locks _).trans (Prod.ext rfl yielded))]

end Around

end SemaphoreState

/-! ## The calls -/

/-- The handle that a call is given. -/
def SyncCall.handle : SyncCall → Option Int
  | .lockMutex mutex | .freeMutex mutex => some mutex
  | .closeMutex index | .semClose index => some index
  | .wait semaphore | .signal semaphore => some semaphore
  | .getMutex _ | .semCreate _ _ => none

namespace SyncState

/-- The same tables with another memory around them. -/
def around (state : SyncState) (outside : Outside) : SyncState where
  toSemaphoreState := state.toSemaphoreState.around outside
  semaphoreMutex := state.semaphoreMutex

/-- The handle of the call is the one of an entry in use. -/
def NamesEntry (state : SyncState) : SyncCall → Prop
  | .lockMutex mutex | .freeMutex mutex | .closeMutex mutex => state.InUse mutex
  | .wait semaphore | .signal semaphore | .semClose semaphore => state.SemaphoreInUse semaphore
  | .getMutex _ | .semCreate _ _ => True

/-- A part of a call touches no entry outside of the tables: it does the same whatever lies there,
and leaves it as it is. -/
def Contained (state : SyncState) (part : SyncState → SyncState × Outcome) : Prop :=
  ∀ outside, part (state.around outside) = ((part state).1.around outside, (part state).2)

/-- What is to hold of a call with a handle: it stays inside the tables, and it does nothing if
the handle is not the one of an entry in use. -/
structure Fits (state : SyncState) (garbage : Int) (call : SyncCall) : Prop where
  contained : state.Contained fun s => s.enter garbage call
  inert : ¬ state.NamesEntry call → state.enter garbage call = (state, .returned none)

/-- The handle is not negative, and neither is the one of the mutex of a semaphore to wait for. -/
def NotNegative (state : SyncState) : SyncCall → Prop
  | .lockMutex mutex | .freeMutex mutex | .closeMutex mutex => 0 ≤ mutex
  | .wait semaphore =>
      0 ≤ semaphore ∧ (state.SemaphoreInUse semaphore → 0 ≤ (state.semaphores semaphore).mutex)
  | .signal semaphore | .semClose semaphore => 0 ≤ semaphore
  | .getMutex _ | .semCreate _ _ => True

section Fits

variable {state : SyncState} {garbage : Int}

/-- The call of `lockMutex` is `lockMutex`. -/
theorem enter_lockMutex (state : SyncState) (garbage mutex : Int) :
    state.enter garbage (.lockMutex mutex) =
      ({ state with toMutexState := (state.lockMutex mutex garbage).1 },
        if (state.lockMutex mutex garbage).2 = .returned then .returned none
        else .yielded .lockMutex) := by
  simp only [enter]
  split <;> rename_i locked <;> rw [locked] <;> rfl

/-- Where the return or the `_yield` of a `wait` leaves its caller. -/
def waitOutcome (semaphore : Int) : SemaphoreState.WaitProgress → Outcome
  | .returned => .returned none
  | .yieldedInLock => .yielded (.waitLocked semaphore)
  | .yielded => .yielded .wait

/-- The call of `wait` is `wait`. -/
theorem enter_wait (state : SyncState) (garbage semaphore : Int) :
    state.enter garbage (.wait semaphore) =
      ({ state with toSemaphoreState := (state.wait semaphore garbage).1 },
        waitOutcome semaphore (state.wait semaphore garbage).2) := by
  simp only [enter]
  split <;> rename_i waited <;> rw [waited] <;> rfl

/-- Calls whose handles are not negative stay inside the tables. -/
theorem enter_contained {call : SyncCall} {h : Int} (given : call.handle = some h)
    (fits : state.NotNegative call) : state.Contained fun s => s.enter garbage call := by
  intro outside
  cases call with
  | lockMutex mutex =>
      have same := @MutexState.lockMutex_around state.toMutexState outside _ fits garbage
      dsimp only
      rw [enter_lockMutex, enter_lockMutex]
      exact congrArg (fun done : MutexState × Progress =>
        ({ state.around outside with toMutexState := done.1 },
          if done.2 = .returned then Outcome.returned none else .yielded .lockMutex)) same
  | freeMutex mutex =>
      have same := @MutexState.freeMutex_around state.toMutexState outside _ fits
      exact congrArg (fun mutexes => ({ state.around outside with toMutexState := mutexes },
        Outcome.returned none)) same
  | closeMutex index =>
      have same := @MutexState.closeMutex_around state.toMutexState outside _ fits
      exact congrArg (fun mutexes => ({ state.around outside with toMutexState := mutexes },
        Outcome.returned none)) same
  | wait semaphore =>
      obtain ⟨low, stored⟩ := fits
      have same := @SemaphoreState.wait_around state.toSemaphoreState outside _ low
        (fun valid => stored ⟨low,
          SemaphoreState.lt_of_isValidSemaphore valid, by
            have high := SemaphoreState.lt_of_isValidSemaphore valid
            rwa [SemaphoreState.isValidSemaphore, if_neg (by omega)] at valid⟩) garbage
      dsimp only
      rw [enter_wait, enter_wait]
      exact congrArg (fun done : SemaphoreState × SemaphoreState.WaitProgress =>
        ({ state.around outside with toSemaphoreState := done.1 },
          waitOutcome semaphore done.2)) same
  | signal semaphore =>
      have same := @SemaphoreState.signal_around state.toSemaphoreState outside _ fits
      exact congrArg (fun semaphores => ({ state.around outside with
        toSemaphoreState := semaphores }, Outcome.returned none)) same
  | semClose index =>
      have same := @SemaphoreState.semClose_around state.toSemaphoreState outside _ fits
      exact congrArg (fun semaphores => ({ state.around outside with
        toSemaphoreState := semaphores }, Outcome.returned none)) same
  | getMutex | semCreate => cases given

/-- A call with a handle that is not negative and not the one of an entry does nothing. -/
theorem enter_inert {call : SyncCall} {h : Int} (given : call.handle = some h)
    (fits : state.NotNegative call) (unused : ¬ state.NamesEntry call) :
    state.enter garbage call = (state, .returned none) := by
  cases call with
  | lockMutex mutex =>
      simp only [enter, MutexState.lockMutex, MutexState.isValidMutex_eq_false fits unused,
        if_true]
  | freeMutex mutex =>
      simp only [enter, MutexState.freeMutex, MutexState.isValidMutex_eq_false fits unused,
        if_true]
  | closeMutex index =>
      simp only [enter, MutexState.closeMutex, MutexState.isValidMutex_eq_false fits unused,
        if_true]
  | wait semaphore =>
      simp only [enter, SemaphoreState.wait,
        SemaphoreState.isValidSemaphore_eq_false fits.1 unused, if_true]
  | signal semaphore =>
      simp only [enter, SemaphoreState.signal,
        SemaphoreState.isValidSemaphore_eq_false fits unused, if_true]
  | semClose index =>
      simp only [enter, SemaphoreState.semClose,
        SemaphoreState.isValidSemaphore_eq_false fits unused, if_true]
  | getMutex | semCreate => cases given

/-- A part of a call that stays inside the tables changes no mutex in front of them. -/
theorem Contained.mutex_notNegative {part : SyncState → SyncState × Outcome} {i : Int}
    (contained : state.Contained part)
    (changes : i < 0 → ∃ outside,
      (part (state.around outside)).1.mutexes i ≠ outside.mutexes i) : 0 ≤ i := by
  by_contra negative
  have before : i < 0 := Int.not_le.mp negative
  obtain ⟨outside, changed⟩ := changes before
  refine changed ?_
  rw [contained outside]
  exact MutexState.around_before before

/-- It changes no semaphore in front of them either. -/
theorem Contained.semaphore_notNegative {part : SyncState → SyncState × Outcome} {i : Int}
    (contained : state.Contained part)
    (changes : i < 0 → ∃ outside,
      (part (state.around outside)).1.semaphores i ≠ outside.semaphores i) : 0 ≤ i := by
  by_contra negative
  have before : i < 0 := Int.not_le.mp negative
  obtain ⟨outside, changed⟩ := changes before
  refine changed ?_
  rw [contained outside]
  exact SemaphoreState.around_before before

/-- A `wait` that stays inside the tables locks no mutex in front of them. -/
theorem stored_notNegative {semaphore : Int}
    (contained : state.Contained fun s => s.enter garbage (.wait semaphore))
    (inUse : state.SemaphoreInUse semaphore) : 0 ≤ (state.semaphores semaphore).mutex := by
  by_contra negative
  obtain ⟨goesOn, stands⟩ := @SemaphoreState.wait_goesOn
    state.toSemaphoreState _ inUse (Int.not_le.mp negative) garbage
  have first := congrArg Prod.snd (contained .zeros)
  have second := congrArg Prod.snd (contained (.inUse 1 0))
  dsimp only at first second
  rw [enter_wait] at first second
  have same := first.trans second.symm
  change waitOutcome semaphore
    ((state.toSemaphoreState.around .zeros).wait semaphore garbage).2 =
    waitOutcome semaphore
      ((state.toSemaphoreState.around (.inUse 1 0)).wait semaphore garbage).2 at same
  rw [stands] at same
  cases progress : ((state.toSemaphoreState.around .zeros).wait semaphore garbage).2 with
  | yieldedInLock => exact goesOn progress
  | returned | yielded =>
      rw [progress] at same
      cases same

/-- With a negative handle a call does not stay inside the tables. -/
theorem notNegative_of_contained {call : SyncCall} {h : Int} (given : call.handle = some h)
    (contained : state.Contained fun s => s.enter garbage call) : state.NotNegative call := by
  cases call with
  | lockMutex mutex =>
      refine contained.mutex_notNegative fun before => ?_
      simp only [enter_lockMutex]
      exact @MutexState.lockMutex_before state.toMutexState _ before garbage
  | freeMutex mutex =>
      exact contained.mutex_notNegative fun before =>
        @MutexState.freeMutex_before state.toMutexState _ before
  | closeMutex index =>
      exact contained.mutex_notNegative fun before =>
        @MutexState.closeMutex_before state.toMutexState _ before
  | wait semaphore =>
      refine ⟨contained.semaphore_notNegative fun before => ?_, stored_notNegative contained⟩
      simp only [enter_wait]
      exact @SemaphoreState.wait_before state.toSemaphoreState _ before garbage
  | signal semaphore =>
      exact contained.semaphore_notNegative fun before =>
        @SemaphoreState.signal_before state.toSemaphoreState _ before
  | semClose index =>
      exact contained.semaphore_notNegative fun before =>
        @SemaphoreState.semClose_before state.toSemaphoreState _ before
  | getMutex | semCreate => cases given

/-- A call with a handle fits exactly if no handle it uses is negative. -/
theorem fits_iff {call : SyncCall} {h : Int} (given : call.handle = some h) :
    state.Fits garbage call ↔ state.NotNegative call :=
  ⟨fun fits => notNegative_of_contained given fits.contained,
    fun fits => ⟨enter_contained given fits, enter_inert given fits⟩⟩

/-- Behind its `lockMutex` a `wait` stays inside the tables exactly if the handle that the
semaphore stored is not negative. -/
theorem rest_contained_iff {semaphore : Int} (low : 0 ≤ semaphore)
    (high : semaphore < MAX_SEMAPHORES) :
    state.Contained (fun s => s.resume garbage (.waitLocked semaphore)) ↔
      0 ≤ (state.semaphores semaphore).mutex := by
  have resumes : ∀ s : SyncState, s.resume garbage (.waitLocked semaphore) =
      ({ s with toSemaphoreState := (s.toSemaphoreState.waitLocked semaphore).1 },
        if (s.toSemaphoreState.waitLocked semaphore).2 = .returned then .returned none
        else .yielded .wait) := by
    intro s
    simp only [resume]
    split <;> rename_i result <;> rw [result] <;> rfl
  constructor
  · intro contained
    refine contained.mutex_notNegative fun before => ?_
    have inside : ∀ outside, (state.around outside).semaphores semaphore =
        state.semaphores semaphore := fun _ => SemaphoreState.around_inside low high
    simp only [resumes]
    by_cases permits : 0 ≤ toInt32 ((state.semaphores semaphore).semaphore - 1)
    · obtain ⟨outside, changed⟩ := @MutexState.freeMutex_before state.toMutexState _ before
      refine ⟨outside, fun same => changed ?_⟩
      rw [← same]
      simp only [SemaphoreState.waitLocked, inside, SemaphoreState.setSemaphore_same,
        if_pos permits]
      rfl
    · obtain ⟨outside, changed⟩ := @MutexState.freeMutex_before
        (state.changeProcessState state.processes.getCurrentPid .blocked) _ before
      refine ⟨outside, fun same => changed ?_⟩
      rw [← same]
      simp only [SemaphoreState.waitLocked, inside, SemaphoreState.setSemaphore_same,
        if_neg permits]
      rfl
  · intro stored outside
    have same := @SemaphoreState.waitLocked_around state.toSemaphoreState outside _ low high
      stored
    simp only [resumes]
    exact congrArg (fun done : SemaphoreState × Progress =>
      ({ state.around outside with toSemaphoreState := done.1 },
        if done.2 = .returned then Outcome.returned none else .yielded .wait)) same

end Fits

end SyncState

namespace PipeState

/-- The same pipes with another memory around the mutex table. -/
def around (state : PipeState) (outside : Outside) : PipeState :=
  { state with toMutexState := state.toMutexState.around outside }

/-- A call on a pipe touches no entry outside of the mutex table. -/
def Contained {Result : Type} (state : PipeState) (call : PipeState → PipeState × Result) :
    Prop :=
  ∀ outside, call (state.around outside) = ((call state).1.around outside, (call state).2)

section Around

variable {state : PipeState} {outside : Outside} {p : Nat} {message : List UInt8}
  {bytes garbage : Int} {aux : Nat}

@[simp] theorem around_pipe (state : PipeState) (outside : Outside) :
    (state.around outside).pipe = state.pipe := rfl

@[simp] theorem around_pipeNames (state : PipeState) (outside : Outside) :
    (state.around outside).pipeNames = state.pipeNames := rfl

@[simp] theorem around_pipes (state : PipeState) (outside : Outside) :
    (state.around outside).pipes = state.pipes := rfl

@[simp] theorem around_lastPipeName (state : PipeState) (outside : Outside) :
    (state.around outside).lastPipeName = state.lastPipeName := rfl

@[simp] theorem around_toMutexState (state : PipeState) (outside : Outside) :
    (state.around outside).toMutexState = state.toMutexState.around outside := rfl

/-- Writing the struct of a pipe leaves the memory around the table. -/
theorem setPipe_around (pipe : Pipe) :
    (state.around outside).setPipe p pipe = (state.setPipe p pipe).around outside := rfl

/-- Waking the recorded processes reads no entry of the table. -/
theorem wakeAll_around (blocked count : Nat) :
    (state.around outside).wakeAll blocked count = state.wakeAll blocked count := by
  induction count with
  | zero => rfl
  | succ count ih =>
      rw [wakeAll, wakeAll, ih]
      rfl

/-- `unlockProcesses` does not look at the mutexes. -/
theorem unlockProcesses_around (name : Option String) :
    (state.around outside).unlockProcesses name =
      (state.unlockProcesses name).around outside := by
  have leads : (state.around outside).pointee = state.pointee := rfl
  simp only [unlockProcesses, around_lastPipeName, around_pipeNames, around_pipe, leads,
    wakeAll_around]
  cases (List.range state.lastPipeName.toNat).find? fun (i : Nat) =>
      MutexState.sameName (state.pipeNames i) name <;> rfl

/-- `freeMutex` at the end of a call. -/
theorem freed_around {mutex : Int} (low : 0 ≤ mutex) (mutexes : MutexState) :
    { state.around outside with toMutexState := (mutexes.around outside).freeMutex mutex } =
      { state with toMutexState := mutexes.freeMutex mutex }.around outside := by
  rw [MutexState.freeMutex_around low]
  rfl

/-- `write` behind its lock only frees the mutex that the pipe stored. -/
theorem writeLocked_around (stored : 0 ≤ (state.pipe p).mutex) :
    (state.around outside).writeLocked p message aux =
      ((state.writeLocked p message aux).1.around outside,
        (state.writeLocked p message aux).2) := by
  simp only [writeLocked, around_pipe, setPipe_around, unlockProcesses_around]
  split
  · have freed := @freed_around state outside _ stored
      (state.changeProcessState state.processes.getCurrentPid .blocked)
    exact congrArg (fun after => (after, 0)) freed
  · let after := (state.setPipe p ((state.pipe p).append message aux).1).unlockProcesses
      (state.pipe p).name
    have freed := @freed_around after outside _ stored after.toMutexState
    exact congrArg (fun done => (done, ((state.pipe p).append message aux).2)) freed

/-- So does `read`. -/
theorem readLocked_around (stored : 0 ≤ (state.pipe p).mutex) :
    (state.around outside).readLocked p bytes aux =
      ((state.readLocked p bytes aux).1.around outside, (state.readLocked p bytes aux).2) := by
  by_cases empty : (state.pipe p).position = (state.pipe p).endPosition ∧
      (state.pipe p).readFlag = 0
  · have empty' : ((state.around outside).pipe p).position =
        ((state.around outside).pipe p).endPosition ∧
          ((state.around outside).pipe p).readFlag = 0 := empty
    simp only [readLocked, if_pos empty, if_pos empty']
    refine Prod.ext ?_ rfl
    exact @freed_around ((state.setEntry _ _ _).setPipe _ _) _ _ stored
      (state.changeProcessState state.processes.getCurrentPid .blocked)
  · have filled : ¬ (((state.around outside).pipe p).position =
        ((state.around outside).pipe p).endPosition ∧
          ((state.around outside).pipe p).readFlag = 0) := empty
    simp only [readLocked, if_neg empty, if_neg filled]
    refine Prod.ext ?_ rfl
    exact @freed_around (state.setPipe _ _) _ _ stored state.toMutexState

/-- A `write` that has to wait for the mutex of the pipe stands in `lockMutex`. -/
theorem write_of_yielded {mutexes : MutexState}
    (locked : state.lockMutex (state.pipe p).mutex garbage = (mutexes, .yielded)) :
    state.write p message garbage = ({ state with toMutexState := mutexes }, none) := by
  simp only [write, locked]

/-- A `write` that gets the mutex of the pipe goes on with `writeLocked`. -/
theorem write_of_locked {mutexes : MutexState}
    (locked : state.lockMutex (state.pipe p).mutex garbage = (mutexes, .returned)) :
    let done := PipeState.writeLocked { state with toMutexState := mutexes } p message
      (state.pipe p).endPosition
    state.write p message garbage = (done.1, some done.2) := by
  simp only [write, locked]

/-- A `read` whose `lockMutex` blocks its caller has only locked. -/
theorem read_of_yielded {mutexes : MutexState}
    (locked : state.lockMutex (state.pipe p).mutex garbage = (mutexes, .yielded)) :
    state.read p bytes garbage = ({ state with toMutexState := mutexes }, .yieldedInLock) := by
  simp only [read, locked]

/-- A `read` whose `lockMutex` returns goes on behind the lock. -/
theorem read_of_locked {mutexes : MutexState}
    (locked : state.lockMutex (state.pipe p).mutex garbage = (mutexes, .returned)) :
    state.read p bytes garbage =
      PipeState.readLocked { state with toMutexState := mutexes } p bytes
        (state.pipe p).position := by
  simp only [read, locked]

/-- A `write` stays inside the mutex table exactly if the handle that the pipe stored is not
negative. -/
theorem write_contained_iff :
    state.Contained (fun s => s.write p message garbage) ↔ 0 ≤ (state.pipe p).mutex := by
  constructor
  · intro contained
    by_contra negative
    obtain ⟨returned, yielded⟩ := @MutexState.lockMutex_progress state.toMutexState _
      (Int.not_le.mp negative) garbage
    have first := congrArg Prod.snd (contained .zeros)
    have second := congrArg Prod.snd (contained (.inUse 1 0))
    beta_reduce at first second
    rw [@write_of_locked (state.around .zeros) _ _ _ _ (Prod.ext rfl returned)] at first
    rw [@write_of_yielded (state.around (.inUse 1 0)) _ _ _ _ (Prod.ext rfl yielded)] at second
    cases first.trans second.symm
  · intro stored outside
    beta_reduce
    have locks := @MutexState.lockMutex_around state.toMutexState outside _ stored garbage
    cases locked : state.lockMutex (state.pipe p).mutex garbage with
    | mk mutexes progress =>
        rw [locked] at locks
        cases progress with
        | yielded =>
            rw [write_of_yielded locked, @write_of_yielded (state.around outside) _ _ _ _ locks]
            rfl
        | returned =>
            rw [write_of_locked locked, @write_of_locked (state.around outside) _ _ _ _ locks]
            have rest := @writeLocked_around { state with toMutexState := mutexes }
              outside p message (state.pipe p).endPosition stored
            exact congrArg (fun done : PipeState × Nat => (done.1, some done.2)) rest

/-- A `read` stays inside the mutex table exactly if the handle that the pipe stored is not
negative. -/
theorem read_contained_iff :
    state.Contained (fun s => s.read p bytes garbage) ↔ 0 ≤ (state.pipe p).mutex := by
  constructor
  · intro contained
    by_contra negative
    obtain ⟨returned, yielded⟩ := @MutexState.lockMutex_progress state.toMutexState _
      (Int.not_le.mp negative) garbage
    have first := congrArg Prod.snd (contained .zeros)
    have second := congrArg Prod.snd (contained (.inUse 1 0))
    beta_reduce at first second
    rw [@read_of_locked (state.around .zeros) _ _ _ _ (Prod.ext rfl returned)] at first
    rw [@read_of_yielded (state.around (.inUse 1 0)) _ _ _ _ (Prod.ext rfl yielded)] at second
    have same := first.trans second.symm
    simp only [readLocked] at same
    split at same <;> cases same
  · intro stored outside
    beta_reduce
    have locks := @MutexState.lockMutex_around state.toMutexState outside _ stored garbage
    cases locked : state.lockMutex (state.pipe p).mutex garbage with
    | mk mutexes progress =>
        rw [locked] at locks
        cases progress with
        | yielded =>
            rw [read_of_yielded locked, @read_of_yielded (state.around outside) _ _ _ _ locks]
            rfl
        | returned =>
            rw [read_of_locked locked, @read_of_locked (state.around outside) _ _ _ _ locks]
            have rest := @readLocked_around { state with toMutexState := mutexes }
              outside p bytes (state.pipe p).position stored
            exact rest

end Around

end PipeState

/-! ## Runs -/

namespace SyncState

variable {state : SyncState} {garbage s : Int}

/-- A `wait` that stands in `lockMutex` has found its handle in the table. -/
theorem enter_waitLocked {call : SyncCall} (inBounds : state.InBounds call)
    (yields : (state.enter garbage call).2 = .yielded (.waitLocked s)) :
    0 ≤ s ∧ s < MAX_SEMAPHORES := by
  cases call with
  | wait semaphore =>
      rw [enter_wait] at yields
      cases progress : (state.wait semaphore garbage).2 with
      | yieldedInLock =>
          rw [progress] at yields
          obtain rfl := Pending.waitLocked.inj (Outcome.yielded.inj yields)
          refine ⟨inBounds.1,
            @SemaphoreState.lt_of_isValidSemaphore state.toSemaphoreState _ ?_⟩
          by_contra invalid
          rw [Bool.not_eq_true] at invalid
          simp only [SemaphoreState.wait, invalid, if_true] at progress
          cases progress
      | returned | yielded =>
          rw [progress] at yields
          cases yields
  | lockMutex mutex =>
      rw [enter_lockMutex] at yields
      dsimp only at yields
      split at yields <;> cases yields
  | getMutex mutexName =>
      simp only [enter] at yields
      split at yields <;> cases yields
  | semCreate name start =>
      simp only [enter, semCreate, semCreateLocked, semCreateReturn] at yields
      split at yields
      · split at yields
        · cases yields
        · split at yields <;> cases yields
      · cases yields
  | freeMutex | closeMutex | signal | semClose => cases yields

/-- The rest of a call does not stand in the `lockMutex` of a `wait` again. -/
theorem resume_ne_waitLocked (pending : Pending) :
    (state.resume garbage pending).2 ≠ .yielded (.waitLocked s) := by
  intro yields
  cases pending with
  | semCreate name start =>
      simp only [resume, semCreateLocked, semCreateReturn] at yields
      split at yields
      · cases yields
      · split at yields <;> cases yields
  | waitLocked semaphore =>
      simp only [resume] at yields
      split at yields <;> cases yields
  | lockMutex | getMutex | createSemaphore | wait => cases yields

end SyncState

namespace IpcState

variable {state after : IpcState} {garbage s : Int} {outcome : IpcOutcome}

/-- A call that goes on does not end up in the `lockMutex` of a `wait`. -/
theorem resume_ne_waitLocked {pending : IpcPending}
    (resumed : state.resume garbage pending = some (after, outcome)) :
    outcome ≠ .yielded (.sync (.waitLocked s)) := by
  rintro rfl
  cases pending with
  | sync pending =>
      have never := @SyncState.resume_ne_waitLocked state.sync garbage s pending
      simp only [resume] at resumed
      split at resumed
      · split at resumed
        · cases resumed
        · rename_i result
          obtain ⟨-, same⟩ := Prod.mk.inj (Option.some.inj resumed)
          obtain rfl := IpcPending.sync.inj (IpcOutcome.yielded.inj same)
          exact never (by rw [result])
      · cases resumed
  | createPipe name =>
      obtain ⟨⟨table, progress⟩, -, result⟩ := Option.map_eq_some_iff.mp resumed
      cases progress <;> cases (Prod.mk.inj result).2
  | createPipeMutex name pipe =>
      obtain ⟨⟨table, made⟩, -, result⟩ := Option.map_eq_some_iff.mp resumed
      cases (Prod.mk.inj result).2
  | openPipe name => cases (Prod.mk.inj (Option.some.inj resumed)).2
  | write p message aux =>
      have same := (Prod.mk.inj (Option.some.inj resumed)).2
      split at same <;> cases same
  | read p bytes aux =>
      simp only [resume, readRest] at resumed
      split at resumed <;> cases resumed

/-- A `wait` that stands in `lockMutex` has found its handle in the table. -/
theorem enter_waitLocked {call : IpcCall}
    (entered : state.enter garbage call = some (after, .yielded (.sync (.waitLocked s)))) :
    0 ≤ s ∧ s < MAX_SEMAPHORES := by
  have locks : ∀ {mutex rest}, rest ≠ .sync (.waitLocked s) →
      state.lockThen mutex garbage rest ≠
        some (after, .yielded (.sync (.waitLocked s))) := by
    intro mutex rest other locked
    rcases lockThen_cases locked with ⟨-, -, -, same⟩ | ⟨mutexes, -, resumed⟩
    · exact other (IpcOutcome.yielded.inj same).symm
    · exact resume_ne_waitLocked resumed rfl
  cases call with
  | sync call =>
      simp only [enter] at entered
      split at entered
      · rename_i inBounds
        split at entered
        · cases entered
        · rename_i result
          obtain ⟨-, same⟩ := Prod.mk.inj (Option.some.inj entered)
          obtain rfl := IpcPending.sync.inj (IpcOutcome.yielded.inj same)
          exact SyncState.enter_waitLocked inBounds (by rw [result])
      · cases entered
  | closePipe p =>
      obtain ⟨table, -, result⟩ := Option.map_eq_some_iff.mp entered
      cases (Prod.mk.inj result).2
  | createPipe | openPipe | write | read => exact absurd entered (locks (by simp))

end IpcState

namespace IpcRun

/-- A `wait` stands in the `lockMutex` of a semaphore of the table only. -/
def WaitsInside (state : IpcRun) : Prop :=
  ∀ pid s, state.pending pid = some (.sync (.waitLocked s)) → 0 ≤ s ∧ s < MAX_SEMAPHORES

/-- A step keeps the `wait` calls under way on semaphores of the table. -/
theorem waitsInside_step (state : IpcRun) (action : IpcAction) (next : IpcRun)
    (waits : state.WaitsInside) (stepped : state.step action = some next) : next.WaitsInside := by
  refine @step_rule _ WaitsInside _ _ _ stepped waits (fun _ => id) ?_ ?_ ?_ ?_
  · intro mid after target held switched
    obtain ⟨processes, -, rfl⟩ := Option.map_eq_some_iff.mp switched
    exact held
  · intro kernel outcome performed pid s stood
    simp only [settle, Function.update_apply] at stood
    split at stood
    · cases outcome with
      | yielded pending =>
          obtain rfl := Option.some.inj stood
          cases action with
          | call call garbage target =>
              simp only [perform] at performed
              split at performed
              · exact IpcState.enter_waitLocked performed
              · cases performed
          | resume garbage target =>
              simp only [perform] at performed
              split at performed
              · obtain ⟨pending, -, resumed⟩ := Option.bind_eq_some_iff.mp performed
                exact absurd rfl (IpcState.resume_ne_waitLocked resumed)
              · cases performed
          | timerTick | createProcess | removeProcess => cases performed
      | returned | created | closed | full | empty => cases stood
    · exact waits pid s stood
  · intro pid owner _
    exact waits
  · exact fun pid => ⟨waits, fun _ => waits⟩

/-- What is to hold in a state of the calls with a handle, of those that use a stored one, and of
what is left of them behind their `lockMutex`: they stay inside the tables exactly if no handle in
question is negative. -/
structure HandlesFit (state : IpcRun) : Prop where
  call : ∀ garbage call h, SyncCall.handle call = some h →
    (state.kernel.sync.Fits garbage call ↔ state.kernel.sync.NotNegative call)
  waits : ∀ garbage pid s, state.pending pid = some (.sync (.waitLocked s)) →
    (state.kernel.sync.Contained (fun kernel => kernel.resume garbage (.waitLocked s)) ↔
      0 ≤ (state.kernel.semaphores s).mutex)
  write : ∀ garbage p message,
    state.kernel.toPipeState.Contained (fun pipes => pipes.write p message garbage) ↔
      0 ≤ (state.kernel.pipe p).mutex
  read : ∀ garbage p bytes,
    state.kernel.toPipeState.Contained (fun pipes => pipes.read p bytes garbage) ↔
      0 ≤ (state.kernel.pipe p).mutex
  writes : ∀ p message aux, 0 ≤ (state.kernel.pipe p).mutex →
    state.kernel.toPipeState.Contained (fun pipes => pipes.writeLocked p message aux)
  reads : ∀ p bytes aux, 0 ≤ (state.kernel.pipe p).mutex →
    state.kernel.toPipeState.Contained (fun pipes => pipes.readLocked p bytes aux)

/-- In every state reached from boot, a call with a handle stays inside the tables, and does
nothing without an entry in use, exactly if the handle is not negative and no negative one is
stored in the semaphore or pipe it uses. -/
theorem handles_fit_iff (init shell : PipeOwner) (actions : List IpcAction) (final : IpcRun)
    (ran : run step (boot init shell) actions = some final) : final.HandlesFit := by
  have begins : (boot init shell).WaitsInside := fun _ _ stood => by cases stood
  have waits : final.WaitsInside := run_invariant waitsInside_step begins ran
  refine ⟨fun _ _ _ given => SyncState.fits_iff given, fun garbage pid s stood => ?_,
    fun _ _ _ => PipeState.write_contained_iff, fun _ _ _ => PipeState.read_contained_iff,
    fun _ _ _ stored _ => PipeState.writeLocked_around stored,
    fun _ _ _ stored _ => PipeState.readLocked_around stored⟩
  obtain ⟨low, high⟩ := waits pid s stood
  exact SyncState.rest_contained_iff low high

/-- A semaphore and its mutex, and a pipe, from the boot on. -/
theorem handles_fit_created : ∃ final,
    run step (boot (ownerAt 0 10) (ownerAt 1 11))
      [.timerTick 1, .call (.sync (.semCreate (some "a") 1)) 0 0,
        .call (.createPipe (some "b")) 0 0] = some final ∧ final.HandlesFit := by
  have result : (run step (boot (ownerAt 0 10) (ownerAt 1 11))
      [.timerTick 1, .call (.sync (.semCreate (some "a") 1)) 0 0,
        .call (.createPipe (some "b")) 0 0]).isSome = true := by
    decide +kernel
  obtain ⟨final, ran⟩ := Option.isSome_iff_exists.mp result
  exact ⟨final, ran, handles_fit_iff _ _ _ final ran⟩

/-- `semOpen` returns `ERROR` for a name that nobody created, and a `wait` with that handle reads
and writes in front of the table. -/
theorem error_handle_leaves_table :
    (boot (ownerAt 0 10) (ownerAt 1 11)).kernel.sync.semOpen (some "a") = ERROR ∧
      ¬ (boot (ownerAt 0 10) (ownerAt 1 11)).kernel.sync.Fits 0 (.wait ERROR) := by
  refine ⟨by decide +kernel, fun fits => ?_⟩
  have notNegative := @SyncState.notNegative_of_contained _ _ (.wait ERROR) _ rfl fits.contained
  exact absurd notNegative.1 (by decide)

end IpcRun

end SistemasOperativos.Kernel
