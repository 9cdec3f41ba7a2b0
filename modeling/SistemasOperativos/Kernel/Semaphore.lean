import SistemasOperativos.Kernel.Mutex

/-!
# Semaphores

The semaphore table of semaphores.c. Each semaphore keeps its waiting
processes in a `WaitQueue` and names a mutex that `wait` locks around its
update; `signal` does not lock it. A `wait` may stand at two `_yield`s: the one
in `lockMutex`, from which `waitLocked` goes on, and its own last one.
-/

namespace SistemasOperativos.Kernel

/-- Entries of the semaphore table. -/
def MAX_SEMAPHORES : Nat := MAX_MUTEXES / 2

def SEMAPHORE_NOT_FOUND : Int := -1

/-- An entry of the semaphore table. -/
structure Semaphore extends WaitQueue where
  used : Bool
  name : Option String
  semaphore : Int
  mutex : Int
  pidCreator : Int
  deriving DecidableEq

/-- Both tables and the processes. -/
structure SemaphoreState extends MutexState where
  semaphores : Int → Semaphore

namespace SemaphoreState

/-- Replace an entry of the table. -/
def setSemaphore (state : SemaphoreState) (index : Int) (sem : Semaphore) : SemaphoreState :=
  { state with semaphores := Function.update state.semaphores index sem }

def isValidSemaphore (state : SemaphoreState) (index : Int) : Bool :=
  if (MAX_SEMAPHORES : Int) ≤ index then false else (state.semaphores index).used

def addToSemBlocked (state : SemaphoreState) (i pid : Int) : SemaphoreState :=
  let sem := state.semaphores i
  state.setSemaphore i { sem with toWaitQueue := sem.toWaitQueue.addToBlocked pid }

/-- `wait` from the return of `lockMutex(sem->mutex)` on. -/
def waitLocked (state : SemaphoreState) (semaphore : Int) : SemaphoreState × Progress :=
  let sem := state.semaphores semaphore
  let state := state.setSemaphore semaphore { sem with semaphore := toInt32 (sem.semaphore - 1) }
  if 0 ≤ (state.semaphores semaphore).semaphore then
    ({ state with toMutexState := state.freeMutex sem.mutex }, .returned)
  else
    let pid := state.processes.getCurrentPid
    let state := state.addToSemBlocked semaphore pid
    let mutexes := (state.changeProcessState pid .blocked).freeMutex sem.mutex
    ({ state with toMutexState := mutexes }, .yielded)

/-- Where a call of `wait` got to. -/
inductive WaitProgress where
  | returned
  | yieldedInLock
  | yielded
  deriving DecidableEq, Repr

/-- `wait`, to its end or to its first `_yield`. -/
def wait (state : SemaphoreState) (semaphore garbage : Int) : SemaphoreState × WaitProgress :=
  if state.isValidSemaphore semaphore = false then (state, .returned)
  else
    match state.lockMutex (state.semaphores semaphore).mutex garbage with
    | (mutexes, .yielded) => ({ state with toMutexState := mutexes }, .yieldedInLock)
    | (mutexes, .returned) =>
        match waitLocked { state with toMutexState := mutexes } semaphore with
        | (state, .returned) => (state, .returned)
        | (state, .yielded) => (state, .yielded)

def unblockProcessSemaphore (state : SemaphoreState) (sem : Int) : SemaphoreState :=
  let s := state.semaphores sem
  let (processes, waiters) := s.toWaitQueue.unblockProcess state.processes
  { state with processes }.setSemaphore sem { s with toWaitQueue := waiters }

def signal (state : SemaphoreState) (semaphore : Int) : SemaphoreState :=
  if state.isValidSemaphore semaphore = false then state
  else
    let state :=
      if 0 < (state.semaphores semaphore).cardinalBlocked then
        let woken := state.unblockProcessSemaphore semaphore
        let sem := woken.semaphores semaphore
        woken.setSemaphore semaphore { sem with cardinalBlocked := sem.cardinalBlocked - 1 }
      else state
    let sem := state.semaphores semaphore
    state.setSemaphore semaphore { sem with semaphore := toInt32 (sem.semaphore + 1) }

/-! ## Administration of the table -/

def cleanSemaphore (state : SemaphoreState) (i : Int) : SemaphoreState :=
  state.setSemaphore i
    { state.semaphores i with
      toWaitQueue := WaitQueue.empty, used := false, semaphore := 0 }

def getSemIndex (state : SemaphoreState) (semName : Option String) : Int :=
  match (List.range MAX_SEMAPHORES).find? fun (i : Nat) =>
      MutexState.sameName (state.semaphores i).name semName && (state.semaphores i).used with
  | some i => i
  | none => SEMAPHORE_NOT_FOUND

def semOpen (state : SemaphoreState) (name : Option String) : Int :=
  let index := state.getSemIndex name
  if index = MUTEX_NOT_FOUND then ERROR else index

def semClose (state : SemaphoreState) (index : Int) : SemaphoreState :=
  if state.isValidSemaphore index = false then state
  else
    let pid := state.processes.getCurrentPid
    if pid = (state.semaphores index).pidCreator then
      state.setSemaphore index { state.semaphores index with used := false }
    else state

def getFreePositionSemaphores (state : SemaphoreState) : Int :=
  match (List.range MAX_SEMAPHORES).find? fun (i : Nat) => (state.semaphores i).used == false with
  | some i => i
  | none => NO_SPACE_LEFT_M

/-- `createSemaphore` from the return of `getMutex` on: the fields of the slot
that hold waiting processes are left as they are. -/
def createSemaphoreLocked (state : SemaphoreState) (pid index start mutex : Int) :
    SemaphoreState :=
  state.setSemaphore index
    { state.semaphores index with mutex := mutex, semaphore := start, pidCreator := pid }

/-- `createSemaphore`; `none` when the caller has to wait in `getMutex`. -/
def createSemaphore (state : SemaphoreState) (semName : Option String) (start garbage : Int) :
    SemaphoreState × Option Int :=
  let pid := state.processes.getCurrentPid
  let index := state.getFreePositionSemaphores
  if index = NO_SPACE_LEFT_M then (state, some ERROR)
  else
    let state := state.setSemaphore index
      { state.semaphores index with used := true, name := semName }
    match state.getMutex semName garbage with
    | (mutexes, none) => ({ state with toMutexState := mutexes }, none)
    | (mutexes, some mutex) =>
        (createSemaphoreLocked { state with toMutexState := mutexes } pid index start mutex,
          some index)

/-! ## Effect of the operations -/

@[simp] theorem setSemaphore_toMutexState (state : SemaphoreState) (index : Int)
    (sem : Semaphore) : (state.setSemaphore index sem).toMutexState = state.toMutexState := rfl

@[simp] theorem setSemaphore_same (state : SemaphoreState) (index : Int) (sem : Semaphore) :
    (state.setSemaphore index sem).semaphores index = sem := by
  simp [setSemaphore]

theorem setSemaphore_ne {index other : Int} (different : other ≠ index) (state : SemaphoreState)
    (sem : Semaphore) :
    (state.setSemaphore index sem).semaphores other = state.semaphores other := by
  simp [setSemaphore, Function.update_of_ne different]

/-- A handle stays valid when `used` of its entry does not change. -/
theorem isValidSemaphore_congr {state other : SemaphoreState} {semaphore : Int}
    (used : (other.semaphores semaphore).used = (state.semaphores semaphore).used) :
    other.isValidSemaphore semaphore = state.isValidSemaphore semaphore := by
  simp [isValidSemaphore, used]

/-- A valid handle is in the table. -/
theorem lt_of_isValidSemaphore {state : SemaphoreState} {s : Int}
    (valid : state.isValidSemaphore s = true) : s < MAX_SEMAPHORES := by
  by_contra outside
  rw [isValidSemaphore, if_pos (by omega)] at valid
  cases valid

theorem getFreePositionSemaphores_spec (state : SemaphoreState) :
    state.getFreePositionSemaphores = NO_SPACE_LEFT_M ∨
      0 ≤ state.getFreePositionSemaphores ∧
        state.getFreePositionSemaphores < MAX_SEMAPHORES := by
  unfold getFreePositionSemaphores
  split
  · rename_i i found
    have bound := List.mem_range.mp (List.mem_of_find?_eq_some found)
    right
    omega
  · left
    rfl

/-- A free entry that is found is not in use. -/
theorem getFreePositionSemaphores_unused {state : SemaphoreState}
    (space : state.getFreePositionSemaphores ≠ NO_SPACE_LEFT_M) :
    (state.semaphores state.getFreePositionSemaphores).used = false := by
  have noSpace : ¬ (List.range MAX_SEMAPHORES).find? (fun (i : Nat) =>
      (state.semaphores i).used == false) = none := fun missing =>
    space (by simp only [getFreePositionSemaphores, missing])
  simp only [getFreePositionSemaphores]
  split
  · rename_i i found
    simpa using List.find?_some found
  · rename_i missing
    exact absurd missing noSpace

/-- The handle `createSemaphore` returns is valid and has the start value. -/
theorem createSemaphore_spec {before state : SemaphoreState} {semName : Option String}
    {start garbage s : Int}
    (created : before.createSemaphore semName start garbage = (state, some s))
    (handle : 0 ≤ s) :
    state.isValidSemaphore s = true ∧ (state.semaphores s).semaphore = start := by
  simp only [createSemaphore] at created
  split at created
  · obtain ⟨-, error⟩ := Prod.mk.inj created
    obtain rfl := Option.some.inj error
    simp [ERROR] at handle
  · rename_i space
    split at created
    · cases (Prod.mk.inj created).2
    · obtain ⟨result, index⟩ := Prod.mk.inj created
      obtain rfl := Option.some.inj index
      obtain ⟨-, bound⟩ := (getFreePositionSemaphores_spec before).resolve_left space
      rw [← result]
      simp [createSemaphoreLocked, isValidSemaphore, bound]

section Wait

variable {state : SemaphoreState} {semaphore : Int}
  (valid : state.isValidSemaphore semaphore = true)
  (uncontended : state.Uncontended (state.semaphores semaphore).mutex)

include valid uncontended

/-- A `wait` that leaves the count at zero or above goes on. -/
theorem wait_proceeds (permits : 0 ≤ toInt32 ((state.semaphores semaphore).semaphore - 1))
    (garbage : Int) :
    state.wait semaphore garbage =
      (state.setSemaphore semaphore { state.semaphores semaphore with
        semaphore := toInt32 ((state.semaphores semaphore).semaphore - 1) }, .returned) := by
  obtain ⟨mutexes, locked, freed⟩ := MutexState.lockMutex_uncontended uncontended garbage
  simp only [wait, valid, locked, waitLocked, Bool.true_eq_false, if_false,
    setSemaphore_same, if_pos permits, setSemaphore_toMutexState, freed]
  simp [setSemaphore]

/-- A `wait` that makes the count negative queues its caller, as far as there is
a slot, and blocks it. -/
theorem wait_blocks (taken : ¬ 0 ≤ toInt32 ((state.semaphores semaphore).semaphore - 1))
    (garbage : Int) :
    state.wait semaphore garbage =
      ({ state.setSemaphore semaphore { state.semaphores semaphore with
          toWaitQueue := (state.semaphores semaphore).toWaitQueue.addToBlocked
            state.processes.current
          semaphore := toInt32 ((state.semaphores semaphore).semaphore - 1) } with
        processes := state.processes.changeProcessState state.processes.current .blocked },
        .yielded) := by
  obtain ⟨mutexes, locked, freed⟩ := MutexState.lockMutex_uncontended uncontended garbage
  simp only [wait, valid, locked, waitLocked, Bool.true_eq_false, if_false,
    setSemaphore_same, if_neg taken, addToSemBlocked, setSemaphore_toMutexState,
    MutexState.changeProcessState, ProcessTable.getCurrentPid, freed]
  simp [setSemaphore]

end Wait

/-- `signal` without waiting processes raises the count. -/
theorem signal_counts {state : SemaphoreState} {semaphore : Int}
    (valid : state.isValidSemaphore semaphore = true)
    (nobody : ¬ 0 < (state.semaphores semaphore).cardinalBlocked) :
    state.signal semaphore =
      state.setSemaphore semaphore { state.semaphores semaphore with
        semaphore := toInt32 ((state.semaphores semaphore).semaphore + 1) } := by
  simp [signal, valid, nobody]

/-- `signal` with waiting processes wakes the first one and raises the count. -/
theorem signal_wakes {state : SemaphoreState} {semaphore pid : Int} {rest : List Int}
    (valid : state.isValidSemaphore semaphore = true)
    (waiting : 0 < (state.semaphores semaphore).cardinalBlocked)
    (entries : (state.semaphores semaphore).entries = pid :: rest) :
    ∃ waiters, state.signal semaphore =
        { state.setSemaphore semaphore { state.semaphores semaphore with
            toWaitQueue := waiters
            semaphore := toInt32 ((state.semaphores semaphore).semaphore + 1) } with
          processes := state.processes.changeProcessState pid .ready } ∧
      waiters.entries = rest ∧
      waiters.cardinalBlocked = (state.semaphores semaphore).cardinalBlocked - 1 := by
  obtain ⟨woken, left, count⟩ := WaitQueue.unblockProcess_eq entries state.processes
  refine ⟨⟨((state.semaphores semaphore).toWaitQueue.unblockProcess state.processes).2.queue,
    (state.semaphores semaphore).cardinalBlocked - 1⟩, ?_, left, rfl⟩
  simp [signal, valid, waiting, unblockProcessSemaphore, setSemaphore, woken, count]

/-- `signal` writes the entry of its handle only. -/
theorem signal_ne {semaphore other : Int} (different : other ≠ semaphore)
    (state : SemaphoreState) :
    (state.signal semaphore).semaphores other = state.semaphores other := by
  simp only [signal]
  split
  · rfl
  · split <;> simp [unblockProcessSemaphore, setSemaphore_ne different]

/-- `signal` does nothing to the mutexes. -/
@[simp] theorem signal_mutexes (state : SemaphoreState) (semaphore : Int) :
    (state.signal semaphore).mutexes = state.mutexes := by
  simp only [signal]
  split
  · rfl
  · split <;> rfl

/-- `signal` wakes nobody and leaves the queues, or takes the first pid out of its queue
and makes it READY. -/
theorem signal_cases (state : SemaphoreState) (semaphore : Int) :
    (state.signal semaphore).processes = state.processes ∧
        (∀ other, ((state.signal semaphore).semaphores other).entries =
          (state.semaphores other).entries) ∨
      ∃ pid rest, (state.semaphores semaphore).entries = pid :: rest ∧
        ((state.signal semaphore).semaphores semaphore).entries = rest ∧
        (state.signal semaphore).processes = state.processes.changeProcessState pid .ready := by
  have others : ∀ other, other ≠ semaphore →
      ((state.signal semaphore).semaphores other).entries = (state.semaphores other).entries :=
    fun other different => by rw [signal_ne different]
  cases valid : state.isValidSemaphore semaphore with
  | false =>
      have same : state.signal semaphore = state := by simp [signal, valid]
      exact .inl ⟨by rw [same], fun other => by rw [same]⟩
  | true =>
      by_cases waiting : 0 < (state.semaphores semaphore).cardinalBlocked
      · cases entries : (state.semaphores semaphore).entries with
        | nil =>
            have nobody := WaitQueue.unblockProcess_nil entries state.processes
            refine .inl ⟨?_, fun other => ?_⟩
            · simp [signal, valid, waiting, unblockProcessSemaphore, nobody]
            · by_cases here : other = semaphore
              · subst here
                simp [signal, valid, waiting, unblockProcessSemaphore, nobody, WaitQueue.entries]
              · exact others other here
        | cons pid rest =>
            obtain ⟨waiters, woken, left, -⟩ := signal_wakes valid waiting entries
            refine .inr ⟨pid, rest, rfl, ?_, by rw [woken]⟩
            rw [woken]
            simpa using left
      · refine .inl ⟨by rw [signal_counts valid waiting]; rfl, fun other => ?_⟩
        by_cases here : other = semaphore
        · subst here
          rw [signal_counts valid waiting, setSemaphore_same]
        · exact others other here

end SemaphoreState

end SistemasOperativos.Kernel
