import SistemasOperativos.Kernel.WaitQueue

/-!
# Mutexes

The mutex table of mutex.c. A call that blocks ends, for the caller, at its
`_yield`; `Progress` says whether a call got to its end or stands there. The
console messages are left out, and so are the fields `usingPids` and
`cardinalUsing`, which no function reads.
-/

namespace SistemasOperativos.Kernel

/-- Entries of the mutex table. -/
def MAX_MUTEXES : Nat := 100

def MUTEX_NOT_FOUND : Int := -1

def ERROR : Int := -4

/-- The result of `_testAndSet` that means the lock was taken. -/
def ACQUIRED : Int := 1

/-- An entry of the mutex table. `name` is `none` for the NULL pointer. -/
structure Mutex extends WaitQueue where
  used : Bool
  name : Option String
  mutex : Int
  pidCreator : Int
  deriving DecidableEq

/-- The mutex table and the processes. The code indexes the table with any
`int`; what it finds outside of it is arbitrary. -/
structure MutexState where
  processes : ProcessTable
  mutexes : Int → Mutex

/-- Whether a call returned or its caller stands at the `_yield` in it. -/
inductive Progress where
  | returned
  | yielded
  deriving DecidableEq, Repr

/-- `_testAndSet` of lock.asm on `&mutex`: `cmpxchg8b` compares eight bytes, the
field `mutex` and the field `cardinalBlocked` behind it, with zero, and writes
one and zero when they are. -/
def testAndSet (m : Mutex) : Mutex × Int :=
  if m.mutex = 0 ∧ m.cardinalBlocked = 0 then
    ({ m with mutex := 1, cardinalBlocked := 0 }, ACQUIRED)
  else (m, 0)

/-- The condition under which `_testAndSet` does not take the mutex. -/
def Busy (m : Mutex) : Prop := m.mutex ≠ 0 ∨ m.cardinalBlocked ≠ 0

instance (m : Mutex) : Decidable (Busy m) := inferInstanceAs (Decidable (_ ∨ _))

/-- `_testAndSet` leaves a locked mutex and returns 0. -/
theorem testAndSet_busy {m : Mutex} (busy : Busy m) : testAndSet m = (m, 0) := by
  unfold testAndSet
  rw [if_neg]
  rintro ⟨unlocked, nobody⟩
  rcases busy with locked | waiting
  · exact locked unlocked
  · exact waiting nobody

namespace MutexState

/-- Replace an entry of the table. -/
def setMutex (state : MutexState) (index : Int) (m : Mutex) : MutexState :=
  { state with mutexes := Function.update state.mutexes index m }

/-- `changeProcessState` on the processes of the state. -/
def changeProcessState (state : MutexState) (pid : Int) (processState : ProcessState) :
    MutexState :=
  { state with processes := state.processes.changeProcessState pid processState }

def isValidMutex (state : MutexState) (mutex : Int) : Bool :=
  if (MAX_MUTEXES : Int) ≤ mutex then false else (state.mutexes mutex).used

def isQueueFull (state : MutexState) (mutex : Int) : Bool :=
  (state.mutexes mutex).isQueueFull

def addToBlocked (state : MutexState) (mutex pid : Int) : MutexState :=
  let m := state.mutexes mutex
  state.setMutex mutex { m with toWaitQueue := m.toWaitQueue.addToBlocked pid }

/-- `lockMutex`. `garbage` is what the local variable `pid` holds when the queue
is full: it is passed to `changeProcessState` without having been assigned. -/
def lockMutex (state : MutexState) (mutex garbage : Int) : MutexState × Progress :=
  if state.isValidMutex mutex = false then (state, .returned)
  else
    let (m, lock) := testAndSet (state.mutexes mutex)
    let state := state.setMutex mutex m
    if lock = ACQUIRED then (state, .returned)
    else if state.isQueueFull mutex then
      (state.changeProcessState garbage .blocked, .yielded)
    else
      let pid := state.processes.getCurrentPid
      ((state.addToBlocked mutex pid).changeProcessState pid .blocked, .yielded)

def unblockProcess (state : MutexState) (mutex : Int) : MutexState :=
  let m := state.mutexes mutex
  let (processes, waiters) := m.toWaitQueue.unblockProcess state.processes
  { state with processes }.setMutex mutex { m with toWaitQueue := waiters }

def freeMutex (state : MutexState) (mutex : Int) : MutexState :=
  if state.isValidMutex mutex = false then state
  else if 0 < (state.mutexes mutex).cardinalBlocked then
    let woken := state.unblockProcess mutex
    let m := woken.mutexes mutex
    woken.setMutex mutex { m with cardinalBlocked := m.cardinalBlocked - 1 }
  else state.setMutex mutex { state.mutexes mutex with mutex := 0 }

/-! ## Administration of the table -/

/-- `strcmp(a, b) == 0`, where a NULL name equals no name. -/
def sameName : Option String → Option String → Bool
  | some a, some b => a == b
  | _, _ => false

/-- Names that are the same are equal. -/
theorem eq_of_sameName {a b : Option String} (same : sameName a b = true) : a = b := by
  cases a with
  | none => simp [sameName] at same
  | some text =>
      cases b with
      | none => simp [sameName] at same
      | some word => simpa [sameName] using same

/-- `cleanMutex`. -/
def cleanMutex (state : MutexState) (index : Int) : MutexState :=
  if (MAX_MUTEXES : Int) ≤ index then state
  else
    state.setMutex index
      { state.mutexes index with
        toWaitQueue := WaitQueue.empty, used := false, name := none, mutex := 0 }

/-- The handle of the mutex that guards the table. -/
def adminMutex : Int := 0

def initializeMutexes (state : MutexState) : MutexState :=
  let state := (List.range MAX_MUTEXES).foldl (fun state (i : Nat) => state.cleanMutex i) state
  state.setMutex adminMutex { state.mutexes adminMutex with used := true }

def getIndex (state : MutexState) (mutexName : Option String) : Int :=
  match (List.range MAX_MUTEXES).find? fun (i : Nat) =>
      sameName (state.mutexes i).name mutexName && (state.mutexes i).used with
  | some i => i
  | none => MUTEX_NOT_FOUND

def getFreeSpot (state : MutexState) : Int :=
  match (List.range MAX_MUTEXES).find? fun (i : Nat) => (state.mutexes i).used == false with
  | some i => i
  | none => NO_SPACE_LEFT_M

/-- `createMutex`: only `used`, `name` and `pidCreator` of the slot are written. -/
def createMutex (state : MutexState) (mutexName : Option String) : MutexState × Int :=
  let pid := state.processes.getCurrentPid
  let index := state.getFreeSpot
  if index = NO_SPACE_LEFT_M then (state, ERROR)
  else
    (state.setMutex index
      { state.mutexes index with used := true, name := mutexName, pidCreator := pid }, index)

/-- `getMutex` from the return of `lockMutex(adminMutex)` on. -/
def getMutexLocked (state : MutexState) (mutexName : Option String) : MutexState × Int :=
  let index := state.getIndex mutexName
  let (state, index) :=
    if index = MUTEX_NOT_FOUND then state.createMutex mutexName else (state, index)
  (state.freeMutex adminMutex, index)

/-- `getMutex`; `none` when the caller has to wait for the table. -/
def getMutex (state : MutexState) (mutexName : Option String) (garbage : Int) :
    MutexState × Option Int :=
  match state.lockMutex adminMutex garbage with
  | (state, .returned) =>
      let (state, index) := state.getMutexLocked mutexName
      (state, some index)
  | (state, .yielded) => (state, none)

def closeMutex (state : MutexState) (index : Int) : MutexState :=
  if state.isValidMutex index = false then state
  else
    let pid := state.processes.getCurrentPid
    if pid = (state.mutexes index).pidCreator then
      state.setMutex index { state.mutexes index with used := false }
    else state

/-! ## Effect of the operations on an entry -/

@[simp] theorem setMutex_processes (state : MutexState) (index : Int) (m : Mutex) :
    (state.setMutex index m).processes = state.processes := rfl

/-- The entry that was stored is read back. -/
@[simp] theorem setMutex_same (state : MutexState) (index : Int) (m : Mutex) :
    (state.setMutex index m).mutexes index = m := by
  simp [setMutex]

/-- Storing an entry leaves the others. -/
theorem setMutex_ne {index other : Int} (different : other ≠ index) (state : MutexState)
    (m : Mutex) : (state.setMutex index m).mutexes other = state.mutexes other := by
  simp [setMutex, Function.update_of_ne different]

@[simp] theorem addToBlocked_processes (state : MutexState) (mutex pid : Int) :
    (state.addToBlocked mutex pid).processes = state.processes := rfl

@[simp] theorem changeProcessState_mutexes (state : MutexState) (pid : Int)
    (processState : ProcessState) :
    (state.changeProcessState pid processState).mutexes = state.mutexes := rfl

@[simp] theorem changeProcessState_processes (state : MutexState) (pid : Int)
    (processState : ProcessState) :
    (state.changeProcessState pid processState).processes =
      state.processes.changeProcessState pid processState := rfl

/-- A handle stays valid when `used` of its entry does not change. -/
theorem isValidMutex_congr {state other : MutexState} {mutex : Int}
    (used : (other.mutexes mutex).used = (state.mutexes mutex).used) :
    other.isValidMutex mutex = state.isValidMutex mutex := by
  simp [isValidMutex, used]

/-- A free mutex nobody waits for is taken. -/
theorem lockMutex_acquires {state : MutexState} {mutex : Int}
    (valid : state.isValidMutex mutex = true) (unlocked : (state.mutexes mutex).mutex = 0)
    (nobody : (state.mutexes mutex).cardinalBlocked = 0) (garbage : Int) :
    state.lockMutex mutex garbage =
      (state.setMutex mutex
        { state.mutexes mutex with mutex := 1, cardinalBlocked := 0 }, .returned) := by
  simp [lockMutex, valid, testAndSet, unlocked, nobody]

/-- The caller of a busy mutex with a free slot is queued and blocked. -/
theorem lockMutex_queues {state : MutexState} {mutex : Int}
    (valid : state.isValidMutex mutex = true) (busy : Busy (state.mutexes mutex))
    (notFull : state.isQueueFull mutex = false) (garbage : Int) :
    state.lockMutex mutex garbage =
      ((state.addToBlocked mutex state.processes.current).changeProcessState
        state.processes.current .blocked, .yielded) := by
  have same : state.setMutex mutex (state.mutexes mutex) = state := by
    simp [setMutex]
  simp [lockMutex, valid, testAndSet_busy busy, same, notFull, ACQUIRED,
    ProcessTable.getCurrentPid]

/-- The caller of a busy mutex without a free slot is not recorded, and another
process than the caller may get blocked. -/
theorem lockMutex_full {state : MutexState} {mutex : Int}
    (valid : state.isValidMutex mutex = true) (busy : Busy (state.mutexes mutex))
    (full : state.isQueueFull mutex = true) (garbage : Int) :
    state.lockMutex mutex garbage = (state.changeProcessState garbage .blocked, .yielded) := by
  have same : state.setMutex mutex (state.mutexes mutex) = state := by
    simp [setMutex]
  simp [lockMutex, valid, testAndSet_busy busy, same, full, ACQUIRED]

/-- `freeMutex` without waiting processes opens the mutex. -/
theorem freeMutex_opens {state : MutexState} {mutex : Int}
    (valid : state.isValidMutex mutex = true)
    (nobody : ¬ 0 < (state.mutexes mutex).cardinalBlocked) :
    state.freeMutex mutex =
      state.setMutex mutex { state.mutexes mutex with mutex := 0 } := by
  simp [freeMutex, valid, nobody]

/-- `freeMutex` with waiting processes wakes the first one and leaves the mutex locked. -/
theorem freeMutex_hands_over {state : MutexState} {mutex pid : Int} {rest : List Int}
    (valid : state.isValidMutex mutex = true)
    (waiting : 0 < (state.mutexes mutex).cardinalBlocked)
    (entries : (state.mutexes mutex).entries = pid :: rest) :
    ∃ m, state.freeMutex mutex =
        (state.changeProcessState pid .ready).setMutex mutex m ∧
      m.entries = rest ∧ m.mutex = (state.mutexes mutex).mutex ∧
      m.used = (state.mutexes mutex).used ∧
      m.cardinalBlocked = (state.mutexes mutex).cardinalBlocked - 1 := by
  obtain ⟨woken, left, count⟩ := WaitQueue.unblockProcess_eq entries state.processes
  refine ⟨{ state.mutexes mutex with
    queue := ((state.mutexes mutex).toWaitQueue.unblockProcess state.processes).2.queue
    cardinalBlocked := (state.mutexes mutex).cardinalBlocked - 1 }, ?_, left, rfl, rfl, rfl⟩
  simp [freeMutex, valid, waiting, unblockProcess, setMutex, changeProcessState, woken, count]

/-- `freeMutex` writes the entry of its handle only. -/
theorem freeMutex_ne {mutex other : Int} (different : other ≠ mutex) (state : MutexState) :
    (state.freeMutex mutex).mutexes other = state.mutexes other := by
  simp only [freeMutex]
  split
  · rfl
  · split
    · simp [unblockProcess, setMutex, Function.update_of_ne different]
    · exact setMutex_ne different _ _

/-- `freeMutex` takes no entry out of use. -/
@[simp] theorem freeMutex_used (state : MutexState) (mutex other : Int) :
    ((state.freeMutex mutex).mutexes other).used = (state.mutexes other).used := by
  by_cases same : other = mutex
  · subst same
    simp only [freeMutex]
    split
    · rfl
    · split <;> simp [unblockProcess]
  · rw [freeMutex_ne same]

/-- `freeMutex` wakes nobody and leaves the queues, or takes the first pid out of its
queue and makes it READY. -/
theorem freeMutex_cases (state : MutexState) (mutex : Int) :
    (state.freeMutex mutex).processes = state.processes ∧
        (∀ other, ((state.freeMutex mutex).mutexes other).entries =
          (state.mutexes other).entries) ∧
        (state.isValidMutex mutex = true → 0 < (state.mutexes mutex).cardinalBlocked →
          (state.mutexes mutex).entries = []) ∨
      ∃ pid rest, (state.mutexes mutex).entries = pid :: rest ∧
        ((state.freeMutex mutex).mutexes mutex).entries = rest ∧
        (state.freeMutex mutex).processes = state.processes.changeProcessState pid .ready := by
  have others : ∀ other, other ≠ mutex → ((state.freeMutex mutex).mutexes other).entries =
      (state.mutexes other).entries := fun other different => by
    rw [freeMutex_ne different]
  cases valid : state.isValidMutex mutex with
  | false =>
      have same : state.freeMutex mutex = state := by simp [freeMutex, valid]
      exact .inl ⟨by rw [same], fun other => by rw [same], fun used => by cases used⟩
  | true =>
      by_cases waiting : 0 < (state.mutexes mutex).cardinalBlocked
      · cases entries : (state.mutexes mutex).entries with
        | nil =>
            have nobody := WaitQueue.unblockProcess_nil entries state.processes
            refine .inl ⟨?_, fun other => ?_, fun _ _ => rfl⟩
            · simp [freeMutex, valid, waiting, unblockProcess, nobody]
            · by_cases here : other = mutex
              · subst here
                simp [freeMutex, valid, waiting, unblockProcess, nobody, WaitQueue.entries]
              · exact others other here
        | cons pid rest =>
            obtain ⟨m, freed, left, -⟩ := freeMutex_hands_over valid waiting entries
            refine .inr ⟨pid, rest, rfl, ?_, ?_⟩
            · rw [freed, setMutex_same, left]
            · rw [freed]
              rfl
      · refine .inl ⟨by rw [freeMutex_opens valid waiting]; rfl, fun other => ?_,
          fun _ here => absurd here waiting⟩
        by_cases here : other = mutex
        · subst here
          rw [freeMutex_opens valid waiting, setMutex_same]
        · exact others other here

/-- A handle on which `lockMutex` returns at once. -/
def Uncontended (state : MutexState) (mutex : Int) : Prop :=
  state.isValidMutex mutex = true → ¬ Busy (state.mutexes mutex)

instance (state : MutexState) (mutex : Int) : Decidable (state.Uncontended mutex) :=
  inferInstanceAs (Decidable (_ → _))

/-- Around a section without another call on the mutex, `lockMutex` and
`freeMutex` leave the table as it was. -/
theorem lockMutex_uncontended {state : MutexState} {mutex : Int}
    (uncontended : state.Uncontended mutex) (garbage : Int) :
    ∃ mutexes, state.lockMutex mutex garbage = ({ state with mutexes }, .returned) ∧
      ∀ processes, freeMutex ⟨processes, mutexes⟩ mutex = ⟨processes, state.mutexes⟩ := by
  cases valid : state.isValidMutex mutex with
  | false =>
      refine ⟨state.mutexes, by simp [lockMutex, valid], fun processes => ?_⟩
      have still : isValidMutex ⟨processes, state.mutexes⟩ mutex = false := valid
      simp [freeMutex, still]
  | true =>
      have idle := uncontended valid
      simp only [Busy, not_or, not_not] at idle
      obtain ⟨unlocked, nobody⟩ := idle
      let taken : Mutex := { state.mutexes mutex with mutex := 1, cardinalBlocked := 0 }
      let mutexes := Function.update state.mutexes mutex taken
      refine ⟨mutexes, lockMutex_acquires valid unlocked nobody garbage, fun processes => ?_⟩
      have still : isValidMutex ⟨processes, mutexes⟩ mutex = true := by
        rw [← valid]
        exact isValidMutex_congr (by simp [mutexes, taken])
      rw [freeMutex_opens still (by simp [mutexes, taken])]
      have restored : ∀ m : Mutex, m.mutex = 0 → m.cardinalBlocked = 0 →
          { m with mutex := 0, cardinalBlocked := 0 } = m := by
        rintro ⟨⟨queue, _⟩, used, name, _, pidCreator⟩ rfl rfl
        rfl
      simp [setMutex, mutexes, taken, restored _ unlocked nobody]

/-- `lockMutex` returns at once exactly on an uncontended handle. -/
theorem lockMutex_returned {state : MutexState} {mutex garbage : Int} :
    (state.lockMutex mutex garbage).2 = .returned ↔ state.Uncontended mutex := by
  constructor
  · intro returned valid busy
    cases full : state.isQueueFull mutex with
    | false =>
        rw [lockMutex_queues valid busy full] at returned
        cases returned
    | true =>
        rw [lockMutex_full valid busy full] at returned
        cases returned
  · intro uncontended
    obtain ⟨mutexes, locked, -⟩ := lockMutex_uncontended uncontended garbage
    rw [locked]

/-- `lockMutex` does not switch processes itself. -/
@[simp] theorem lockMutex_current (state : MutexState) (mutex garbage : Int) :
    (state.lockMutex mutex garbage).1.processes.current = state.processes.current := by
  simp only [lockMutex]
  split
  · rfl
  · split
    · rfl
    · split <;> simp

/-- `freeMutex` turns at most one process to READY. -/
theorem freeMutex_processes (state : MutexState) (mutex : Int) :
    (state.freeMutex mutex).processes = state.processes ∨
      ∃ pid, (state.freeMutex mutex).processes = state.processes.changeProcessState pid .ready := by
  simp only [freeMutex]
  split
  · exact .inl rfl
  · split
    · simp only [unblockProcess, WaitQueue.unblockProcess, setMutex_processes]
      split
      · exact .inr ⟨_, rfl⟩
      · exact .inl rfl
    · exact .inl rfl

/-- Who is BLOCKED after `freeMutex` was it before. -/
theorem blocked_of_freeMutex {state : MutexState} {mutex pid : Int}
    (after : (state.freeMutex mutex).processes.state pid = some .blocked) :
    state.processes.state pid = some .blocked := by
  rcases state.freeMutex_processes mutex with same | ⟨woken, changed⟩
  · rwa [same] at after
  · rw [changed, ProcessTable.changeProcessState_state] at after
    split at after
    · obtain ⟨_, -, ready⟩ := Option.map_eq_some_iff.mp after
      cases ready
    · exact after

/-- Who is READY stays so. -/
theorem freeMutex_ready {state : MutexState} {mutex pid : Int}
    (before : state.processes.state pid = some .ready) :
    (state.freeMutex mutex).processes.state pid = some .ready := by
  rcases state.freeMutex_processes mutex with same | ⟨woken, changed⟩
  · rwa [same]
  · rw [changed, ProcessTable.changeProcessState_state]
    split
    · rename_i here
      rw [← here, before]
      rfl
    · exact before

/-- `freeMutex` does not switch processes. -/
@[simp] theorem freeMutex_current (state : MutexState) (mutex : Int) :
    (state.freeMutex mutex).processes.current = state.processes.current := by
  unfold freeMutex
  split
  · rfl
  · split <;> simp [unblockProcess]

end MutexState

end SistemasOperativos.Kernel
