import SistemasOperativos.Kernel.Synchronization

/-!
# The flag of a mutex and its waiting processes

`_testAndSet` compares and writes eight bytes, the flag `mutex` and the counter
`cardinalBlocked` behind it. It behaves like a test of the flag alone because no
process waits for an open mutex, which every operation on the table keeps
(`Guarded`), whoever calls it and whatever the history of the slot.
-/

namespace SistemasOperativos.Kernel

open SistemasOperativos.Semantics

/-- The counter of the waiting processes is right, and nobody waits for an open mutex. -/
structure Mutex.Guarded (m : Mutex) : Prop where
  counted : m.Counted
  nobody : m.mutex = 0 → m.cardinalBlocked = 0

namespace Mutex

/-- Nobody is recorded in an open mutex. -/
theorem Guarded.entries_nil {m : Mutex} (guarded : m.Guarded) (unlocked : m.mutex = 0) :
    m.entries = [] := by
  have count := guarded.counted
  rw [WaitQueue.Counted, guarded.nobody unlocked] at count
  exact List.length_eq_zero_iff.mp (by omega)

/-- `_testAndSet` takes the mutex exactly when it is open, and leaves the counter
of the waiting processes as it was. -/
theorem Guarded.testAndSet {m : Mutex} (guarded : m.Guarded) :
    ((testAndSet m).2 = ACQUIRED ↔ m.mutex = 0) ∧
      (testAndSet m).1.cardinalBlocked = m.cardinalBlocked := by
  by_cases unlocked : m.mutex = 0
  · have nobody := guarded.nobody unlocked
    simp [Kernel.testAndSet, unlocked, nobody]
  · rw [testAndSet_busy (.inl unlocked)]
    simp [unlocked, ACQUIRED]

/-- A guarded mutex is busy exactly if it is locked. -/
theorem Guarded.busy_iff {m : Mutex} (guarded : m.Guarded) : Busy m ↔ m.mutex ≠ 0 := by
  constructor
  · rintro (locked | waiting)
    · exact locked
    · exact fun unlocked => waiting (guarded.nobody unlocked)
  · exact .inl

/-- An open entry without waiting processes. -/
structure Clean (m : Mutex) : Prop where
  unlocked : m.mutex = 0
  count : m.cardinalBlocked = 0
  entries : m.entries = []

/-- A clean entry is guarded. -/
theorem Clean.guarded {m : Mutex} (clean : m.Clean) : m.Guarded := by
  refine ⟨?_, fun _ => clean.count⟩
  rw [WaitQueue.Counted, clean.count, clean.entries]
  rfl

/-- Only the flag and the waiting processes matter. -/
theorem Guarded.congr {m m' : Mutex} (guarded : m.Guarded)
    (waiters : m'.toWaitQueue = m.toWaitQueue) (flag : m'.mutex = m.mutex) : m'.Guarded := by
  constructor
  · rw [WaitQueue.Counted, waiters]
    exact guarded.counted
  · rw [flag, waiters]
    exact guarded.nobody

end Mutex

namespace MutexState

/-- Every mutex of the table is guarded, and the process that runs has a pid. -/
structure Guarded (state : MutexState) : Prop where
  mutexes : ∀ m : Int, 0 ≤ m → m < MAX_MUTEXES → (state.mutexes m).Guarded
  pid : state.processes.current ≠ NO_BLOCKED_QUEUE_VALUE

/-- A valid handle is in the table. -/
theorem lt_of_isValidMutex {state : MutexState} {m : Int} (valid : state.isValidMutex m = true) :
    m < MAX_MUTEXES := by
  by_contra outside
  rw [isValidMutex, if_pos (by omega)] at valid
  cases valid

/-- Writing a guarded entry. -/
theorem Guarded.setMutex {state : MutexState} (guarded : state.Guarded) {m : Int} {entry : Mutex}
    (kept : 0 ≤ m → m < MAX_MUTEXES → entry.Guarded) : (state.setMutex m entry).Guarded := by
  refine ⟨fun other low high => ?_, guarded.pid⟩
  by_cases same : other = m
  · subst same
    rw [setMutex_same]
    exact kept low high
  · rw [setMutex_ne same]
    exact guarded.mutexes other low high

/-- Changing the state of a process keeps the table guarded. -/
theorem Guarded.changeProcessState {state : MutexState} (guarded : state.Guarded) (pid : Int)
    (processState : ProcessState) : (state.changeProcessState pid processState).Guarded := by
  refine ⟨guarded.mutexes, ?_⟩
  rw [changeProcessState_processes, ProcessTable.changeProcessState_current]
  exact guarded.pid

/-- The caller of `lockMutex` takes an open mutex; otherwise it is counted with the
waiting processes, or not recorded at all. -/
theorem Guarded.lockMutex {state : MutexState} (guarded : state.Guarded) {m : Int}
    (handle : 0 ≤ m) (garbage : Int) : (state.lockMutex m garbage).1.Guarded := by
  cases valid : state.isValidMutex m with
  | false => simpa [MutexState.lockMutex, valid] using guarded
  | true =>
      have here := guarded.mutexes m handle (lt_of_isValidMutex valid)
      by_cases unlocked : (state.mutexes m).mutex = 0
      · have nobody := here.nobody unlocked
        rw [lockMutex_acquires valid unlocked nobody]
        refine guarded.setMutex fun _ _ => ⟨?_, fun _ => rfl⟩
        have count := here.counted
        rwa [WaitQueue.Counted, nobody] at count
      · have busy := here.busy_iff.mpr unlocked
        cases full : state.isQueueFull m with
        | true =>
            rw [lockMutex_full valid busy full]
            exact guarded.changeProcessState _ _
        | false =>
            rw [lockMutex_queues valid busy full]
            refine Guarded.changeProcessState (guarded.setMutex fun _ _ => ⟨?_, ?_⟩) _ _
            · exact here.counted.addToBlocked guarded.pid
            · exact fun open' => absurd open' unlocked

/-- `freeMutex` of a guarded mutex that is in use: it opens the mutex, which nobody
waits for, or it leaves it locked and hands it to one of the waiting processes. -/
theorem freeMutex_guarded {state : MutexState} {m : Int} (here : (state.mutexes m).Guarded)
    (valid : state.isValidMutex m = true) :
    ((state.mutexes m).entries = [] ∧
      state.freeMutex m = state.setMutex m { state.mutexes m with mutex := 0 }) ∨
    ∃ pid rest entry, (state.mutexes m).entries = pid :: rest ∧
      state.freeMutex m = (state.changeProcessState pid .ready).setMutex m entry ∧
      entry.entries = rest ∧ entry.mutex = (state.mutexes m).mutex ∧ entry.mutex ≠ 0 ∧
      entry.Counted := by
  have count := here.counted
  cases waiting : (state.mutexes m).entries with
  | nil =>
      simp only [WaitQueue.Counted, waiting, List.length_nil] at count
      exact .inl ⟨rfl, freeMutex_opens valid (by omega)⟩
  | cons pid rest =>
      simp only [WaitQueue.Counted, waiting, List.length_cons] at count
      obtain ⟨entry, handed, left, flag, -, remaining⟩ :=
        freeMutex_hands_over valid (by omega) waiting
      refine .inr ⟨pid, rest, entry, rfl, handed, left, flag, ?_, ?_⟩
      · rw [flag]
        intro unlocked
        have nobody := here.nobody unlocked
        omega
      · simp only [WaitQueue.Counted, left, remaining, count]
        omega

/-- `freeMutex` keeps the table guarded. -/
theorem Guarded.freeMutex {state : MutexState} (guarded : state.Guarded) {m : Int}
    (handle : 0 ≤ m) : (state.freeMutex m).Guarded := by
  cases valid : state.isValidMutex m with
  | false => simpa [MutexState.freeMutex, valid] using guarded
  | true =>
      have here := guarded.mutexes m handle (lt_of_isValidMutex valid)
      rcases freeMutex_guarded here valid with
        ⟨nobody, opened⟩ | ⟨pid, rest, entry, -, handed, -, -, locked, counted⟩
      · rw [opened]
        refine guarded.setMutex fun _ _ => ⟨here.counted, fun _ => ?_⟩
        have count := here.counted
        rwa [WaitQueue.Counted, nobody] at count
      · rw [handed]
        exact (guarded.changeProcessState pid .ready).setMutex fun _ _ =>
          ⟨counted, fun unlocked => absurd unlocked locked⟩

/-- `createMutex` keeps the table guarded. -/
theorem Guarded.createMutex {state : MutexState} (guarded : state.Guarded)
    (mutexName : Option String) : (state.createMutex mutexName).1.Guarded := by
  simp only [MutexState.createMutex]
  split
  · exact guarded
  · exact guarded.setMutex fun low high => (guarded.mutexes _ low high).congr rfl rfl

/-- `closeMutex` keeps the table guarded. -/
theorem Guarded.closeMutex {state : MutexState} (guarded : state.Guarded) (index : Int) :
    (state.closeMutex index).Guarded := by
  simp only [MutexState.closeMutex]
  split
  · exact guarded
  · split
    · exact guarded.setMutex fun low high => (guarded.mutexes _ low high).congr rfl rfl
    · exact guarded

/-- The operations of mutex.c and changes of state keep the table guarded. -/
theorem guarded_phased : SyncState.Phased Guarded Guarded where
  locked := id
  lockMutex _ garbage handle guarded := guarded.lockMutex handle garbage
  freeMutex _ handle guarded := guarded.freeMutex handle
  createMutex mutexName guarded := guarded.createMutex mutexName
  changeProcessState pid processState guarded := guarded.changeProcessState pid processState

/-- `cleanMutex` over the first `count` entries cleans these. -/
theorem cleaned (state : MutexState) (count : Nat) (within : count ≤ MAX_MUTEXES) {m : Int}
    (low : 0 ≤ m) (high : m < count) :
    ∃ pidCreator, ((List.range count).foldl (fun state (i : Nat) => state.cleanMutex i)
      state).mutexes m =
      { WaitQueue.empty with used := false, name := none, mutex := 0, pidCreator } := by
  induction count with
  | zero => omega
  | succ count ih =>
      rw [List.range_succ, List.foldl_append]
      simp only [List.foldl_cons, List.foldl_nil, cleanMutex]
      rw [if_neg (by omega)]
      by_cases same : m = count
      · subst same
        exact ⟨_, setMutex_same _ _ _⟩
      · rw [setMutex_ne same]
        exact ih (by omega) (by omega)

/-- After `initializeMutexes` every entry is open and empty, and only the mutex of
the table is in use. -/
theorem initializeMutexes_entry (state : MutexState) {m : Int} (low : 0 ≤ m)
    (high : m < MAX_MUTEXES) :
    ∃ pidCreator, state.initializeMutexes.mutexes m =
      { WaitQueue.empty with
        used := decide (m = adminMutex), name := none, mutex := 0, pidCreator } := by
  obtain ⟨pidCreator, clean⟩ := cleaned state MAX_MUTEXES (Nat.le_refl _) low high
  refine ⟨pidCreator, ?_⟩
  simp only [initializeMutexes]
  by_cases same : m = adminMutex
  · subst same
    rw [setMutex_same, clean]
    simp
  · rw [setMutex_ne same, clean]
    simp [same]

/-- The entries are guarded after `initializeMutexes`. -/
theorem initializeMutexes_guarded (state : MutexState) {m : Int} (low : 0 ≤ m)
    (high : m < MAX_MUTEXES) : (state.initializeMutexes.mutexes m).Guarded := by
  obtain ⟨pidCreator, entry⟩ := initializeMutexes_entry state low high
  rw [entry]
  exact ⟨WaitQueue.counted_empty, fun _ => rfl⟩

/-! ## The initialised tables -/

/-- A search for a free entry finds one that is not in use, or all are in use. -/
theorem getFreeSpot_spec (state : MutexState) :
    (state.getFreeSpot = NO_SPACE_LEFT_M ∧
      ∀ m : Int, 0 ≤ m → m < MAX_MUTEXES → (state.mutexes m).used = true) ∨
    0 ≤ state.getFreeSpot ∧ state.getFreeSpot < MAX_MUTEXES ∧
      (state.mutexes state.getFreeSpot).used = false := by
  simp only [getFreeSpot]
  split
  · rename_i i found
    right
    have bound := List.mem_range.mp (List.mem_of_find?_eq_some found)
    have unused := List.find?_some found
    exact ⟨by omega, by omega, by simpa using unused⟩
  · rename_i missing
    refine .inl ⟨rfl, fun m low high => ?_⟩
    have used := List.find?_eq_none.mp missing m.toNat (List.mem_range.mpr (by omega))
    simpa [Int.toNat_of_nonneg low] using used

/-- `createMutex` writes neither the flag nor the waiting processes of any entry. -/
theorem createMutex_entry (state : MutexState) (mutexName : Option String) (m : Int) :
    ((state.createMutex mutexName).1.mutexes m).toWaitQueue = (state.mutexes m).toWaitQueue ∧
      ((state.createMutex mutexName).1.mutexes m).mutex = (state.mutexes m).mutex ∧
      ((state.mutexes m).used = true →
        ((state.createMutex mutexName).1.mutexes m).used = true) := by
  simp only [createMutex]
  split
  · exact ⟨rfl, rfl, id⟩
  · by_cases same : m = state.getFreeSpot
    · subst same
      simp
    · simp [setMutex_ne same]

/-- With a free entry `createMutex` returns the handle of it. -/
theorem createMutex_handle {state : MutexState} {m : Int} (low : 0 ≤ m) (high : m < MAX_MUTEXES)
    (free : (state.mutexes m).used = false) (mutexName : Option String) :
    0 ≤ (state.createMutex mutexName).2 := by
  rcases getFreeSpot_spec state with ⟨-, full⟩ | ⟨handle, -⟩
  · rw [full m low high] at free
    cases free
  · simp only [createMutex]
    rw [if_neg (by simp only [NO_SPACE_LEFT_M]; omega)]
    exact handle

/-- `getMutex` on a clean table with an entry to spare leaves a clean table. -/
theorem getMutex_clean {state : MutexState}
    (clean : ∀ m : Int, 0 ≤ m → m < MAX_MUTEXES → (state.mutexes m).Clean)
    (admin : (state.mutexes adminMutex).used = true)
    (spare : (state.mutexes 1).used = false) (mutexName : Option String) (garbage : Int) :
    ∃ after index, state.getMutex mutexName garbage = (after, some index) ∧ 0 ≤ index ∧
      ∀ m : Int, 0 ≤ m → m < MAX_MUTEXES → (after.mutexes m).Clean := by
  have valid : state.isValidMutex adminMutex = true := by
    rw [isValidMutex, admin]
    decide
  obtain ⟨unlocked, nobody, -⟩ := clean adminMutex (by decide) (by decide)
  have locked := lockMutex_acquires valid unlocked nobody garbage
  generalize held : state.setMutex adminMutex
    { state.mutexes adminMutex with mutex := 1, cardinalBlocked := 0 } = table at locked
  have others : ∀ m : Int, m ≠ adminMutex → table.mutexes m = state.mutexes m := by
    intro m other
    rw [← held, setMutex_ne other]
  have taken : table.mutexes adminMutex =
      { state.mutexes adminMutex with mutex := 1, cardinalBlocked := 0 } := by
    rw [← held, setMutex_same]
  generalize found : (if table.getIndex mutexName = MUTEX_NOT_FOUND then
    table.createMutex mutexName else (table, table.getIndex mutexName)) = result
  have handle : 0 ≤ result.2 := by
    rw [← found]
    split
    · exact createMutex_handle (by omega : (0 : Int) ≤ 1) (by decide)
        (by rw [others 1 (by decide), spare]) mutexName
    · rename_i present
      simp only [getIndex] at present ⊢
      split
      · simp
      · rename_i missing
        simp [missing] at present
  have kept : ∀ m, (result.1.mutexes m).toWaitQueue = (table.mutexes m).toWaitQueue ∧
      (result.1.mutexes m).mutex = (table.mutexes m).mutex ∧
      ((table.mutexes m).used = true → (result.1.mutexes m).used = true) := by
    intro m
    rw [← found]
    split
    · exact createMutex_entry table mutexName m
    · exact ⟨rfl, rfl, id⟩
  have stillValid : result.1.isValidMutex adminMutex = true := by
    rw [isValidMutex, (kept adminMutex).2.2 (by rw [taken]; exact admin)]
    decide
  have stillNobody : ¬ 0 < (result.1.mutexes adminMutex).cardinalBlocked := by
    rw [(kept adminMutex).1, taken]
    simp
  refine ⟨result.1.freeMutex adminMutex, result.2, ?_, handle, fun m low high => ?_⟩
  · simp [getMutex, locked, getMutexLocked, found]
  · rw [freeMutex_opens stillValid stillNobody]
    by_cases same : m = adminMutex
    · subst same
      obtain ⟨-, -, nobody⟩ := clean adminMutex low high
      have waiters := (kept adminMutex).1
      rw [taken] at waiters
      refine ⟨by simp, ?_, ?_⟩
      · simp [waiters]
      · simp only [setMutex_same]
        rw [WaitQueue.entries, waiters]
        exact nobody
    · obtain ⟨unlocked, nobody, entries⟩ := clean m low high
      rw [setMutex_ne same]
      obtain ⟨waiters, flag, -⟩ := kept m
      rw [others m same] at waiters flag
      exact ⟨by rw [flag, unlocked], by rw [waiters, nobody],
        by rw [WaitQueue.entries, waiters]; exact entries⟩

end MutexState

namespace SyncState

/-- Both tables hold nothing but open entries without waiting processes. -/
structure Initialized (state : SyncState) : Prop where
  mutexes : ∀ m : Int, 0 ≤ m → m < MAX_MUTEXES → (state.mutexes m).Clean
  semaphores : ∀ s : Int, 0 ≤ s → s < MAX_SEMAPHORES →
    (state.semaphores s).cardinalBlocked = 0 ∧ (state.semaphores s).entries = []
  guard : 0 ≤ state.semaphoreMutex

/-- `cleanSemaphore` over the first `count` entries empties these. -/
theorem cleanedSemaphores (state : SemaphoreState) (count : Nat) :
    ((List.range count).foldl (fun state (i : Nat) => state.cleanSemaphore i)
      state).toMutexState = state.toMutexState ∧
    ∀ s : Int, 0 ≤ s → s < count →
      (((List.range count).foldl (fun state (i : Nat) => state.cleanSemaphore i)
        state).semaphores s).toWaitQueue = WaitQueue.empty := by
  induction count with
  | zero => exact ⟨rfl, fun s _ _ => by omega⟩
  | succ count ih =>
      simp only [List.range_succ, List.foldl_append, List.foldl_cons, List.foldl_nil,
        SemaphoreState.cleanSemaphore]
      refine ⟨ih.1, fun s low high => ?_⟩
      by_cases same : s = count
      · subst same
        rw [SemaphoreState.setSemaphore_same]
      · rw [SemaphoreState.setSemaphore_ne same]
        exact ih.2 s low (by omega)

/-- The functions that initialize the tables leave them initialized. -/
theorem initializeTables_initialized (state : SyncState) :
    state.initializeTables.Initialized := by
  obtain ⟨mutexes, semaphores⟩ :=
    cleanedSemaphores ⟨state.initializeMutexes, state.semaphores⟩ MAX_SEMAPHORES
  generalize cleaned : (List.range MAX_SEMAPHORES).foldl
    (fun state (i : Nat) => state.cleanSemaphore i)
    (⟨state.initializeMutexes, state.semaphores⟩ : SemaphoreState) = table at mutexes semaphores
  have clean : ∀ m : Int, 0 ≤ m → m < MAX_MUTEXES →
      (state.initializeMutexes.mutexes m).Clean := by
    intro m low high
    obtain ⟨pidCreator, entry⟩ := MutexState.initializeMutexes_entry state.toMutexState low high
    rw [entry]
    exact ⟨rfl, rfl, WaitQueue.entries_empty⟩
  obtain ⟨adminCreator, admin⟩ := MutexState.initializeMutexes_entry state.toMutexState
    (by omega : (0 : Int) ≤ 0) (by decide)
  obtain ⟨spareCreator, spare⟩ := MutexState.initializeMutexes_entry state.toMutexState
    (by omega : (0 : Int) ≤ 1) (by decide)
  obtain ⟨after, index, got, handle, result⟩ := MutexState.getMutex_clean clean
    (by simp [MutexState.adminMutex, admin]) (by simp [spare, MutexState.adminMutex])
    (some "semaphoreMutex") 0
  have shape : state.initializeTables =
      { table with toMutexState := after, semaphoreMutex := index } := by
    have initialized : table.toMutexState = state.initializeMutexes := mutexes
    rw [← initialized] at got
    simp only [initializeTables, initializeSemaphores, cleaned, got]
  rw [shape]
  refine ⟨result, fun s low high => ?_, handle⟩
  have waiters := semaphores s low high
  refine ⟨by rw [waiters]; rfl, ?_⟩
  rw [WaitQueue.entries, waiters]
  exact WaitQueue.entries_empty

end SyncState

namespace SyncRun

/-- A run on the mutexes starts when `initializeMutexes` has run. The processes
have pids, and one of them runs. -/
structure MutexStart (state : SyncRun) : Prop where
  initialized : ∃ before : MutexState, state.kernel.mutexes = before.initializeMutexes.mutexes
  guard : 0 ≤ state.kernel.semaphoreMutex
  pids : ∀ pid, state.kernel.processes.state pid ≠ none → 0 ≤ pid
  present : state.kernel.processes.state state.current ≠ none

/-- The invariant of the runs. -/
structure MutexesGuarded (state : SyncRun) : Prop where
  mutexes : ∀ m : Int, 0 ≤ m → m < MAX_MUTEXES → (state.kernel.mutexes m).Guarded
  guard : 0 ≤ state.kernel.semaphoreMutex
  pids : ∀ pid, state.kernel.processes.state pid ≠ none → 0 ≤ pid
  present : state.kernel.processes.state state.current ≠ none

/-- The invariant holds at the start. -/
theorem MutexStart.mutexesGuarded {state : SyncRun} (start : MutexStart state) :
    MutexesGuarded state := by
  obtain ⟨before, initialized⟩ := start.initialized
  refine ⟨fun m low high => ?_, start.guard, start.pids, start.present⟩
  rw [initialized]
  exact before.initializeMutexes_guarded low high

/-- The process that runs has a pid. -/
theorem MutexesGuarded.kernel {state : SyncRun} (guarded : MutexesGuarded state) :
    state.kernel.Guarded := by
  have pid := guarded.pids _ guarded.present
  refine ⟨guarded.mutexes, ?_⟩
  simp only [current, NO_BLOCKED_QUEUE_VALUE] at pid ⊢
  omega

/-- A step keeps the invariant. -/
theorem mutexesGuarded_step (state : SyncRun) (action : SyncAction) (next : SyncRun)
    (guarded : MutexesGuarded state) (stepped : state.step action = some next) :
    MutexesGuarded next := by
  rcases step_eq_some stepped with
    ⟨kernel, outcome, pending, processes, performed, same, rfl, -⟩ |
    ⟨processes, rfl, runs, presence⟩
  · have kept := perform_phased MutexState.guarded_phased guarded.guard
      (fun index _ _ _ _ => guarded.kernel.closeMutex index) guarded.kernel performed
    obtain ⟨current, ring⟩ := perform_processes guarded.guard performed
    refine ⟨kept.mutexes, ?_, fun pid present => ?_, ?_⟩
    · change 0 ≤ kernel.semaphoreMutex
      rw [perform_semaphoreMutex performed]
      exact guarded.guard
    · refine guarded.pids pid (mt (ring pid).mpr (mt (same.present pid).mpr present))
    · refine same.current ?_
      rw [current, ne_eq, ring]
      exact guarded.present
  · refine ⟨guarded.mutexes, guarded.guard, fun pid present => ?_, runs guarded.present⟩
    rcases (presence pid).mp present with ⟨before, -⟩ | ⟨-, created⟩
    · exact guarded.pids pid before
    · exact created

/-- In every run after `initializeMutexes` the counter of every mutex is the
number of the recorded processes, and nobody waits for an open mutex. So
`_testAndSet` takes a mutex exactly when its flag is clear and never loses
waiting processes, and `freeMutex` of a mutex in use either opens it, with nobody
waiting, or leaves it locked and wakes exactly one of the recorded processes. -/
theorem mutex_table_guarded (start : SyncRun) (begins : MutexStart start)
    (actions : List SyncAction) (final : SyncRun)
    (ran : run step start actions = some final) (m : Int) (low : 0 ≤ m)
    (high : m < MAX_MUTEXES) :
    (final.kernel.mutexes m).Counted ∧
      ((final.kernel.mutexes m).mutex = 0 → (final.kernel.mutexes m).cardinalBlocked = 0) ∧
      ((testAndSet (final.kernel.mutexes m)).2 = ACQUIRED ↔
        (final.kernel.mutexes m).mutex = 0) ∧
      (testAndSet (final.kernel.mutexes m)).1.cardinalBlocked =
        (final.kernel.mutexes m).cardinalBlocked ∧
      (final.kernel.isValidMutex m = true →
        ((final.kernel.mutexes m).entries = [] ∧
          ((final.kernel.freeMutex m).mutexes m).mutex = 0 ∧
          (final.kernel.freeMutex m).processes = final.kernel.processes) ∨
        ∃ pid rest, (final.kernel.mutexes m).entries = pid :: rest ∧
          ((final.kernel.freeMutex m).mutexes m).mutex ≠ 0 ∧
          ((final.kernel.freeMutex m).mutexes m).entries = rest ∧
          (final.kernel.freeMutex m).processes =
            final.kernel.processes.changeProcessState pid .ready) := by
  have along : MutexesGuarded final :=
    run_invariant mutexesGuarded_step begins.mutexesGuarded ran
  have guarded := along.mutexes m low high
  refine ⟨guarded.counted, guarded.nobody, guarded.testAndSet.1, guarded.testAndSet.2,
    fun valid => ?_⟩
  rcases MutexState.freeMutex_guarded guarded valid with
    ⟨nobody, opened⟩ | ⟨pid, rest, entry, waiting, handed, left, -, locked, -⟩
  · left
    simp [nobody, opened]
  · right
    refine ⟨pid, rest, waiting, ?_⟩
    simp [handed, left, locked]

/-- Right after `initializeMutexes`, before `initializeSemaphores`. -/
def initialized (count : Nat) : SyncRun :=
  { booted count with
    kernel := { (booted count).kernel with mutexes := zeroed.initializeMutexes.mutexes } }

/-- The tables at boot are a start. -/
theorem initialized_start {count : Nat} (positive : 0 < count) :
    MutexStart (initialized count) := by
  have processes : (initialized count).kernel.processes = (booted count).kernel.processes := rfl
  refine ⟨⟨zeroed.toMutexState, rfl⟩, ?_, ?_, ?_⟩
  · have guard : zeroed.initializeTables.semaphoreMutex = 1 := by decide +kernel
    change 0 ≤ zeroed.initializeTables.semaphoreMutex
    omega
  · intro pid present
    rw [processes] at present
    exact booted_pids present
  · rw [current, processes]
    exact booted_present positive

/-- Two processes and a mutex of their own: the second one is recorded, and it is
the one that `freeMutex` wakes. -/
theorem mutex_table_guarded_contended : ∃ final,
    run step (initialized 2) [.call (.getMutex (some "m")) 0 0, .call (.lockMutex 1) 0 0,
      .timerTick 1, .call (.getMutex (some "m")) 0 0, .call (.lockMutex 1) 0 0] = some final ∧
      (final.kernel.mutexes 1).Counted ∧ (final.kernel.mutexes 1).entries = [1] ∧
      (final.kernel.freeMutex 1).processes =
        final.kernel.processes.changeProcessState 1 .ready := by
  have finishes : (run step (initialized 2) [.call (.getMutex (some "m")) 0 0,
      .call (.lockMutex 1) 0 0, .timerTick 1, .call (.getMutex (some "m")) 0 0,
      .call (.lockMutex 1) 0 0]).map (fun final =>
        ((final.kernel.mutexes 1).entries, final.kernel.isValidMutex 1)) =
      some ([1], true) := by
    decide +kernel
  obtain ⟨final, ran, result⟩ := Option.map_eq_some_iff.mp finishes
  obtain ⟨waiting, valid⟩ := Prod.mk.inj result
  obtain ⟨counted, -, -, -, freed⟩ :=
    mutex_table_guarded _ (initialized_start (by omega)) _ final ran 1 (by omega) (by decide)
  rcases freed valid with ⟨nobody, -⟩ | ⟨pid, rest, entries, -, -, handed⟩
  · rw [waiting] at nobody
    cases nobody
  · rw [waiting] at entries
    obtain ⟨rfl, -⟩ := List.cons.inj entries
    exact ⟨final, ran, counted, waiting, handed⟩

end SyncRun

end SistemasOperativos.Kernel
