import SistemasOperativos.Kernel.Mutex
import SistemasOperativos.Kernel.Scheduler
import SistemasOperativos.Semantics.Run

/-!
# Mutexes and the threads of a process

Threads call `lockMutex` and `freeMutex`, but the queue of a mutex holds pids, and
`lockMutex` blocks the whole process of its caller. A tick of the timer goes on with the
next thread of the process it switches to (`switchKernelToUser`), a `_yield` with the one
that ran there last. `holders` is not part of the kernel: it follows which threads have
each mutex, from the call that took it, or the `freeMutex` that handed it over, to their
own `freeMutex`.

As long as no process is queued on a mutex that one of its threads has, those who have
a mutex are not in its queue, and those who queue up block nobody who has it
(`holders_are_not_queued`). When one thread waits for the mutex of another thread of
its process, both stand still (`holder_gets_blocked`).
-/

namespace SistemasOperativos.Kernel

open SistemasOperativos.Semantics

/-- Where in `lockMutex` a thread stands: in the queue, with the mutex handed over, or
turned away by a full queue. -/
inductive LockWait where
  | queued (mutex : Int)
  | handed (mutex : Int)
  | turnedAway (mutex : Int)
  deriving DecidableEq, Repr

/-- The mutex. -/
def LockWait.mutex : LockWait → Int
  | .queued mutex | .handed mutex | .turnedAway mutex => mutex

/-- A thread: the pid of its process and its index. -/
abbrev ThreadId : Type := Int × Fin MAX_THREADS

/-- The kernel, the process of each pid with its threads, where each thread stands, and
the threads that have each mutex. -/
structure ThreadLockRun where
  kernel : MutexState
  process : Int → Process
  pending : ThreadId → Option LockWait
  holders : Int → List ThreadId

/-- What the current thread, or the timer, does. `next` is the process that `schedule`
picks if there is a switch. -/
inductive ThreadLockAction where
  | lockMutex (mutex garbage next : Int)
  | freeMutex (mutex : Int)
  | resume
  | timerTick (next : Int)
  deriving DecidableEq, Repr

namespace ThreadLockRun

open Scheduler

/-- The process that runs. -/
def current (state : ThreadLockRun) : Int := state.kernel.processes.current

/-- The thread that runs. -/
def thread (state : ThreadLockRun) : ThreadId :=
  (state.current, (state.process state.current).activeThread)

/-- Let a thread stand somewhere else. -/
def setPending (state : ThreadLockRun) (thread : ThreadId) (wait : Option LockWait) :
    ThreadLockRun :=
  { state with pending := Function.update state.pending thread wait }

/-- Replace the threads that have a mutex. -/
def setHolders (state : ThreadLockRun) (mutex : Int) (threads : List ThreadId) : ThreadLockRun :=
  { state with holders := Function.update state.holders mutex threads }

/-- Switch to `next`, where the thread that ran last goes on. -/
def dispatch (state : ThreadLockRun) (next : Int) : Option ThreadLockRun :=
  (state.kernel.processes.schedule next).map fun processes =>
    { state with kernel := { state.kernel with processes } }

/-- `switchKernelToUser`: switch to the next thread of `next`. -/
def switchThread (state : ThreadLockRun) (next : Int) : Option ThreadLockRun := do
  let switched ← state.dispatch next
  let index ← nextThread (switched.process next)
  some { switched with
    process := Function.update switched.process next
      { switched.process next with activeThread := index } }

/-- The process that `freeMutex` wakes. -/
def woken (state : ThreadLockRun) (mutex : Int) : Option Int :=
  if state.kernel.isValidMutex mutex = true ∧ 0 < (state.kernel.mutexes mutex).cardinalBlocked then
    (state.kernel.mutexes mutex).entries.head?
  else none

/-- The thread of the process that stands in the queue. -/
def queuedThread (state : ThreadLockRun) (mutex pid : Int) : Option ThreadId :=
  ((List.finRange MAX_THREADS).map fun index => (pid, index)).find? fun thread =>
    state.pending thread = some (.queued mutex)

/-- The mutex goes to the queued thread of a process that was woken. -/
def handOver (state : ThreadLockRun) (mutex : Int) : Option ThreadId → ThreadLockRun
  | some thread =>
      (state.setPending thread (some (.handed mutex))).setHolders mutex
        (thread :: state.holders mutex)
  | none => state

/-- The outcome of `lockMutex` for the caller: it has the mutex, or stands in the call. -/
def locked (state : ThreadLockRun) (mutex next : Int) : MutexState × Progress →
    Option ThreadLockRun
  | (kernel, .returned) =>
      let after := { state with kernel }
      if state.kernel.isValidMutex mutex = true then
        some (after.setHolders mutex (state.thread :: state.holders mutex))
      else some after
  | (kernel, .yielded) =>
      let wait :=
        if state.kernel.isQueueFull mutex then LockWait.turnedAway mutex else .queued mutex
      ({ state with kernel }.setPending state.thread (some wait)).dispatch next

/-- One call of the current thread, the return of one in which it stood, or a tick. No
thread locks a mutex it has, and each frees only what it has. -/
def step (state : ThreadLockRun) : ThreadLockAction → Option ThreadLockRun
  | .lockMutex mutex garbage next =>
      if 0 ≤ mutex ∧ state.pending state.thread = none ∧ state.thread ∉ state.holders mutex then
        state.locked mutex next (state.kernel.lockMutex mutex garbage)
      else none
  | .freeMutex mutex =>
      if 0 ≤ mutex ∧ state.pending state.thread = none ∧ state.thread ∈ state.holders mutex then
        let freed := { state with kernel := state.kernel.freeMutex mutex }
        let left := freed.setHolders mutex ((state.holders mutex).erase state.thread)
        some (left.handOver mutex ((state.woken mutex).bind (state.queuedThread mutex)))
      else none
  | .resume =>
      (state.pending state.thread).map fun wait =>
        let after := state.setPending state.thread none
        if state.thread ∈ state.holders wait.mutex then after
        else after.setHolders wait.mutex (state.thread :: state.holders wait.mutex)
  | .timerTick next => state.switchThread next

/-- A run starts with nobody waiting, and with a process that runs. -/
structure Start (state : ThreadLockRun) : Prop where
  nobody : ∀ m, 0 ≤ m → (state.kernel.mutexes m).entries = []
  outside : ∀ thread, state.pending thread = none
  free : ∀ m, state.holders m = []
  pids : ∀ pid, state.kernel.processes.state pid ≠ none → 0 ≤ pid
  running : state.kernel.processes.state state.current = some .running

/-- The condition on a call: a process is not queued on a mutex that a thread of it has. -/
def NotOnOwn (state : ThreadLockRun) : ThreadLockAction → Prop
  | .lockMutex mutex _ _ =>
      state.kernel.isValidMutex mutex = true → Busy (state.kernel.mutexes mutex) →
        state.kernel.isQueueFull mutex = false →
          ∀ thread ∈ state.holders mutex, thread.1 ≠ state.current
  | _ => True

instance (state : ThreadLockRun) (action : ThreadLockAction) :
    Decidable (state.NotOnOwn action) :=
  match action with
  | .lockMutex _ _ _ | .freeMutex _ | .resume | .timerTick _ => by
      unfold NotOnOwn
      infer_instance

/-! ## The queues and the holders -/

/-- The pids that wait for a mutex. -/
abbrev waiters (kernel : MutexState) (mutex : Int) : List Int := (kernel.mutexes mutex).entries

/-- Who stands in a queue is BLOCKED, stands there once and in no other queue, and has no
thread with the mutex. -/
structure Apart (kernel : MutexState) (holders : Int → List ThreadId) : Prop where
  pids : ∀ pid, kernel.processes.state pid ≠ none → 0 ≤ pid
  blocked : ∀ m, 0 ≤ m → ∀ pid ∈ waiters kernel m, kernel.processes.state pid = some .blocked
  once : ∀ m, 0 ≤ m → (waiters kernel m).Nodup
  alone : ∀ m m', 0 ≤ m → 0 ≤ m' → ∀ pid ∈ waiters kernel m, pid ∈ waiters kernel m' → m = m'
  holders : ∀ m, 0 ≤ m → ∀ thread ∈ holders m, thread.1 ∉ waiters kernel m

section Apart

variable {kernel : MutexState} {holders : Int → List ThreadId} {m : Int}

/-- The current process stands in no queue. -/
theorem Apart.current (apart : Apart kernel holders) (inside : 0 ≤ m)
    (running : kernel.processes.state kernel.processes.current = some .running) :
    kernel.processes.current ∉ waiters kernel m := by
  intro queued
  rw [apart.blocked m inside _ queued] at running
  cases running

theorem Apart.setHolders (apart : Apart kernel holders) {threads : List ThreadId}
    (outside : 0 ≤ m → ∀ thread ∈ threads, thread.1 ∉ waiters kernel m) :
    Apart kernel (Function.update holders m threads) := by
  refine ⟨apart.pids, apart.blocked, apart.once, apart.alone, fun k inside thread member => ?_⟩
  by_cases same : k = m
  · subst same
    rw [Function.update_self] at member
    exact outside inside thread member
  · rw [Function.update_of_ne same] at member
    exact apart.holders k inside thread member

/-- A thread of the current process gets a mutex. -/
theorem Apart.take (apart : Apart kernel holders) (m : Int)
    (running : kernel.processes.state kernel.processes.current = some .running)
    {thread : ThreadId} (own : thread.1 = kernel.processes.current) :
    Apart kernel (Function.update holders m (thread :: holders m)) := by
  refine apart.setHolders fun inside other member => ?_
  rcases List.mem_cons.mp member with rfl | held
  · rw [own]
    exact apart.current inside running
  · exact apart.holders m inside other held

/-- A store that leaves all queues as they are. -/
theorem Apart.setMutex (apart : Apart kernel holders) {mutex : Mutex}
    (same : mutex.entries = waiters kernel m) : Apart (kernel.setMutex m mutex) holders := by
  have queues : ∀ k, waiters (kernel.setMutex m mutex) k = waiters kernel k := by
    intro k
    by_cases here : k = m
    · rw [here, waiters, MutexState.setMutex_same, same]
    · rw [waiters, MutexState.setMutex_ne here]
  exact ⟨apart.pids, fun k => queues k ▸ apart.blocked k, fun k => queues k ▸ apart.once k,
    fun k l => queues k ▸ queues l ▸ apart.alone k l, fun k => queues k ▸ apart.holders k⟩

/-- A process gets BLOCKED. -/
theorem Apart.block (apart : Apart kernel holders) (pid : Int) :
    Apart (kernel.changeProcessState pid .blocked) holders := by
  refine ⟨fun q here => ?_, fun k inside q queued => ?_, apart.once, apart.alone, apart.holders⟩
  · rw [MutexState.changeProcessState_processes, ne_eq,
      ProcessTable.changeProcessState_eq_none] at here
    exact apart.pids q here
  · have before := apart.blocked k inside q queued
    rw [MutexState.changeProcessState_processes, ProcessTable.changeProcessState_state]
    split
    · rename_i same
      rw [← same, before]
      rfl
    · exact before

/-- The current process gets into the queue of a mutex that none of its threads has. -/
theorem Apart.queue (apart : Apart kernel holders) (inside : 0 ≤ m)
    (running : kernel.processes.state kernel.processes.current = some .running)
    (other : ∀ thread ∈ holders m, thread.1 ≠ kernel.processes.current) :
    Apart ((kernel.addToBlocked m kernel.processes.current).changeProcessState
      kernel.processes.current .blocked) holders := by
  have idle : ∀ k, 0 ≤ k → kernel.processes.current ∉ waiters kernel k := fun k within =>
    apart.current within running
  have entry : kernel.processes.current ≠ NO_BLOCKED_QUEUE_VALUE := by
    have positive := apart.pids _ (by rw [running]; simp)
    simp only [NO_BLOCKED_QUEUE_VALUE]
    omega
  have here : waiters (kernel.addToBlocked m kernel.processes.current) m =
      ((kernel.mutexes m).toWaitQueue.addToBlocked kernel.processes.current).entries := by
    simp [waiters, MutexState.addToBlocked]
  have elsewhere : ∀ k, k ≠ m → waiters (kernel.addToBlocked m kernel.processes.current) k =
      waiters kernel k := fun k different => by
    rw [waiters, MutexState.addToBlocked, MutexState.setMutex_ne different]
  have arrived : ∀ k, ∀ pid ∈ waiters (kernel.addToBlocked m kernel.processes.current) k,
      k = m ∧ pid = kernel.processes.current ∨ pid ∈ waiters kernel k := by
    intro k pid member
    by_cases same : k = m
    · subst same
      rw [here] at member
      exact (WaitQueue.mem_addToBlocked member).imp_left fun caller => ⟨rfl, caller⟩
    · rw [elsewhere k same] at member
      exact .inr member
  refine ⟨fun q present => ?_, fun k within q queued => ?_, fun k within => ?_,
    fun k l withinK withinL pid first second => ?_, fun k within thread held queued => ?_⟩
  · rw [MutexState.changeProcessState_processes, ne_eq,
      ProcessTable.changeProcessState_eq_none] at present
    exact apart.pids q present
  · rw [MutexState.changeProcessState_processes, ProcessTable.changeProcessState_state]
    rcases arrived k q queued with ⟨-, rfl⟩ | old
    · simp [running]
    · have different : q ≠ kernel.processes.current := fun same => idle k within (same ▸ old)
      rw [if_neg different]
      exact apart.blocked k within q old
  · change (waiters (kernel.addToBlocked m kernel.processes.current) k).Nodup
    by_cases same : k = m
    · subst same
      rw [here]
      by_cases room : (kernel.mutexes k).entries.length < MAX_BLOCKED_QUEUE_SIZE
      · rw [(WaitQueue.addToBlocked_entries entry room).1.nodup_iff]
        exact List.nodup_cons.mpr ⟨idle k within, apart.once k within⟩
      · rw [WaitQueue.addToBlocked_full room]
        exact apart.once k within
    · rw [elsewhere k same]
      exact apart.once k within
  · rcases arrived k pid first with ⟨rfl, rfl⟩ | old
    · rcases arrived l _ second with ⟨rfl, -⟩ | old
      · rfl
      · exact absurd old (idle l withinL)
    · rcases arrived l pid second with ⟨rfl, rfl⟩ | older
      · exact absurd old (idle k withinK)
      · exact apart.alone k l withinK withinL pid old older
  · rcases arrived k _ queued with ⟨rfl, caller⟩ | old
    · exact other thread held caller
    · exact apart.holders k within thread held old

/-- A switch leaves the queues and goes to a process that is not BLOCKED. -/
theorem Apart.schedule (apart : Apart kernel holders) {next : Int} {processes : ProcessTable}
    (switched : kernel.processes.schedule next = some processes) :
    Apart { kernel with processes } holders ∧
      processes.state processes.current = some .running := by
  have dispatched := ProcessTable.schedule_dispatched switched
  refine ⟨⟨fun pid here => ?_, fun k inside pid queued => ?_, apart.once, apart.alone,
    apart.holders⟩, ProcessTable.schedule_running switched⟩
  · exact apart.pids pid (mt (dispatched.present pid).mpr here)
  · exact (dispatched.blocked pid).mpr (apart.blocked k inside pid queued)

/-- The process that `freeMutex` wakes leaves the queues. -/
theorem Apart.freeMutex (apart : Apart kernel holders) (inside : 0 ≤ m)
    (running : kernel.processes.state kernel.processes.current = some .running) :
    Apart (kernel.freeMutex m) holders ∧
      (kernel.freeMutex m).processes.state kernel.processes.current = some .running ∧
      ∀ pid, 0 < (kernel.mutexes m).cardinalBlocked → kernel.isValidMutex m = true →
        (waiters kernel m).head? = some pid → pid ∉ waiters (kernel.freeMutex m) m := by
  rcases kernel.freeMutex_cases m with
    ⟨processes, queues, nobody⟩ | ⟨pid, rest, queue, left, woken⟩
  · change ∀ k, waiters (kernel.freeMutex m) k = waiters kernel k at queues
    change _ → _ → waiters kernel m = [] at nobody
    refine ⟨⟨?_, ?_, ?_, ?_, ?_⟩, by rw [processes, running], ?_⟩
    · rw [processes]
      exact apart.pids
    · intro k within q member
      rw [processes]
      exact apart.blocked k within q (queues k ▸ member)
    · exact fun k => queues k ▸ apart.once k
    · exact fun k l => queues k ▸ queues l ▸ apart.alone k l
    · exact fun k => queues k ▸ apart.holders k
    · intro q waiting valid first
      rw [nobody valid waiting] at first
      cases first
  · change waiters kernel m = pid :: rest at queue
    change waiters (kernel.freeMutex m) m = rest at left
    have once := apart.once m inside
    rw [queue] at once
    obtain ⟨gone, once⟩ := List.nodup_cons.mp once
    have others : ∀ k, k ≠ m → waiters (kernel.freeMutex m) k = waiters kernel k :=
      fun k different => by rw [waiters, MutexState.freeMutex_ne different]
    have fewer : ∀ k, ∀ q ∈ waiters (kernel.freeMutex m) k, q ∈ waiters kernel k := by
      intro k q member
      by_cases same : k = m
      · subst same
        rw [left] at member
        rw [queue]
        exact List.mem_cons_of_mem _ member
      · rwa [others k same] at member
    -- A pid that is still in a queue is not the one that was woken.
    have notWoken : ∀ k, 0 ≤ k → ∀ q ∈ waiters (kernel.freeMutex m) k, q ≠ pid := by
      rintro k within q member rfl
      obtain rfl : k = m := apart.alone k m within inside q (fewer k q member) (by simp [queue])
      rw [left] at member
      exact gone member
    refine ⟨⟨fun q here => ?_, fun k within q member => ?_, fun k within => ?_,
      fun k l withinK withinL q first second => ?_, fun k within thread held member => ?_⟩, ?_, ?_⟩
    · rw [woken, ne_eq, ProcessTable.changeProcessState_eq_none] at here
      exact apart.pids q here
    · rw [woken, ProcessTable.changeProcessState_ne (notWoken k within q member)]
      exact apart.blocked k within q (fewer k q member)
    · by_cases same : k = m
      · subst same
        rwa [left]
      · rw [others k same]
        exact apart.once k within
    · exact apart.alone k l withinK withinL q (fewer k q first) (fewer l q second)
    · exact apart.holders k within thread held (fewer k _ member)
    · have other : kernel.processes.current ≠ pid := by
        rintro rfl
        exact apart.current inside running (by simp [queue])
      rw [woken, ProcessTable.changeProcessState_ne other, running]
    · intro q _ _ first
      rw [queue, List.head?_cons, Option.some.injEq] at first
      rw [left, ← first]
      exact gone

end Apart

/-! ## Every run -/

/-- The invariant of the runs. -/
structure Separate (state : ThreadLockRun) : Prop extends Apart state.kernel state.holders where
  running : state.kernel.processes.state state.current = some .running

theorem Start.separate {state : ThreadLockRun} (start : Start state) : Separate state := by
  refine ⟨⟨start.pids, ?_, ?_, ?_, ?_⟩, start.running⟩
  · intro m inside pid queued
    rw [waiters, start.nobody m inside] at queued
    cases queued
  · intro m inside
    rw [waiters, start.nobody m inside]
    exact List.nodup_nil
  · intro m k inside _ pid queued
    rw [waiters, start.nobody m inside] at queued
    cases queued
  · intro m _ thread held
    rw [start.free] at held
    cases held

theorem Apart.dispatch {kernel : MutexState} {process : Int → Process}
    {pending : ThreadId → Option LockWait} {holders : Int → List ThreadId} {next : Int}
    {after : ThreadLockRun} (apart : Apart kernel holders)
    (switched : ThreadLockRun.dispatch ⟨kernel, process, pending, holders⟩ next = some after) :
    Separate after := by
  obtain ⟨processes, picked, rfl⟩ := Option.map_eq_some_iff.mp switched
  obtain ⟨kept, running⟩ := apart.schedule picked
  exact ⟨kept, running⟩

/-- A call of `lockMutex` keeps the queues apart from the holders. -/
theorem Separate.lockMutex {state after : ThreadLockRun} (separate : Separate state)
    {m garbage next : Int} (inside : 0 ≤ m)
    (notOnOwn : state.NotOnOwn (.lockMutex m garbage next))
    (locked : state.locked m next (state.kernel.lockMutex m garbage) = some after) :
    Separate after := by
  have apart := separate.toApart
  cases valid : state.kernel.isValidMutex m with
  | false =>
      have ignored : state.kernel.lockMutex m garbage = (state.kernel, .returned) := by
        simp [MutexState.lockMutex, valid]
      simp only [ignored, ThreadLockRun.locked, valid, Bool.false_eq_true, if_false] at locked
      obtain rfl := Option.some.inj locked
      exact separate
  | true =>
      by_cases busy : Busy (state.kernel.mutexes m)
      · cases full : state.kernel.isQueueFull m with
        | false =>
            rw [MutexState.lockMutex_queues valid busy full] at locked
            exact (apart.queue inside separate.running
              (notOnOwn valid busy full)).dispatch locked
        | true =>
            rw [MutexState.lockMutex_full valid busy full] at locked
            exact (apart.block garbage).dispatch locked
      · simp only [Busy, not_or, not_not] at busy
        rw [MutexState.lockMutex_acquires valid busy.1 busy.2] at locked
        simp only [ThreadLockRun.locked, valid, if_true] at locked
        obtain rfl := Option.some.inj locked
        have taken : Apart state.kernel
            (Function.update state.holders m (state.thread :: state.holders m)) :=
          apart.take m separate.running rfl
        exact ⟨taken.setMutex rfl, separate.running⟩

/-- A call of `freeMutex` does, too. -/
theorem Separate.freeMutex {state : ThreadLockRun} (separate : Separate state) {m : Int}
    (inside : 0 ≤ m) :
    Separate ((({ state with kernel := state.kernel.freeMutex m }).setHolders m
      ((state.holders m).erase state.thread)).handOver m
        ((state.woken m).bind (state.queuedThread m))) := by
  obtain ⟨apart, running, gone⟩ := separate.toApart.freeMutex inside separate.running
  have current : (state.kernel.freeMutex m).processes.current = state.kernel.processes.current :=
    MutexState.freeMutex_current _ _
  have left : Apart (state.kernel.freeMutex m)
      (Function.update state.holders m ((state.holders m).erase state.thread)) :=
    apart.setHolders fun _ thread member =>
      apart.holders m inside thread (List.mem_of_mem_erase member)
  have still : (state.kernel.freeMutex m).processes.state
      (state.kernel.freeMutex m).processes.current = some .running := by
    rw [current]
    exact running
  cases handed : (state.woken m).bind (state.queuedThread m) with
  | none => exact ⟨left, still⟩
  | some thread =>
      obtain ⟨pid, woken, queued⟩ := Option.bind_eq_some_iff.mp handed
      have isPid : thread.1 = pid := by
        obtain ⟨index, -, rfl⟩ := List.mem_map.mp (List.mem_of_find?_eq_some queued)
        rfl
      simp only [ThreadLockRun.woken] at woken
      split at woken
      · rename_i waiting
        have kept : Apart (state.kernel.freeMutex m) (Function.update (Function.update
            state.holders m ((state.holders m).erase state.thread)) m
              (thread :: Function.update state.holders m
                ((state.holders m).erase state.thread) m)) := by
          refine left.setHolders fun _ other member => ?_
          rcases List.mem_cons.mp member with rfl | held
          · rw [isPid]
            exact gone pid waiting.2 waiting.1 woken
          · exact left.holders m inside other held
        exact ⟨kept, still⟩
      · cases woken

theorem separate_step (state : ThreadLockRun) (action : ThreadLockAction) (next : ThreadLockRun)
    (separate : Separate state) (notOnOwn : state.NotOnOwn action)
    (stepped : state.step action = some next) : Separate next := by
  cases action with
  | lockMutex m garbage switch =>
      simp only [step] at stepped
      split at stepped
      · rename_i may
        exact separate.lockMutex may.1 notOnOwn stepped
      · cases stepped
  | freeMutex m =>
      simp only [step] at stepped
      split at stepped
      · rename_i may
        obtain rfl := Option.some.inj stepped
        exact separate.freeMutex may.1
      · cases stepped
  | resume =>
      obtain ⟨wait, -, rfl⟩ := Option.map_eq_some_iff.mp stepped
      dsimp only
      split
      · exact ⟨separate.toApart, separate.running⟩
      · exact ⟨separate.toApart.take wait.mutex separate.running rfl, separate.running⟩
  | timerTick switch =>
      obtain ⟨switched, dispatched, rest⟩ := Option.bind_eq_some_iff.mp stepped
      obtain ⟨index, -, result⟩ := Option.bind_eq_some_iff.mp rest
      obtain rfl := Option.some.inj result
      have kept := separate.toApart.dispatch dispatched
      exact ⟨kept.toApart, kept.running⟩

/-- Who queues up for a mutex blocks its own process only. -/
theorem lockMutex_blocks_caller {state after : ThreadLockRun} {m garbage next pid : Int}
    (slot : state.kernel.isQueueFull m = false)
    (stepped : state.step (.lockMutex m garbage next) = some after)
    (blocked : after.kernel.processes.state pid = some .blocked) :
    state.kernel.processes.state pid = some .blocked ∨
      pid = state.current ∧ state.kernel.isValidMutex m = true ∧ Busy (state.kernel.mutexes m) := by
  simp only [step] at stepped
  split at stepped
  case isFalse => cases stepped
  cases valid : state.kernel.isValidMutex m with
  | false =>
      have ignored : state.kernel.lockMutex m garbage = (state.kernel, .returned) := by
        simp [MutexState.lockMutex, valid]
      simp only [ignored, locked, valid, Bool.false_eq_true, if_false] at stepped
      obtain rfl := Option.some.inj stepped
      exact .inl blocked
  | true =>
      by_cases busy : Busy (state.kernel.mutexes m)
      · rw [MutexState.lockMutex_queues valid busy slot] at stepped
        obtain ⟨processes, picked, rfl⟩ := Option.map_eq_some_iff.mp stepped
        rw [(ProcessTable.schedule_dispatched picked).blocked] at blocked
        by_cases caller : pid = state.current
        · exact .inr ⟨caller, rfl, busy⟩
        · exact .inl (by rwa [← ProcessTable.changeProcessState_ne caller])
      · simp only [Busy, not_or, not_not] at busy
        rw [MutexState.lockMutex_acquires valid busy.1 busy.2] at stepped
        simp only [locked, valid, if_true] at stepped
        obtain rfl := Option.some.inj stepped
        exact .inl blocked

/-- In every run in which no process is queued on a mutex that one of its threads has, the
process of a thread with a mutex is not in its queue, and those who queue up for the
mutex do not block it. -/
theorem holders_are_not_queued {start final : ThreadLockRun} {actions : List ThreadLockAction}
    (begins : Start start) (notOnOwn : Along step NotOnOwn start actions)
    (ran : run step start actions = some final) {m : Int} (inside : 0 ≤ m) {thread : ThreadId}
    (held : thread ∈ final.holders m) :
    thread.1 ∉ (final.kernel.mutexes m).entries ∧
      ∀ garbage next after, final.NotOnOwn (.lockMutex m garbage next) →
        final.kernel.isQueueFull m = false →
        final.step (.lockMutex m garbage next) = some after →
        after.kernel.processes.state thread.1 = some .blocked →
        final.kernel.processes.state thread.1 = some .blocked := by
  have separate : Separate final := Along.invariant separate_step begins.separate notOnOwn ran
  refine ⟨separate.holders m inside thread held, ?_⟩
  intro garbage next after spares slot stepped blocked
  rcases lockMutex_blocks_caller slot stepped blocked with before | ⟨caller, valid, busy⟩
  · exact before
  · exact absurd caller (spares valid busy slot thread held)

/-- `init` and two processes with two threads each; process `1` runs. -/
def twoThreads : ThreadLockRun where
  kernel :=
    { processes :=
        { state := fun pid =>
            if pid = 1 then some .running else if pid = 0 ∨ pid = 2 then some .ready else none
          current := 1 }
      mutexes := fun _ =>
        { WaitQueue.empty with used := true, name := none, mutex := 0, pidCreator := 0 } }
  process := fun pid =>
    { pid, state := .ready, activeThread := 0, numberOfThreads := 2
      thread := #v[4096, 8192, NULL, NULL, NULL, NULL, NULL, NULL, NULL, NULL]
      heap := NULL, pagesIndex := 0, pages := Vector.replicate _ NULL }
  pending := fun _ => none
  holders := fun _ => []

theorem twoThreads_start : Start twoThreads where
  nobody _ _ := WaitQueue.entries_empty
  outside _ := rfl
  free _ := rfl
  pids pid here := by
    simp only [twoThreads, ne_eq] at here
    by_contra negative
    rw [if_neg (by omega), if_neg (by omega)] at here
    exact here rfl
  running := rfl

/-- A thread of process `2` waits for the mutex of a thread of process `1`, whose other
thread takes another mutex meanwhile. -/
def waitsForOther : List ThreadLockAction :=
  [.lockMutex 5 0 0, .timerTick 2, .lockMutex 5 0 0, .timerTick 1, .lockMutex 6 0 0,
    .timerTick 0, .timerTick 1, .freeMutex 5, .timerTick 2]

theorem waitsForOther_not_queued : ∃ final, run step twoThreads waitsForOther = some final ∧
    (2, 1) ∈ final.holders 5 ∧ 2 ∉ (final.kernel.mutexes 5).entries ∧
      ∀ garbage next after, final.NotOnOwn (.lockMutex 5 garbage next) →
        final.kernel.isQueueFull 5 = false →
        final.step (.lockMutex 5 garbage next) = some after →
        after.kernel.processes.state 2 = some .blocked →
        final.kernel.processes.state 2 = some .blocked := by
  have result : (run step twoThreads waitsForOther).map (fun final => final.holders 5) =
      some [(2, 1)] := by
    decide +kernel
  obtain ⟨final, ran, threads⟩ := Option.map_eq_some_iff.mp result
  have held : (2, 1) ∈ final.holders 5 := by
    rw [threads]
    exact List.mem_singleton.mpr rfl
  obtain ⟨outside, spared⟩ :=
    holders_are_not_queued twoThreads_start (by decide +kernel) ran (by decide) held
  exact ⟨final, ran, held, outside, spared⟩

/-- A thread of process `1` has a mutex. Two ticks later the other thread runs, and
waits for it. -/
def waitsForOwn : List ThreadLockAction :=
  [.lockMutex 5 0 0, .timerTick 0, .timerTick 1, .lockMutex 5 0 2]

/-- The process is BLOCKED in the queue of the mutex that its first thread has. -/
theorem holder_gets_blocked : ∃ final, Start twoThreads ∧
    run step twoThreads waitsForOwn = some final ∧ (1, 0) ∈ final.holders 5 ∧
      1 ∈ (final.kernel.mutexes 5).entries ∧
      final.kernel.processes.state 1 = some .blocked := by
  have result : (run step twoThreads waitsForOwn).map (fun final =>
      (final.holders 5, (final.kernel.mutexes 5).entries, final.kernel.processes.state 1)) =
      some ([(1, 0)], [1], some .blocked) := by
    decide +kernel
  obtain ⟨final, ran, outcome⟩ := Option.map_eq_some_iff.mp result
  simp only [Prod.mk.injEq] at outcome
  obtain ⟨threads, queue, blocked⟩ := outcome
  refine ⟨final, twoThreads_start, ran, ?_, ?_, blocked⟩
  · rw [threads]
    exact List.mem_singleton.mpr rfl
  · rw [queue]
    exact List.mem_singleton.mpr rfl

end ThreadLockRun

end SistemasOperativos.Kernel
