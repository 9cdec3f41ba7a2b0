import SistemasOperativos.Kernel.PipeTable

/-!
# The process states that the calls assign

A call changes the processes through `changeProcessState` alone: `Assigns` is a
sequence of its calls that make processes READY, or BLOCKED where they may be. A call
blocks its caller only, with one exception. A `lockMutex` that finds the queue full
blocks the process of a variable that it never assigned (`IpcState.enter_assigns`).
`FindsFull` says of a call, before it is made, that one of its locks comes to that.
-/

namespace SistemasOperativos.Kernel

open SistemasOperativos.Foundation

/-- Calls of `changeProcessState` that lead from one table to another one. They make a
process READY, or BLOCKED when it satisfies `blocks`. -/
inductive Assigns (blocks : Int → Prop) : ProcessTable → ProcessTable → Prop where
  | refl (table : ProcessTable) : Assigns blocks table table
  | ready {before after : ProcessTable} (pid : Int) (earlier : Assigns blocks before after) :
      Assigns blocks before (after.changeProcessState pid .ready)
  | blocked {before after : ProcessTable} (pid : Int) (allowed : blocks pid)
      (earlier : Assigns blocks before after) :
      Assigns blocks before (after.changeProcessState pid .blocked)

namespace Assigns

variable {blocks : Int → Prop} {a b c : ProcessTable}

/-- Calls one after the other are calls. -/
theorem trans (first : Assigns blocks a b) (second : Assigns blocks b c) : Assigns blocks a c := by
  induction second with
  | refl => exact first
  | ready pid _ ih => exact .ready pid ih
  | blocked pid allowed _ ih => exact .blocked pid allowed ih

/-- Calls that may block fewer processes are among those that may block more. -/
theorem mono {other : Int → Prop} (weaker : ∀ pid, blocks pid → other pid)
    (assigns : Assigns blocks a b) : Assigns other a b := by
  induction assigns with
  | refl => exact .refl _
  | ready pid _ ih => exact .ready pid ih
  | blocked pid allowed _ ih => exact .blocked pid (weaker pid allowed) ih

/-- The calls do not switch. -/
theorem current (assigns : Assigns blocks a b) : b.current = a.current := by
  induction assigns with
  | refl => rfl
  | ready pid _ ih => rw [ProcessTable.changeProcessState_current, ih]
  | blocked pid _ _ ih => rw [ProcessTable.changeProcessState_current, ih]

/-- No process comes or goes. -/
theorem eq_none (assigns : Assigns blocks a b) (pid : Int) :
    b.state pid = none ↔ a.state pid = none := by
  induction assigns with
  | refl => rfl
  | ready q _ ih => rw [ProcessTable.changeProcessState_eq_none, ih]
  | blocked q _ _ ih => rw [ProcessTable.changeProcessState_eq_none, ih]

/-- A process that may not be blocked keeps its state or gets READY. -/
theorem kept (assigns : Assigns blocks a b) {pid : Int} (spared : ¬ blocks pid) :
    b.state pid = a.state pid ∨ a.state pid ≠ none ∧ b.state pid = some .ready := by
  induction assigns with
  | refl => exact .inl rfl
  | ready q _ ih =>
      rw [ProcessTable.changeProcessState_state]
      split
      · rename_i same
        subst same
        rcases ih with same | ⟨here, ready⟩
        · rw [same]
          cases here : a.state pid with
          | none => exact .inl rfl
          | some processState => exact .inr ⟨by simp, rfl⟩
        · exact .inr ⟨here, by rw [ready]; rfl⟩
      · exact ih
  | blocked q allowed _ ih =>
      have other : pid ≠ q := by
        rintro rfl
        exact spared allowed
      rwa [ProcessTable.changeProcessState_ne other]

/-- No call makes a process RUNNING. -/
theorem of_running (assigns : Assigns blocks a b) {pid : Int}
    (runs : b.state pid = some .running) : a.state pid = some .running := by
  induction assigns with
  | refl => exact runs
  | ready q _ ih | blocked q _ _ ih =>
      rw [ProcessTable.changeProcessState_state] at runs
      split at runs
      · obtain ⟨_, -, other⟩ := Option.map_eq_some_iff.mp runs
        cases other
      · exact ih runs

end Assigns

/-- The processes that a call may block: its caller, and the value of the unassigned
variable when the call `reads` it. -/
def MayBlock (caller garbage : Int) (reads : Prop) (pid : Int) : Prop :=
  pid = caller ∨ reads ∧ pid = garbage

/-- A call that reads the variable in fewer cases blocks no more. -/
theorem MayBlock.mono {caller garbage pid : Int} {reads wider : Prop} (implies : reads → wider)
    (blocks : MayBlock caller garbage reads pid) : MayBlock caller garbage wider pid :=
  blocks.imp_right fun ⟨here, same⟩ => ⟨implies here, same⟩

namespace MutexState

/-- The branch of `lockMutex` that uses `pid` unassigned: the handle is valid, its mutex is
not free, and the queue is full. -/
def FindsFull (state : MutexState) (mutex : Int) : Prop :=
  state.isValidMutex mutex = true ∧ Busy (state.mutexes mutex) ∧ state.isQueueFull mutex = true

instance (state : MutexState) (mutex : Int) : Decidable (state.FindsFull mutex) :=
  inferInstanceAs (Decidable (_ ∧ _))

variable {state : MutexState} {blocks : Int → Prop}

/-- `lockMutex` blocks its caller, or the unassigned pid when the queue is full. -/
theorem lockMutex_assigns (state : MutexState) (mutex garbage : Int) :
    Assigns (MayBlock state.processes.current garbage (state.FindsFull mutex)) state.processes
      (state.lockMutex mutex garbage).1.processes := by
  by_cases uncontended : state.Uncontended mutex
  · obtain ⟨mutexes, locked, -⟩ := lockMutex_uncontended uncontended garbage
    rw [locked]
    exact .refl _
  · simp only [Uncontended, Classical.not_imp, not_not] at uncontended
    obtain ⟨valid, busy⟩ := uncontended
    cases full : state.isQueueFull mutex with
    | false =>
        rw [lockMutex_queues valid busy full]
        exact .blocked _ (.inl rfl) (.refl _)
    | true =>
        rw [lockMutex_full valid busy full]
        exact .blocked _ (.inr ⟨⟨valid, busy, full⟩, rfl⟩) (.refl _)

/-- A lock that was taken leaves the processes, and its mutex with nobody in the queue. -/
theorem lockMutex_taken {mutex garbage : Int} {after : MutexState}
    (taken : state.lockMutex mutex garbage = (after, .returned)) :
    state.Uncontended mutex ∧ after.processes = state.processes ∧
      ∀ other, after.FindsFull other → other ≠ mutex ∧ state.FindsFull other := by
  have uncontended := lockMutex_returned.mp (congrArg Prod.snd taken)
  refine ⟨uncontended, ?_⟩
  cases valid : state.isValidMutex mutex with
  | false =>
      obtain rfl : state = after := by simpa [lockMutex, valid] using taken
      refine ⟨rfl, fun other full => ⟨?_, full⟩⟩
      rintro rfl
      exact absurd full.1 (by simp [valid])
  | true =>
      have idle := uncontended valid
      simp only [Busy, not_or, not_not] at idle
      rw [lockMutex_acquires valid idle.1 idle.2] at taken
      obtain ⟨rfl, -⟩ := Prod.mk.inj taken
      refine ⟨rfl, fun other full => ?_⟩
      have different : other ≠ mutex := by
        rintro rfl
        have empty := full.2.2
        simp [isQueueFull, WaitQueue.isQueueFull, MAX_BLOCKED_QUEUE_SIZE] at empty
      refine ⟨different, ?_⟩
      simpa only [FindsFull, isValidMutex, isQueueFull, setMutex_ne different] using full

/-- `freeMutex` only makes processes READY. -/
theorem freeMutex_assigns (blocks : Int → Prop) (state : MutexState) (mutex : Int) :
    Assigns blocks state.processes (state.freeMutex mutex).processes := by
  rcases state.freeMutex_processes mutex with same | ⟨woken, changed⟩
  · rw [same]
    exact .refl _
  · rw [changed]
    exact .ready woken (.refl _)

/-- The caller blocks and frees the mutex. -/
theorem blockCurrent_assigns (state : MutexState) (mutex : Int) :
    Assigns (fun pid => pid = state.processes.current) state.processes
      ((state.changeProcessState state.processes.current .blocked).freeMutex mutex).processes := by
  have blocked : Assigns (fun pid => pid = state.processes.current) state.processes
      (state.changeProcessState state.processes.current .blocked).processes :=
    .blocked _ rfl (.refl _)
  exact blocked.trans (freeMutex_assigns _ _ mutex)

/-- `getMutex` behind its lock only makes processes READY. -/
theorem getMutexLocked_assigns (blocks : Int → Prop) (state : MutexState)
    (mutexName : Option String) :
    Assigns blocks state.processes (state.getMutexLocked mutexName).1.processes := by
  simp only [getMutexLocked]
  split
  · have made : (state.createMutex mutexName).1.processes = state.processes := by
      simp only [createMutex]
      split <;> rfl
    rw [← made]
    exact freeMutex_assigns blocks _ adminMutex
  · exact freeMutex_assigns blocks _ adminMutex

/-- `getMutex` blocks as the `lockMutex` it starts with does. -/
theorem getMutex_assigns (state : MutexState) (mutexName : Option String) (garbage : Int) :
    Assigns (MayBlock state.processes.current garbage (state.FindsFull adminMutex))
      state.processes (state.getMutex mutexName garbage).1.processes := by
  have locks := lockMutex_assigns state adminMutex garbage
  simp only [getMutex]
  split <;> rename_i locked <;> rw [locked] at locks
  · exact locks.trans (getMutexLocked_assigns _ _ mutexName)
  · exact locks

/-- `closeMutex` leaves the processes. -/
@[simp] theorem closeMutex_processes (state : MutexState) (index : Int) :
    (state.closeMutex index).processes = state.processes := by
  simp only [closeMutex]
  split
  · rfl
  · split <;> rfl

end MutexState

namespace SemaphoreState

/-- `wait` behind its lock blocks its caller at most. -/
theorem waitLocked_assigns (state : SemaphoreState) (semaphore : Int) :
    Assigns (fun pid => pid = state.processes.current) state.processes
      (state.waitLocked semaphore).1.processes := by
  simp only [waitLocked]
  split
  · exact MutexState.freeMutex_assigns _ _ _
  · exact MutexState.blockCurrent_assigns state.toMutexState _

/-- `wait` blocks its caller, or the unassigned pid when the queue of the guard is full. -/
theorem wait_assigns (state : SemaphoreState) (semaphore garbage : Int) :
    Assigns (MayBlock state.processes.current garbage
        (state.isValidSemaphore semaphore = true ∧
          state.FindsFull (state.semaphores semaphore).mutex))
      state.processes (state.wait semaphore garbage).1.processes := by
  simp only [wait]
  split
  · exact .refl _
  · rename_i valid
    have locks := (state.lockMutex_assigns (state.semaphores semaphore).mutex garbage).mono
      fun pid => MayBlock.mono fun full => And.intro (by simpa using valid) full
    split <;> rename_i mutexes locked <;> rw [locked] at locks
    · exact locks
    · have rest := waitLocked_assigns { state with toMutexState := mutexes } semaphore
      have ours : ∀ pid, pid = mutexes.processes.current → MayBlock state.processes.current garbage
          (state.isValidSemaphore semaphore = true ∧
            state.FindsFull (state.semaphores semaphore).mutex) pid := fun pid same =>
        .inl (same.trans locks.current)
      split <;> rename_i done <;> rw [done] at rest <;> exact locks.trans (rest.mono ours)

/-- `signal` only makes processes READY. -/
theorem signal_assigns (blocks : Int → Prop) (state : SemaphoreState) (semaphore : Int) :
    Assigns blocks state.processes (state.signal semaphore).processes := by
  simp only [signal]
  split
  · exact .refl _
  · split
    · simp only [setSemaphore_toMutexState, unblockProcessSemaphore, WaitQueue.unblockProcess]
      split
      · exact .ready _ (.refl _)
      · exact .refl _
    · exact .refl _

/-- `createSemaphore` blocks as the `getMutex` in it does. -/
theorem createSemaphore_assigns (state : SemaphoreState) (semName : Option String)
    (start garbage : Int) :
    Assigns (MayBlock state.processes.current garbage
        (state.getFreePositionSemaphores ≠ NO_SPACE_LEFT_M ∧
          state.FindsFull MutexState.adminMutex))
      state.processes (state.createSemaphore semName start garbage).1.processes := by
  simp only [createSemaphore]
  split
  · exact .refl _
  · rename_i space
    have gets := (state.getMutex_assigns semName garbage).mono
      fun pid => MayBlock.mono fun full => And.intro space full
    split <;> rename_i got <;> rw [setSemaphore_toMutexState] at got <;> rw [got] at gets <;>
      exact gets

end SemaphoreState

namespace SyncState

/-- A lock in the rest of the call finds its queue full. -/
def RestFindsFull (state : SyncState) : Pending → Prop
  | .semCreate name _ =>
      state.getSemIndex name = MUTEX_NOT_FOUND ∧
        state.getFreePositionSemaphores ≠ NO_SPACE_LEFT_M ∧
        state.toMutexState.FindsFull MutexState.adminMutex
  | _ => False

/-- A lock in the call finds its queue full. -/
def FindsFull (state : SyncState) : SyncCall → Prop
  | .lockMutex mutex => state.toMutexState.FindsFull mutex
  | .getMutex _ => state.toMutexState.FindsFull MutexState.adminMutex
  | .semCreate name start =>
      state.toMutexState.FindsFull state.semaphoreMutex ∨
        state.semaphoreMutex ≠ MutexState.adminMutex ∧
          state.Uncontended state.semaphoreMutex ∧ state.RestFindsFull (.semCreate name start)
  | .wait semaphore =>
      state.isValidSemaphore semaphore = true ∧
        state.toMutexState.FindsFull (state.semaphores semaphore).mutex
  | _ => False

instance (state : SyncState) (pending : Pending) : Decidable (state.RestFindsFull pending) :=
  match pending with
  | .lockMutex | .getMutex _ | .semCreate _ _ | .createSemaphore _ _ _ _ | .waitLocked _
  | .wait => by
      unfold RestFindsFull
      infer_instance

instance (state : SyncState) (call : SyncCall) : Decidable (state.FindsFull call) :=
  match call with
  | .lockMutex _ | .freeMutex _ | .getMutex _ | .closeMutex _ | .semCreate _ _ | .wait _
  | .signal _ | .semClose _ => by
      unfold FindsFull
      infer_instance

/-- `semCreate` behind its lock blocks as the rest of it does. -/
theorem semCreateLocked_assigns (state : SyncState) (name : Option String) (start garbage : Int) :
    Assigns (MayBlock state.processes.current garbage (state.RestFindsFull (.semCreate name start)))
      state.processes (state.semCreateLocked name start garbage).1.processes := by
  simp only [semCreateLocked]
  split
  · exact .refl _
  · rename_i new
    have creates : Assigns (MayBlock state.processes.current garbage
        (state.RestFindsFull (.semCreate name start)))
        state.processes (state.createSemaphore name start garbage).1.processes :=
      (state.createSemaphore_assigns name start garbage).mono
        fun pid => MayBlock.mono fun full => And.intro (not_not.mp new) full
    split <;> rename_i created <;> rw [created] at creates
    · exact creates.trans (MutexState.freeMutex_assigns _ _ _)
    · exact creates

/-- A call blocks its caller only, and the value of the unassigned variable. -/
theorem enter_assigns (state : SyncState) (garbage : Int) (call : SyncCall) :
    Assigns (MayBlock state.processes.current garbage (state.FindsFull call)) state.processes
      (state.enter garbage call).1.processes := by
  cases call with
  | lockMutex mutex =>
      have locks := state.lockMutex_assigns mutex garbage
      simp only [enter]
      split <;> rename_i locked <;> rw [locked] at locks <;> exact locks
  | freeMutex mutex => exact MutexState.freeMutex_assigns _ _ _
  | getMutex mutexName =>
      have gets := state.getMutex_assigns mutexName garbage
      simp only [enter]
      split <;> rename_i got <;> rw [got] at gets <;> exact gets
  | closeMutex index =>
      simp only [enter, MutexState.closeMutex_processes]
      exact .refl _
  | semCreate name start =>
      have locks := state.lockMutex_assigns state.semaphoreMutex garbage
      simp only [enter, semCreate]
      split <;> rename_i mutexes locked
      · obtain ⟨uncontended, same, fewer⟩ := MutexState.lockMutex_taken locked
        have creates := semCreateLocked_assigns { state with toMutexState := mutexes } name start
          garbage
        simp only [same] at creates
        refine creates.mono fun pid => MayBlock.mono ?_
        rintro ⟨new, space, full⟩
        obtain ⟨different, full⟩ := fewer _ full
        exact .inr ⟨different.symm, uncontended, new, space, full⟩
      · rw [locked] at locks
        exact locks.mono fun pid => MayBlock.mono .inl
  | wait semaphore =>
      have waits := state.wait_assigns semaphore garbage
      simp only [enter]
      split <;> rename_i waited <;> rw [waited] at waits <;> exact waits
  | signal semaphore => exact SemaphoreState.signal_assigns _ _ _
  | semClose index =>
      simp only [enter, SemaphoreState.semClose]
      split
      · exact .refl _
      · split <;> exact .refl _

/-- The same of the rest of a call. -/
theorem resume_assigns (state : SyncState) (garbage : Int) (pending : Pending) :
    Assigns (MayBlock state.processes.current garbage (state.RestFindsFull pending))
      state.processes (state.resume garbage pending).1.processes := by
  cases pending with
  | lockMutex | wait => exact .refl _
  | getMutex mutexName => exact MutexState.getMutexLocked_assigns _ _ _
  | semCreate name start => exact semCreateLocked_assigns state name start garbage
  | createSemaphore name start pid index =>
      exact (MutexState.getMutexLocked_assigns _ _ name).trans (MutexState.freeMutex_assigns _ _ _)
  | waitLocked semaphore =>
      have waits : Assigns (MayBlock state.processes.current garbage
          (state.RestFindsFull (.waitLocked semaphore)))
          state.processes (state.toSemaphoreState.waitLocked semaphore).1.processes :=
        (state.toSemaphoreState.waitLocked_assigns semaphore).mono fun pid same => .inl same
      simp only [resume]
      split <;> rename_i waited <;> rw [waited] at waits <;> exact waits

end SyncState

namespace PipeState

/-- Waking the processes that are recorded only makes processes READY. -/
theorem wakeAll_assigns (blocks : Int → Prop) (state : PipeState) (blocked count : Nat) :
    Assigns blocks state.processes (state.wakeAll blocked count) := by
  induction count with
  | zero => exact .refl _
  | succ count ih => exact .ready _ ih

/-- `unlockProcesses` only makes processes READY. -/
theorem unlockProcesses_assigns (blocks : Int → Prop) (state : PipeState) (name : Option String) :
    Assigns blocks state.processes (state.unlockProcesses name).processes := by
  rcases state.unlockProcesses_cases name with same | ⟨q, woken⟩
  · rw [same]
    exact .refl _
  · rw [woken]
    exact wakeAll_assigns _ _ _ _

/-- `write` blocks at most its caller. -/
theorem writeLocked_assigns (state : PipeState) (p : Nat) (message : List UInt8) (aux : Nat) :
    Assigns (fun pid => pid = state.processes.current) state.processes
      (state.writeLocked p message aux).1.processes := by
  simp only [writeLocked]
  split
  · exact MutexState.blockCurrent_assigns state.toMutexState _
  · exact (unlockProcesses_assigns _ (state.setPipe p ((state.pipe p).append message aux).1)
      (state.pipe p).name).trans (MutexState.freeMutex_assigns _ _ _)

/-- So does `read`. -/
theorem readLocked_assigns (state : PipeState) (p : Nat) (bytes : Int) (aux : Nat) :
    Assigns (fun pid => pid = state.processes.current) state.processes
      (state.readLocked p bytes aux).1.processes := by
  simp only [readLocked]
  split
  · exact MutexState.blockCurrent_assigns state.toMutexState _
  · exact MutexState.freeMutex_assigns _ _ _

end PipeState

namespace PipeTable

/-- A lock in the rest of `createPipe` finds its queue full. -/
def CreateFindsFull (table : PipeTable) (name : Option String) : Prop :=
  0 ≤ table.lastPipeName ∧ table.nextEntry ≠ NO_SPACE_LEFT ∧ name ≠ none ∧
    table.FindsFull MutexState.adminMutex

instance (table : PipeTable) (name : Option String) : Decidable (table.CreateFindsFull name) :=
  inferInstanceAs (Decidable (_ ∧ _))

/-- The end of `createPipe` only wakes whoever waits for the mutex. -/
theorem createPipeReturn_assigns (blocks : Int → Prop) {table after : PipeTable}
    {name : Option String} {pipe created : Option Nat} {mutex : Int}
    (returned : table.createPipeReturn name pipe mutex = some (after, created)) :
    Assigns blocks table.processes after.processes := by
  simp only [createPipeReturn] at returned
  split at returned
  · obtain ⟨rfl, -⟩ := Prod.mk.inj (Option.some.inj returned)
    exact MutexState.freeMutex_assigns _ _ _
  · cases returned

/-- `createPipe` behind its lock blocks as the `getMutex` in it does. -/
theorem createPipeLocked_assigns {table after : PipeTable} {name : Option String} {garbage : Int}
    {progress : CreateProgress}
    (created : table.createPipeLocked name garbage = some (after, progress)) :
    Assigns (MayBlock table.processes.current garbage (table.CreateFindsFull name))
      table.processes after.processes := by
  have same := createStruct_mutexes (table.setLast table.nextEntry) name
  simp only [createPipeLocked] at created
  split at created
  · cases created
  · rename_i low
    split at created
    · obtain ⟨rfl, -⟩ := Prod.mk.inj (Option.some.inj created)
      exact .refl _
    · rename_i goesOn
      simp only [not_or] at goesOn
      have gets := (((table.setLast table.nextEntry).createStruct name).1.getMutex_assigns name
        garbage)
      rw [same] at gets created
      have gets := gets.mono fun pid => MayBlock.mono fun full =>
        show table.CreateFindsFull name from ⟨not_lt.mp low, goesOn.1, goesOn.2, full⟩
      split at created <;> rename_i got <;> rw [got] at gets
      · obtain ⟨⟨made, pipe⟩, returned, pair⟩ := Option.map_eq_some_iff.mp created
        obtain ⟨rfl, -⟩ := Prod.mk.inj pair
        exact gets.trans (createPipeReturn_assigns _ returned)
      · obtain ⟨rfl, -⟩ := Prod.mk.inj (Option.some.inj created)
        exact gets

/-- `openPipe` only wakes whoever waits for the mutex. -/
theorem openPipeLocked_assigns (blocks : Int → Prop) (table : PipeTable) (name : Option String) :
    Assigns blocks table.processes (table.openPipeLocked name).1.processes := by
  simp only [openPipeLocked]
  split
  · exact .refl _
  · exact MutexState.freeMutex_assigns _ _ _

/-- `closePipe` does not touch the processes. -/
theorem closePipe_processes {table after : PipeTable} {p : Nat}
    (closed : table.closePipe p = some after) : after.processes = table.processes := by
  simp only [closePipe] at closed
  split at closed
  · obtain rfl := Option.some.inj closed
    rfl
  · split at closed
    · cases closed
    · obtain ⟨k, -, rfl⟩ := Option.map_eq_some_iff.mp closed
      rfl

end PipeTable

namespace IpcState

/-- A lock in the rest of the call finds its queue full. -/
def RestFindsFull (state : IpcState) : IpcPending → Prop
  | .sync pending => state.sync.RestFindsFull pending
  | .createPipe name => state.toPipeTable.CreateFindsFull name
  | _ => False

/-- A call that locks `mutex` first finds a queue full. -/
def LockFindsFull (state : IpcState) (mutex : Int) (rest : IpcPending) : Prop :=
  state.toMutexState.FindsFull mutex ∨
    mutex ≠ MutexState.adminMutex ∧ state.Uncontended mutex ∧ state.RestFindsFull rest

/-- A lock in the call finds its queue full. -/
def FindsFull (state : IpcState) : IpcCall → Prop
  | .sync call => state.sync.FindsFull call
  | .createPipe name => state.LockFindsFull state.ipcAdminMutex (.createPipe name)
  | .openPipe _ => state.toMutexState.FindsFull state.ipcAdminMutex
  | .closePipe _ => False
  | .write p _ | .read p _ => state.toMutexState.FindsFull (state.pipe p).mutex

instance (state : IpcState) (pending : IpcPending) : Decidable (state.RestFindsFull pending) :=
  match pending with
  | .sync _ | .createPipe _ | .createPipeMutex _ _ | .openPipe _ | .write _ _ _
  | .read _ _ _ => by
      unfold RestFindsFull
      infer_instance

instance (state : IpcState) (call : IpcCall) : Decidable (state.FindsFull call) :=
  match call with
  | .sync _ | .createPipe _ | .openPipe _ | .closePipe _ | .write _ _ | .read _ _ => by
      unfold FindsFull LockFindsFull
      infer_instance

/-- The rest of a call blocks its caller only, and the value of the unassigned variable. -/
theorem resume_assigns {state after : IpcState} {garbage : Int} {pending : IpcPending}
    {outcome : IpcOutcome} (resumed : state.resume garbage pending = some (after, outcome)) :
    Assigns (MayBlock state.processes.current garbage (state.RestFindsFull pending))
      state.processes after.processes := by
  cases pending with
  | sync pending =>
      have rest := state.sync.resume_assigns garbage pending
      simp only [resume] at resumed
      split at resumed
      · split at resumed <;> rename_i done <;> rw [done] at rest <;>
          obtain ⟨rfl, -⟩ := Prod.mk.inj (Option.some.inj resumed) <;> exact rest
      · cases resumed
  | createPipe name =>
      obtain ⟨⟨table, progress⟩, created, pair⟩ := Option.map_eq_some_iff.mp resumed
      obtain ⟨rfl, -⟩ := Prod.mk.inj pair
      exact PipeTable.createPipeLocked_assigns created
  | createPipeMutex name pipe =>
      obtain ⟨⟨table, created⟩, returned, pair⟩ := Option.map_eq_some_iff.mp resumed
      obtain ⟨rfl, -⟩ := Prod.mk.inj pair
      exact (MutexState.getMutexLocked_assigns _ _ name).trans
        (PipeTable.createPipeReturn_assigns _ returned)
  | openPipe name =>
      obtain ⟨rfl, -⟩ := Prod.mk.inj (Option.some.inj resumed)
      exact PipeTable.openPipeLocked_assigns _ _ name
  | write p message aux =>
      obtain ⟨rfl, -⟩ := Prod.mk.inj (Option.some.inj resumed)
      exact (state.toPipeState.writeLocked_assigns p message aux).mono fun pid same => .inl same
  | read p bytes aux =>
      have reads := (state.toPipeState.readLocked_assigns p bytes aux).mono
        fun pid (same : pid = state.processes.current) =>
          (.inl same : MayBlock state.processes.current garbage
            (state.RestFindsFull (.read p bytes aux)) pid)
      simp only [resume, readRest] at resumed
      split at resumed <;> rename_i done <;> rw [done] at reads
      · obtain ⟨rfl, -⟩ := Prod.mk.inj (Option.some.inj resumed)
        exact reads
      · obtain ⟨rfl, -⟩ := Prod.mk.inj (Option.some.inj resumed)
        exact reads
      · cases resumed

/-- The `lockMutex` at the start of a call on the pipes blocks as `lockMutex` does. -/
theorem lockThen_assigns {state after : IpcState} {mutex garbage : Int} {rest : IpcPending}
    {outcome : IpcOutcome} (notSync : ∀ pending, rest ≠ .sync pending)
    (done : state.lockThen mutex garbage rest = some (after, outcome)) :
    Assigns (MayBlock state.processes.current garbage (state.LockFindsFull mutex rest))
      state.processes after.processes := by
  have locks := state.lockMutex_assigns mutex garbage
  rcases lockThen_cases done with ⟨mutexes, locked, rfl, rfl⟩ | ⟨mutexes, locked, resumed⟩
  · rw [locked] at locks
    exact locks.mono fun pid => MayBlock.mono .inl
  · obtain ⟨uncontended, same, fewer⟩ := MutexState.lockMutex_taken locked
    have resumes := resume_assigns resumed
    simp only [setMutexes, PipeTable.setMutexes, same] at resumes
    refine resumes.mono fun pid => MayBlock.mono fun restFull => ?_
    cases rest with
    | sync pending => exact absurd rfl (notSync pending)
    | createPipe name =>
        obtain ⟨low, entry, named, full⟩ := restFull
        obtain ⟨different, full⟩ := fewer _ full
        exact .inr ⟨different.symm, uncontended, low, entry, named, full⟩
    | createPipeMutex name pipe => cases restFull
    | openPipe name => cases restFull
    | write p message aux => cases restFull
    | read p bytes aux => cases restFull

/-- A call blocks its caller only, and, when a lock in it finds its queue full, the value
of the unassigned variable. -/
theorem enter_assigns {state after : IpcState} {garbage : Int} {call : IpcCall}
    {outcome : IpcOutcome} (entered : state.enter garbage call = some (after, outcome)) :
    Assigns (MayBlock state.processes.current garbage (state.FindsFull call)) state.processes
      after.processes := by
  cases call with
  | sync call =>
      have calls := state.sync.enter_assigns garbage call
      simp only [enter] at entered
      split at entered
      · split at entered <;> rename_i done <;> rw [done] at calls <;>
          obtain ⟨rfl, -⟩ := Prod.mk.inj (Option.some.inj entered) <;> exact calls
      · cases entered
  | createPipe name => exact lockThen_assigns (by simp) entered
  | openPipe name =>
      refine (lockThen_assigns (by simp) entered).mono fun pid => MayBlock.mono fun full => ?_
      exact full.resolve_right fun ⟨_, _, never⟩ => never
  | closePipe p =>
      obtain ⟨table, closed, pair⟩ := Option.map_eq_some_iff.mp entered
      obtain ⟨rfl, -⟩ := Prod.mk.inj pair
      rw [show table.processes = state.processes from PipeTable.closePipe_processes closed]
      exact .refl _
  | write p message =>
      refine (lockThen_assigns (by simp) entered).mono fun pid => MayBlock.mono fun full => ?_
      exact full.resolve_right fun ⟨_, _, never⟩ => never
  | read p bytes =>
      refine (lockThen_assigns (by simp) entered).mono fun pid => MayBlock.mono fun full => ?_
      exact full.resolve_right fun ⟨_, _, never⟩ => never

end IpcState

end SistemasOperativos.Kernel
