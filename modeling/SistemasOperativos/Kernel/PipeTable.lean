import SistemasOperativos.Kernel.Pipe
import SistemasOperativos.Kernel.Synchronization

/-!
# The table of pipes and the system calls

`createPipe`, `openPipe` and `closePipe` of IPC.c, and the runs of all system
calls on mutexes, semaphores and pipes after the boot sequence of `main`. The
table is guarded by `ipcAdminMutex`, a handle that only `initializePipes` would
set; `main` does not call it, so the handle is 0, the one of the mutex that guards
the mutex table, and the names are NULL.

A call runs to its end or to the `_yield` in a `lockMutex`; `IpcPending` is what is
left of it there. `none` as a result means that the code leaves an array or looks for a
name where no string is. Process 0 is `init`, which loops and makes no call.

The bytes of the arrays of pids are apart from the structs here. In the kernel both lie in
the pages of the processes, and the counters that index the arrays have no bound, so this
is the kernel as long as the stores stay among the arrays (`StaysInArrays`).
-/

namespace SistemasOperativos.Kernel

open SistemasOperativos.Semantics

/-- The pipe table with the pipe fields of the processes. -/
structure PipeTable extends PipeState where
  owner : Int → PipeOwner
  ipcAdminMutex : Int

namespace PipeTable

/-- `getPipeNameIndex`; `none` is `PIPE_NOT_FOUND`. A NULL entry equals no name. -/
def getPipeNameIndex (table : PipeTable) (name : Option String) : Option Nat :=
  (List.range MAX_PIPES).find? fun (i : Nat) => MutexState.sameName (table.pipeNames i) name

/-- The entry found has the name. -/
theorem name_of_getPipeNameIndex {table : PipeTable} {name : Option String} {i : Nat}
    (found : table.getPipeNameIndex name = some i) : table.pipeNames i = name :=
  MutexState.eq_of_sameName
    (List.find?_some (p := fun (i : Nat) => MutexState.sameName (table.pipeNames i) name) found)

/-- `getMiddleSpace`: the first entry without a name. -/
def getMiddleSpace (table : PipeTable) : Int :=
  match (List.range MAX_PIPES).find? fun (i : Nat) => (table.pipeNames i).isNone with
  | some i => i
  | none => NO_SPACE_LEFT

/-- Take over what a call did to the mutexes and processes. -/
def setMutexes (table : PipeTable) (mutexes : MutexState) : PipeTable :=
  { table with toMutexState := mutexes }

/-- Assign `lastPipeName`. -/
def setLast (table : PipeTable) (last : Int) : PipeTable := { table with lastPipeName := last }

@[simp] theorem setLast_same (table : PipeTable) : table.setLast table.lastPipeName = table := rfl

/-- The test of `lastPipeName` in `createPipe`: the entry for the next pipe. -/
def nextEntry (table : PipeTable) : Int :=
  if (MAX_PIPES : Int) ≤ table.lastPipeName ∨
      table.pipeNames table.lastPipeName.toNat ≠ none then
    table.getMiddleSpace
  else table.lastPipeName

/-- `createPipeStruct` for the process that runs. -/
def createStruct (table : PipeTable) (name : Option String) : PipeTable × Option Nat :=
  let pid := table.processes.getCurrentPid
  let (state, pro, pipe) := table.toPipeState.createPipeStruct (table.owner pid) name
  ({ table with toPipeState := state, owner := Function.update table.owner pid pro }, pipe)

/-- `createPipeStruct` leaves the mutexes. -/
theorem createStruct_mutexes (table : PipeTable) (name : Option String) :
    (table.createStruct name).1.toMutexState = table.toMutexState := by
  simp only [createStruct, PipeState.createPipeStruct]
  split <;> rfl

/-- `createPipe` from the return of `getMutex` on. A process without a free slot comes here
with NULL for its pipe: the mutex is stored through it and the name is entered. -/
def createPipeReturn (table : PipeTable) (name : Option String) (pipe : Option Nat)
    (mutex : Int) : Option (PipeTable × Option Nat) :=
  if 0 ≤ table.lastPipeName ∧ table.lastPipeName < MAX_PIPES then
    let last := table.lastPipeName.toNat
    let p := pipe.getD NULL
    let named := { table with
      pipe := Function.update table.pipe p { table.pipe p with mutex }
      pipeNames := Function.update table.pipeNames last name
      pipes := Function.update table.pipes last pipe
      lastPipeName := table.lastPipeName + 1 }
    some (named.setMutexes (named.freeMutex named.ipcAdminMutex), pipe)
  else none

/-- How far `createPipe` got after its `lockMutex`: to its end, or to the `_yield` in
its `getMutex`. -/
inductive CreateProgress where
  | returned (pipe : Option Nat)
  | yieldedInGetMutex (pipe : Option Nat)
  deriving DecidableEq, Repr

/-- `createPipe` from the return of `lockMutex` on. The two early returns leave the
mutex locked. The current process is the one that `getProcessById` finds. -/
def createPipeLocked (table : PipeTable) (name : Option String) (garbage : Int) :
    Option (PipeTable × CreateProgress) :=
  if table.lastPipeName < 0 then none
  else
    let chosen := table.setLast table.nextEntry
    if chosen.lastPipeName = NO_SPACE_LEFT ∨ name = none then some (chosen, .returned none)
    else
      let (made, pipe) := chosen.createStruct name
      match made.getMutex name garbage with
      | (mutexes, some mutex) =>
          ((made.setMutexes mutexes).createPipeReturn name pipe mutex).map
            fun (table, pipe) => (table, .returned pipe)
      | (mutexes, none) => some (made.setMutexes mutexes, .yieldedInGetMutex pipe)

/-- `openPipe` from the return of `lockMutex` on. A name that is not found is refused
with the mutex still locked; for the name of a closed pipe the pid is stored through the
NULL entry, which is also what the call returns. -/
def openPipeLocked (table : PipeTable) (name : Option String) : PipeTable × Option Nat :=
  match table.getPipeNameIndex name with
  | none => (table, none)
  | some i =>
      let p := table.pointee i
      let pipe := table.pipe p
      let noted := table.toPipeState.setEntry pipe.pipePids pipe.connected
        table.processes.getCurrentPid
      let opened :=
        { table with
          toPipeState := noted.setPipe p { pipe with connected := pipe.connected + 1 } }
      (opened.setMutexes (opened.freeMutex opened.ipcAdminMutex), table.pipes i)

/-- `openPipe` returns what stands in the entry of the name. -/
theorem openPipeLocked_snd (table : PipeTable) (name : Option String) :
    (table.openPipeLocked name).2 = (table.getPipeNameIndex name).bind table.pipes := by
  simp only [openPipeLocked]
  split <;> rename_i found <;> rw [found] <;> rfl

/-- The search of `freeSpace` for the slot of a name. -/
def freedSlot (table : PipeTable) (pro : PipeOwner) (name : Option String) : Option Nat :=
  (List.range MAX_PROCESS_PIPES).find? fun (k : Nat) =>
    MutexState.sameName (table.pipe (pro.pipesStruct k)).name name

/-- `closePipe`. For a creator other than the current process `getProcessById` walks
past the slot of the current process. -/
def closePipe (table : PipeTable) (p : Nat) : Option PipeTable :=
  match table.getPipeNameIndex (table.pipe p).name with
  | none => some table
  | some i =>
      let pid := table.processes.getCurrentPid
      let pro := table.owner pid
      if (table.pipe p).creator ≠ pid then none
      else
        (table.freedSlot pro (table.pipe (table.pointee i)).name).map fun k =>
          { table with
            toPipeState := { table.toPipeState with
              pipes := Function.update table.pipes i none }.setEntry pro.occupiedPosition k 0 }

/-- The entry `k` of an array of pids of the pipe lies among the arrays of its creator, which
end where `occupiedPosition` starts. -/
def InArrays (table : PipeTable) (p array k : Nat) : Prop :=
  (table.owner (table.pipe p).creator).pipePids ≤ array ∧
    array + 4 * k + 4 ≤ (table.owner (table.pipe p).creator).occupiedPosition

instance (table : PipeTable) (p array k : Nat) : Decidable (table.InArrays p array k) :=
  inferInstanceAs (Decidable (_ ∧ _))

end PipeTable

/-- The pipe table with the semaphore table. -/
structure IpcState extends PipeTable where
  semaphores : Int → Semaphore
  semaphoreMutex : Int

/-- What is left of a call that stands at the `_yield` of a `lockMutex`. -/
inductive IpcPending where
  | sync (pending : Pending)
  | createPipe (name : Option String)
  | createPipeMutex (name : Option String) (pipe : Option Nat)
  | openPipe (name : Option String)
  | write (p : Nat) (message : List UInt8) (aux : Nat)
  | read (p : Nat) (bytes : Int) (aux : Nat)
  deriving DecidableEq

/-- How far a call or the rest of one got. `created` is the return of `createPipe`, with
whether it had to wait for a mutex that its caller held, and `closed` that of
`closePipe`; `full` and `empty` are the calls of `write` and `read` that set their
caller BLOCKED, and `read` then yields. -/
inductive IpcOutcome where
  | returned
  | created (name : Option String) (pipe : Option Nat) (blockedOnOwn : Bool)
  | closed (name : Option String)
  | full (p : Nat)
  | empty (p : Nat)
  | yielded (pending : IpcPending)
  deriving DecidableEq

/-- The system calls. -/
inductive IpcCall where
  | sync (call : SyncCall)
  | createPipe (name : Option String)
  | openPipe (name : Option String)
  | closePipe (p : Nat)
  | write (p : Nat) (message : List UInt8)
  | read (p : Nat) (bytes : Int)
  deriving DecidableEq

namespace IpcState

/-- The part of the state that the calls on mutexes and semaphores see. -/
def sync (state : IpcState) : SyncState where
  toMutexState := state.toMutexState
  semaphores := state.semaphores
  semaphoreMutex := state.semaphoreMutex

/-- Take over what such a call did. -/
def setSync (state : IpcState) (sync : SyncState) : IpcState where
  toPipeTable := state.toPipeTable.setMutexes sync.toMutexState
  semaphores := sync.semaphores
  semaphoreMutex := sync.semaphoreMutex

/-- Take over what a call did to the mutexes and processes. -/
def setMutexes (state : IpcState) (mutexes : MutexState) : IpcState :=
  { state with toPipeTable := state.toPipeTable.setMutexes mutexes }

/-- Take over what a call did to the pipes. -/
def setPipes (state : IpcState) (pipes : PipeState) : IpcState :=
  { state with toPipeState := pipes }

/-- `createPipe` from the return of `lockMutex` on. -/
def createPipeRest (state : IpcState) (name : Option String) (garbage : Int) :
    Option (IpcState × IpcOutcome) :=
  (state.toPipeTable.createPipeLocked name garbage).map fun (table, progress) =>
    ({ state with toPipeTable := table },
      match progress with
      | .returned pipe => .created name pipe false
      | .yieldedInGetMutex pipe => .yielded (.createPipeMutex name pipe))

/-- `createPipe` from the `_yield` in its `getMutex` on. The mutex it waited for is
`adminMutex`, and the one it holds is `ipcAdminMutex`. -/
def createPipeMutexRest (state : IpcState) (name : Option String) (pipe : Option Nat) :
    Option (IpcState × IpcOutcome) :=
  let (mutexes, mutex) := state.getMutexLocked name
  ((state.toPipeTable.setMutexes mutexes).createPipeReturn name pipe mutex).map
    fun (table, pipe) =>
      ({ state with toPipeTable := table },
        .created name pipe (decide (state.ipcAdminMutex = MutexState.adminMutex)))

/-- `write` from the return of `lockMutex` on. -/
def writeRest (state : IpcState) (p : Nat) (message : List UInt8) (aux : Nat) :
    IpcState × IpcOutcome :=
  (state.setPipes (state.toPipeState.writeLocked p message aux).1,
    if (state.pipe p).position = (state.pipe p).endPosition ∧ (state.pipe p).readFlag = 1 then
      .full p
    else .returned)

/-- `read` from the return of `lockMutex` on. -/
def readRest (state : IpcState) (p : Nat) (bytes : Int) (aux : Nat) :
    Option (IpcState × IpcOutcome) :=
  match state.toPipeState.readLocked p bytes aux with
  | (pipes, .returned _) => some (state.setPipes pipes, .returned)
  | (pipes, .yielded) => some (state.setPipes pipes, .empty p)
  | (_, .yieldedInLock) => none

/-- If what is left of a call stores a pid in `pipePids` or `blocked`, it does so among the
arrays of the creator of the pipe. -/
def StoresInArrays (state : IpcState) : IpcPending → Prop
  | .openPipe name => ∀ i ∈ state.getPipeNameIndex name,
      state.InArrays (state.pointee i) (state.pipe (state.pointee i)).pipePids
        (state.pipe (state.pointee i)).connected
  | .read p _ _ => (state.pipe p).Drained →
      state.InArrays p (state.pipe p).blocked (state.pipe p).cardinalBlocked
  | .sync _ | .createPipe _ | .createPipeMutex _ _ | .write _ _ _ => True

instance (state : IpcState) (pending : IpcPending) : Decidable (state.StoresInArrays pending) :=
  match pending with
  | .createPipe _ | .openPipe _ | .write _ _ _ | .read _ _ _ | .sync _
  | .createPipeMutex _ _ => by
      unfold StoresInArrays
      infer_instance

/-- The rest of a call, to its end or to the next `_yield`. -/
def resume (state : IpcState) (garbage : Int) : IpcPending → Option (IpcState × IpcOutcome)
  | .sync pending =>
      if state.sync.RestInBounds pending then
        match state.sync.resume garbage pending with
        | (sync, .returned _) => some (state.setSync sync, .returned)
        | (sync, .yielded pending) => some (state.setSync sync, .yielded (.sync pending))
      else none
  | .createPipe name => state.createPipeRest name garbage
  | .createPipeMutex name pipe => state.createPipeMutexRest name pipe
  | .openPipe name =>
      some ({ state with toPipeTable := (state.toPipeTable.openPipeLocked name).1 }, .returned)
  | .write p message aux => some (state.writeRest p message aux)
  | .read p bytes aux => state.readRest p bytes aux

/-- Lock the mutex and do the rest of the call, now or after the `_yield`. -/
def lockThen (state : IpcState) (mutex garbage : Int) (rest : IpcPending) :
    Option (IpcState × IpcOutcome) :=
  if 0 ≤ mutex then
    match state.lockMutex mutex garbage with
    | (mutexes, .returned) => (state.setMutexes mutexes).resume garbage rest
    | (mutexes, .yielded) => some (state.setMutexes mutexes, .yielded rest)
  else none

/-- A call, to its end or to its first `_yield`. `write` and `read` compute their
pointers before they lock the mutex. -/
def enter (state : IpcState) (garbage : Int) : IpcCall → Option (IpcState × IpcOutcome)
  | .sync call =>
      if state.sync.InBounds call then
        match state.sync.enter garbage call with
        | (sync, .returned _) => some (state.setSync sync, .returned)
        | (sync, .yielded pending) => some (state.setSync sync, .yielded (.sync pending))
      else none
  | .createPipe name => state.lockThen state.ipcAdminMutex garbage (.createPipe name)
  | .openPipe name => state.lockThen state.ipcAdminMutex garbage (.openPipe name)
  | .closePipe p =>
      (state.toPipeTable.closePipe p).map fun table =>
        ({ state with toPipeTable := table }, .closed (state.pipe p).name)
  | .write p message =>
      state.lockThen (state.pipe p).mutex garbage
        (.write p message (state.pipe p).endPosition)
  | .read p bytes =>
      state.lockThen (state.pipe p).mutex garbage (.read p bytes (state.pipe p).position)

/-- A call that locks a mutex first waits for it, or does its rest while it holds it. -/
theorem lockThen_cases {state after : IpcState} {mutex garbage : Int} {rest : IpcPending}
    {outcome : IpcOutcome} (locked : state.lockThen mutex garbage rest = some (after, outcome)) :
    (∃ mutexes, state.lockMutex mutex garbage = (mutexes, .yielded) ∧
      after = state.setMutexes mutexes ∧ outcome = .yielded rest) ∨
    ∃ mutexes, state.lockMutex mutex garbage = (mutexes, .returned) ∧
      (state.setMutexes mutexes).resume garbage rest = some (after, outcome) := by
  simp only [lockThen] at locked
  split at locked
  · split at locked
    · rename_i mutexes returned
      exact .inr ⟨mutexes, returned, locked⟩
    · rename_i mutexes yielded
      obtain ⟨rfl, rfl⟩ := Prod.mk.inj (Option.some.inj locked)
      exact .inl ⟨mutexes, yielded, rfl, rfl⟩
  · cases locked

end IpcState

/-- The pipe on which a process is BLOCKED: in a `write` for room, in a `read` for bytes. -/
inductive Waiting where
  | room (p : Nat)
  | bytes (p : Nat)
  deriving DecidableEq, Repr

/-- The pipe. -/
def Waiting.pipe : Waiting → Nat
  | .room p | .bytes p => p

/-- A return of `createPipe`: what it returned, and whether its caller had to wait for
a mutex that it held. -/
structure Creation where
  caller : Int
  name : Option String
  pipe : Option Nat
  blockedOnOwn : Bool
  deriving DecidableEq, Repr

/-- The kernel, where each process stands, the returns of `createPipe` and the names
given to `closePipe` so far, and the processes that are BLOCKED since a call of
`write` or `read`. -/
structure IpcRun where
  kernel : IpcState
  pending : Int → Option IpcPending
  creations : List Creation
  closings : List (Option String)
  waiting : List (Int × Waiting)

/-- What the current process, or the timer, does. `next` is the process that
`schedule` picks if there is a switch; a new process has its arrays where
`initializePipeFields` puts them. -/
inductive IpcAction where
  | call (call : IpcCall) (garbage next : Int)
  | resume (garbage next : Int)
  | timerTick (next : Int)
  | createProcess (pid : Int) (owner : PipeOwner)
  | removeProcess (pid next : Int)

namespace IpcRun

/-- The process that runs. -/
def current (state : IpcRun) : Int := state.kernel.processes.current

/-- The current process makes calls: it is not process 0, which loops in `init`, and its
pid is an `int`. -/
def Calls (state : IpcRun) : Prop := 0 < state.current ∧ state.current < 2 ^ 31

instance (state : IpcRun) : Decidable state.Calls := inferInstanceAs (Decidable (_ ∧ _))

/-- What the current process does in a step. -/
def perform (state : IpcRun) : IpcAction → Option (IpcState × IpcOutcome)
  | .call call garbage _ =>
      if state.Calls ∧ state.pending state.current = none then state.kernel.enter garbage call
      else none
  | .resume garbage _ =>
      if state.Calls then
        (state.pending state.current).bind fun pending => state.kernel.resume garbage pending
      else none
  | _ => none

/-- Where the outcome leaves the caller. -/
def stands : IpcOutcome → Option IpcPending
  | .yielded pending => some pending
  | _ => none

/-- The pipe on which the outcome leaves the caller BLOCKED. -/
def blocksOn (caller : Int) : IpcOutcome → List (Int × Waiting)
  | .full p => [(caller, .room p)]
  | .empty p => [(caller, .bytes p)]
  | _ => []

/-- The return of `createPipe` in the outcome. -/
def creation (caller : Int) : IpcOutcome → List Creation
  | .created name pipe blockedOnOwn => [⟨caller, name, pipe, blockedOnOwn⟩]
  | _ => []

/-- The name of the pipe that the outcome closed. -/
def closing : IpcOutcome → List (Option String)
  | .closed name => [name]
  | _ => []

/-- A process that is not BLOCKED any more does not wait any more. -/
def stillWaiting (processes : ProcessTable) (waiting : List (Int × Waiting)) :
    List (Int × Waiting) :=
  waiting.filter fun (pid, _) => processes.state pid = some .blocked

/-- Take over what the current process did. -/
def settle (state : IpcRun) (kernel : IpcState) (outcome : IpcOutcome) : IpcRun where
  kernel := kernel
  pending := Function.update state.pending state.current (stands outcome)
  creations := state.creations ++ creation state.current outcome
  closings := state.closings ++ closing outcome
  waiting := stillWaiting kernel.processes (blocksOn state.current outcome ++ state.waiting)

/-- Replace the processes. -/
def setProcesses (state : IpcRun) (processes : ProcessTable) : IpcRun :=
  { state with
    kernel := state.kernel.setMutexes { state.kernel.toMutexState with processes }
    waiting := stillWaiting processes state.waiting }

/-- Switch to `next`. -/
def dispatch (state : IpcRun) (next : Int) : Option IpcRun :=
  (state.kernel.processes.schedule next).map state.setProcesses

/-- The call gives the processor away. -/
def yields : IpcOutcome → Bool
  | .empty _ | .yielded _ => true
  | _ => false

/-- Take over what the current process did, and switch if it yields. -/
def finish (state : IpcRun) (next : Int) : IpcState × IpcOutcome → Option IpcRun
  | (kernel, outcome) =>
      if yields outcome then (state.settle kernel outcome).dispatch next
      else some (state.settle kernel outcome)

/-- `createProcess`, as far as it concerns the pipes: `initiatePipesForProcess` clears
`occupiedPosition`. -/
def createProcess (state : IpcRun) (pid : Int) (owner : PipeOwner) : IpcRun :=
  let processes := { state.kernel.processes with
    state := Function.update state.kernel.processes.state pid (some .ready) }
  let cleared := ((state.kernel.toPipeState.setEntry owner.occupiedPosition 0 0).setEntry
    owner.occupiedPosition 1 0).setEntry owner.occupiedPosition 2 0
  { state with
    kernel := { state.kernel.setPipes cleared with
      owner := Function.update state.kernel.owner pid
        { owner with pid, pipesOpened := 0 } } }.setProcesses processes

/-- `removeProcess` takes the process off the ring and looks at nothing else. -/
def removeProcess (state : IpcRun) (pid next : Int) : Option IpcRun :=
  if pid = 0 then state.dispatch next
  else if state.kernel.processes.state pid = none then some state
  else
    let removed := state.setProcesses
      { state.kernel.processes with
        state := Function.update state.kernel.processes.state pid none }
    if pid = state.current then removed.dispatch next else some removed

/-- A part of a call, a tick of the timer, or a process that comes or goes. -/
def step (state : IpcRun) : IpcAction → Option IpcRun
  | .call call garbage next => (state.perform (.call call garbage next)).bind (state.finish next)
  | .resume garbage next => (state.perform (.resume garbage next)).bind (state.finish next)
  | .timerTick next => state.dispatch next
  | .createProcess pid owner =>
      if 0 ≤ pid ∧ pid < 2 ^ 31 ∧ state.kernel.processes.state pid = none then
        some (state.createProcess pid owner)
      else none
  | .removeProcess pid next => state.removeProcess pid next

/-- The condition on a step under which the arrays are apart from the structs: the pids that it
stores in `pipePids` and `blocked` stay among the arrays. -/
def StaysInArrays (state : IpcRun) : IpcAction → Prop
  | .call (.openPipe name) _ _ => state.kernel.Uncontended state.kernel.ipcAdminMutex →
      state.kernel.StoresInArrays (.openPipe name)
  | .call (.read p bytes) _ _ => state.kernel.Uncontended (state.kernel.pipe p).mutex →
      state.kernel.StoresInArrays (.read p bytes (state.kernel.pipe p).position)
  | .resume _ _ => ∀ pending ∈ state.pending state.current, state.kernel.StoresInArrays pending
  | .call (.sync _) _ _ | .call (.createPipe _) _ _ | .call (.closePipe _) _ _
  | .call (.write _ _) _ _ | .createProcess _ _ | .timerTick _ | .removeProcess _ _ => True

instance (state : IpcRun) (action : IpcAction) : Decidable (state.StaysInArrays action) :=
  match action with
  | .call (.createPipe _) _ _ | .call (.openPipe _) _ _ | .call (.write _ _) _ _
  | .call (.read _ _) _ _ | .call (.closePipe _) _ _ | .call (.sync _) _ _ | .resume _ _
  | .createProcess _ _ | .timerTick _ | .removeProcess _ _ => by
      unfold StaysInArrays MutexState.Uncontended
      infer_instance

/-- A property is kept by a step if it is kept by what the current process does, by a switch, and
by a process that comes or goes. Before a switch it is enough that `half` of it holds. -/
theorem step_rule {inv half : IpcRun → Prop} {state next : IpcRun} {action : IpcAction}
    (stepped : state.step action = some next) (held : inv state)
    (weaken : ∀ mid, inv mid → half mid)
    (switches : ∀ {mid after target}, half mid → mid.dispatch target = some after → inv after)
    (performs : ∀ {kernel outcome}, state.perform action = some (kernel, outcome) →
      inv (state.settle kernel outcome))
    (creates : ∀ {pid owner}, action = .createProcess pid owner →
      inv (state.createProcess pid owner))
    (removes : ∀ pid, let removed := state.setProcesses { state.kernel.processes with
        state := Function.update state.kernel.processes.state pid none }
      half removed ∧ (pid ≠ state.current → inv removed)) : inv next := by
  have finishes : ∀ target, (state.perform action).bind (state.finish target) = some next →
      inv next := by
    intro target result
    obtain ⟨⟨kernel, outcome⟩, performed, finished⟩ := Option.bind_eq_some_iff.mp result
    have settled := performs performed
    simp only [finish] at finished
    split at finished
    · exact switches (weaken _ settled) finished
    · obtain rfl := Option.some.inj finished
      exact settled
  cases action with
  | call call garbage target => exact finishes target stepped
  | resume garbage target => exact finishes target stepped
  | timerTick target => exact switches (weaken _ held) stepped
  | createProcess pid owner =>
      simp only [step] at stepped
      split at stepped
      · obtain rfl := Option.some.inj stepped
        exact creates rfl
      · cases stepped
  | removeProcess pid target =>
      simp only [step, removeProcess] at stepped
      split at stepped
      · exact switches (weaken _ held) stepped
      · split at stepped
        · obtain rfl := Option.some.inj stepped
          exact held
        · split at stepped
          · exact switches (removes pid).1 stepped
          · rename_i other
            obtain rfl := Option.some.inj stepped
            exact (removes pid).2 other

/-! ## The boot sequence -/

/-- The kernel before `main`: nothing is set. -/
def unset : IpcState where
  toMutexState := SyncRun.zeroed.toMutexState
  pipe := fun _ =>
    { name := none, position := 0, endPosition := 0, creator := 0, pipePids := 0, blocked := 0
      cardinalBlocked := 0, connected := 0, pipe := Vector.replicate _ 0, readFlag := 0
      mutex := 0 }
  pipeNames := fun _ => none
  pipes := fun _ => none
  lastPipeName := 0
  memory := fun _ => 0
  owner := fun pid =>
    { pid, pipesOpened := 0, occupiedPosition := 0, pipePids := 0, blocked := 0
      pipesStruct := fun _ => 0 }
  ipcAdminMutex := 0
  semaphores := SyncRun.zeroed.semaphores
  semaphoreMutex := 0

/-- The pipe fields of a process whose page, and pipe structs, are numbered `page`, as
`initializePipeFields` lays them out: room for six pids in each array. -/
def ownerAt (pid : Int) (page : Nat) : PipeOwner where
  pid := pid
  pipesOpened := 0
  pipePids := 4096 * page + 470
  blocked := 4096 * page + 494
  occupiedPosition := 4096 * page + 518
  pipesStruct := fun k => MAX_PROCESS_PIPES * page + k

/-- `main`: the tables are initialised, then `init` and `SHELL` are created, and
`init` runs. -/
def boot (init shell : PipeOwner) : IpcRun :=
  let tables : IpcRun :=
    { kernel := unset.setSync unset.sync.initializeTables
      pending := fun _ => none
      creations := []
      closings := []
      waiting := [] }
  let created := (tables.createProcess 0 init).createProcess 1 shell
  created.setProcesses { created.kernel.processes with current := 0 }

end IpcRun

end SistemasOperativos.Kernel
