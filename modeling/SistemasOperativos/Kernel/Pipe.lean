import SistemasOperativos.Foundation.Memory
import SistemasOperativos.Foundation.RingBuffer
import SistemasOperativos.Kernel.Mutex
import SistemasOperativos.Kernel.Process

/-!
# Pipes

`read` and `write` of IPC.c on the structs that `createPipeStruct` sets up in
the page of a process. A pipe is a buffer of ten bytes; `position == end` means
empty or full, told apart by `readFlag`. Both calls compute the address of
their first byte before they lock the mutex of the pipe, so each is split at
the return of `lockMutex`.

Pointers to pipes are handles, and `NULL` is the handle 0. Page 0 is mapped, so a call
that follows the NULL entry of a closed pipe goes on with the bytes at address 0. They are
the interrupt descriptor table, with zeros where `pipePids`, `cardinalBlocked`, `connected`
and `mutex` of a struct are.

The arrays of pids of the three pipes of a process start three bytes apart, while
their entries take four, so they overlap. They are kept in byte memory, and so is
`occupiedPosition`, which comes right after them.
-/

namespace SistemasOperativos.Kernel

open SistemasOperativos.Foundation

/-- Bytes in the buffer of a pipe. -/
abbrev PIPE_LENGTH : Nat := 10

def MAX_PIPES : Nat := 50

def MAX_PROCESS_PIPES : Nat := 3

def NO_SPACE_LEFT : Int := -1

/-- `Pipe`. The field `end` is `endPosition` here; `pipePids` and `blocked` are the
addresses of arrays. -/
structure Pipe where
  name : Option String
  position : Nat
  endPosition : Nat
  creator : Int
  pipePids : Nat
  blocked : Nat
  cardinalBlocked : Nat
  connected : Nat
  pipe : Vector UInt8 PIPE_LENGTH
  readFlag : Int
  mutex : Int

/-- The fields of a process for its pipes: the addresses of its arrays and the
handles of its pipe structs. -/
structure PipeOwner where
  pid : Int
  pipesOpened : Nat
  occupiedPosition : Nat
  pipePids : Nat
  blocked : Nat
  pipesStruct : Nat → Nat

/-- The pipe table, the structs by handle, the bytes of the arrays, the mutexes and
the processes. -/
structure PipeState extends MutexState where
  pipe : Nat → Pipe
  pipeNames : Nat → Option String
  pipes : Nat → Option Nat
  lastPipeName : Int
  memory : Nat → UInt8

/-- `next`: the offset after `aux`, going around. -/
def next (aux : Nat) : Nat := if aux + 1 = PIPE_LENGTH then 0 else aux + 1

namespace Pipe

/-- The test of `write` for a pipe without room. -/
def Full (pipe : Pipe) : Prop := pipe.position = pipe.endPosition ∧ pipe.readFlag = 1

/-- The test of `read` for a pipe without bytes. -/
def Drained (pipe : Pipe) : Prop := pipe.position = pipe.endPosition ∧ pipe.readFlag = 0

instance (pipe : Pipe) : Decidable pipe.Full := inferInstanceAs (Decidable (_ ∧ _))

instance (pipe : Pipe) : Decidable pipe.Drained := inferInstanceAs (Decidable (_ ∧ _))

/-- The loop of `write`. The message ends at its NUL. -/
def writeLoop (p : Pipe) : List UInt8 → Nat → Nat → Vector UInt8 PIPE_LENGTH →
    Vector UInt8 PIPE_LENGTH × Nat
  | [], _, bytes, buffer => (buffer, bytes)
  | current :: message, aux, bytes, buffer =>
      if current ≠ 0 ∧ ((p.endPosition + bytes) % PIPE_LENGTH ≠ p.position ∨ bytes = 0) then
        p.writeLoop message (next aux) (bytes + 1) (buffer.setIfInBounds aux current)
      else (buffer, bytes)

/-- The loop of `read` with `bytes - i = remaining`. -/
def readLoop (p : Pipe) : Nat → Nat → Nat → List UInt8
  | 0, _, _ => []
  | remaining + 1, i, aux =>
      if (i + p.position) % PIPE_LENGTH ≠ p.endPosition ∨ i = 0 then
        (p.pipe[aux]?).getD 0 :: p.readLoop remaining (i + 1) (next aux)
      else []

/-- `write` between the test for a full pipe and `unlockProcesses`. -/
def append (p : Pipe) (message : List UInt8) (aux : Nat) : Pipe × Nat :=
  let (buffer, bytes) := p.writeLoop message aux 0 p.pipe
  let stop := (p.endPosition + bytes) % PIPE_LENGTH
  ({ p with
      pipe := buffer
      endPosition := stop
      readFlag := if stop = p.position then 1 else p.readFlag }, bytes)

/-- `read` between the test for an empty pipe and `freeMutex`. -/
def take (p : Pipe) (bytes : Int) (aux : Nat) : Pipe × List UInt8 :=
  let bytes := if bytes = -1 then (PIPE_LENGTH : Int) else bytes
  let result := p.readLoop bytes.toNat 0 aux
  ({ p with
      position := (p.position + result.length) % PIPE_LENGTH
      readFlag := 0 }, result)

end Pipe

namespace PipeState

/-- Replace the struct of a handle. -/
def setPipe (state : PipeState) (p : Nat) (pipe : Pipe) : PipeState :=
  { state with pipe := Function.update state.pipe p pipe }

/-- The entry `k` of an array of integers. -/
def entry (state : PipeState) (array k : Nat) : Int := loadInt state.memory (array + 4 * k)

/-- Store the entry `k` of an array of integers. -/
def setEntry (state : PipeState) (array k : Nat) (value : Int) : PipeState :=
  { state with memory := storeInt state.memory (array + 4 * k) value }

/-- `changeProcessState` for the first `count` entries of an array of pids. -/
def wakeAll (state : PipeState) (blocked : Nat) : Nat → ProcessTable
  | 0 => state.processes
  | count + 1 => (wakeAll state blocked count).changeProcessState (state.entry blocked count) .ready

/-- The struct that `pipes[i]` points to. -/
def pointee (state : PipeState) (i : Nat) : Nat := (state.pipes i).getD NULL

/-- `unlockProcesses`: the first table entry of the name, also if it is NULL. -/
def unlockProcesses (state : PipeState) (name : Option String) : PipeState :=
  match (List.range state.lastPipeName.toNat).find? fun (i : Nat) =>
      MutexState.sameName (state.pipeNames i) name with
  | none => state
  | some i =>
      let pi := state.pipe (state.pointee i)
      let processes := state.wakeAll pi.blocked pi.cardinalBlocked
      { state with processes }.setPipe (state.pointee i) { pi with cardinalBlocked := 0 }

/-- `unlockProcesses` wakes the processes that one struct records, or does nothing. -/
theorem unlockProcesses_cases (state : PipeState) (name : Option String) :
    state.unlockProcesses name = state ∨
      ∃ q, let processes := state.wakeAll (state.pipe q).blocked (state.pipe q).cardinalBlocked
        state.unlockProcesses name =
          { state with processes }.setPipe q { state.pipe q with cardinalBlocked := 0 } := by
  unfold unlockProcesses
  split
  · exact .inl rfl
  · exact .inr ⟨_, rfl⟩

/-- `write` from the return of `lockMutex` on, with `aux` computed before it.
A process that finds the pipe full is BLOCKED but goes on. -/
def writeLocked (state : PipeState) (p : Nat) (message : List UInt8) (aux : Nat) :
    PipeState × Nat :=
  let pipe := state.pipe p
  if pipe.position = pipe.endPosition ∧ pipe.readFlag = 1 then
    let blocked := state.changeProcessState state.processes.getCurrentPid .blocked
    ({ state with toMutexState := blocked.freeMutex pipe.mutex }, 0)
  else
    let (written, bytes) := pipe.append message aux
    let state := (state.setPipe p written).unlockProcesses pipe.name
    ({ state with toMutexState := state.freeMutex pipe.mutex }, bytes)

/-- `write`. The second component of the result is `none` when the caller stands
in `lockMutex`; it goes on with `writeLocked`. -/
def write (state : PipeState) (p : Nat) (message : List UInt8) (garbage : Int) :
    PipeState × Option Nat :=
  let aux := (state.pipe p).endPosition
  match state.lockMutex (state.pipe p).mutex garbage with
  | (mutexes, .yielded) => ({ state with toMutexState := mutexes }, none)
  | (mutexes, .returned) =>
      let (state, bytes) := writeLocked { state with toMutexState := mutexes } p message aux
      (state, some bytes)

/-- Where a call of `read` got to: it returned the bytes it read, it stands at
its own `_yield`, after which it returns none, or it stands in `lockMutex`. -/
inductive ReadProgress where
  | returned (result : List UInt8)
  | yielded
  | yieldedInLock
  deriving DecidableEq, Repr

/-- `read` from the return of `lockMutex` on, with `aux` computed before it. -/
def readLocked (state : PipeState) (p : Nat) (bytes : Int) (aux : Nat) :
    PipeState × ReadProgress :=
  let pipe := state.pipe p
  if pipe.position = pipe.endPosition ∧ pipe.readFlag = 0 then
    let currentPid := state.processes.getCurrentPid
    let blocked := state.changeProcessState currentPid .blocked
    let state := (state.setEntry pipe.blocked pipe.cardinalBlocked currentPid).setPipe p
      { pipe with cardinalBlocked := pipe.cardinalBlocked + 1 }
    ({ state with toMutexState := blocked.freeMutex pipe.mutex }, .yielded)
  else
    let (rest, result) := pipe.take bytes aux
    let state := state.setPipe p rest
    ({ state with toMutexState := state.freeMutex pipe.mutex }, .returned result)

/-- `read`, to its end or to its first `_yield`. -/
def read (state : PipeState) (p : Nat) (bytes garbage : Int) : PipeState × ReadProgress :=
  let aux := (state.pipe p).position
  match state.lockMutex (state.pipe p).mutex garbage with
  | (mutexes, .yielded) => ({ state with toMutexState := mutexes }, .yieldedInLock)
  | (mutexes, .returned) => readLocked { state with toMutexState := mutexes } p bytes aux

/-! ## Creation -/

/-- `getIndexForPipeStructure`. -/
def getIndexForPipeStructure (state : PipeState) (pro : PipeOwner) : PipeOwner × Int :=
  let current := pro.pipesOpened
  if MAX_PROCESS_PIPES < current ∨ state.entry pro.occupiedPosition current = 1 then
    match (List.range MAX_PROCESS_PIPES).find? fun i =>
        state.entry pro.occupiedPosition i == 0 with
    | some i => ({ pro with pipesOpened := i + 1 }, i)
    | none => (pro, NO_SPACE_LEFT)
  else ({ pro with pipesOpened := pro.pipesOpened + 1 }, current)

/-- `createPipeStruct`. The buffer keeps what was in the page. The arrays of the
pipe `index` start `index * MAX_PROCESS_PIPES` bytes after those of the process. -/
def createPipeStruct (state : PipeState) (pro : PipeOwner) (name : Option String) :
    PipeState × PipeOwner × Option Nat :=
  let (pro, index) := state.getIndexForPipeStructure pro
  if index = NO_SPACE_LEFT then (state, pro, none)
  else
    let p := pro.pipesStruct index.toNat
    let pipe :=
      { state.pipe p with
        name := name, endPosition := 0, readFlag := 0, connected := 1, creator := pro.pid
        pipePids := pro.pipePids + index.toNat * MAX_PROCESS_PIPES
        blocked := pro.blocked + index.toNat * MAX_PROCESS_PIPES
        position := 0, cardinalBlocked := 0 }
    (((state.setEntry pro.occupiedPosition index.toNat 1).setEntry pipe.pipePids 0 pro.pid).setPipe
        p pipe,
      { pro with pipesOpened := 0 },
      some p)

end PipeState

end SistemasOperativos.Kernel
