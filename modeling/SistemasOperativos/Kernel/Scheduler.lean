import SistemasOperativos.Kernel.Process

/-!
# The scheduler

The functions of scheduler.c over the ring of processes, and those of process.c
and threads.c that look processes up in it. The walk of `schedule` takes a bound
on its number of steps; `none` means that the bound was reached, or that a
called function is `none`. `_yield` saves the stack pointer `rsp` and switches.

`cardinal_processes` is a natural number: `removeProcess` lowers it only after
its loop found it positive.
-/

namespace SistemasOperativos.Kernel

namespace Scheduler

/-- `newProcessSlot`. -/
def newProcessSlot (s : Scheduler) (process : Nat) : Option (Scheduler × Nat) := do
  let (s, newProcessSlot) ← s.allocPage (NUMBER_OF_PAGES_TO_ALLOC sizeofProcessSlot)
  some (s.setSlot newProcessSlot { s.slot newProcessSlot with process := process }, newProcessSlot)

/-- `addProcess`: the new slot goes behind the current one. -/
def addProcess (s : Scheduler) (process : Nat) : Option Scheduler := do
  let (s, newProcess) ← s.newProcessSlot process
  if s.current = NULL then
    some { s.setSlot newProcess { s.slot newProcess with next := newProcess } with
      current := newProcess }
  else
    let next := s.next s.current
    let s := s.setSlot s.current { s.slot s.current with next := newProcess }
    some (s.setSlot (s.next s.current) { s.slot (s.next s.current) with next := next })

/-- `createProcess`. -/
def createProcess (s : Scheduler) (entryPoint : Nat) : Option (Scheduler × Int) := do
  let (s, p) ← s.getProcess entryPoint
  let s ← s.addProcess p
  some ({ s with cardinal_processes := s.cardinal_processes + 1 }, (s.process p).pid)

/-- `getProcessById`. The loop indexes the current slot as an array, so from the
second turn on it reads the memory behind that slot. -/
def getProcessById (s : Scheduler) (pid : Int) : Nat :=
  match (List.range s.cardinal_processes).find? fun (i : Nat) =>
      s.pidOf (s.current + i * sizeofProcessSlot) = pid with
  | some i => (s.slot (s.current + i * sizeofProcessSlot)).process
  | none => NULL

/-- `getCurrentPid`. -/
def getCurrentPid (s : Scheduler) : Int :=
  if s.current = NULL then -1 else s.pidOf s.current

/-- The loop of `changeProcessState` from `slot` on, with `remaining` turns left. -/
def changeProcessStateLoop (s : Scheduler) (pid : Int) (state : ProcessState) :
    (remaining slot : Nat) → Scheduler
  | 0, _ => s
  | remaining + 1, slot =>
      if s.pidOf slot = pid then
        s.setProcess (s.slot slot).process { s.processOf slot with state := state }
      else s.changeProcessStateLoop pid state remaining (s.next slot)

/-- `changeProcessState`. -/
def changeProcessState (s : Scheduler) (pid : Int) (state : ProcessState) : Scheduler :=
  s.changeProcessStateLoop pid state s.cardinal_processes s.current

/-- The first statement of `schedule`. -/
def preempt (s : Scheduler) : Scheduler :=
  if (s.processOf s.current).state = .running then
    s.setProcess (s.slot s.current).process { s.processOf s.current with state := .ready }
  else s

/-- The loop of `schedule`: the first slot from `slot` on whose process is READY. -/
def scheduleLoop (s : Scheduler) : (fuel slot : Nat) → Option Nat
  | 0, _ => none
  | fuel + 1, slot =>
      if (s.processOf slot).state = .ready then some slot
      else s.scheduleLoop fuel (s.next slot)

/-- `schedule`. -/
def schedule (s : Scheduler) (fuel : Nat) : Option Scheduler :=
  let s := s.preempt
  (s.scheduleLoop fuel (s.next s.current)).map fun slot =>
    { s.setProcess (s.slot slot).process { s.processOf slot with state := .running } with
      current := slot }

/-- `current->process->thread[current->process->activeThread]`. -/
def currentThread (s : Scheduler) : Nat :=
  (s.processOf s.current).thread.get (s.processOf s.current).activeThread

/-- Write `userStack` of the thread that runs. -/
def saveUserStack (s : Scheduler) (userStack : Nat) : Scheduler :=
  s.setThread s.currentThread { s.thread s.currentThread with userStack }

/-- `next_process`: the stack to go on with. -/
def next_process (s : Scheduler) (fuel current_rsp : Nat) : Option (Scheduler × Nat) :=
  if s.current = NULL then some (s, current_rsp)
  else
    ((s.saveUserStack current_rsp).schedule fuel).map fun s =>
      (s, (s.thread s.currentThread).userStack)

/-- `_yield` of libasm.asm. -/
def _yield (s : Scheduler) (fuel rsp : Nat) : Option Scheduler :=
  (s.next_process fuel rsp).map Prod.fst

/-- `nextThread`; `none` when every entry is NULL and its loop does not end. -/
def nextThread (p : Process) : Option (Fin MAX_THREADS) :=
  ((List.range' 1 MAX_THREADS).map fun i => p.activeThread + Fin.ofNat MAX_THREADS i).find?
    fun index => decide (p.thread.get index ≠ NULL)

/-- `switchUserToKernel`: the kernel stack. -/
def switchUserToKernel (s : Scheduler) (esp : Nat) : Scheduler × Nat :=
  let s := s.saveUserStack esp
  (s, (s.thread s.currentThread).kernelStack)

/-- `switchKernelToUser`: the stack of the next thread of the next process. -/
def switchKernelToUser (s : Scheduler) (fuel : Nat) : Option (Scheduler × Nat) := do
  let s ← s.schedule fuel
  let index ← nextThread (s.processOf s.current)
  let s := s.setProcess (s.slot s.current).process
    { s.processOf s.current with activeThread := index }
  some (s, (s.thread s.currentThread).userStack)

/-- `freeProcessPages`. -/
def freeProcessPages (s : Scheduler) (pid : Int) : Option Scheduler := do
  let p := s.getProcessById pid
  let process := s.process p
  let s ← s.deallocPage p
  let s ← (process.thread.toList.take process.numberOfThreads.toNat).foldlM
    (fun (s : Scheduler) t => do
      let s ← s.deallocPage (s.thread t).userStack
      s.deallocPage (s.thread t).kernelStack) s
  let s ← s.deallocPage (dataStart process.heap)
  (process.pages.toList.take process.pagesIndex).foldlM (fun s page => deallocPage s page) s

/-- `addPagesToProcess`. -/
def addPagesToProcess (s : Scheduler) (pageBase : Nat) (pid : Int) : Scheduler :=
  let p := s.getProcessById pid
  let process := s.process p
  if p = NULL ∨ MAX_PAGES_PER_PROCESS ≤ process.pagesIndex then s
  else
    s.setProcess p
      { process with
        pages := process.pages.setIfInBounds process.pagesIndex pageBase
        pagesIndex := process.pagesIndex + 1 }

/-- The part of `extendHeap` of malloc.c that takes the pages. In one of its two
calls the second argument is missing, so `pid` need not be the current process
when the heap already exists. -/
def extendHeap (s : Scheduler) (pages : Nat) (pid : Int) : Option Scheduler := do
  let (s, newBlock) ← s.allocPage pages
  let p := (s.slot s.current).process
  if (s.process p).heap = NULL then
    let s := s.setProcess p { s.process p with heap := newBlock }
    some (s.addPagesToProcess newBlock (s.process p).pid)
  else some (s.addPagesToProcess newBlock pid)

/-! ## removeProcess -/

/-- The loop of `removeProcess` with `remaining` turns left: the slot of `pid`
and the one before it, or `none` when `i` got to `cardinal_processes`. -/
def removeProcessLoop (s : Scheduler) (pid : Int) :
    (remaining prevSlot slotToRemove : Nat) → Option (Nat × Nat)
  | 0, _, _ => none
  | remaining + 1, prevSlot, slotToRemove =>
      if s.pidOf slotToRemove = pid then some (prevSlot, slotToRemove)
      else s.removeProcessLoop pid remaining slotToRemove (s.next slotToRemove)

/-- The loop of `removeProcess` from the current slot on. -/
def findSlot (s : Scheduler) (pid : Int) : Option (Nat × Nat) :=
  s.removeProcessLoop pid s.cardinal_processes s.current (s.next s.current)

/-- `removeProcess` behind its loop: the slot is unlinked and no longer counted. -/
def unlink (s : Scheduler) (prevSlot slotToRemove : Nat) : Scheduler :=
  { s.setSlot prevSlot { s.slot prevSlot with next := s.next slotToRemove } with
    cardinal_processes := s.cardinal_processes - 1 }

/-- `removeProcess` behind its loop, with the switch when the process that runs
was removed. -/
def removeSlot (s : Scheduler) (fuel rsp prevSlot slotToRemove : Nat) : Option Scheduler :=
  let s := s.unlink prevSlot slotToRemove
  if s.pidOf slotToRemove = s.pidOf s.current then s._yield fuel rsp else some s

/-- The test of `removeProcess` for the only process of the ring. -/
def IsOnlyProcess (s : Scheduler) (pid : Int) : Prop :=
  s.pidOf s.current = s.pidOf (s.next s.current) ∧ s.pidOf s.current = pid

instance (s : Scheduler) (pid : Int) : Decidable (s.IsOnlyProcess pid) :=
  inferInstanceAs (Decidable (_ ∧ _))

/-- `removeProcess`. -/
def removeProcess (s : Scheduler) (fuel rsp : Nat) (pid : Int) : Option Scheduler :=
  if pid = 0 then s._yield fuel rsp
  else if s.current = NULL then some s
  else if s.IsOnlyProcess pid then
    (s.freeProcessPages pid).map fun s =>
      { s with current := NULL, cardinal_processes := s.cardinal_processes - 1 }
  else
    match s.findSlot pid with
    | none => some s
    | some (prevSlot, slotToRemove) => s.removeSlot fuel rsp prevSlot slotToRemove

/-! ## Threads of the current process -/

/-- `thread_create`. -/
def thread_create (s : Scheduler) (entryPoint : Nat) : Option Scheduler :=
  (s.createThread entryPoint (s.slot s.current).process).map Prod.fst

/-- `terminateThread`: a process ends with its first thread. -/
def terminateThread (s : Scheduler) (fuel rsp : Nat) : Option Scheduler :=
  let process := s.processOf s.current
  if process.activeThread = 0 then s.removeProcess fuel rsp process.pid
  else
    (s.freeThreadPages (process.thread.get process.activeThread)).map fun s =>
      s.setProcess (s.slot s.current).process
        { process with
          thread := process.thread.set process.activeThread NULL
          numberOfThreads := process.numberOfThreads - 1 }

end Scheduler

end SistemasOperativos.Kernel
