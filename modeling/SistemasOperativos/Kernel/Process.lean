import SistemasOperativos.Kernel.Malloc
import SistemasOperativos.Kernel.ProcessTable

/-!
# Processes and threads

The data of scheduler.c, process.c and threads.c with the functions that build
a process. The structures stand in memory at the addresses `allocPage` returned;
`Scheduler` has one memory for each type of structure, and a pointer is an
address with 0 for NULL. What is stored at an address before something is
written there is arbitrary.

`allocPage` is the one of the page allocator. Where the source goes on with the
NULL pointer that `allocPage` returned, a function here is `none`. The fields of
the pipes and the description of a process belong to no function modelled here
and are left out, as is what `fillStackFrame` writes to the new stack.
-/

namespace SistemasOperativos.Kernel

/-- The null pointer. -/
abbrev NULL : Nat := 0

/-- `sizeof(Process)`. -/
def sizeofProcess : Nat := 248

/-- `sizeof(Thread)`. -/
def sizeofThread : Nat := 24

/-- `sizeof(ProcessSlot)`. -/
def sizeofProcessSlot : Nat := 16

/-- `sizeof(StackFrame)`. -/
def sizeofStackFrame : Nat := 184

/-- Size of the array `thread` of a process. -/
abbrev MAX_THREADS : Nat := 10

structure Thread where
  userStack : Nat
  kernelStack : Nat
  entryPoint : Nat
  deriving DecidableEq, Repr

structure Process where
  pid : Int
  state : ProcessState
  activeThread : Fin MAX_THREADS
  numberOfThreads : Int
  thread : Vector Nat MAX_THREADS
  heap : Nat
  pagesIndex : Nat
  pages : Vector Nat MAX_PAGES_PER_PROCESS

/-- A node of the ring of processes. -/
structure ProcessSlot where
  next : Nat
  process : Nat
  deriving DecidableEq, Repr

/-- The static variables of scheduler.c and process.c, the page allocator, and
the memory. -/
structure Scheduler where
  cardinal_processes : Nat
  current : Nat
  pid : Int
  buddyArray : BuddyArray
  slot : Nat → ProcessSlot
  process : Nat → Process
  thread : Nat → Thread

namespace Scheduler

scoped instance : NeZero MAX_THREADS := ⟨by decide⟩

/-- `slot->next`. -/
def next (s : Scheduler) (slot : Nat) : Nat := (s.slot slot).next

/-- `*slot->process`. -/
def processOf (s : Scheduler) (slot : Nat) : Process := s.process (s.slot slot).process

/-- `slot->process->pid`. -/
def pidOf (s : Scheduler) (slot : Nat) : Int := (s.processOf slot).pid

/-- Write a process. -/
def setProcess (s : Scheduler) (p : Nat) (process : Process) : Scheduler :=
  { s with process := Function.update s.process p process }

/-- Write a thread. -/
def setThread (s : Scheduler) (t : Nat) (thread : Thread) : Scheduler :=
  { s with thread := Function.update s.thread t thread }

/-- Write a slot. -/
def setSlot (s : Scheduler) (address : Nat) (slot : ProcessSlot) : Scheduler :=
  { s with slot := Function.update s.slot address slot }

/-- A call of `allocPage` that does not return NULL. -/
def allocPage (s : Scheduler) (pages : Nat) : Option (Scheduler × Nat) :=
  match Kernel.allocPage s.buddyArray pages with
  | (buddyArray, some page) => some ({ s with buddyArray }, page)
  | (_, none) => none

/-- A call of `deallocPage`; `none` when it writes out of the bounds of its array. -/
def deallocPage (s : Scheduler) (page : Nat) : Option Scheduler :=
  (Kernel.deallocPage s.buddyArray page).map fun (buddyArray, _) => { s with buddyArray }

/-- `fillStackFrame`: the frame it fills stands two frames below the top. -/
def fillStackFrame (userStack : Nat) : Nat := userStack - 2 * sizeofStackFrame

/-- `initializeThreadArray`. -/
def initializeThreadArray : Vector Nat MAX_THREADS := Vector.replicate _ NULL

/-- `findNextSpot`: the first of `dim` entries that is NULL is marked with 1. -/
def findNextSpot (t : Vector Nat MAX_THREADS) (dim : Nat) :
    Vector Nat MAX_THREADS × Option (Fin MAX_THREADS) :=
  match (List.finRange MAX_THREADS).find? fun i => decide (i.val < dim ∧ t.get i = NULL) with
  | some i => (t.set i 1 i.isLt, some i)
  | none => (t, none)

/-- `createThread`. The pages are taken before the search for a free entry. -/
def createThread (s : Scheduler) (entryPoint p : Nat) : Option (Scheduler × Int) := do
  let (s, t) ← s.allocPage (NUMBER_OF_PAGES_TO_ALLOC sizeofThread)
  let (s, page1) ← s.allocPage 2
  let (s, page2) ← s.allocPage 2
  let userStack := page1 + 2 * PAGE_SIZE
  let kernelStack := page2 + 2 * PAGE_SIZE
  let stack := fillStackFrame userStack
  match findNextSpot (s.process p).thread 3 with
  | (_, none) => some (s, -1)
  | (thread, some index) =>
      let s := s.setProcess p
        { s.process p with
          numberOfThreads := (s.process p).numberOfThreads + 1
          thread := thread.set index t }
      some (s.setThread t ⟨stack, kernelStack, entryPoint⟩, 0)

/-- `getProcess`. -/
def getProcess (s : Scheduler) (entryPoint : Nat) : Option (Scheduler × Nat) := do
  let (s, p) ← s.allocPage (NUMBER_OF_PAGES_TO_ALLOC sizeofProcess)
  let s := s.setProcess p
    { s.process p with
      activeThread := 0, numberOfThreads := 0, thread := initializeThreadArray }
  let (s, _) ← s.createThread entryPoint p
  let s := s.setProcess p
    { s.process p with pid := s.pid, state := .ready, heap := NULL, pagesIndex := 0 }
  some ({ s with pid := toInt32 (s.pid + 1) }, p)

/-- `freeThreadPages`. -/
def freeThreadPages (s : Scheduler) (t : Nat) : Option Scheduler := do
  let s ← s.deallocPage (s.thread t).userStack
  let s ← s.deallocPage (s.thread t).kernelStack
  s.deallocPage t

end Scheduler

end SistemasOperativos.Kernel
