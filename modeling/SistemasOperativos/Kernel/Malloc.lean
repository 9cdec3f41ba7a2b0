import SistemasOperativos.Kernel.BuddyAllocator
import Mathlib.Logic.Function.Basic

/-!
# The heap of a process

`mallock` and `free` of malloc.c for one process. The headers of the blocks
stand in memory at the addresses of the blocks, and the pointers between them
are addresses with `0` for NULL. `size_t` has 32 bits. The loops along the list
take a bound on their number of steps; `none` means that the bound was reached.
`allocPage` is a parameter, which gets the page runs handed out so far.
-/

namespace SistemasOperativos.Kernel

/-- Bytes of a header before `dataStart`. -/
abbrev BLOCK_STRUCT_SIZE : Nat := 28

/-- Number of values of a `size_t`. -/
abbrev SIZE_T : Nat := 2 ^ 32

abbrev MAX_PAGES_PER_PROCESS : Nat := 10

/-- `align4(x)`. -/
def align4 (x : Nat) : Nat := (x - 1) / 4 * 4 + 4

/-- The fields of a `t_block`. -/
structure HeapBlock where
  size : Nat
  next : Nat
  prev : Nat
  free : Bool
  deriving DecidableEq, Repr

/-- `block->dataStart`. -/
abbrev dataStart (block : Nat) : Nat := block + BLOCK_STRUCT_SIZE

/-- Pages that `allocPage` returned together. -/
structure PageRun where
  base : Nat
  pages : Nat
  deriving DecidableEq, Repr

/-- Memory as `mallock` and `free` see it, the static variable `heapBase`, the
fields `heap` and `pages` of the process, and the page runs it got. -/
structure HeapState where
  block : Nat → HeapBlock
  heapBase : Nat
  heap : Nat
  pages : List Nat
  runs : List PageRun

namespace HeapState

/-- Write a header. -/
def setBlock (state : HeapState) (address : Nat) (header : HeapBlock) : HeapState :=
  { state with block := Function.update state.block address header }

/-- The loop of `findFirstFreeBlock`. -/
def findFirstFreeBlock (state : HeapState) : Nat → Nat → Nat → Option Nat
  | 0, _, _ => none
  | fuel + 1, current, size =>
      if current ≠ 0 ∧ ¬ ((state.block current).free ∧ size < (state.block current).size) then
        state.findFirstFreeBlock fuel (state.block current).next size
      else some current

/-- The loop of `findLastInHeap`. -/
def findLastInHeap (state : HeapState) : Nat → Nat → Option Nat
  | 0, _ => none
  | fuel + 1, current =>
      if (state.block current).next ≠ 0 then
        state.findLastInHeap fuel (state.block current).next
      else some current

/-- The loop of `getBlock`. -/
def getBlockLoop (state : HeapState) : Nat → Nat → Nat → Option Nat
  | 0, _, _ => none
  | fuel + 1, current, p =>
      if current ≠ 0 ∧ (state.block current).next < p then
        state.getBlockLoop fuel (state.block current).next p
      else some current

def split_block (state : HeapState) (block size : Nat) : HeapState :=
  if (state.block block).size < size then state
  else
    let newBlock := dataStart block + size
    let state := state.setBlock newBlock
      { next := (state.block block).next
        free := true
        size := ((state.block block).size + SIZE_T - (size + BLOCK_STRUCT_SIZE)) % SIZE_T
        prev := block }
    state.setBlock block { state.block block with next := newBlock, size := size }

/-- `addPagesToProcess`. -/
def addPagesToProcess (state : HeapState) (pageBase : Nat) : HeapState :=
  if MAX_PAGES_PER_PROCESS ≤ state.pages.length then state
  else { state with pages := state.pages ++ [pageBase] }

/-- `extendHeap`. -/
def extendHeap (allocPage : List PageRun → Nat → Nat) (fuel : Nat) (state : HeapState)
    (size : Nat) : Option (HeapState × Nat) :=
  let numberOfPages := NUMBER_OF_PAGES_TO_ALLOC ((size + BLOCK_STRUCT_SIZE) % SIZE_T)
  let newBlock := allocPage state.runs numberOfPages
  let header : HeapBlock :=
    { size := (numberOfPages * PAGE_SIZE + SIZE_T - BLOCK_STRUCT_SIZE) % SIZE_T
      free := true
      next := 0
      prev := (state.block newBlock).prev }
  let state := { state with runs := ⟨newBlock, numberOfPages⟩ :: state.runs }
  let state := state.setBlock newBlock header
  if state.heapBase = 0 then
    let state := state.setBlock newBlock { header with prev := 0 }
    let state := { state with heapBase := newBlock, heap := newBlock }
    some (state.addPagesToProcess newBlock, newBlock)
  else
    match state.findLastInHeap fuel state.heapBase with
    | none => none
    | some last =>
        let state := state.setBlock last { state.block last with next := newBlock }
        let state := state.setBlock newBlock { state.block newBlock with prev := last }
        some (state.addPagesToProcess newBlock, newBlock)

/-- The end of `mallock`: cut the block if enough is left over, and take it. -/
def takeBlock (state : HeapState) (freeBlock s : Nat) : HeapState × Nat :=
  let state :=
    if (s + 4 + BLOCK_STRUCT_SIZE) % SIZE_T < (state.block freeBlock).size then
      state.split_block freeBlock s
    else state
  (state.setBlock freeBlock { state.block freeBlock with free := false }, dataStart freeBlock)

/-- The first test of `mallock`: a process without a heap gets one. -/
def ensureHeap (allocPage : List PageRun → Nat → Nat) (fuel : Nat) (state : HeapState)
    (size : Nat) : Option HeapState :=
  if state.heapBase = 0 then (state.extendHeap allocPage fuel size).map Prod.fst else some state

/-- The block `mallock` takes: the first free one with more than `s` bytes, or a
new page run. -/
def chooseBlock (allocPage : List PageRun → Nat → Nat) (fuel : Nat) (state : HeapState)
    (size s : Nat) : Option (HeapState × Nat) :=
  match state.findFirstFreeBlock fuel state.heapBase s with
  | none => none
  | some freeBlock =>
      if freeBlock = 0 then state.extendHeap allocPage fuel size else some (state, freeBlock)

/-- `mallock` for a current process; the result `0` is NULL. -/
def mallock (allocPage : List PageRun → Nat → Nat) (fuel : Nat) (state : HeapState)
    (size : Nat) : Option (HeapState × Nat) :=
  let state := { state with heapBase := state.heap }
  if size = 0 then some (state, 0)
  else
    let s := align4 size
    match state.ensureHeap allocPage fuel size with
    | none => none
    | some state =>
        (state.chooseBlock allocPage fuel size s).map fun (state, freeBlock) =>
          state.takeBlock freeBlock s

def isValidAddress (state : HeapState) (p : Nat) : Bool :=
  if p = 0 ∨ p < dataStart state.heapBase then false else true

def getBlock (state : HeapState) (fuel p : Nat) : Option Nat :=
  state.getBlockLoop fuel state.heapBase p

def mergeBlocks (state : HeapState) (firstBlock : Nat) : HeapState :=
  let first := state.block firstBlock
  let second := state.block first.next
  state.setBlock firstBlock
    { first with
      size := (first.size + (second.size + BLOCK_STRUCT_SIZE)) % SIZE_T
      next := second.next }

/-- `mergeBlocks(block)` if the block behind it is there and free. -/
def mergeNext (state : HeapState) (block : Nat) : HeapState :=
  let next := (state.block block).next
  if next ≠ 0 ∧ (state.block next).free = true then state.mergeBlocks block else state

/-- `mergeBlocks(block->prev)` if the block before it is there and free. -/
def mergePrev (state : HeapState) (block : Nat) : HeapState :=
  let prev := (state.block block).prev
  if prev ≠ 0 ∧ (state.block prev).free = true then state.mergeBlocks prev else state

/-- `free`. -/
def free (fuel : Nat) (state : HeapState) (p : Nat) : Option HeapState :=
  if state.isValidAddress p then
    match state.getBlock fuel p with
    | none => none
    | some blockForFree =>
        if blockForFree = 0 then some state
        else
          let state := state.setBlock blockForFree
            { state.block blockForFree with free := true }
          some ((state.mergeNext blockForFree).mergePrev blockForFree)
  else some state

/-! ## `addPagesToProcess` writes the array of pages only -/

section AddPages

variable (state : HeapState) (pageBase : Nat)

@[simp] theorem addPagesToProcess_block :
    (state.addPagesToProcess pageBase).block = state.block := by
  unfold addPagesToProcess
  split <;> rfl

@[simp] theorem addPagesToProcess_heapBase :
    (state.addPagesToProcess pageBase).heapBase = state.heapBase := by
  unfold addPagesToProcess
  split <;> rfl

@[simp] theorem addPagesToProcess_heap :
    (state.addPagesToProcess pageBase).heap = state.heap := by
  unfold addPagesToProcess
  split <;> rfl

@[simp] theorem addPagesToProcess_runs :
    (state.addPagesToProcess pageBase).runs = state.runs := by
  unfold addPagesToProcess
  split <;> rfl

end AddPages

end HeapState

end SistemasOperativos.Kernel
