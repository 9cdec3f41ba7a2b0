import Mathlib.Data.Nat.Log
import Mathlib.Logic.Function.Basic
import Mathlib.Tactic.Ring

/-!
# The page allocator

Translation of `Kernel/buddyAllocator.c`. The allocator keeps a complete binary
tree of 2047 nodes in two arrays. Nodes are numbered from 1 ("the first
position of the array is 1"), so node `i` has its mark in `occupied[i-1]` and
its address in `base[i-1]`.

Pointers are natural numbers; a `void *` that may be `NULL` is an `Option`.
`getNextPageRecursive` recurses on the number of levels it still has to go down,
`level - currentLevel` in the source.
-/

namespace SistemasOperativos.Kernel

/-- `PAGE_SIZE`: 4 KiB. -/
abbrev PAGE_SIZE : Nat := 1024 * 4

/-- `MEMORY`: the arena managed by the allocator, 4 MiB. -/
abbrev MEMORY : Nat := PAGE_SIZE * 1024

/-- `NUMBER_OF_PAGES`. -/
abbrev NUMBER_OF_PAGES : Nat := MEMORY / PAGE_SIZE

/-- `HEAPSIZE`: the number of elements of the array. -/
abbrev HEAPSIZE : Nat := NUMBER_OF_PAGES * 2 - 1

/-- `NUMBER_OF_PAGES_TO_ALLOC(size)`: bytes rounded up to pages. -/
def NUMBER_OF_PAGES_TO_ALLOC (size : Nat) : Nat :=
  if size % PAGE_SIZE ≠ 0 then size / PAGE_SIZE + 1 else size / PAGE_SIZE

/-- `PARENT(i)`. -/
abbrev PARENT (i : Nat) : Nat := i / 2

/-- `LCHILD(i)`. -/
abbrev LCHILD (i : Nat) : Nat := 2 * i

/-- `RCHILD(i)`. -/
abbrev RCHILD (i : Nat) : Nat := 2 * i + 1

/-- `SIBLING(i)`. -/
def SIBLING (i : Nat) : Nat := if i % 2 ≠ 0 then i - 1 else i + 1

/-- The values of `typeOccupied`. -/
inductive Occupied where
  | EMPTY
  | PARTIALLY_FULL
  | BUDDY_FULL
  deriving DecidableEq, Repr

/-- `typeBuddyArray`. Both arrays have `HEAPSIZE` elements, indexed from 0. -/
structure BuddyArray where
  occupied : Nat → Occupied
  base : Nat → Nat
  heapLevel : Nat

namespace BuddyArray

/-- `occupied[index-1]`, the mark of a node. -/
def mark (buddyArray : BuddyArray) (index : Nat) : Occupied :=
  buddyArray.occupied (index - 1)

/-- `occupied[index-1] = value`. -/
def setMark (buddyArray : BuddyArray) (index : Nat) (value : Occupied) : BuddyArray :=
  { buddyArray with occupied := Function.update buddyArray.occupied (index - 1) value }

@[simp] theorem setMark_base (buddyArray : BuddyArray) (index : Nat) (value : Occupied) :
    (buddyArray.setMark index value).base = buddyArray.base := rfl

@[simp] theorem setMark_heapLevel (buddyArray : BuddyArray) (index : Nat) (value : Occupied) :
    (buddyArray.setMark index value).heapLevel = buddyArray.heapLevel := rfl

/-- The mark that was stored is read back. -/
@[simp] theorem mark_setMark_self (buddyArray : BuddyArray) (index : Nat) (value : Occupied) :
    (buddyArray.setMark index value).mark index = value := by
  simp [mark, setMark]

/-- Marking one node leaves the mark of every other node alone. -/
theorem mark_setMark_of_ne (buddyArray : BuddyArray) {index other : Nat} (value : Occupied)
    (positive : 0 < index) (otherPositive : 0 < other) (different : other ≠ index) :
    (buddyArray.setMark index value).mark other = buddyArray.mark other := by
  have entries : other - 1 ≠ index - 1 := by omega
  simp [mark, setMark, Function.update_of_ne entries]

end BuddyArray

/-- `baseMemory`, as `createHeap` sets it. -/
abbrev baseMemory : Nat := 0x1000000

/-- The allocator state before boot: static storage is zero. -/
def zeroBuddyArray : BuddyArray where
  occupied := fun _ => .EMPTY
  base := fun _ => 0
  heapLevel := 0

/-- `getBaseMemoryWithIndex`; its first argument is unused in the source. -/
def getBaseMemoryWithIndex (_i maxElementsInLevel elementNumber : Nat) : Nat :=
  MEMORY / maxElementsInLevel * elementNumber + baseMemory

/-- The `for` loop of `createHeap` from `i` on, with `remaining` iterations left. -/
def createHeapLoop : (remaining i level currentElementsInLevel maxElementsInLevel : Nat) →
    BuddyArray → BuddyArray
  | 0, _, level, _, _, buddyArray => { buddyArray with heapLevel := level }
  | remaining + 1, i, level, currentElementsInLevel, maxElementsInLevel, buddyArray =>
      let (current, max, level) :=
        if maxElementsInLevel = currentElementsInLevel then
          (0, maxElementsInLevel * 2, level + 1)
        else (currentElementsInLevel, maxElementsInLevel, level)
      let buddyArray :=
        { buddyArray with
          occupied := Function.update buddyArray.occupied i .EMPTY
          base := Function.update buddyArray.base i (getBaseMemoryWithIndex (i + 1) max current) }
      createHeapLoop remaining (i + 1) level (current + 1) max buddyArray

/-- `createHeap`. -/
def createHeap : BuddyArray := createHeapLoop HEAPSIZE 0 1 0 1 zeroBuddyArray

/-- `getNextPageRecursive(index, currentLevel, level)` with
`levelsLeft = level - currentLevel`. -/
def getNextPageRecursive (buddyArray : BuddyArray) (index : Nat) :
    (levelsLeft : Nat) → BuddyArray × Option Nat
  | 0 =>
      if buddyArray.mark index = .BUDDY_FULL then (buddyArray, none)
      else if buddyArray.mark index = .PARTIALLY_FULL then (buddyArray, none)
      else (buddyArray.setMark index .BUDDY_FULL, some (buddyArray.base (index - 1)))
  | levelsLeft + 1 =>
      if buddyArray.mark index = .BUDDY_FULL then (buddyArray, none)
      else
        match getNextPageRecursive buddyArray (LCHILD index) levelsLeft with
        | (buddyArray, none) =>
            match getNextPageRecursive buddyArray (RCHILD index) levelsLeft with
            | (buddyArray, none) => (buddyArray, none)
            | (buddyArray, some rchild) =>
                if buddyArray.mark (RCHILD index) = .BUDDY_FULL then
                  (buddyArray.setMark index .BUDDY_FULL, some rchild)
                else (buddyArray, some rchild)
        | (buddyArray, some lchild) => (buddyArray.setMark index .PARTIALLY_FULL, some lchild)

/-- The `while (rta != 1)` loop of `getLevel`; returns its `i`. The halving
reaches 1 in fewer than `fuel` turns for every `rta < 2 ^ fuel`. -/
def getLevelLoop : (fuel rta i : Nat) → Nat
  | 0, _, i => i
  | fuel + 1, rta, i =>
      if rta = 1 then i
      else getLevelLoop fuel (if rta % 2 ≠ 0 then rta / 2 + 1 else rta / 2) (i + 1)

/-- `getLevel`, called with `1 ≤ pages ≤ NUMBER_OF_PAGES`. -/
def getLevel (buddyArray : BuddyArray) (pages : Nat) : Int :=
  buddyArray.heapLevel - (getLevelLoop (pages + 1) pages 0 : Nat)

/-- `allocPage`. -/
def allocPage (buddyArray : BuddyArray) (pages : Nat) : BuddyArray × Option Nat :=
  if pages = 0 ∨ pages > NUMBER_OF_PAGES then (buddyArray, none)
  else
    let level := getLevel buddyArray pages
    if level > buddyArray.heapLevel then (buddyArray, none)
    else getNextPageRecursive buddyArray 1 (level - 1).toNat

/-- `isValid`: a placeholder in the source, it accepts every pointer. -/
def isValid (_page : Int) : Bool := true

/-- The `if` cascade of `freeUpRecursive` at one node: what happens to its parent. -/
def freeUpStep (buddyArray : BuddyArray) (index : Nat) : BuddyArray :=
  if buddyArray.mark (PARENT index) = .BUDDY_FULL ∧ buddyArray.mark (SIBLING index) = .EMPTY then
    buddyArray.setMark (PARENT index) .EMPTY
  else if buddyArray.mark (PARENT index) = .BUDDY_FULL ∧
      buddyArray.mark (SIBLING index) = .BUDDY_FULL then
    buddyArray.setMark (PARENT index) .PARTIALLY_FULL
  else if buddyArray.mark (PARENT index) = .PARTIALLY_FULL ∧
      buddyArray.mark (SIBLING index) = .EMPTY then
    buddyArray.setMark (PARENT index) .EMPTY
  else buddyArray

/-- `freeUpRecursive`. It stops at the root, which every `index < 2 ^ fuel`
other than 0 reaches in fewer than `fuel` turns. -/
def freeUpRecursive : (fuel : Nat) → (buddyArray : BuddyArray) → (index : Nat) → BuddyArray
  | 0, buddyArray, _ => buddyArray
  | fuel + 1, buddyArray, index =>
      if index = 1 then buddyArray
      else freeUpRecursive fuel (freeUpStep buddyArray index) (PARENT index)

/-- `int index = (page - baseMemory)/PAGE_SIZE`: a C division, truncated to 32 bits. -/
def pageIndex (page : Int) : Int :=
  ((page - baseMemory).tdiv PAGE_SIZE).bmod (2 ^ 32)

/-- `deallocPage`. The result is `none` when `occupied` is written out of its
bounds, which C does not define. -/
def deallocPage (buddyArray : BuddyArray) (page : Int) : Option (BuddyArray × Int) :=
  if isValid page then
    let entry := pageIndex page + ((HEAPSIZE / 2 : Nat) : Int)
    if 0 ≤ entry ∧ entry < HEAPSIZE then
      let index := entry.toNat + 1
      some (freeUpRecursive 11 (buddyArray.setMark index .EMPTY) index, 0)
    else none
  else some (buddyArray, -1)

end SistemasOperativos.Kernel
