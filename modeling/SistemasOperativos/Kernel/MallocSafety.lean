import SistemasOperativos.Kernel.HeapLayout
import SistemasOperativos.Semantics.Run
import Mathlib.Data.List.Nodup

/-!
# Allocations of a process do not overlap

`HeapProcess` is the heap of a process together with the allocations it has not
freed. `Held` adds to the layout of the heap list that each allocation is the
data of a block of its own that is not marked free.

`mallock` always keeps it. `free` keeps it when it works on the block of its
argument, or on one nobody holds, and when the blocks it merges are of the same
page run. Nothing in the code sees to that: `getBlock` relies on the order of
the addresses, `mergeBlocks` joins list neighbours whatever lies between them,
and neither it nor `split_block` sets the `prev` of the block behind.
-/

namespace SistemasOperativos.Kernel

open SistemasOperativos.Foundation SistemasOperativos.Semantics

/-- A pointer that `mallock` returned and the size it was asked for. -/
structure Allocation where
  pointer : Nat
  size : Nat
  deriving DecidableEq, Repr

/-- The bytes of an allocation. -/
def Allocation.range (allocation : Allocation) : Interval :=
  ⟨allocation.pointer, allocation.pointer + allocation.size⟩

/-- The heap and the allocations in use. -/
structure HeapProcess where
  heap : HeapState
  live : List Allocation

/-- The calls a run is made of. -/
inductive MallocAction where
  | mallock (size : Nat)
  | free (p : Nat)
  deriving DecidableEq, Repr

/-- What `allocPage` is relied on for: an address other than NULL and pages that
were not handed out before. -/
def FreshPages (allocPage : List PageRun → Nat → Nat) : Prop :=
  ∀ runs pages, 0 < pages → 0 < allocPage runs pages ∧
    ∀ run ∈ runs, (PageRun.mk (allocPage runs pages) pages).interval.Disjoint run.interval

namespace HeapProcess

/-- One call: `mallock` of 1 to 2^31 - 1 bytes, or `free` of a pointer in use. -/
def step (allocPage : List PageRun → Nat → Nat) (fuel : Nat) (state : HeapProcess) :
    MallocAction → Option HeapProcess
  | .mallock size =>
      if 0 < size ∧ size < 2 ^ 31 then
        (state.heap.mallock allocPage fuel size).map fun (heap, pointer) =>
          ⟨heap, ⟨pointer, size⟩ :: state.live⟩
      else none
  | .free p =>
      match state.live.find? (·.pointer = p) with
      | none => none
      | some allocation =>
          (state.heap.free fuel p).map fun heap => ⟨heap, state.live.erase allocation⟩

/-- A process without a heap. -/
structure Start (state : HeapProcess) : Prop where
  heap : state.heap.heap = 0
  runs : state.heap.runs = []
  live : state.live = []

/-- The allocations are disjoint, hold no header of the heap list, and lie in
one page run each. -/
structure Safe (state : HeapProcess) : Prop where
  disjoint : state.live.Pairwise fun a b => a.range.Disjoint b.range
  headers : ∀ a ∈ state.live, ∀ block, state.heap.OnList block →
    Interval.Disjoint ⟨block, dataStart block⟩ a.range
  inside : ∀ a ∈ state.live, ∃ run ∈ state.heap.runs, run.interval.Contains a.range

/-- The condition on `free(p)`, where `getBlock` finds `block`: it is the block
of `p` or no allocation's; if the block behind it is free, both are of one page
run; and its `prev` is NULL or stands before it on the list and is, if it is
free, followed by a block of its own page run that is free or is `block`. -/
structure MergesWithinRun (fuel : Nat) (state : HeapProcess) (p block : Nat) : Prop where
  own : ∀ a ∈ state.live, a.pointer = dataStart block → a.pointer = p
  next : (state.heap.block block).next ≠ 0 →
    (state.heap.block (state.heap.block block).next).free = true →
      Interval.Together state.heap.regions block (state.heap.block block).next
  listed : (state.heap.block block).prev ≠ 0 →
    (state.heap.block block).prev ∈ state.heap.walkTo fuel state.heap.heapBase block
  prev : (state.heap.block block).prev ≠ 0 →
    (state.heap.block (state.heap.block block).prev).free = true →
      (state.heap.next (state.heap.block block).prev = block ∨
        (state.heap.block (state.heap.next (state.heap.block block).prev)).free = true) ∧
      Interval.Together state.heap.regions (state.heap.block block).prev
        (state.heap.next (state.heap.block block).prev)

instance (fuel : Nat) (state : HeapProcess) (p block : Nat) :
    Decidable (MergesWithinRun fuel state p block) :=
  decidable_of_iff (_ ∧ _ ∧ _ ∧ _)
    ⟨fun ⟨own, next, listed, prev⟩ => ⟨own, next, listed, prev⟩,
      fun ⟨own, next, listed, prev⟩ => ⟨own, next, listed, prev⟩⟩

/-- The condition on a call. A `free` that finds no block does nothing. -/
def FreesWithinRun (fuel : Nat) (state : HeapProcess) : MallocAction → Prop
  | .mallock _ => True
  | .free p =>
      state.heap.isValidAddress p = true →
        ∀ block ∈ state.heap.getBlock fuel p, block ≠ 0 → MergesWithinRun fuel state p block

instance (fuel : Nat) (state : HeapProcess) (action : MallocAction) :
    Decidable (state.FreesWithinRun fuel action) := by
  cases action <;> unfold FreesWithinRun <;> infer_instance

end HeapProcess

/-! ## Blocks and allocations -/

/-- Each allocation is the data of a used block of its own. -/
structure Held (heap : HeapState) (live : List Allocation) (l : List Nat) : Prop
    extends Laid heap l where
  owned : ∀ a ∈ live, ∃ block ∈ l, a.pointer = dataStart block ∧
    a.size ≤ (heap.block block).size ∧ (heap.block block).free = false
  distinct : (live.map Allocation.pointer).Nodup

namespace Held

variable {heap heap' : HeapState} {live : List Allocation} {l r : List Nat} {block x : Nat}

/-- The allocations follow when every used block keeps its place and size. -/
theorem of_laid (held : Held heap live l) (laid : Laid heap' r)
    (keeps : ∀ b ∈ l, (heap.block b).free = false → b ∈ r ∧
      (heap.block b).size ≤ (heap'.block b).size ∧ (heap'.block b).free = false) :
    Held heap' live r := by
  refine ⟨laid, fun a member => ?_, held.distinct⟩
  obtain ⟨b, onList, pointer, size, used⟩ := held.owned a member
  obtain ⟨stays, grows, still⟩ := keeps b onList used
  exact ⟨b, stays, pointer, Nat.le_trans size grows, still⟩

/-- Only the headers, the start of the list and the page runs count. -/
theorem congr (held : Held heap live l) (blocks : heap'.block = heap.block)
    (start : heap'.heap = heap.heap) (runs : heap'.runs = heap.runs) : Held heap' live l := by
  refine held.of_laid (held.toLaid.congr ?_ ?_ start runs) fun b member used => ?_
  · intro b _
    rw [blocks]
  · intro b _
    rw [HeapState.next, blocks, HeapState.next]
  · rw [blocks]
    exact ⟨member, Nat.le_refl _, used⟩

/-- An allocation that was freed. -/
theorem erase (held : Held heap live l) (a : Allocation) : Held heap (live.erase a) l := by
  refine ⟨held.toLaid, fun b member => held.owned b (List.mem_of_mem_erase member), ?_⟩
  exact held.distinct.sublist (List.Sublist.map _ List.erase_sublist)

/-- The allocations of a heap are where they have to be. -/
theorem safe {state : HeapProcess} (held : Held state.heap state.live l) : state.Safe := by
  have within : ∀ a ∈ state.live, ∃ b ∈ l, a.pointer = dataStart b ∧
      a.pointer + a.size ≤ (state.heap.extent b).hi := by
    intro a member
    obtain ⟨b, onList, pointer, size, -⟩ := held.owned a member
    refine ⟨b, onList, pointer, ?_⟩
    simp only [pointer, dataStart_eq, HeapState.extent_hi]
    omega
  have apart : ∀ b ∈ l, ∀ c ∈ l, b ≠ c →
      (state.heap.extent b).Disjoint (state.heap.extent c) := by
    intro b memberB c memberC other
    by_contra overlap
    have nonemptyB := Laid.extent_nonempty state.heap b
    have nonemptyC := Laid.extent_nonempty state.heap c
    simp only [Interval.Disjoint, HeapState.extent_lo] at overlap nonemptyB nonemptyC
    rcases Nat.le_total b c with le | le
    · refine other (held.eq_of_has memberB memberC ⟨?_, ?_⟩).symm
      · simpa using le
      · omega
    · refine other (held.eq_of_has memberC memberB ⟨?_, ?_⟩)
      · simpa using le
      · omega
  refine ⟨?_, ?_, ?_⟩
  · refine (List.pairwise_map.mp held.distinct).imp_of_mem fun {a c} memberA memberC differ => ?_
    obtain ⟨b, onListB, pointerB, endB⟩ := within a memberA
    obtain ⟨d, onListD, pointerD, endD⟩ := within c memberC
    have other : b ≠ d := fun same => differ (by rw [pointerB, pointerD, same])
    have disjoint := apart b onListB d onListD other
    simp only [Interval.Disjoint, Allocation.range, HeapState.extent_lo, dataStart_eq] at *
    omega
  · intro a member b ⟨notNull, before, path, nonnull⟩
    obtain ⟨c, onList, pointer, bound⟩ := within a member
    have listed := held.path.mem_of_arrives path nonnull notNull
    simp only [Interval.Disjoint, Allocation.range, dataStart_eq] at *
    by_cases same : b = c
    · subst same
      omega
    · have disjoint := apart b listed c onList same
      simp only [HeapState.extent_lo, HeapState.extent_hi] at disjoint bound
      omega
  · intro a member
    obtain ⟨b, onList, pointer, bound⟩ := within a member
    obtain ⟨run, isRun, lower, upper⟩ := held.inside b onList
    obtain ⟨pages, isPages, rfl⟩ := List.mem_map.mp isRun
    refine ⟨pages, isPages, ?_, ?_⟩
    · simp only [Allocation.range, pointer, dataStart_eq, HeapState.extent_lo] at *
      omega
    · simp only [Allocation.range] at *
      omega

/-! ### mallock -/

/-- `split_block` on a free block with room for another header: the new one stands behind it. -/
theorem split_block {l₁ l₂ : List Nat} (held : Held heap live (l₁ ++ block :: l₂))
    (free : (heap.block block).free = true) {s : Nat} (room : s + 28 ≤ (heap.block block).size) :
    Held (heap.split_block block s) live (l₁ ++ block :: (block + 28 + s) :: l₂) ∧
      (heap.split_block block s).block =
        Function.update (Function.update heap.block (block + 28 + s)
          ⟨(heap.block block).size - (s + 28), (heap.block block).next, block, true⟩) block
          { heap.block block with next := block + 28 + s, size := s } := by
  have member : block ∈ l₁ ++ block :: l₂ := by simp
  have small := held.size_lt member
  have nodup := held.nodup
  have inside : (heap.extent block).Has (block + 28 + s) := by
    constructor
    · simp only [HeapState.extent_lo]
      omega
    · simp only [HeapState.extent_hi]
      omega
  have fresh : block + 28 + s ∉ l₁ ++ block :: l₂ := by
    intro onList
    have same := held.eq_of_has member onList inside
    omega
  let cut : HeapBlock :=
    ⟨(heap.block block).size - (s + 28), (heap.block block).next, block, true⟩
  let front : HeapBlock := { heap.block block with next := block + 28 + s, size := s }
  have split : heap.split_block block s =
      (heap.setBlock (block + 28 + s) cut).setBlock block front := by
    have wrap : ((heap.block block).size + SIZE_T - (s + BLOCK_STRUCT_SIZE)) % SIZE_T =
        (heap.block block).size - (s + 28) := by
      simp only [SIZE_T, BLOCK_STRUCT_SIZE] at *
      omega
    have other : block ≠ block + 28 + s := by omega
    simp only [HeapState.split_block, if_neg (show ¬ (heap.block block).size < s by omega),
      HeapState.setBlock, wrap, dataStart_eq, Function.update_of_ne other, cut, front]
  have away : ∀ b, b ≠ block → b ≠ block + 28 + s →
      (heap.split_block block s).block b = heap.block b := by
    intro b first second
    simp [split, HeapState.setBlock, first, second]
  have others : ∀ b ∈ l₁ ++ l₂, b ≠ block ∧ b ≠ block + 28 + s := by
    intro b other
    have apart := List.perm_middle.nodup_iff.mp nodup
    constructor
    · rintro rfl
      exact (List.nodup_cons.mp apart).1 other
    · rintro rfl
      refine fresh ?_
      simp only [List.mem_append, List.mem_cons] at other ⊢
      exact other.imp_right .inr
  have laid : Laid (heap.split_block block s) (l₁ ++ block :: (block + 28 + s) :: l₂) := by
    refine held.cut ?_ ?_ (by omega) ?_ ?_ fun b other =>
      away b (others b other).1 (others b other).2
    · simp [split, HeapState.setBlock]
    · simp [split, HeapState.setBlock]
    · simp [split, HeapState.setBlock, HeapState.next, front]
    · have other : block + 28 + s ≠ block := by omega
      simp only [split, HeapState.setBlock, HeapState.next, Function.update_of_ne other,
        Function.update_self, cut, true_and]
      omega
  refine ⟨held.of_laid laid fun b onList used => ?_, by rw [split]; rfl⟩
  have notFirst : b ≠ block := by
    rintro rfl
    rw [free] at used
    cases used
  have notSecond : b ≠ block + 28 + s := fun same => fresh (same ▸ onList)
  rw [away b notFirst notSecond]
  refine ⟨?_, Nat.le_refl _, used⟩
  simp only [List.mem_append, List.mem_cons] at onList ⊢
  exact onList.imp_right fun here => here.imp_right .inr

/-- A free block with enough room becomes an allocation. -/
theorem allocate (held : Held heap live l) (member : block ∈ l)
    (free : (heap.block block).free = true) {size : Nat} (fits : size ≤ (heap.block block).size) :
    Held (heap.setBlock block { heap.block block with free := false })
      (⟨dataStart block, size⟩ :: live) l := by
  have laid : Laid (heap.setBlock block { heap.block block with free := false }) l :=
    held.toLaid.setFree block false
  have other : ∀ a ∈ live, ∃ b ∈ l, b ≠ block ∧ a.pointer = dataStart b ∧
      a.size ≤ (heap.block b).size ∧ (heap.block b).free = false := by
    intro a isLive
    obtain ⟨b, onList, pointer, size, used⟩ := held.owned a isLive
    refine ⟨b, onList, ?_, pointer, size, used⟩
    rintro rfl
    rw [free] at used
    cases used
  refine ⟨laid, ?_, ?_⟩
  · intro a isLive
    rcases List.mem_cons.mp isLive with rfl | older
    · exact ⟨block, member, rfl, by simpa [HeapState.setBlock] using fits,
        by simp [HeapState.setBlock]⟩
    · obtain ⟨b, onList, differs, pointer, size, used⟩ := other a older
      exact ⟨b, onList, pointer, by simpa [HeapState.setBlock, differs] using size,
        by simpa [HeapState.setBlock, differs] using used⟩
  · rw [List.map_cons, List.nodup_cons]
    refine ⟨fun again => ?_, held.distinct⟩
    obtain ⟨a, isLive, pointer⟩ := List.mem_map.mp again
    obtain ⟨b, -, differs, start, -⟩ := other a isLive
    simp only [start, dataStart_eq] at pointer
    omega

/-- The end of `mallock` on a free block with enough room. -/
theorem takeBlock (held : Held heap live l) (member : block ∈ l)
    (free : (heap.block block).free = true) {s size : Nat} (fits : s ≤ (heap.block block).size)
    (aligned : size ≤ s) (bound : s ≤ 2 ^ 31) :
    ∃ r, Held (heap.takeBlock block s).1 (⟨(heap.takeBlock block s).2, size⟩ :: live) r ∧
      (heap.takeBlock block s).1.heapBase = heap.heapBase ∧
      (heap.takeBlock block s).1.heap = heap.heap := by
  have noWrap : (s + 4 + BLOCK_STRUCT_SIZE) % SIZE_T = s + 32 := by
    simp only [BLOCK_STRUCT_SIZE, SIZE_T]
    omega
  simp only [HeapState.takeBlock, noWrap]
  split
  · rename_i large
    obtain ⟨l₁, l₂, rfl⟩ := List.append_of_mem member
    obtain ⟨cut, blocks⟩ := held.split_block free (show s + 28 ≤ _ by omega)
    have front : ((heap.split_block block s).block block).free = true ∧
        ((heap.split_block block s).block block).size = s := by
      simp [blocks, free]
    refine ⟨_, cut.allocate (by simp) front.1 (by omega), ?_, ?_⟩
    · simp only [HeapState.setBlock, HeapState.split_block]
      split <;> rfl
    · simp only [HeapState.setBlock, HeapState.split_block]
      split <;> rfl
  · exact ⟨l, held.allocate member free (by omega), rfl, rfl⟩

/-- The pages `extendHeap` asks for hold the block, and a little less than one
page more. -/
theorem pages_bounds {size : Nat} (bound : size < 2 ^ 31) :
    let pages := NUMBER_OF_PAGES_TO_ALLOC ((size + BLOCK_STRUCT_SIZE) % SIZE_T)
    size + 28 ≤ pages * PAGE_SIZE ∧ pages * PAGE_SIZE < size + 28 + 4096 := by
  simp only [NUMBER_OF_PAGES_TO_ALLOC, BLOCK_STRUCT_SIZE, SIZE_T,
    show PAGE_SIZE = 4096 by rfl, Nat.mod_eq_of_lt (show size + 28 < 2 ^ 32 by omega)]
  split <;> omega

/-- What `mallock` needs of a block for a request of `size` bytes. -/
structure Suits (heap : HeapState) (l : List Nat) (block size : Nat) : Prop where
  member : block ∈ l
  free : (heap.block block).free = true
  fits : align4 size ≤ (heap.block block).size

/-- What `extendHeap` leaves behind: the new page run is one free block at the end
of the list. -/
structure Grown (heap heap' : HeapState) (live : List Allocation) (l : List Nat)
    (base pages : Nat) : Prop where
  held : Held heap' live (l ++ [base])
  free : (heap'.block base).free = true
  size : (heap'.block base).size + 28 = pages * PAGE_SIZE
  global : heap'.heapBase = heap'.heap
  runs : heap'.runs = ⟨base, pages⟩ :: heap.runs
  others : ∀ b, b ∉ l ++ [base] → heap'.block b = heap.block b

/-- `extendHeap` with pages that were not handed out before. -/
theorem grown {allocPage : List PageRun → Nat → Nat} {fuel size base page pages : Nat}
    (held : Held heap live l) (global : heap.heapBase = heap.heap)
    (asked : NUMBER_OF_PAGES_TO_ALLOC ((size + BLOCK_STRUCT_SIZE) % SIZE_T) = pages)
    (granted : allocPage heap.runs pages = page) (notNull : 0 < page)
    (apart : ∀ run ∈ heap.runs, (PageRun.mk page pages).interval.Disjoint run.interval)
    (positive : 0 < pages) (small : pages * PAGE_SIZE < SIZE_T)
    (extended : heap.extendHeap allocPage fuel size = some (heap', base)) :
    Grown heap heap' live l base pages := by
  simp only [HeapState.extendHeap, asked, granted] at extended
  simp only [show PAGE_SIZE = 4096 by rfl] at *
  have wrap : (pages * 4096 + SIZE_T - BLOCK_STRUCT_SIZE) % SIZE_T = pages * 4096 - 28 := by
    simp only [SIZE_T, BLOCK_STRUCT_SIZE] at *
    omega
  have apartRegions : ∀ run ∈ heap.regions, (PageRun.mk page pages).interval.Disjoint run := by
    intro run isRun
    obtain ⟨old, isOld, rfl⟩ := List.mem_map.mp isRun
    exact apart old isOld
  have notListed : page ∉ l := by
    intro onList
    obtain ⟨run, isRun, -, has⟩ := held.run_has onList
    have disjoint := apartRegions run isRun
    simp only [Interval.Disjoint, Interval.Has, PageRun.interval,
      show PAGE_SIZE = 4096 by rfl] at disjoint has
    omega
  rw [wrap] at extended
  -- Both branches give the same list: the blocks so far and the new one.
  suffices result : heap'.runs = ⟨page, pages⟩ :: heap.runs ∧ base = page ∧
      (heap'.block page).size = pages * 4096 - 28 ∧ (heap'.block page).free = true ∧
      Path heap'.next heap'.heap (l ++ [page]) 0 ∧ heap'.heapBase = heap'.heap ∧
      (∀ b ∈ l, (heap'.block b).size = (heap.block b).size ∧
        (heap'.block b).free = (heap.block b).free) ∧
      ∀ b, b ∉ l ++ [page] → heap'.block b = heap.block b by
    obtain ⟨runs, rfl, length, free, path, same, others, away⟩ := result
    have whole : (heap'.block base).size + 28 = pages * 4096 := by omega
    have laid : Laid heap' (l ++ [base]) :=
      held.append runs (by omega) apartRegions small whole path
        fun b member => (others b member).1
    refine ⟨held.of_laid laid fun b member used => ?_, free, whole, same, runs, away⟩
    exact ⟨List.mem_append_left _ member, Nat.le_of_eq (others b member).1.symm,
      (others b member).2.trans used⟩
  split at extended
  · rename_i empty
    obtain ⟨rfl, rfl⟩ := Prod.mk.inj (Option.some.inj extended)
    have none : l = [] := by
      have path := held.path
      rw [← global] at path
      cases l with
      | nil => rfl
      | cons b l =>
          obtain ⟨first, -⟩ := path
          refine absurd ?_ held.nonnull
          rw [← first, show heap.heapBase = 0 from empty]
          exact List.mem_cons_self ..
    subst none
    refine ⟨?_, rfl, ?_, ?_, ?_, ?_, by simp, fun b other => ?_⟩
    · simp [HeapState.setBlock]
    · simp [HeapState.setBlock]
    · simp [HeapState.setBlock]
    · simp [HeapState.next, HeapState.setBlock]
    · simp
    · have notPage : b ≠ page := by simpa using other
      simp [HeapState.setBlock, notPage]
  · rename_i inhabited
    split at extended
    · cases extended
    · rename_i last found
      obtain ⟨rfl, rfl⟩ := Prod.mk.inj (Option.some.inj extended)
      have written : ∀ b ∈ l, b ≠ page := fun b member same => notListed (same ▸ member)
      have path : Path (HeapState.next (HeapState.setBlock
          { heap with runs := ⟨page, pages⟩ :: heap.runs } page
          ⟨pages * 4096 - 28, 0, (heap.block page).prev, true⟩)) heap.heapBase l 0 := by
        refine Path.congr (fun b member => ?_) (global ▸ held.path)
        simp [HeapState.next, HeapState.setBlock, written b member]
      have some : l ≠ [] := by
        rintro rfl
        exact inhabited (global.trans held.path)
      obtain ⟨before, rfl⟩ := HeapState.findLastInHeap_spec path held.nonnull some found
      have nodup := List.nodup_append.mp held.nodup
      have lastWritten := written last (by simp)
      have older : ∀ b ∈ before, b ≠ last := fun b member => nodup.2.2 b member last (by simp)
      refine ⟨?_, rfl, ?_, ?_, ?_, ?_, ?_, fun b other => ?_⟩
      · simp [HeapState.setBlock]
      · simp [HeapState.setBlock, Function.update_of_ne lastWritten.symm]
      · simp [HeapState.setBlock, Function.update_of_ne lastWritten.symm]
      · refine Path.append_iff.mpr ⟨page, ?_, rfl, ?_⟩
        · rw [HeapState.addPagesToProcess_heap]
          refine held.path.setLast ?_ fun b member => ?_
          · simp [HeapState.next, HeapState.setBlock, lastWritten]
          · have notPage := written b (List.mem_append_left _ member)
            simp [HeapState.next, HeapState.setBlock, notPage, older b member]
        · simp [HeapState.next, HeapState.setBlock, Function.update_of_ne lastWritten.symm]
      · simpa [HeapState.setBlock] using global
      · intro b member
        by_cases isLast : b = last
        · simp [HeapState.setBlock, isLast, lastWritten]
        · simp [HeapState.setBlock, isLast, written b member]
      · simp only [List.mem_append, List.mem_singleton, not_or] at other
        simp [HeapState.setBlock, other]

/-- A new page run is one free block at the end of the list, large enough for
the request. -/
theorem extendHeap {allocPage : List PageRun → Nat → Nat} (fresh : FreshPages allocPage)
    {fuel size base : Nat} (held : Held heap live l) (global : heap.heapBase = heap.heap)
    (positive : 0 < size) (bound : size < 2 ^ 31)
    (extended : heap.extendHeap allocPage fuel size = some (heap', base)) :
    Held heap' live (l ++ [base]) ∧ Suits heap' (l ++ [base]) base size ∧
      heap'.heapBase = heap'.heap := by
  obtain ⟨enough, little⟩ := pages_bounds bound
  generalize asked : NUMBER_OF_PAGES_TO_ALLOC ((size + BLOCK_STRUCT_SIZE) % SIZE_T) = pages at *
  simp only [show PAGE_SIZE = 4096 by rfl] at enough little
  obtain ⟨notNull, apart⟩ := fresh heap.runs pages (by omega)
  have small : pages * PAGE_SIZE < SIZE_T := by
    simp only [SIZE_T, show PAGE_SIZE = 4096 by rfl]
    omega
  have grown := held.grown global asked rfl notNull apart (by omega) small extended
  have whole := grown.size
  simp only [show PAGE_SIZE = 4096 by rfl] at whole
  refine ⟨grown.held, ⟨by simp, grown.free, ?_⟩, grown.global⟩
  simp only [align4]
  omega

/-- After the first test of `mallock` there is a heap list, and `heapBase`
points to it. -/
theorem ensureHeap {allocPage : List PageRun → Nat → Nat} (fresh : FreshPages allocPage)
    {fuel size : Nat} (held : Held heap live l) (global : heap.heapBase = heap.heap)
    (positive : 0 < size) (bound : size < 2 ^ 31)
    (ensured : heap.ensureHeap allocPage fuel size = some heap') :
    ∃ r, Held heap' live r ∧ heap'.heapBase = heap'.heap ∧ r.length ≤ l.length + 1 := by
  unfold HeapState.ensureHeap at ensured
  split at ensured
  · obtain ⟨⟨grown, base⟩, extended, rfl⟩ := Option.map_eq_some_iff.mp ensured
    obtain ⟨held, -, global⟩ := held.extendHeap fresh global positive bound extended
    exact ⟨_, held, global, by simp⟩
  · obtain rfl := Option.some.inj ensured
    exact ⟨l, held, global, by omega⟩

/-- The block `mallock` chooses is free and large enough. -/
theorem chooseBlock {allocPage : List PageRun → Nat → Nat} (fresh : FreshPages allocPage)
    {fuel size : Nat} (held : Held heap live l) (global : heap.heapBase = heap.heap)
    (positive : 0 < size) (bound : size < 2 ^ 31)
    (chosen : heap.chooseBlock allocPage fuel size (align4 size) = some (heap', block)) :
    ∃ r, Held heap' live r ∧ heap'.heapBase = heap'.heap ∧ Suits heap' r block size := by
  unfold HeapState.chooseBlock at chosen
  split at chosen
  · cases chosen
  · rename_i found search
    split at chosen
    · obtain ⟨held, suits, global⟩ := held.extendHeap fresh global positive bound chosen
      exact ⟨_, held, global, suits⟩
    · rename_i notNull
      obtain ⟨rfl, rfl⟩ := Prod.mk.inj (Option.some.inj chosen)
      obtain ⟨member, free, room⟩ :=
        (HeapState.findFirstFreeBlock_spec (global ▸ held.path) search).resolve_left notNull
      exact ⟨l, held, global, member, free, by omega⟩

/-- `mallock` returns a new allocation and keeps the others. -/
theorem mallock {allocPage : List PageRun → Nat → Nat} (fresh : FreshPages allocPage)
    {fuel size pointer : Nat} (held : Held heap live l) (positive : 0 < size)
    (bound : size < 2 ^ 31)
    (allocated : heap.mallock allocPage fuel size = some (heap', pointer)) :
    ∃ r, Held heap' (⟨pointer, size⟩ :: live) r ∧ heap'.heapBase = heap'.heap := by
  have aligned : size ≤ align4 size ∧ align4 size ≤ 2 ^ 31 := by
    simp only [align4]
    omega
  have current : Held { heap with heapBase := heap.heap } live l := held.congr rfl rfl rfl
  simp only [HeapState.mallock, if_neg (show ¬ size = 0 by omega)] at allocated
  split at allocated
  · cases allocated
  · rename_i ensured
    obtain ⟨_, ready, global, -⟩ := current.ensureHeap fresh rfl positive bound ensured
    obtain ⟨⟨chosen, block⟩, choice, taken⟩ := Option.map_eq_some_iff.mp allocated
    obtain ⟨_, held, global, suits⟩ := ready.chooseBlock fresh global positive bound choice
    obtain ⟨r, taking, heapBase, start⟩ :=
      held.takeBlock suits.member suits.free suits.fits aligned.1 aligned.2
    rw [taken] at taking heapBase start
    exact ⟨r, taking, by rw [heapBase, start, global]⟩

/-- `extendHeap` completes with a bound above the number of blocks. -/
theorem extendHeap_isSome {allocPage : List PageRun → Nat → Nat} (fresh : FreshPages allocPage)
    {fuel size : Nat} (held : Held heap live l) (global : heap.heapBase = heap.heap)
    (bound : size < 2 ^ 31) (enough : l.length < fuel) :
    (heap.extendHeap allocPage fuel size).isSome := by
  obtain ⟨asked, -⟩ := pages_bounds bound
  have apart : allocPage heap.runs
      (NUMBER_OF_PAGES_TO_ALLOC ((size + BLOCK_STRUCT_SIZE) % SIZE_T)) ∉ l := by
    intro member
    have positive :
        0 < NUMBER_OF_PAGES_TO_ALLOC ((size + BLOCK_STRUCT_SIZE) % SIZE_T) := by
      refine Nat.pos_of_ne_zero fun none => ?_
      rw [none] at asked
      omega
    obtain ⟨run, isRun, -, has⟩ := held.run_has member
    obtain ⟨old, isOld, rfl⟩ := List.mem_map.mp isRun
    have disjoint := (fresh heap.runs _ positive).2 old isOld
    simp only [Interval.Disjoint, Interval.Has, PageRun.interval,
      show PAGE_SIZE = 4096 by rfl] at disjoint has
    omega
  obtain ⟨heap', extended⟩ :=
    HeapState.extendHeap_completes (global ▸ held.path) rfl apart enough
  rw [extended]
  rfl

/-- `mallock` completes with a bound above the number of blocks and one more. -/
theorem mallock_isSome {allocPage : List PageRun → Nat → Nat} (fresh : FreshPages allocPage)
    {fuel size : Nat} (held : Held heap live l) (positive : 0 < size) (bound : size < 2 ^ 31)
    (enough : l.length + 1 < fuel) : (heap.mallock allocPage fuel size).isSome := by
  have current : Held { heap with heapBase := heap.heap } live l := held.congr rfl rfl rfl
  simp only [HeapState.mallock, if_neg (show ¬ size = 0 by omega)]
  split
  · rename_i none
    unfold HeapState.ensureHeap at none
    split at none
    · have some := current.extendHeap_isSome fresh rfl bound (by omega : l.length < fuel)
      rw [Option.map_eq_none_iff.mp none] at some
      cases some
    · cases none
  · rename_i ready ensured
    obtain ⟨r, held, global, length⟩ := current.ensureHeap fresh rfl positive bound ensured
    rw [Option.isSome_map, HeapState.chooseBlock]
    have found := @HeapState.findFirstFreeBlock_isSome _ _ _ _ (align4 size)
      (global ▸ held.path) (by omega : r.length < fuel)
    obtain ⟨block, search⟩ := Option.isSome_iff_exists.mp found
    simp only [search]
    split
    · exact held.extendHeap_isSome fresh global bound (by omega)
    · rfl

/-! ### free -/

/-- Marking a block free that is no allocation's. -/
theorem release (held : Held heap live l) (unused : ∀ a ∈ live, a.pointer ≠ dataStart block) :
    Held (heap.setBlock block { heap.block block with free := true }) live l := by
  have laid : Laid (heap.setBlock block { heap.block block with free := true }) l :=
    held.toLaid.setFree block true
  refine ⟨laid, fun a isLive => ?_, held.distinct⟩
  obtain ⟨b, onList, pointer, size, used⟩ := held.owned a isLive
  have other : b ≠ block := by
    rintro rfl
    exact unused a isLive pointer
  exact ⟨b, onList, pointer, by simpa [HeapState.setBlock, other] using size,
    by simpa [HeapState.setBlock, other] using used⟩

/-- `mergeBlocks` of a block and the free block of its page run behind it. -/
theorem mergeBlocks (held : Held heap live (l ++ block :: x :: r))
    (free : (heap.block x).free = true)
    (together : Interval.Together heap.regions block x) :
    Held (heap.mergeBlocks block) live (l ++ block :: r) := by
  refine held.of_laid (held.toLaid.mergeBlocks together) fun b isBlock used => ?_
  have notMerged : b ≠ x := by
    rintro rfl
    rw [free] at used
    cases used
  refine ⟨?_, ?_⟩
  · simp only [List.mem_append, List.mem_cons, notMerged, false_or] at isBlock ⊢
    exact isBlock
  · by_cases same : b = block
    · subst same
      simp [held.toLaid.mergeBlocks_block together, used]
    · rw [HeapState.mergeBlocks_block_of_ne same]
      exact ⟨Nat.le_refl _, used⟩

/-- The first merge of `free`, when the free block behind is of the same run. -/
theorem mergeNext (held : Held heap live (l ++ block :: r))
    (within : heap.next block ≠ 0 → (heap.block (heap.next block)).free = true →
      Interval.Together heap.regions block (heap.next block)) :
    ∃ r', Held (heap.mergeNext block) live (l ++ block :: r') ∧
      (∀ b, b ≠ block → (heap.mergeNext block).block b = heap.block b) ∧
      ((heap.mergeNext block).block block).prev = (heap.block block).prev ∧
      ((heap.mergeNext block).block block).free = (heap.block block).free ∧
      (heap.mergeNext block).regions = heap.regions ∧
      (heap.mergeNext block).heapBase = heap.heapBase ∧
      (heap.mergeNext block).heap = heap.heap := by
  simp only [HeapState.mergeNext]
  split
  · rename_i joins
    obtain ⟨x, rest, rfl⟩ : ∃ x rest, r = x :: rest := by
      cases r with
      | nil =>
          have last : heap.next block = 0 := held.path.last
          exact absurd last joins.1
      | cons x rest => exact ⟨x, rest, rfl⟩
    have next : heap.next block = x := held.path.next_eq
    have free := joins.2
    have together := within joins.1 free
    change (heap.block (heap.next block)).free = true at free
    rw [next] at free together
    refine ⟨rest, held.mergeBlocks free together, fun b other => ?_, ?_, ?_, rfl, rfl, rfl⟩
    · simp [HeapState.mergeBlocks, HeapState.setBlock, other]
    · simp [HeapState.mergeBlocks, HeapState.setBlock]
    · simp [HeapState.mergeBlocks, HeapState.setBlock]
  · exact ⟨r, held, fun _ _ => rfl, rfl, rfl, rfl, rfl, rfl⟩

/-- The second merge of `free`, when the block before on the list is followed by
a free block of its run. -/
theorem mergePrev (held : Held heap live l)
    (listed : (heap.block block).prev ≠ 0 → ∃ r, (heap.block block).prev :: r <:+ l ∧ r ≠ [])
    (within : (heap.block block).prev ≠ 0 → (heap.block (heap.block block).prev).free = true →
      (heap.block (heap.next (heap.block block).prev)).free = true ∧
        Interval.Together heap.regions (heap.block block).prev
          (heap.next (heap.block block).prev)) :
    (∃ r, Held (heap.mergePrev block) live r) ∧
      (heap.mergePrev block).heapBase = heap.heapBase ∧
      (heap.mergePrev block).heap = heap.heap := by
  simp only [HeapState.mergePrev]
  split
  · rename_i joins
    obtain ⟨r, ⟨before, rfl⟩, inhabited⟩ := listed joins.1
    obtain ⟨x, rest, rfl⟩ := List.exists_cons_of_ne_nil inhabited
    obtain ⟨free, together⟩ := within joins.1 joins.2
    have next : heap.next (heap.block block).prev = x := held.path.next_eq
    rw [next] at free together
    exact ⟨⟨_, held.mergeBlocks free together⟩, rfl, rfl⟩
  · exact ⟨⟨l, held⟩, rfl, rfl⟩

end Held

/-! ## Runs -/

namespace HeapProcess

/-- The invariant of the runs. -/
def Well (state : HeapProcess) : Prop :=
  ∃ l, Held state.heap state.live l ∧ (l ≠ [] → state.heap.heapBase = state.heap.heap)

/-- The invariant holds at the start. -/
theorem Start.well {state : HeapProcess} (start : Start state) : state.Well := by
  refine ⟨[], ⟨⟨start.heap, ?_, ?_, ?_, ?_, ?_, ?_⟩, ?_, ?_⟩, fun absent => absurd rfl absent⟩
  · simp
  · simp
  · simp
  · exact List.isChain_nil
  · simp [HeapState.regions, start.runs]
  · simp [HeapState.regions, start.runs]
  · simp [start.live]
  · simp [start.live]

/-- In a state of the invariant allocations are safe. -/
theorem Well.safe {state : HeapProcess} (well : state.Well) : state.Safe := by
  obtain ⟨l, held, -⟩ := well
  exact held.safe

/-- Freeing one of the allocations within its page run keeps the others. -/
theorem Well.free {fuel p : Nat} {state : HeapProcess} {allocation : Allocation}
    {after : HeapState} (well : state.Well) (member : allocation ∈ state.live)
    (pointer : allocation.pointer = p) (within : state.FreesWithinRun fuel (.free p))
    (freed : state.heap.free fuel p = some after) :
    Well ⟨after, state.live.erase allocation⟩ := by
  obtain ⟨l, held, current⟩ := well
  have global : state.heap.heapBase = state.heap.heap := by
    apply current
    rintro rfl
    obtain ⟨b, onList, -⟩ := held.owned allocation member
    cases onList
  have rest := held.erase allocation
  unfold HeapState.free at freed
  split at freed
  · rename_i valid
    split at freed
    · cases freed
    · rename_i block found
      split at freed
      · obtain rfl := Option.some.inj freed
        exact ⟨l, rest, fun _ => global⟩
      · rename_i notNull
        obtain rfl := Option.some.inj freed
        have merges := within valid block found notNull
        have onList : block ∈ l :=
          (HeapState.getBlockLoop_spec (global ▸ held.path) found).resolve_left notNull
        obtain ⟨before, behind, rfl⟩ := List.append_of_mem onList
        have unused : ∀ a ∈ state.live.erase allocation, a.pointer ≠ dataStart block := by
          intro a remains start
          have same : a = allocation :=
            List.inj_on_of_nodup_map held.distinct (List.mem_of_mem_erase remains) member
              ((merges.own a (List.mem_of_mem_erase remains) start).trans pointer.symm)
          subst same
          exact (List.Nodup.of_map _ held.distinct).not_mem_erase remains
        have released := rest.release unused
        let heap := state.heap.setBlock block { state.heap.block block with free := true }
        have away : ∀ b, b ≠ block → heap.block b = state.heap.block b := by
          intro b other
          simp [heap, HeapState.setBlock, other]
        have link : (heap.block block).next = (state.heap.block block).next ∧
            (heap.block block).prev = (state.heap.block block).prev ∧
            (heap.block block).free = true := by
          simp [heap, HeapState.setBlock]
        obtain ⟨r', merged, others, prev, free, regions, heapBase, start⟩ :=
          released.mergeNext fun notLast isFree => by
            change heap.next block ≠ 0 at notLast
            change (heap.block (heap.next block)).free = true at isFree
            change Interval.Together state.heap.regions block (heap.next block)
            rw [HeapState.next, link.1] at notLast isFree ⊢
            by_cases same : (state.heap.block block).next = block
            · rw [same]
              obtain ⟨run, isRun, -, has⟩ := held.run_has onList
              exact ⟨run, isRun, has, has⟩
            · rw [away _ same] at isFree
              exact merges.next notLast isFree
        have listed : (state.heap.block block).prev ≠ 0 →
            (state.heap.block block).prev ∈ before := fun notFirst =>
          HeapState.mem_walkTo (global ▸ held.path) (merges.listed notFirst)
        have prevOther : (state.heap.block block).prev ≠ 0 →
            (state.heap.block block).prev ≠ block := by
          intro notFirst same
          have nodup := List.perm_middle.nodup_iff.mp held.nodup
          exact (List.nodup_cons.mp nodup).1 (List.mem_append_left _ (same ▸ listed notFirst))
        have samePrev : ((heap.mergeNext block).block block).prev =
            (state.heap.block block).prev := prev.trans link.2.1
        have kept := @Held.mergePrev _ _ _ block merged (fun notFirst => ?_)
          fun notFirst isFree => ?_
        · obtain ⟨⟨r, result⟩, heapBase', start'⟩ := kept
          exact ⟨r, result, fun _ => by rw [heapBase', start', heapBase, start]; exact global⟩
        · rw [samePrev] at notFirst ⊢
          obtain ⟨u, v, split⟩ := List.append_of_mem (listed notFirst)
          exact ⟨v ++ block :: r', ⟨u, by simp [split]⟩, by simp⟩
        · rw [samePrev] at notFirst isFree ⊢
          have other := prevOther notFirst
          have same : (heap.mergeNext block).block (state.heap.block block).prev =
              state.heap.block (state.heap.block block).prev :=
            (others _ other).trans (away _ other)
          rw [same] at isFree
          rw [HeapState.next, same, regions]
          obtain ⟨nextFree, together⟩ := merges.prev notFirst isFree
          refine ⟨?_, together⟩
          by_cases back : state.heap.next (state.heap.block block).prev = block
          · rw [HeapState.next] at back
            rw [back, free]
            exact link.2.2
          · have nextFree := nextFree.resolve_left back
            rw [HeapState.next] at back nextFree
            rw [others _ back]
            exact (congrArg HeapBlock.free (away _ back)).trans nextFree
  · obtain rfl := Option.some.inj freed
    exact ⟨l, rest, fun _ => global⟩

/-- Every call completes when the bound on the loops is large enough: the loops
along the list end. -/
theorem Well.step_completes {allocPage : List PageRun → Nat → Nat} (fresh : FreshPages allocPage)
    {state : HeapProcess} (well : state.Well) :
    ∃ blocks, ∀ fuel, blocks < fuel →
      (∀ size, 0 < size → size < 2 ^ 31 →
        (state.step allocPage fuel (.mallock size)).isSome) ∧
      ∀ a ∈ state.live, (state.step allocPage fuel (.free a.pointer)).isSome := by
  obtain ⟨l, held, current⟩ := well
  refine ⟨l.length + 1, fun fuel enough => ⟨fun size positive bound => ?_, fun a member => ?_⟩⟩
  · simp only [step, positive, bound, and_self, if_true, Option.isSome_map]
    exact held.mallock_isSome fresh positive bound enough
  · have global : state.heap.heapBase = state.heap.heap := by
      apply current
      rintro rfl
      obtain ⟨b, onList, -⟩ := held.owned a member
      cases onList
    have found : (state.live.find? (·.pointer = a.pointer)).isSome := by
      rw [List.find?_isSome]
      exact ⟨a, member, by simp⟩
    obtain ⟨allocation, found⟩ := Option.isSome_iff_exists.mp found
    simp only [step, found, Option.isSome_map, HeapState.free, HeapState.getBlock]
    split
    · have ends := HeapState.getBlockLoop_isSome (p := a.pointer) (global ▸ held.path)
        (by omega : l.length < fuel)
      obtain ⟨block, ends⟩ := Option.isSome_iff_exists.mp ends
      simp only [ends]
      split <;> rfl
    · rfl

/-- Every call that meets the condition keeps the invariant. -/
theorem well_step {allocPage : List PageRun → Nat → Nat} (fresh : FreshPages allocPage)
    (fuel : Nat) (state : HeapProcess) (action : MallocAction) (after : HeapProcess)
    (well : state.Well) (within : state.FreesWithinRun fuel action)
    (stepped : state.step allocPage fuel action = some after) : after.Well := by
  cases action with
  | mallock size =>
      simp only [step] at stepped
      split at stepped
      · rename_i range
        obtain ⟨⟨heap, pointer⟩, allocated, rfl⟩ := Option.map_eq_some_iff.mp stepped
        obtain ⟨l, held, -⟩ := well
        obtain ⟨r, held, global⟩ := held.mallock fresh range.1 range.2 allocated
        exact ⟨r, held, fun _ => global⟩
      · cases stepped
  | free p =>
      simp only [step] at stepped
      split at stepped
      · cases stepped
      · rename_i allocation found
        obtain ⟨heap, freed, rfl⟩ := Option.map_eq_some_iff.mp stepped
        have pointer : allocation.pointer = p := by simpa using List.find?_some found
        exact well.free (List.mem_of_find?_eq_some found) pointer within freed

/-- In a run whose `free` calls all work on blocks nobody else holds and merge
within page runs only, the allocations never overlap, hold no header and stay
inside the page runs of the process. -/
theorem allocations_safe (allocPage : List PageRun → Nat → Nat) (fresh : FreshPages allocPage)
    (fuel : Nat) (start : HeapProcess) (begins : Start start) (actions : List MallocAction)
    (final : HeapProcess)
    (within : Along (step allocPage fuel) (FreesWithinRun fuel) start actions)
    (ran : run (step allocPage fuel) start actions = some final) : final.Safe :=
  (within.invariant (well_step fresh fuel) begins.well ran).safe

/-- Page runs handed out upwards from 16 MiB with an unused page between them. -/
def spacedPages (runs : List PageRun) (_pages : Nat) : Nat :=
  runs.foldr (fun run top => max (run.base + run.pages * PAGE_SIZE + PAGE_SIZE) top) 0x1000000

theorem spacedPages_fresh : FreshPages spacedPages := by
  intro runs pages _
  constructor
  · induction runs with
    | nil => simp [spacedPages]
    | cons run runs ih =>
        exact Nat.lt_of_lt_of_le ih (Nat.le_max_right ..)
  · intro run member
    refine .inr ?_
    simp only [PageRun.interval, show PAGE_SIZE = 4096 by rfl]
    induction runs with
    | nil => cases member
    | cons head runs ih =>
        simp only [spacedPages, List.foldr_cons, show PAGE_SIZE = 4096 by rfl] at ih ⊢
        rcases List.mem_cons.mp member with rfl | later
        · omega
        · have above := ih later
          omega

/-- A process without a heap, in a memory of zeros. -/
def noHeap : HeapProcess where
  heap := { block := fun _ => ⟨0, 0, 0, false⟩, heapBase := 0, heap := 0, pages := [], runs := [] }
  live := []

theorem noHeap_start : Start noHeap := ⟨rfl, rfl, rfl⟩

/-- Three allocations, the first two freed and merged, and a fourth in their place. -/
def mergeTwo : List MallocAction :=
  [.mallock 100, .mallock 200, .mallock 300, .free 0x100009c, .free 0x100001c, .mallock 310]

/-- The fourth allocation gets the bytes of the first two. -/
theorem allocations_safe_merged : ∃ final,
    run (step spacedPages 10) noHeap mergeTwo = some final ∧
      final.live = [⟨0x100001c, 310⟩, ⟨0x1000180, 300⟩] ∧ final.Safe := by
  have result : (run (step spacedPages 10) noHeap mergeTwo).map HeapProcess.live =
      some [⟨0x100001c, 310⟩, ⟨0x1000180, 300⟩] := by
    decide +kernel
  have within : Along (step spacedPages 10) (FreesWithinRun 10) noHeap mergeTwo := by
    decide +kernel
  obtain ⟨final, ran, live⟩ := Option.map_eq_some_iff.mp result
  exact ⟨final, ran, live, allocations_safe spacedPages spacedPages_fresh 10 _ noHeap_start _
    final within ran⟩

/-- Two allocations in page runs of their own, the second one freed, and a third. -/
def mergeAcrossRuns : List MallocAction :=
  [.mallock 4000, .mallock 4000, .free 0x100201c, .mallock 4100]

/-- `free` joins the last block of the first run with the second run, and the
third allocation covers the page between them. -/
theorem allocation_outside_runs : FreshPages spacedPages ∧ Start noHeap ∧ ∃ final,
    run (step spacedPages 10) noHeap mergeAcrossRuns = some final ∧
      final.heap.runs = [⟨0x1002000, 1⟩, ⟨0x1000000, 1⟩] ∧
      final.live = [⟨0x1000fd8, 4100⟩, ⟨0x100001c, 4000⟩] ∧ ¬ final.Safe := by
  have result : (run (step spacedPages 10) noHeap mergeAcrossRuns).map
      (fun final => (final.heap.runs, final.live)) =
        some ([⟨0x1002000, 1⟩, ⟨0x1000000, 1⟩], [⟨0x1000fd8, 4100⟩, ⟨0x100001c, 4000⟩]) := by
    decide +kernel
  obtain ⟨final, ran, values⟩ := Option.map_eq_some_iff.mp result
  obtain ⟨runs, live⟩ := Prod.mk.inj values
  refine ⟨spacedPages_fresh, noHeap_start, final, ran, runs, live, fun safe => ?_⟩
  obtain ⟨pages, isRun, contains⟩ := safe.inside ⟨0x1000fd8, 4100⟩ (by simp [live])
  rw [runs] at isRun
  simp only [List.mem_cons, List.not_mem_nil, or_false] at isRun
  rcases isRun with rfl | rfl
  · exact absurd contains (by decide)
  · exact absurd contains (by decide)

end HeapProcess

end SistemasOperativos.Kernel
