import SistemasOperativos.Foundation.Interval
import SistemasOperativos.Foundation.Path
import SistemasOperativos.Kernel.Malloc

/-!
# The layout of a process heap

`Laid` is the layout of the heap list: its blocks are disjoint, each lies in
one page run, and neighbours of the same run touch. It survives cutting a block
in two, joining a block with its neighbour in the same run, and appending a new
run. The loops of malloc.c return blocks of the list.
-/

namespace SistemasOperativos.Kernel

open SistemasOperativos.Foundation

/-- The bytes of a page run. -/
def PageRun.interval (run : PageRun) : Interval :=
  ⟨run.base, run.base + run.pages * PAGE_SIZE⟩

/-- The data of a block stand behind its header. -/
theorem dataStart_eq (block : Nat) : dataStart block = block + 28 := rfl

namespace HeapState

/-- The bytes of a block, its header included. -/
def extent (heap : HeapState) (block : Nat) : Interval :=
  ⟨block, dataStart block + (heap.block block).size⟩

@[simp] theorem extent_lo (heap : HeapState) (block : Nat) : (heap.extent block).lo = block := rfl

@[simp] theorem extent_hi (heap : HeapState) (block : Nat) :
    (heap.extent block).hi = block + 28 + (heap.block block).size := rfl

/-- The successor along the heap list. -/
def next (heap : HeapState) (block : Nat) : Nat := (heap.block block).next

/-- The page runs of the process as intervals. -/
def regions (heap : HeapState) : List Interval := heap.runs.map PageRun.interval

/-- The blocks before `stop` on the heap list. -/
def walkTo (heap : HeapState) : Nat → Nat → Nat → List Nat
  | 0, _, _ => []
  | fuel + 1, current, stop =>
      if current = 0 ∨ current = stop then []
      else current :: heap.walkTo fuel (heap.next current) stop

/-- The block stands on the heap list. -/
def OnList (heap : HeapState) (block : Nat) : Prop :=
  block ≠ 0 ∧ ∃ before, Path heap.next heap.heap before block ∧ 0 ∉ before

/-- Merging a block with the next one writes its own header only. -/
theorem mergeBlocks_block_of_ne {heap : HeapState} {block b : Nat} (other : b ≠ block) :
    (heap.mergeBlocks block).block b = heap.block b :=
  Function.update_of_ne other ..

end HeapState

/-! ## The layout of the heap list -/

/-- The blocks `l` of the heap list are disjoint parts of page runs, and those
of the same run that are neighbours touch. -/
structure Laid (heap : HeapState) (l : List Nat) : Prop where
  path : Path heap.next heap.heap l 0
  nonnull : 0 ∉ l
  disjoint : (l.map heap.extent).Pairwise Interval.Disjoint
  inside : ∀ block ∈ l, ∃ run ∈ heap.regions, run.Contains (heap.extent block)
  tiling : Interval.Tiling (Interval.Together heap.regions) (l.map heap.extent)
  apart : heap.regions.Pairwise Interval.Disjoint
  small : ∀ run ∈ heap.regions, run.hi - run.lo < SIZE_T

namespace Laid

variable {heap : HeapState} {l r : List Nat} {block x : Nat}

/-- A block has at least the bytes of its header. -/
theorem extent_nonempty (heap : HeapState) (block : Nat) :
    (heap.extent block).lo < (heap.extent block).hi := by
  simp only [HeapState.extent_lo, HeapState.extent_hi]
  omega

/-- The page run of a block has its address. -/
theorem run_has (laid : Laid heap l) (member : block ∈ l) :
    ∃ run ∈ heap.regions, run.Contains (heap.extent block) ∧ run.Has block := by
  obtain ⟨run, isRun, contains⟩ := laid.inside block member
  obtain ⟨lower, upper⟩ := id contains
  have nonempty := extent_nonempty heap block
  exact ⟨run, isRun, contains, lower, Nat.lt_of_lt_of_le nonempty upper⟩

/-- A block fits into 32 bits. -/
theorem size_lt (laid : Laid heap l) (member : block ∈ l) :
    (heap.block block).size + BLOCK_STRUCT_SIZE < SIZE_T := by
  obtain ⟨run, isRun, lower, upper⟩ := laid.inside block member
  have small := laid.small run isRun
  simp only [HeapState.extent_lo, HeapState.extent_hi] at lower upper
  simp only [SIZE_T, BLOCK_STRUCT_SIZE] at small ⊢
  omega

/-- No other block starts inside the bytes of a block. -/
theorem eq_of_has (laid : Laid heap l) (member : block ∈ l) (other : x ∈ l)
    (has : (heap.extent block).Has x) : x = block := by
  have same := Interval.eq_of_has laid.disjoint (List.mem_map_of_mem member)
    (List.mem_map_of_mem other) has ⟨Nat.le_refl x, extent_nonempty heap x⟩
  exact (congrArg Interval.lo same).symm

/-- No block is listed twice. -/
theorem nodup (laid : Laid heap l) : l.Nodup := by
  refine (List.pairwise_map.mp laid.disjoint).imp_of_mem fun {a b} memberA memberB apart same => ?_
  subst same
  have nonempty := extent_nonempty heap a
  rcases apart with before | before <;> omega

/-- The layout only depends on the sizes and successors of the blocks. -/
theorem congr (laid : Laid heap l) {heap' : HeapState}
    (size : ∀ b ∈ l, (heap'.block b).size = (heap.block b).size)
    (next : ∀ b ∈ l, heap'.next b = heap.next b) (start : heap'.heap = heap.heap)
    (runs : heap'.runs = heap.runs) : Laid heap' l := by
  have extent : l.map heap'.extent = l.map heap.extent := by
    refine List.map_congr_left fun b member => ?_
    rw [HeapState.extent, HeapState.extent, size b member]
  have regions : heap'.regions = heap.regions := by rw [HeapState.regions, runs, HeapState.regions]
  refine ⟨?_, laid.nonnull, ?_, ?_, ?_, ?_, ?_⟩
  · rw [start]
    exact laid.path.congr next
  · rw [extent]
    exact laid.disjoint
  · intro b member
    rw [regions, HeapState.extent, size b member]
    exact laid.inside b member
  · rw [regions, extent]
    exact laid.tiling
  · rw [regions]
    exact laid.apart
  · rw [regions]
    exact laid.small

/-- Only the mark of a block changes. -/
theorem setFree (laid : Laid heap l) (block : Nat) (mark : Bool) :
    Laid (heap.setBlock block { heap.block block with free := mark }) l := by
  refine laid.congr ?_ ?_ rfl rfl
  · intro b _
    by_cases same : b = block
    · simp [HeapState.setBlock, same]
    · simp [HeapState.setBlock, same]
  · intro b _
    by_cases same : b = block
    · simp [HeapState.setBlock, HeapState.next, same]
    · simp [HeapState.setBlock, HeapState.next, same]

/-- A block and the one behind it in the same page run touch, and their bytes
together fit into 32 bits. -/
theorem neighbours (laid : Laid heap (l ++ block :: x :: r))
    (together : Interval.Together heap.regions block x) :
    block + 28 + (heap.block block).size = x ∧
      (heap.block block).size + ((heap.block x).size + 28) < SIZE_T := by
  have tiling := laid.tiling
  rw [List.map_append, List.map_cons, List.map_cons] at tiling
  have touch : block + 28 + (heap.block block).size = x := tiling.touch together
  obtain ⟨run, isRun, ⟨lower, -⟩, has⟩ := @Laid.run_has _ _ block laid (by simp)
  obtain ⟨run', isRun', ⟨-, upper⟩, has'⟩ := @Laid.run_has _ _ x laid (by simp)
  obtain ⟨common, isCommon, hasFirst, hasSecond⟩ := together
  obtain rfl := Interval.eq_of_has laid.apart isRun isCommon has hasFirst
  obtain rfl := Interval.eq_of_has laid.apart isRun' isCommon has' hasSecond
  have small := laid.small _ isCommon
  simp only [HeapState.extent_lo, HeapState.extent_hi] at lower upper
  exact ⟨touch, by omega⟩

/-- The extents of blocks whose sizes did not change. -/
theorem map_extent_eq {heap' : HeapState} {blocks : List Nat}
    (size : ∀ b ∈ blocks, (heap'.block b).size = (heap.block b).size) :
    blocks.map heap'.extent = blocks.map heap.extent := by
  refine List.map_congr_left fun b member => ?_
  rw [HeapState.extent, HeapState.extent, size b member]

section Rebuild

variable {heap' : HeapState}

/-- Cutting a block in two: the new header stands at `x`, inside the data of `block`. -/
theorem cut (laid : Laid heap (l ++ block :: r)) (runs : heap'.runs = heap.runs)
    (start : heap'.heap = heap.heap) (lower : block + 28 ≤ x)
    (first : heap'.next block = x ∧ block + 28 + (heap'.block block).size = x)
    (second : heap'.next x = heap.next block ∧
      x + 28 + (heap'.block x).size = block + 28 + (heap.block block).size)
    (others : ∀ b ∈ l ++ r, heap'.block b = heap.block b) :
    Laid heap' (l ++ block :: x :: r) := by
  have member : block ∈ l ++ block :: r := by simp
  have regions : heap'.regions = heap.regions := by rw [HeapState.regions, runs, HeapState.regions]
  obtain ⟨run, isRun, ⟨runLower, runUpper⟩, has⟩ := laid.run_has member
  simp only [HeapState.extent_lo, HeapState.extent_hi] at runLower runUpper
  have hasX : run.Has x := ⟨by omega, by omega⟩
  have left : l.map heap'.extent = l.map heap.extent :=
    map_extent_eq fun b member => by rw [others b (List.mem_append_left _ member)]
  have right : r.map heap'.extent = r.map heap.extent :=
    map_extent_eq fun b member => by rw [others b (List.mem_append_right _ member)]
  have extents : (l ++ block :: x :: r).map heap'.extent =
      l.map heap.extent ++ ⟨block, x⟩ ::
        ⟨x, block + 28 + (heap.block block).size⟩ :: r.map heap.extent := by
    rw [List.map_append, List.map_cons, List.map_cons, left, right, HeapState.extent,
      HeapState.extent, dataStart_eq, dataStart_eq, first.2, second.2]
  have before : (l ++ block :: r).map heap.extent =
      l.map heap.extent ++ ⟨block, block + 28 + (heap.block block).size⟩ ::
        r.map heap.extent := by
    simp [HeapState.extent]
  refine ⟨?_, ?_, ?_, ?_, ?_, ?_, ?_⟩
  · rw [start]
    refine laid.path.insertAfter first.1 second.1 fun b others' => ?_
    rw [HeapState.next, others b others', HeapState.next]
  · have nonnull := laid.nonnull
    simp only [List.mem_append, List.mem_cons, not_or] at nonnull ⊢
    exact ⟨nonnull.1, nonnull.2.1, by omega, nonnull.2.2⟩
  · have disjoint := laid.disjoint
    rw [before] at disjoint
    rw [extents]
    exact Interval.pairwise_cut disjoint (by omega) (by omega)
  · intro b isBlock
    rw [regions]
    by_cases isFirst : b = block
    · subst isFirst
      refine ⟨run, isRun, ?_, ?_⟩
      · simpa using runLower
      · simp only [HeapState.extent_hi]
        omega
    · by_cases isSecond : b = x
      · subst isSecond
        refine ⟨run, isRun, ?_, ?_⟩
        · simp only [HeapState.extent_lo]
          omega
        · simp only [HeapState.extent_hi]
          omega
      · have other : b ∈ l ++ r := by
          simp only [List.mem_append, List.mem_cons, isFirst, isSecond, false_or] at isBlock ⊢
          exact isBlock
        rw [HeapState.extent, others b other]
        refine laid.inside b ?_
        simp only [List.mem_append, List.mem_cons] at other ⊢
        exact other.imp_right .inr
  · have tiling := laid.tiling
    rw [before] at tiling
    rw [regions, extents]
    refine tiling.cut fun b together => ?_
    exact Interval.Together.trans laid.apart ⟨run, isRun, has, hasX⟩ together
  · rw [regions]
    exact laid.apart
  · rw [regions]
    exact laid.small

/-- Joining a block and the block `x` behind it, both of one page run. -/
theorem join (laid : Laid heap (l ++ block :: x :: r)) (runs : heap'.runs = heap.runs)
    (start : heap'.heap = heap.heap)
    (together : Interval.Together heap.regions block x) (next : heap'.next block = heap.next x)
    (size : (heap'.block block).size =
      (heap.block block).size + ((heap.block x).size + 28))
    (others : ∀ b ∈ l ++ r, heap'.block b = heap.block b) :
    Laid heap' (l ++ block :: r) := by
  have regions : heap'.regions = heap.regions := by rw [HeapState.regions, runs, HeapState.regions]
  have before : (l ++ block :: x :: r).map heap.extent =
      l.map heap.extent ++ heap.extent block :: heap.extent x :: r.map heap.extent := by
    simp
  have tiling := laid.tiling
  have disjoint := laid.disjoint
  rw [before] at tiling disjoint
  have touch := (laid.neighbours together).1
  have cover : heap'.extent block = ⟨(heap.extent block).lo, (heap.extent x).hi⟩ := by
    simp only [HeapState.extent, Interval.mk.injEq, dataStart_eq, true_and]
    omega
  have left : l.map heap'.extent = l.map heap.extent :=
    map_extent_eq fun b member => by rw [others b (List.mem_append_left _ member)]
  have right : r.map heap'.extent = r.map heap.extent :=
    map_extent_eq fun b member => by rw [others b (List.mem_append_right _ member)]
  have extents : (l ++ block :: r).map heap'.extent =
      l.map heap.extent ++ ⟨(heap.extent block).lo, (heap.extent x).hi⟩ ::
        r.map heap.extent := by
    rw [List.map_append, List.map_cons, cover, left, right]
  refine ⟨?_, ?_, ?_, ?_, ?_, ?_, ?_⟩
  · rw [start]
    refine laid.path.removeAfter next fun b others' => ?_
    rw [HeapState.next, others b others', HeapState.next]
  · have nonnull := laid.nonnull
    simp only [List.mem_append, List.mem_cons, not_or] at nonnull ⊢
    exact ⟨nonnull.1, nonnull.2.1, nonnull.2.2.2⟩
  · rw [extents]
    have touching : heap.extent block = ⟨(heap.extent block).lo, (heap.extent x).lo⟩ := by
      simp [HeapState.extent, touch]
    rw [touching] at disjoint
    refine Interval.pairwise_join disjoint fun i member => ?_
    rw [← List.map_append] at member
    obtain ⟨b, -, rfl⟩ := List.mem_map.mp member
    exact extent_nonempty heap b
  · intro b isBlock
    rw [regions]
    by_cases isFirst : b = block
    · subst isFirst
      obtain ⟨run, isRun, contains, has⟩ := @Laid.run_has _ _ b laid (by simp)
      obtain ⟨run', isRun', contains', has'⟩ := @Laid.run_has _ _ x laid (by simp)
      obtain ⟨common, isCommon, hasFirst, hasSecond⟩ := together
      obtain rfl := Interval.eq_of_has laid.apart isRun isCommon has hasFirst
      obtain rfl := Interval.eq_of_has laid.apart isRun' isCommon has' hasSecond
      rw [cover]
      exact ⟨_, isCommon, contains.1, contains'.2⟩
    · have other : b ∈ l ++ r := by
        simp only [List.mem_append, List.mem_cons, isFirst, false_or] at isBlock ⊢
        exact isBlock
      rw [HeapState.extent, others b other]
      refine laid.inside b ?_
      simp only [List.mem_append, List.mem_cons] at other ⊢
      exact other.imp_right fun right => .inr (.inr right)
  · rw [regions, extents]
    refine Interval.Tiling.join tiling fun b same => ?_
    exact Interval.Together.trans laid.apart together.symm same
  · rw [regions]
    exact laid.apart
  · rw [regions]
    exact laid.small

/-- A page run in one block at the end of the list. -/
theorem append (laid : Laid heap l) {pages : Nat} (runs : heap'.runs = ⟨x, pages⟩ :: heap.runs)
    (nonnull : x ≠ 0) (apart : ∀ run ∈ heap.regions,
      (PageRun.mk x pages).interval.Disjoint run)
    (small : pages * PAGE_SIZE < SIZE_T)
    (size : (heap'.block x).size + 28 = pages * PAGE_SIZE)
    (path : Path heap'.next heap'.heap (l ++ [x]) 0)
    (others : ∀ b ∈ l, (heap'.block b).size = (heap.block b).size) :
    Laid heap' (l ++ [x]) := by
  have regions : heap'.regions = (PageRun.mk x pages).interval :: heap.regions := by
    rw [HeapState.regions, runs, List.map_cons, HeapState.regions]
  have whole : heap'.extent x = (PageRun.mk x pages).interval := by
    simp only [HeapState.extent, PageRun.interval, Interval.mk.injEq, dataStart_eq, true_and]
    omega
  have outside : ∀ b ∈ l, (PageRun.mk x pages).interval.Disjoint (heap.extent b) := by
    intro b member
    obtain ⟨run, isRun, contains⟩ := laid.inside b member
    exact (apart run isRun).mono ⟨Nat.le_refl _, Nat.le_refl _⟩ contains
  have elsewhere : ∀ b ∈ l, ¬ (PageRun.mk x pages).interval.Has b := by
    intro b member has
    have nonempty := extent_nonempty heap b
    have disjoint := outside b member
    unfold Interval.Has at has
    unfold Interval.Disjoint at disjoint
    simp only [HeapState.extent_lo, HeapState.extent_hi] at *
    omega
  have extents : (l ++ [x]).map heap'.extent =
      l.map heap.extent ++ [(PageRun.mk x pages).interval] := by
    rw [List.map_append, map_extent_eq others, List.map_singleton, whole]
  refine ⟨path, ?_, ?_, ?_, ?_, ?_, ?_⟩
  · simpa [nonnull] using ⟨laid.nonnull, Ne.symm nonnull⟩
  · rw [extents]
    refine List.pairwise_append.mpr ⟨laid.disjoint, List.pairwise_singleton .., ?_⟩
    intro i member j only
    obtain ⟨b, isBlock, rfl⟩ := List.mem_map.mp member
    obtain rfl := List.mem_singleton.mp only
    exact (outside b isBlock).symm
  · intro b isBlock
    rw [regions]
    rcases List.mem_append.mp isBlock with old | new
    · obtain ⟨run, isRun, contains⟩ := laid.inside b old
      rw [HeapState.extent, others b old]
      exact ⟨run, List.mem_cons_of_mem _ isRun, contains⟩
    · obtain rfl := List.mem_singleton.mp new
      exact ⟨_, List.mem_cons_self .., by rw [whole]; exact ⟨Nat.le_refl _, Nat.le_refl _⟩⟩
  · rw [extents]
    have kept : Interval.Tiling (Interval.Together heap'.regions) (l.map heap.extent) := by
      refine laid.tiling.mono fun i memberI j memberJ together => ?_
      obtain ⟨b, isBlock, rfl⟩ := List.mem_map.mp memberI
      obtain ⟨run, isRun, hasB, hasC⟩ := together
      rw [regions] at isRun
      rcases List.mem_cons.mp isRun with rfl | old
      · exact absurd hasB (elsewhere b isBlock)
      · exact ⟨run, old, hasB, hasC⟩
    refine kept.extend fun i memberI together => ?_
    obtain ⟨b, isBlock, rfl⟩ := List.mem_map.mp memberI
    obtain ⟨run, isRun, hasB, hasX⟩ := together
    rw [regions] at isRun
    rcases List.mem_cons.mp isRun with rfl | old
    · exact elsewhere b isBlock hasB
    · have disjoint := apart run old
      unfold Interval.Has at hasX
      unfold Interval.Disjoint at disjoint
      simp only [PageRun.interval] at *
      omega
  · rw [regions]
    exact List.pairwise_cons.mpr ⟨apart, laid.apart⟩
  · intro run isRun
    rw [regions] at isRun
    rcases List.mem_cons.mp isRun with rfl | old
    · simpa [PageRun.interval] using small
    · exact laid.small run old

end Rebuild

/-- What `mergeBlocks` makes of a block and the one of its page run behind it. -/
theorem mergeBlocks_block (laid : Laid heap (l ++ block :: x :: r))
    (together : Interval.Together heap.regions block x) :
    (heap.mergeBlocks block).block block =
      { heap.block block with
        size := (heap.block block).size + ((heap.block x).size + 28)
        next := (heap.block x).next } := by
  have next : (heap.block block).next = x := laid.path.next_eq
  have wrap : ((heap.block block).size + ((heap.block x).size + BLOCK_STRUCT_SIZE)) % SIZE_T =
      (heap.block block).size + ((heap.block x).size + 28) :=
    Nat.mod_eq_of_lt (laid.neighbours together).2
  simp only [HeapState.mergeBlocks, HeapState.setBlock, next, wrap, Function.update_self]

/-- `mergeBlocks` of a block and the one of its page run behind it. -/
theorem mergeBlocks (laid : Laid heap (l ++ block :: x :: r))
    (together : Interval.Together heap.regions block x) :
    Laid (heap.mergeBlocks block) (l ++ block :: r) := by
  have merged := laid.mergeBlocks_block together
  have others : ∀ b ∈ l ++ r, b ≠ block := by
    rintro b other rfl
    refine (List.nodup_cons.mp (List.perm_middle.nodup_iff.mp laid.nodup)).1 ?_
    simp only [List.mem_append, List.mem_cons] at other ⊢
    exact other.imp_right .inr
  refine laid.join rfl rfl together ?_ ?_ fun b other =>
    HeapState.mergeBlocks_block_of_ne (others b other)
  · rw [HeapState.next, merged, HeapState.next]
  · rw [merged]

/-- A block of the list, by its definition. -/
theorem onList (laid : Laid heap l) (member : block ∈ l) : heap.OnList block := by
  obtain ⟨before, rest, rfl⟩ := List.append_of_mem member
  obtain ⟨m, path, rfl, -⟩ := Path.append_iff.mp laid.path
  refine ⟨?_, before, path, fun null => laid.nonnull (List.mem_append_left _ null)⟩
  rintro rfl
  exact laid.nonnull (by simp)

/-- The blocks `OnList` speaks of are those of the list. -/
theorem mem_of_onList (laid : Laid heap l) (onList : heap.OnList block) : block ∈ l := by
  obtain ⟨notNull, before, path, nonnull⟩ := onList
  exact laid.path.mem_of_arrives path nonnull notNull

end Laid

/-! ## The loops along the list -/

namespace HeapState

variable {heap : HeapState} {a c : Nat} {l : List Nat} {fuel : Nat}

/-- `findFirstFreeBlock` returns NULL or a free block of the list with more room
than asked for. -/
theorem findFirstFreeBlock_spec {size : Nat} (path : Path heap.next a l 0)
    (found : heap.findFirstFreeBlock fuel a size = some c) :
    c = 0 ∨ c ∈ l ∧ (heap.block c).free = true ∧ size < (heap.block c).size := by
  induction l generalizing a fuel with
  | nil =>
      obtain rfl := path
      cases fuel with
      | zero => cases found
      | succ fuel =>
          simp only [findFirstFreeBlock, ne_eq, not_true_eq_false, false_and, if_false,
            Option.some.injEq] at found
          exact .inl found.symm
  | cons b l ih =>
      obtain ⟨rfl, rest⟩ := path
      cases fuel with
      | zero => cases found
      | succ fuel =>
          rw [findFirstFreeBlock] at found
          split at found
          · rcases ih rest found with none | ⟨member, suits⟩
            · exact .inl none
            · exact .inr ⟨List.mem_cons_of_mem _ member, suits⟩
          · rename_i stops
            obtain rfl := Option.some.inj found
            by_cases null : a = 0
            · exact .inl null
            · exact .inr ⟨List.mem_cons_self .., by simpa [null] using stops⟩

/-- `findLastInHeap` returns the last block. -/
theorem findLastInHeap_spec (path : Path heap.next a l 0) (nonnull : 0 ∉ l) (inhabited : l ≠ [])
    (found : heap.findLastInHeap fuel a = some c) : ∃ before, l = before ++ [c] := by
  induction l generalizing a fuel with
  | nil => exact absurd rfl inhabited
  | cons b l ih =>
      obtain ⟨rfl, rest⟩ := path
      cases fuel with
      | zero => cases found
      | succ fuel =>
          rw [findLastInHeap] at found
          cases l with
          | nil =>
              have last : (heap.block a).next = 0 := rest
              rw [if_neg (by simp [last])] at found
              obtain rfl := Option.some.inj found
              exact ⟨[], rfl⟩
          | cons d l =>
              have further : (heap.block a).next ≠ 0 := by
                obtain ⟨same, -⟩ := rest
                have other : 0 ≠ d := fun null => nonnull (by simp [null])
                rw [next] at same
                rw [same]
                exact other.symm
              rw [if_pos further] at found
              obtain ⟨before, split⟩ :=
                ih rest (fun member => nonnull (List.mem_cons_of_mem _ member)) (by simp) found
              exact ⟨a :: before, by rw [split, List.cons_append]⟩

/-- `getBlock` returns NULL or a block of the list. -/
theorem getBlockLoop_spec {p : Nat} (path : Path heap.next a l 0)
    (found : heap.getBlockLoop fuel a p = some c) : c = 0 ∨ c ∈ l := by
  induction l generalizing a fuel with
  | nil =>
      obtain rfl := path
      cases fuel with
      | zero => cases found
      | succ fuel =>
          simp only [getBlockLoop, ne_eq, not_true_eq_false, false_and, if_false,
            Option.some.injEq] at found
          exact .inl found.symm
  | cons b l ih =>
      obtain ⟨rfl, rest⟩ := path
      cases fuel with
      | zero => cases found
      | succ fuel =>
          rw [getBlockLoop] at found
          split at found
          · exact (ih rest found).imp_right (List.mem_cons_of_mem _)
          · obtain rfl := Option.some.inj found
            exact .inr (List.mem_cons_self ..)

/-! The loops end: a bound above the number of blocks is never reached. -/

/-- The search for a free block ends behind the list. -/
theorem findFirstFreeBlock_isSome {size : Nat} (path : Path heap.next a l 0)
    (enough : l.length < fuel) : (heap.findFirstFreeBlock fuel a size).isSome := by
  induction l generalizing a fuel with
  | nil =>
      obtain rfl := path
      obtain ⟨fuel, rfl⟩ := Nat.exists_eq_add_of_lt enough
      simp [findFirstFreeBlock]
  | cons b l ih =>
      obtain ⟨rfl, rest⟩ := path
      cases fuel with
      | zero => cases enough
      | succ fuel =>
          rw [findFirstFreeBlock]
          split
          · exact ih rest (Nat.lt_of_succ_lt_succ enough)
          · rfl

/-- The search for the last block ends. -/
theorem findLastInHeap_isSome (path : Path heap.next a l 0) (inhabited : l ≠ [])
    (enough : l.length < fuel) : (heap.findLastInHeap fuel a).isSome := by
  induction l generalizing a fuel with
  | nil => exact absurd rfl inhabited
  | cons b l ih =>
      obtain ⟨rfl, rest⟩ := path
      cases fuel with
      | zero => cases enough
      | succ fuel =>
          rw [findLastInHeap]
          split
          · rename_i further
            refine ih rest ?_ (Nat.lt_of_succ_lt_succ enough)
            rintro rfl
            exact further rest
          · rfl

/-- The search for the block of a pointer ends. -/
theorem getBlockLoop_isSome {p : Nat} (path : Path heap.next a l 0)
    (enough : l.length < fuel) : (heap.getBlockLoop fuel a p).isSome := by
  induction l generalizing a fuel with
  | nil =>
      obtain rfl := path
      obtain ⟨fuel, rfl⟩ := Nat.exists_eq_add_of_lt enough
      simp [getBlockLoop]
  | cons b l ih =>
      obtain ⟨rfl, rest⟩ := path
      cases fuel with
      | zero => cases enough
      | succ fuel =>
          rw [getBlockLoop]
          split
          · exact ih rest (Nat.lt_of_succ_lt_succ enough)
          · rfl

/-- The blocks `walkTo` lists stand before its end. -/
theorem mem_walkTo {stop : Nat} {r : List Nat} (path : Path heap.next a (l ++ stop :: r) 0)
    (member : c ∈ heap.walkTo fuel a stop) : c ∈ l := by
  induction l generalizing a fuel with
  | nil =>
      obtain ⟨rfl, -⟩ := path
      cases fuel with
      | zero => cases member
      | succ fuel => simp [walkTo] at member
  | cons b l ih =>
      obtain ⟨rfl, rest⟩ := path
      cases fuel with
      | zero => cases member
      | succ fuel =>
          rw [walkTo] at member
          split at member
          · cases member
          · rcases List.mem_cons.mp member with rfl | later
            · exact List.mem_cons_self ..
            · exact List.mem_cons_of_mem _ (ih rest later)

end HeapState

/-- `extendHeap` completes with a bound above the number of blocks, also with a NULL page. -/
theorem HeapState.extendHeap_completes {heap : HeapState} {l : List Nat} {fuel : Nat}
    {allocPage : List PageRun → Nat → Nat} {size pages : Nat}
    (path : Path heap.next heap.heapBase l 0)
    (asked : NUMBER_OF_PAGES_TO_ALLOC ((size + BLOCK_STRUCT_SIZE) % SIZE_T) = pages)
    (apart : allocPage heap.runs pages ∉ l) (enough : l.length < fuel) :
    ∃ heap', heap.extendHeap allocPage fuel size =
      some (heap', allocPage heap.runs pages) := by
  have written : ∀ b ∈ l, b ≠ allocPage heap.runs pages :=
    fun b member same => apart (same ▸ member)
  simp only [extendHeap, asked]
  split
  · exact ⟨_, rfl⟩
  · rename_i inhabited
    have listed : Path (next (setBlock { heap with runs := ⟨allocPage heap.runs pages, pages⟩ ::
          heap.runs } (allocPage heap.runs pages)
        ⟨(pages * PAGE_SIZE + SIZE_T - BLOCK_STRUCT_SIZE) % SIZE_T, 0,
          (heap.block (allocPage heap.runs pages)).prev, true⟩)) heap.heapBase l 0 :=
      path.congr fun b member => by simp [next, setBlock, written b member]
    have found := findLastInHeap_isSome listed (by rintro rfl; exact inhabited path) enough
    obtain ⟨last, search⟩ := Option.isSome_iff_exists.mp found
    split
    · rename_i none
      exact absurd (none.symm.trans search) (by simp)
    · exact ⟨_, rfl⟩

end SistemasOperativos.Kernel
