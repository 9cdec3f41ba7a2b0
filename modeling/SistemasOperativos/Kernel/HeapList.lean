import SistemasOperativos.Kernel.HeapReuse
import SistemasOperativos.Kernel.HeapRecords

/-!
# The list of blocks of one process

The heap list of a process is well formed if its pointers lead forward and back through the
same blocks and these make up its page runs. `split_block` and `mergeBlocks` do not set the
`prev` of the block behind, so the list may only change at its end; and `free` has to join
blocks of one page run. Each call of a run that keeps to this leaves the list well formed, and
a call that does not leaves it broken.
-/

namespace SistemasOperativos.Kernel

open SistemasOperativos.Foundation SistemasOperativos.Semantics

namespace HeapState

/-- The predecessor along the heap list. -/
def prev (heap : HeapState) (block : Nat) : Nat := (heap.block block).prev

/-- `l` are the blocks of the heap list, from `p->heap` to NULL. The first block has no `prev`,
each block is the `prev` of its `next`, and the blocks that start in a page run are, one behind
the other, the bytes of the run. -/
structure WellFormed (heap : HeapState) (l : List Nat) : Prop where
  path : Path heap.next heap.heap l 0
  nonnull : 0 ∉ l
  acyclic : l.Nodup
  first : heap.heap ≠ 0 → heap.prev heap.heap = 0
  back : ∀ block ∈ l, heap.next block ≠ 0 → heap.prev (heap.next block) = block
  inside : ∀ block ∈ l, ∃ run ∈ heap.regions, run.Has block
  tiles : ∀ run ∈ heap.regions,
    Interval.Tiles run.lo run.hi ((l.filter fun block => run.Has block).map heap.extent)

/-- The condition on `mallock` of `s` aligned bytes: a block that it cuts is the last one. -/
def CutsLast (fuel : Nat) (heap : HeapState) (s : Nat) : Prop :=
  ∀ block ∈ heap.findFirstFreeBlock fuel heap.heapBase s, block ≠ 0 →
    (s + 4 + BLOCK_STRUCT_SIZE) % SIZE_T < (heap.block block).size → heap.next block = 0

/-- The condition on `free` where `getBlock` finds `block`: if the block behind it is free, it
is the last one and of its page run; if the block before it is free, it is of its page run, and
the block behind it is free. -/
structure MergesLast (heap : HeapState) (block : Nat) : Prop where
  next : (heap.block (heap.next block)).free = true →
    heap.next (heap.next block) = 0 ∧ Interval.Together heap.regions block (heap.next block)
  prev : heap.prev block ≠ 0 → (heap.block (heap.prev block)).free = true →
    (heap.block (heap.next block)).free = true ∧
      Interval.Together heap.regions (heap.prev block) block

instance (fuel : Nat) (heap : HeapState) (s : Nat) : Decidable (heap.CutsLast fuel s) := by
  unfold CutsLast
  infer_instance

instance (heap : HeapState) (block : Nat) : Decidable (heap.MergesLast block) :=
  decidable_of_iff (_ ∧ _) ⟨fun ⟨next, prev⟩ => ⟨next, prev⟩, fun ⟨next, prev⟩ => ⟨next, prev⟩⟩

end HeapState

namespace HeapState

variable {heap heap' : HeapState} {l : List Nat} {base size fuel : Nat}
  {allocPage : List PageRun → Nat → Nat}

/-- `extendHeap` leads back from the new block to the last one. -/
theorem extendHeap_back (laid : Laid heap l) (global : heap.heapBase = heap.heap)
    (notListed : base ∉ l) (back : BackLinks heap.prev 0 l)
    (extended : heap.extendHeap allocPage fuel size = some (heap', base)) :
    BackLinks heap'.prev 0 (l ++ [base]) := by
  simp only [extendHeap] at extended
  split at extended
  · rename_i none
    obtain ⟨rfl, rfl⟩ := Prod.mk.inj (Option.some.inj extended)
    obtain rfl := laid.eq_nil (global ▸ none)
    simp [BackLinks, prev, setBlock]
  · rename_i inhabited
    split at extended
    · cases extended
    · rename_i last found
      obtain ⟨rfl, rfl⟩ := Prod.mk.inj (Option.some.inj extended)
      have written : ∀ b ∈ l, b ≠ allocPage heap.runs _ := fun b member same =>
        notListed (same ▸ member)
      have some : l ≠ [] := by
        rintro rfl
        exact inhabited (global.trans laid.path)
      obtain ⟨before, rfl⟩ := findLastInHeap_spec
        (Path.congr (fun b member => by simp [next, setBlock, written b member])
          (global ▸ laid.path)) laid.nonnull some found
      rw [List.append_assoc]
      refine BackLinks.append_cons_iff.mpr ⟨back.congr fun b member => ?_, ?_, trivial⟩
      · by_cases isLast : b = last
        · simp [prev, setBlock, isLast, written last (by simp)]
        · simp [prev, setBlock, isLast, written b member]
      · simp [prev, setBlock]

/-- The headers when the mark of a block changes. -/
theorem setFree_block (heap : HeapState) (block b : Nat) (mark : Bool) :
    (heap.setBlock block { heap.block block with free := mark }).block b =
      { heap.block b with free := if b = block then mark else (heap.block b).free } := by
  by_cases same : b = block
  · simp [setBlock, same]
  · simp [setBlock, same]

/-- `extendHeap` changes the size of the new block only. -/
theorem extendHeap_size {b : Nat} (other : b ≠ base)
    (extended : heap.extendHeap allocPage fuel size = some (heap', base)) :
    (heap'.block b).size = (heap.block b).size := by
  simp only [extendHeap] at extended
  split at extended
  · obtain ⟨rfl, rfl⟩ := Prod.mk.inj (Option.some.inj extended)
    simp [setBlock, other]
  · split at extended
    · cases extended
    · rename_i last found
      obtain ⟨rfl, rfl⟩ := Prod.mk.inj (Option.some.inj extended)
      by_cases isLast : b = last
      · simp [setBlock, ← isLast, other]
      · simp [setBlock, isLast, other]

/-- The blocks of a run, when the last ones of the list are in the same runs. -/
theorem filter_has {run : Interval} {w : List Nat} (u : List Nat) (block : Nat)
    (same : ∀ b ∈ w, run.Has b ↔ run.Has block) : ((u ++ w).filter fun b => run.Has b) =
      (u.filter fun b => run.Has b) ++ if run.Has block then w else [] := by
  rw [List.filter_append]
  split
  · rename_i has
    have all : (w.filter fun b => run.Has b) = w :=
      List.filter_eq_self.mpr fun b member => decide_eq_true ((same b member).mpr has)
    rw [all]
  · rename_i elsewhere
    have none : (w.filter fun b => run.Has b) = [] :=
      List.filter_eq_nil_iff.mpr fun b member => by simpa [same b member] using elsewhere
    rw [none]

end HeapState

/-! ## What the calls keep -/

/-- The layout of the heap list with its pointers back, and page runs that the blocks make up. -/
structure Tiled (heap : HeapState) (l : List Nat) : Prop extends Laid heap l where
  bounded : ∀ run ∈ heap.runs, run.pages ≤ NUMBER_OF_PAGES
  back : BackLinks heap.prev 0 l
  tiles : ∀ run ∈ heap.regions,
    Interval.Tiles run.lo run.hi ((l.filter fun block => run.Has block).map heap.extent)

namespace Tiled

variable {heap heap' : HeapState} {l u r : List Nat} {block x base size s fuel : Nat}
  {elsewhere : List PageRun} {allocPage : List PageRun → Nat → Nat}

/-- A heap whose blocks tile the page runs is well formed. -/
theorem wellFormed (tiled : Tiled heap l) : heap.WellFormed l := by
  refine ⟨tiled.path, tiled.nonnull, tiled.nodup, fun inhabited => ?_, fun b member more =>
    tiled.back.prev_next tiled.path member more, fun b member => ?_, tiled.tiles⟩
  · have path := tiled.path
    have back := tiled.back
    cases l with
    | nil => exact absurd path inhabited
    | cons b l =>
        rw [path.1]
        exact back.1
  · obtain ⟨run, isRun, -, has⟩ := tiled.run_has member
    exact ⟨run, isRun, has⟩

/-- Only the sizes and pointers of the blocks count. -/
theorem congr (tiled : Tiled heap l)
    (size : ∀ b ∈ l, (heap'.block b).size = (heap.block b).size)
    (next : ∀ b ∈ l, heap'.next b = heap.next b) (prev : ∀ b ∈ l, heap'.prev b = heap.prev b)
    (start : heap'.heap = heap.heap) (runs : heap'.runs = heap.runs) : Tiled heap' l := by
  refine ⟨tiled.toLaid.congr size next start runs, ?_, tiled.back.congr prev, ?_⟩
  · rw [runs]
    exact tiled.bounded
  · intro run isRun
    rw [HeapState.regions, runs] at isRun
    rw [Laid.map_extent_eq fun b member => size b (List.mem_of_mem_filter member)]
    exact tiled.tiles run isRun

/-- `heapBase` and `pages` do not count. -/
theorem of_same (tiled : Tiled heap l) (blocks : heap'.block = heap.block)
    (start : heap'.heap = heap.heap) (runs : heap'.runs = heap.runs) : Tiled heap' l := by
  refine tiled.congr ?_ ?_ ?_ start runs
  · intro b _
    rw [blocks]
  · intro b _
    rw [HeapState.next, blocks, HeapState.next]
  · intro b _
    rw [HeapState.prev, blocks, HeapState.prev]

/-- Only the mark of a block changes. -/
theorem setFree (tiled : Tiled heap l) (block : Nat) (mark : Bool) :
    Tiled (heap.setBlock block { heap.block block with free := mark }) l := by
  refine tiled.congr ?_ ?_ ?_ rfl rfl
  · intro b _
    rw [HeapState.setFree_block]
  · intro b _
    rw [HeapState.next, HeapState.setFree_block, HeapState.next]
  · intro b _
    rw [HeapState.prev, HeapState.setFree_block, HeapState.prev]

/-- The block that a block leads back to stands before it. -/
theorem before (tiled : Tiled heap (u ++ block :: r)) (present : heap.prev block ≠ 0) :
    (∃ v, u = v ++ [heap.prev block]) ∧ ∀ b ∈ block :: r, heap.prev block ≠ b := by
  obtain ⟨v, split⟩ : ∃ v, u = v ++ [heap.prev block] := by
    rcases tiled.back.eq_append with ⟨-, none⟩ | split
    · exact absurd none present
    · exact split
  refine ⟨⟨v, split⟩, ?_⟩
  rintro b member rfl
  exact List.disjoint_of_nodup_append tiled.nodup (by simp [split]) member

/-- The runs stay made up of blocks when a run of one block is added. -/
theorem append {pages : Nat} (tiled : Tiled heap l) (laid : Laid heap' (l ++ [base]))
    (runs : heap'.runs = ⟨base, pages⟩ :: heap.runs)
    (size : (heap'.block base).size + 28 = pages * PAGE_SIZE)
    (same : ∀ b ∈ l, (heap'.block b).size = (heap.block b).size) :
    ∀ run ∈ heap'.regions, Interval.Tiles run.lo run.hi
      (((l ++ [base]).filter fun b => run.Has b).map heap'.extent) := by
  have extents : ∀ run : Interval, ((l.filter fun b => run.Has b).map heap'.extent) =
      (l.filter fun b => run.Has b).map heap.extent := by
    intro run
    exact Laid.map_extent_eq fun b member => same b (List.mem_of_mem_filter member)
  have whole : heap'.extent base = (PageRun.mk base pages).interval := by
    simp only [HeapState.extent, PageRun.interval, Interval.mk.injEq, dataStart_eq, true_and]
    omega
  have regions : heap'.regions = (PageRun.mk base pages).interval :: heap.regions := by
    rw [HeapState.regions, runs, List.map_cons, HeapState.regions]
  have nonempty := Laid.extent_nonempty heap' base
  have here : (PageRun.mk base pages).interval.Has base := by
    rw [← whole]
    exact ⟨Nat.le_refl _, nonempty⟩
  have apart := laid.apart
  rw [regions] at apart
  have outside : ∀ run ∈ heap.regions, ∀ b, run.Has b →
      ¬ (PageRun.mk base pages).interval.Has b := by
    intro run isRun b has hasNew
    have disjoint := (List.pairwise_cons.mp apart).1 run isRun
    simp only [Interval.Disjoint, Interval.Has] at disjoint has hasNew
    omega
  intro run isRun
  rw [List.filter_append, List.map_append, extents]
  rw [regions] at isRun
  rcases List.mem_cons.mp isRun with rfl | older
  · have none : (l.filter fun b => (PageRun.mk base pages).interval.Has b) = [] := by
      refine List.filter_eq_nil_iff.mpr fun b member => ?_
      obtain ⟨run, isRun, -, has⟩ := tiled.run_has member
      simpa using outside run isRun b has
    rw [none, List.filter_cons_of_pos (by simpa using here), List.filter_nil, List.map_nil,
      List.nil_append, List.map_singleton, whole]
    rw [whole] at nonempty
    exact ⟨rfl, nonempty, rfl⟩
  · have elsewhere : ¬ run.Has base := fun has => outside run older base has here
    rw [List.filter_cons_of_neg (by simpa using elsewhere), List.filter_nil, List.map_nil,
      List.append_nil]
    exact tiled.tiles run older

/-- A new page run stands at the end of the list. -/
theorem extend (grants : GrantsFresh allocPage) (tiled : Tiled heap l)
    (global : heap.heapBase = heap.heap)
    (granted : allocPage (heap.runs ++ elsewhere) (pagesAsked size) ≠ 0)
    (extended : heap.extendHeap (fun own pages => allocPage (own ++ elsewhere) pages) fuel size =
      some (heap', base)) :
    Tiled heap' (l ++ [base]) ∧ heap'.heapBase = heap'.heap ∧ (heap'.block base).free = true := by
  obtain ⟨-, atMost, -⟩ := grants _ _ granted
  have grown := tiled.held.extendHeap_granted grants global granted extended
  have laid := grown.held.toLaid
  have notListed : base ∉ l := fun member =>
    List.disjoint_of_nodup_append laid.nodup member (by simp)
  refine ⟨⟨laid, ?_, ?_, ?_⟩, grown.global, grown.free⟩
  · rw [grown.runs]
    intro run isRun
    rcases List.mem_cons.mp isRun with rfl | older
    · exact atMost
    · exact tiled.bounded run older
  · exact HeapState.extendHeap_back tiled.toLaid global notListed tiled.back extended
  · refine tiled.append laid grown.runs grown.size fun b member => ?_
    exact HeapState.extendHeap_size (fun same : b = base => notListed (same ▸ member)) extended

/-- Cutting the last block. -/
theorem cutLast (tiled : Tiled heap (u ++ [block])) (free : (heap.block block).free = true)
    (room : s + 28 < (heap.block block).size) :
    Tiled (heap.split_block block s) (u ++ [block, block + 28 + s]) := by
  obtain ⟨cut, blocks⟩ := tiled.held.split_block free (Nat.le_of_lt room)
  have nodup := cut.toLaid.nodup
  simp only [List.nodup_append, List.mem_cons, List.not_mem_nil, or_false] at nodup
  have front : (heap.split_block block s).block block =
      { heap.block block with next := block + 28 + s, size := s } := by
    rw [blocks, Function.update_self]
  have cutOff : (heap.split_block block s).block (block + 28 + s) =
      ⟨(heap.block block).size - (s + 28), (heap.block block).next, block, true⟩ := by
    rw [blocks, Function.update_of_ne (by omega), Function.update_self]
  have others : ∀ b ∈ u, (heap.split_block block s).block b = heap.block b := by
    intro b member
    rw [blocks, Function.update_of_ne (nodup.2.2 b member _ (.inl rfl)),
      Function.update_of_ne (nodup.2.2 b member _ (.inr rfl))]
  have runs : (heap.split_block block s).runs = heap.runs := by
    simp only [HeapState.split_block]
    split <;> rfl
  have together : Interval.Together heap.regions block (block + 28 + s) := by
    obtain ⟨run, isRun, ⟨-, upper⟩, has⟩ := @Laid.run_has _ _ block tiled.toLaid (by simp)
    have lower := has.1
    rw [HeapState.extent_hi] at upper
    exact ⟨run, isRun, has, by omega, by omega⟩
  refine ⟨cut.toLaid, ?_, ?_, ?_⟩
  · rw [runs]
    exact tiled.bounded
  · refine BackLinks.append_cons_iff.mpr ⟨tiled.back.congr fun b member => ?_, ?_, trivial⟩
    · rcases List.mem_append.mp member with older | last
      · rw [HeapState.prev, others b older, HeapState.prev]
      · obtain rfl := List.mem_singleton.mp last
        rw [HeapState.prev, front, HeapState.prev]
    · rw [HeapState.prev, cutOff]
  · intro run isRun
    rw [HeapState.regions, runs] at isRun
    have tiles := tiled.tiles run isRun
    have older : (u.filter fun b => run.Has b).map (heap.split_block block s).extent =
        (u.filter fun b => run.Has b).map heap.extent :=
      Laid.map_extent_eq fun b member => by rw [others b (List.mem_of_mem_filter member)]
    have first : (heap.split_block block s).extent block = ⟨block, block + 28 + s⟩ := by
      rw [HeapState.extent, front, dataStart_eq]
    have second : (heap.split_block block s).extent (block + 28 + s) =
        ⟨block + 28 + s, block + 28 + (heap.block block).size⟩ := by
      rw [HeapState.extent, cutOff, dataStart_eq]
      simp only [Interval.mk.injEq, true_and]
      omega
    have same := together.has_iff tiled.apart isRun
    rw [HeapState.filter_has u block (by simp), List.map_append] at tiles
    rw [HeapState.filter_has u block (by simp [same]), List.map_append, older]
    split
    · rename_i has
      rw [if_pos has] at tiles
      rw [List.map_cons, List.map_cons, List.map_nil, first, second]
      refine tiles.cut (by omega) ?_
      rw [dataStart_eq]
      omega
    · rename_i elsewhere
      rw [if_neg elsewhere] at tiles
      exact tiles

/-- Joining the last block with the one before it, of the same run. -/
theorem joinLast (tiled : Tiled heap (u ++ [block, x]))
    (together : Interval.Together heap.regions block x) :
    Tiled (heap.mergeBlocks block) (u ++ [block]) := by
  have laid := tiled.toLaid.mergeBlocks together
  have merged := tiled.toLaid.mergeBlocks_block together
  have nodup := tiled.nodup
  simp only [List.nodup_append, List.mem_cons, List.not_mem_nil, or_false] at nodup
  have others : ∀ b ∈ u, (heap.mergeBlocks block).block b = heap.block b := fun b member =>
    HeapState.mergeBlocks_block_of_ne (nodup.2.2 b member _ (.inl rfl))
  refine ⟨laid, tiled.bounded, ?_, fun run isRun => ?_⟩
  · have back := (BackLinks.append_cons_iff.mp tiled.back).1
    refine back.congr fun b member => ?_
    rcases List.mem_append.mp member with older | last
    · rw [HeapState.prev, others b older, HeapState.prev]
    · obtain rfl := List.mem_singleton.mp last
      rw [HeapState.prev, merged, HeapState.prev]
  · have tiles := tiled.tiles run isRun
    have older : (u.filter fun b => run.Has b).map (heap.mergeBlocks block).extent =
        (u.filter fun b => run.Has b).map heap.extent :=
      Laid.map_extent_eq fun b member => by rw [others b (List.mem_of_mem_filter member)]
    have whole : (heap.mergeBlocks block).extent block = ⟨block, (heap.extent x).hi⟩ := by
      have touch := (tiled.neighbours together).1
      rw [HeapState.extent, merged]
      simp only [dataStart_eq, HeapState.extent_hi, Interval.mk.injEq, true_and]
      omega
    have same := together.has_iff tiled.apart isRun
    rw [HeapState.filter_has u block (by simp [same]), List.map_append] at tiles
    rw [HeapState.filter_has u block (by simp), List.map_append, older]
    split
    · rename_i has
      rw [if_pos has] at tiles
      rw [List.map_singleton, whole]
      exact tiles.join
    · rename_i elsewhere
      rw [if_neg elsewhere] at tiles
      exact tiles

end Tiled

/-! ## What breaks the list -/

namespace HeapState

variable {heap heap' : HeapState} {l u r : List Nat} {block x y : Nat}

/-- A block of a well-formed list ends in its page run. -/
theorem WellFormed.end_le {run : Interval} (well : heap.WellFormed l) (member : block ∈ l)
    (isRun : run ∈ heap.regions) (has : run.Has block) :
    block + 28 + (heap.block block).size ≤ run.hi := by
  have counted : block ∈ l.filter fun b => run.Has b :=
    List.mem_filter.mpr ⟨member, decide_eq_true has⟩
  obtain ⟨before, behind, split⟩ := List.append_of_mem counted
  have tiles := well.tiles run isRun
  rw [split, List.map_append, List.map_cons] at tiles
  have rest := tiles.rest
  rw [extent_hi] at rest
  omega

/-- A list is not well formed if a block leads back to another one than it follows. -/
theorem not_wellFormed (path : Path heap.next heap.heap (u ++ x :: y :: r) 0)
    (nonnull : 0 ∉ u ++ x :: y :: r) (other : heap.prev y ≠ x) : ¬ ∃ l, heap.WellFormed l := by
  rintro ⟨l, well⟩
  obtain rfl := well.path.unique path well.nonnull nonnull
  have next : heap.next x = y := path.next_eq
  have more : heap.next x ≠ 0 := by
    rintro null
    rw [← next, null] at nonnull
    simp at nonnull
  have back := well.back x (by simp) more
  rw [next] at back
  exact other back

/-- `mergeBlocks` takes the block behind off the list. -/
theorem mergeBlocks_path (path : Path heap.next heap.heap (u ++ block :: x :: r) 0)
    (nodup : (u ++ block :: x :: r).Nodup) :
    Path (heap.mergeBlocks block).next heap.heap (u ++ block :: r) 0 := by
  have next : (heap.block block).next = x := path.next_eq
  refine path.removeAfter ?_ fun b member => ?_
  · simp [HeapState.next, mergeBlocks, setBlock, next]
  · have other : b ≠ block := by
      rintro rfl
      have apart := (List.nodup_cons.mp (List.perm_middle.nodup_iff.mp nodup)).1
      refine apart ?_
      simp only [List.mem_append, List.mem_cons] at member ⊢
      exact member.imp_right .inr
    rw [HeapState.next, mergeBlocks_block_of_ne other, HeapState.next]

end HeapState

/-- A call that meets its condition leaves a tiled heap list, and one that does not leaves no
well-formed one. -/
structure TiledIff (heap : HeapState) (met : Prop) : Prop where
  tiled : met → ∃ l, Tiled heap l
  met : (∃ l, heap.WellFormed l) → met

namespace TiledIff

variable {heap heap' : HeapState} {l : List Nat} {met : Prop}

/-- A call that leaves a tiled list has met its condition. -/
theorem of_tiled (tiled : Tiled heap l) (holds : met) : TiledIff heap met :=
  ⟨fun _ => ⟨l, tiled⟩, fun _ => holds⟩

/-- A call that leaves no well-formed list has not met its condition. -/
theorem of_broken (broken : ¬ ∃ l, heap.WellFormed l) (fails : ¬ met) : TiledIff heap met :=
  ⟨fun holds => absurd holds fails, fun well => absurd well broken⟩

/-- Only the blocks, the start of the list and the page runs count. -/
theorem of_same (settled : TiledIff heap met) (blocks : heap'.block = heap.block)
    (start : heap'.heap = heap.heap) (runs : heap'.runs = heap.runs) : TiledIff heap' met := by
  refine ⟨fun holds => ?_, fun ⟨l, well⟩ => settled.met ⟨l, ?_⟩⟩
  · obtain ⟨l, tiled⟩ := settled.tiled holds
    exact ⟨l, tiled.of_same blocks start runs⟩
  · have next : heap'.next = heap.next := by
      funext b
      rw [HeapState.next, blocks, HeapState.next]
    have prev : heap'.prev = heap.prev := by
      funext b
      rw [HeapState.prev, blocks, HeapState.prev]
    have extent : heap'.extent = heap.extent := by
      funext b
      rw [HeapState.extent, blocks, HeapState.extent]
    have regions : heap'.regions = heap.regions := by
      rw [HeapState.regions, runs, HeapState.regions]
    obtain ⟨path, nonnull, acyclic, first, back, inside, tiles⟩ := well
    rw [next, start] at path
    rw [start, prev] at first
    rw [next, prev] at back
    rw [regions] at inside tiles
    rw [extent] at tiles
    exact ⟨path, nonnull, acyclic, first, back, inside, tiles⟩

end TiledIff

section Calls

variable {heap heap' : HeapState} {l u r : List Nat} {block x p size fuel : Nat}

/-- The end of `mallock`: the block it cuts has to be the last one. -/
theorem Tiled.takeBlock (tiled : Tiled heap l) (member : block ∈ l)
    (free : (heap.block block).free = true) (s : Nat) :
    TiledIff (heap.takeBlock block s).1
      ((s + 4 + BLOCK_STRUCT_SIZE) % SIZE_T < (heap.block block).size →
        s ≤ (heap.block block).size → heap.next block = 0) := by
  have small := tiled.size_lt_pages tiled.bounded member
  simp only [show NUMBER_OF_PAGES = 1024 by rfl, show PAGE_SIZE = 4096 by rfl] at small
  by_cases large : (s + 4 + BLOCK_STRUCT_SIZE) % SIZE_T < (heap.block block).size ∧
      s ≤ (heap.block block).size
  · have room : s + 28 < (heap.block block).size := by
      simp only [BLOCK_STRUCT_SIZE, SIZE_T] at large
      omega
    have cut : (heap.takeBlock block s).1 = (heap.split_block block s).setBlock block
        { (heap.split_block block s).block block with free := false } := by
      simp only [HeapState.takeBlock, if_pos large.1]
    obtain ⟨u, r, rfl⟩ := List.append_of_mem member
    rw [cut]
    cases r with
    | nil =>
        have last : heap.next block = 0 := tiled.path.last
        exact .of_tiled ((tiled.cutLast free room).setFree block false) fun _ _ => last
    | cons n r =>
        have next : heap.next block = n := tiled.path.next_eq
        obtain ⟨split, blocks⟩ := tiled.held.split_block free (Nat.le_of_lt room)
        have laid := split.toLaid.setFree block false
        have nodup := laid.nodup
        simp only [List.nodup_append, List.nodup_cons, List.mem_cons, not_or] at nodup
        obtain ⟨-, ⟨⟨-, notFirst, -⟩, ⟨notSecond, -⟩, -⟩, -⟩ := nodup
        refine .of_broken (HeapState.not_wellFormed (u := u ++ [block]) (x := block + 28 + s)
          (y := n) (r := r) (by simpa using laid.path) (by simpa using laid.nonnull) ?_) ?_
        · have back := (BackLinks.append_cons_iff.mp tiled.back).2.1
          rw [HeapState.prev] at back
          simp only [HeapState.prev, HeapState.setBlock, blocks,
            Function.update_of_ne (Ne.symm notFirst), Function.update_of_ne (Ne.symm notSecond),
            back]
          omega
        · intro met
          rw [next] at met
          exact tiled.nonnull (by simp [met large.1 large.2])
  · have whole : (heap.takeBlock block s).1 =
        heap.setBlock block { heap.block block with free := false } := by
      simp only [HeapState.takeBlock, HeapState.split_block]
      split
      · rename_i large'
        rw [if_pos (Nat.not_le.mp fun fits => large ⟨large', fits⟩)]
      · rfl
    rw [whole]
    exact .of_tiled (tiled.setFree block false) fun large' fits => absurd ⟨large', fits⟩ large

/-- The second merge of `free` breaks a list on which the block behind does not lead back to
where it then stands. -/
theorem HeapState.mergePrev_broken (path : Path heap.next heap.heap (u ++ block :: x :: r) 0)
    (nonnull : 0 ∉ u ++ block :: x :: r) (nodup : (u ++ block :: x :: r).Nodup)
    (before : heap.prev block ≠ 0 → ∃ v, u = v ++ [heap.prev block])
    (joined : heap.prev block ≠ 0 ∧ (heap.block (heap.prev block)).free = true →
      heap.prev x ≠ heap.prev block)
    (kept : ¬ (heap.prev block ≠ 0 ∧ (heap.block (heap.prev block)).free = true) →
      heap.prev x ≠ block) :
    ¬ ∃ l, (heap.mergePrev block).WellFormed l := by
  have same : (heap.block block).prev = heap.prev block := rfl
  simp only [mergePrev, same]
  split
  · rename_i joins
    obtain ⟨v, rfl⟩ := before joins.1
    have differs := joined joins
    generalize heap.prev block = p at *
    rw [List.append_assoc] at path nonnull nodup
    have notJoined : x ≠ p := by
      rintro rfl
      simp [List.nodup_append] at nodup
    refine not_wellFormed (mergeBlocks_path path nodup) (fun null => nonnull ?_) ?_
    · simp only [List.mem_append, List.mem_cons] at null ⊢
      tauto
    · rw [HeapState.prev, mergeBlocks_block_of_ne notJoined]
      exact differs
  · rename_i stays
    exact not_wellFormed path nonnull (kept stays)

/-- The blocks of a run behind one of them take up what is left of it. -/
theorem Tiled.behind (tiled : Tiled heap (u ++ block :: r)) {run : Interval}
    (isRun : run ∈ heap.regions) (has : run.Has block) :
    block + 28 + (heap.block block).size +
      ((r.filter fun b => run.Has b).map fun b => (heap.block b).size + 28).sum = run.hi := by
  have tiles := tiled.tiles run isRun
  rw [List.filter_append, List.filter_cons_of_pos (by simpa using has), List.map_append,
    List.map_cons] at tiles
  have rest := tiles.rest
  have lengths : (fun i : Interval => i.hi - i.lo) ∘ heap.extent =
      fun b => (heap.block b).size + 28 := by
    funext b
    simp only [Function.comp_apply, HeapState.extent_hi, HeapState.extent_lo]
    omega
  rw [List.map_map, lengths] at rest
  exact rest

/-- The size of a block that was joined with the one behind. -/
theorem HeapState.mergeBlocks_size (next : heap.next block = x)
    (fits : (heap.block block).size + ((heap.block x).size + BLOCK_STRUCT_SIZE) < SIZE_T) :
    ((heap.mergeBlocks block).block block).size =
      (heap.block block).size + ((heap.block x).size + 28) := by
  rw [HeapState.next] at next
  simp only [mergeBlocks, setBlock, next, Function.update_self]
  exact Nat.mod_eq_of_lt fits

/-- The merges of `free` at the end of the list: both have to be within a page run. -/
theorem Tiled.mergesEnd (tiled : Tiled heap (u ++ [block, x])) :
    TiledIff ((heap.mergeBlocks block).mergePrev block)
      (Interval.Together heap.regions block x ∧
        (heap.prev block ≠ 0 → (heap.block (heap.prev block)).free = true →
          Interval.Together heap.regions (heap.prev block) block)) := by
  have next : heap.next block = x := tiled.path.next_eq
  have nodup := tiled.nodup
  have small : ∀ b ∈ u ++ [block, x], (heap.block b).size < 1024 * 4096 := fun b member =>
    tiled.size_lt_pages tiled.bounded member
  have smallBlock := small block (by simp)
  have smallLast := small x (by simp)
  have size : ((heap.mergeBlocks block).block block).size =
      (heap.block block).size + ((heap.block x).size + 28) := by
    refine HeapState.mergeBlocks_size next ?_
    simp only [BLOCK_STRUCT_SIZE, SIZE_T]
    omega
  have path : Path (heap.mergeBlocks block).next heap.heap (u ++ [block]) 0 :=
    HeapState.mergeBlocks_path tiled.path nodup
  have nonnull : 0 ∉ u ++ [block] := by
    intro null
    refine tiled.nonnull ?_
    simp only [List.mem_append, List.mem_cons] at null ⊢
    tauto
  have prev : ((heap.mergeBlocks block).block block).prev = heap.prev block := by
    simp [HeapState.prev, HeapState.mergeBlocks, HeapState.setBlock]
  have unmoved : heap.prev block ≠ 0 → (heap.mergeBlocks block).block (heap.prev block) =
      heap.block (heap.prev block) := fun present =>
    HeapState.mergeBlocks_block_of_ne ((tiled.before present).2 block (by simp))
  by_cases joins : heap.prev block ≠ 0 ∧
      ((heap.mergeBlocks block).block (heap.prev block)).free = true
  · obtain ⟨⟨v, rfl⟩, -⟩ := tiled.before joins.1
    simp only [HeapState.mergePrev, prev, if_pos joins]
    rw [unmoved joins.1] at joins
    have same := unmoved joins.1
    generalize heap.prev block = p at *
    have smallFirst := small p (by simp)
    have behind : (heap.mergeBlocks block).next p = block := by
      rw [List.append_assoc] at path
      exact path.next_eq
    have whole : (((heap.mergeBlocks block).mergeBlocks p).block p).size =
        (heap.block p).size + ((heap.block block).size + ((heap.block x).size + 28) + 28) := by
      rw [HeapState.mergeBlocks_size behind, same, size]
      rw [same, size]
      simp only [BLOCK_STRUCT_SIZE, SIZE_T]
      omega
    by_cases both : Interval.Together heap.regions block x ∧
        Interval.Together heap.regions p block
    · have first := tiled.joinLast both.1
      rw [List.append_assoc] at first
      exact .of_tiled (first.joinLast both.2) ⟨both.1, fun _ _ => both.2⟩
    · refine .of_broken ?_ fun met => both ⟨met.1, met.2 joins.1 joins.2⟩
      rintro ⟨l, well⟩
      rw [List.append_assoc] at path nonnull tiled nodup
      have shorter : (v ++ [p, block]).Nodup := nodup.sublist (by simp)
      have listed := well.path.unique (HeapState.mergeBlocks_path path shorter) well.nonnull
        fun null => nonnull (by simp at null ⊢; tauto)
      obtain ⟨run, isRun, -, has⟩ := @Laid.run_has _ _ p tiled.toLaid (by simp)
      have ends := well.end_le (by simp [listed]) isRun has
      have rest := tiled.behind isRun has
      rw [whole] at ends
      by_cases hasBlock : run.Has block
      · by_cases hasLast : run.Has x
        · exact both ⟨⟨run, isRun, hasBlock, hasLast⟩, run, isRun, has, hasBlock⟩
        · simp [hasBlock, hasLast] at rest
          omega
      · by_cases hasLast : run.Has x
        · simp [hasBlock, hasLast] at rest
          omega
        · simp [hasBlock, hasLast] at rest
          omega
  · simp only [HeapState.mergePrev, prev, if_neg joins]
    have alone : heap.prev block ≠ 0 → (heap.block (heap.prev block)).free = true →
        Interval.Together heap.regions (heap.prev block) block := by
      intro present isFree
      rw [← unmoved present] at isFree
      exact absurd ⟨present, isFree⟩ joins
    by_cases together : Interval.Together heap.regions block x
    · exact .of_tiled (tiled.joinLast together) ⟨together, alone⟩
    · refine .of_broken ?_ fun met => together met.1
      rintro ⟨l, well⟩
      have listed := well.path.unique path well.nonnull nonnull
      obtain ⟨run, isRun, -, has⟩ := @Laid.run_has _ _ block tiled.toLaid (by simp)
      have ends := well.end_le (by simp [listed]) isRun has
      have rest := tiled.behind isRun has
      rw [size] at ends
      have outside : ¬ run.Has x := fun hasLast => together ⟨run, isRun, has, hasLast⟩
      simp [outside] at rest
      omega

/-- The merges of `free`: they have to be at the end of the list, and within a page run. -/
theorem Tiled.merges (tiled : Tiled heap (u ++ block :: x :: r)) :
    TiledIff ((heap.mergeNext block).mergePrev block) (heap.MergesLast block) := by
  have next : heap.next block = x := tiled.path.next_eq
  have back : heap.prev x = block := (BackLinks.append_cons_iff.mp tiled.back).2.1
  have nodup := tiled.nodup
  have nonnull := tiled.nonnull
  have before : heap.prev block ≠ 0 → ∃ v, u = v ++ [heap.prev block] := fun first =>
    (tiled.before first).1
  have present : x ≠ 0 := by
    rintro rfl
    simp at nonnull
  have same : (heap.block block).next = x := next
  simp only [HeapState.mergeNext, same]
  by_cases isFree : (heap.block x).free = true
  · rw [if_pos ⟨present, isFree⟩]
    cases r with
    | nil =>
        have ends := tiled.mergesEnd
        have last : heap.next x = 0 := by
          have path := tiled.path
          rw [List.append_cons] at path
          exact path.last
        refine ⟨fun met => ends.tiled ⟨next ▸ (met.next (next ▸ isFree)).2, fun first mark =>
          (met.prev first mark).2⟩, fun well => ?_⟩
        obtain ⟨together, within⟩ := ends.met well
        exact ⟨fun _ => by rw [next]; exact ⟨last, together⟩, fun first mark =>
          ⟨next ▸ isFree, within first mark⟩⟩
    | cons m r =>
        have further : heap.next x = m := by
          have path := tiled.path
          rw [List.append_cons] at path
          exact path.next_eq
        have backM : heap.prev m = x := by
          have links := (BackLinks.append_cons_iff.mp tiled.back).2.2
          exact links.1
        have distinct : (block :: x :: m :: r).Nodup := (List.nodup_append.mp nodup).2.1
        simp only [List.nodup_cons, List.mem_cons, not_or] at distinct
        obtain ⟨⟨notLast, notM, -⟩, -⟩ := distinct
        have prev : (heap.mergeBlocks block).prev block = heap.prev block := by
          simp [HeapState.prev, HeapState.mergeBlocks, HeapState.setBlock]
        have prevM : (heap.mergeBlocks block).prev m = x := by
          rw [HeapState.prev, HeapState.mergeBlocks_block_of_ne (Ne.symm notM)]
          exact backM
        refine .of_broken (HeapState.mergePrev_broken (x := m)
          (HeapState.mergeBlocks_path tiled.path nodup) (fun null => nonnull ?_)
          (nodup.sublist (by simp)) (prev ▸ before) ?_ ?_) fun met => ?_
        · simp only [List.mem_append, List.mem_cons] at null ⊢
          tauto
        · rintro ⟨first, -⟩
          rw [prev] at first ⊢
          rw [prevM]
          exact ((tiled.before first).2 x (by simp)).symm
        · intro _
          rw [prevM]
          exact Ne.symm notLast
        · have last := (met.next (next ▸ isFree)).1
          rw [next, further] at last
          exact nonnull (by simp [last])
  · rw [if_neg fun both => isFree both.2]
    by_cases joins : heap.prev block ≠ 0 ∧ (heap.block (heap.prev block)).free = true
    · refine .of_broken (HeapState.mergePrev_broken tiled.path nonnull nodup before ?_
        fun alone => absurd joins alone) fun met => ?_
      · intro _
        rw [back]
        exact ((tiled.before joins.1).2 block (by simp)).symm
      · have both := (met.prev joins.1 joins.2).1
        rw [next] at both
        exact isFree both
    · have stays : heap.mergePrev block = heap := if_neg joins
      rw [stays]
      refine .of_tiled tiled ⟨fun mark => ?_, fun first mark => absurd ⟨first, mark⟩ joins⟩
      rw [next] at mark
      exact absurd mark isFree

/-- `getBlock` stops at a block that is followed by `p` or an address behind it. -/
theorem HeapState.getBlockLoop_stops {a found : Nat}
    (search : heap.getBlockLoop fuel a p = some found) (present : found ≠ 0) :
    p ≤ heap.next found := by
  induction fuel generalizing a with
  | zero => cases search
  | succ fuel ih =>
      rw [getBlockLoop] at search
      split at search
      · exact ih search
      · rename_i stops
        obtain rfl := Option.some.inj search
        exact Nat.not_lt.mp fun further => stops ⟨present, further⟩

/-- Marking a block free changes nothing for its neighbours. -/
theorem HeapState.mergesLast_mark (next : heap.next block ≠ block)
    (prev : heap.prev block ≠ 0 → heap.prev block ≠ block) :
    (heap.mark block).MergesLast block ↔ heap.MergesLast block := by
  have fields : ∀ b, (heap.mark block).block b =
      { heap.block b with free := if b = block then true else (heap.block b).free } :=
    fun b => heap.setFree_block block b true
  have sameNext : ∀ b, (heap.mark block).next b = heap.next b := fun b => by
    rw [HeapState.next, fields, HeapState.next]
  have samePrev : ∀ b, (heap.mark block).prev b = heap.prev b := fun b => by
    rw [HeapState.prev, fields, HeapState.prev]
  have sameRegions : (heap.mark block).regions = heap.regions := rfl
  have sameFree : ∀ b, b ≠ block → ((heap.mark block).block b).free = (heap.block b).free :=
    fun b other => by rw [fields, if_neg other]
  constructor
  · rintro ⟨behind, before⟩
    simp only [sameNext, samePrev, sameRegions, sameFree _ next] at behind before
    exact ⟨behind, fun first mark => before first (by rw [sameFree _ (prev first)]; exact mark)⟩
  · rintro ⟨behind, before⟩
    refine ⟨?_, fun first mark => ?_⟩
    · simpa only [sameNext, sameRegions, sameFree _ next] using behind
    · rw [samePrev] at first
      rw [samePrev, sameFree _ (prev first)] at mark
      simpa only [sameNext, samePrev, sameRegions, sameFree _ next] using before first mark

/-- `free` of a block that another one follows. -/
theorem Tiled.mark_merges (tiled : Tiled heap (u ++ block :: x :: r)) :
    TiledIff (((heap.mark block).mergeNext block).mergePrev block) (heap.MergesLast block) := by
  have notNext : heap.next block ≠ block := by
    have next : heap.next block = x := tiled.path.next_eq
    have nodup := tiled.nodup
    rw [next]
    rintro rfl
    simp [List.nodup_append] at nodup
  have notPrev : heap.prev block ≠ 0 → heap.prev block ≠ block := fun first =>
    (tiled.before first).2 block (by simp)
  have marked : Tiled (heap.mark block) (u ++ block :: x :: r) := tiled.setFree block true
  rw [← HeapState.mergesLast_mark notNext notPrev]
  exact marked.merges

/-- `free` of any pointer. -/
theorem Tiled.free (tiled : Tiled heap l) (global : heap.heapBase = heap.heap)
    (freed : heap.free fuel p = some heap') :
    TiledIff heap' (heap.isValidAddress p = true →
        ∀ b ∈ heap.getBlock fuel p, b ≠ 0 → heap.MergesLast b) ∧
      heap'.heapBase = heap'.heap := by
  unfold HeapState.free at freed
  split at freed
  · rename_i valid
    split at freed
    · cases freed
    · rename_i block found
      split at freed
      · rename_i null
        obtain rfl := Option.some.inj freed
        refine ⟨.of_tiled tiled fun _ b isFound present => ?_, global⟩
        obtain rfl := Option.some.inj (found.symm.trans isFound)
        exact absurd null present
      · rename_i present
        obtain rfl := Option.some.inj freed
        have only : (heap.isValidAddress p = true →
            ∀ b ∈ heap.getBlock fuel p, b ≠ 0 → heap.MergesLast b) ↔ heap.MergesLast block := by
          rw [found]
          simp [valid, present]
        have further : heap.next block ≠ 0 := by
          have stops := HeapState.getBlockLoop_stops found present
          have positive : p ≠ 0 := by
            rintro rfl
            simp [HeapState.isValidAddress] at valid
          omega
        have listed : block ∈ l :=
          (HeapState.getBlockLoop_spec (global ▸ tiled.path) found).resolve_left present
        obtain ⟨u, r, rfl⟩ := List.append_of_mem listed
        obtain ⟨x, r, rfl⟩ : ∃ x rest, r = x :: rest := by
          cases r with
          | nil => exact absurd tiled.path.last further
          | cons x r => exact ⟨x, r, rfl⟩
        have fields : (((heap.mark block).mergeNext block).mergePrev block).heap = heap.heap ∧
            (((heap.mark block).mergeNext block).mergePrev block).heapBase = heap.heapBase := by
          simp only [HeapState.mergePrev, HeapState.mergeNext]
          split <;> split <;> exact ⟨rfl, rfl⟩
        rw [only]
        exact ⟨tiled.mark_merges, fields.2.trans (global.trans fields.1.symm)⟩
  · rename_i refused
    obtain rfl := Option.some.inj freed
    exact ⟨.of_tiled tiled fun valid => absurd valid refused, global⟩

/-- The first test of `mallock`. -/
theorem Tiled.ensureHeap {elsewhere : List PageRun} {allocPage : List PageRun → Nat → Nat}
    (grants : GrantsFresh allocPage) (tiled : Tiled heap l) (global : heap.heapBase = heap.heap)
    (granted : heap.heap = 0 → allocPage (heap.runs ++ elsewhere) (pagesAsked size) ≠ 0)
    (ensured : heap.ensureHeap (fun own pages => allocPage (own ++ elsewhere) pages) fuel size =
      some heap') (s : Nat) :
    ∃ r, Tiled heap' r ∧ heap'.heapBase = heap'.heap ∧
      (heap.CutsLast fuel s ↔ heap'.CutsLast fuel s) := by
  unfold HeapState.ensureHeap at ensured
  split at ensured
  · rename_i none
    obtain ⟨⟨grown, base⟩, extended, rfl⟩ := Option.map_eq_some_iff.mp ensured
    obtain ⟨more, current, -⟩ := tiled.extend grants global (granted (global ▸ none)) extended
    obtain rfl := tiled.eq_nil (global ▸ none)
    refine ⟨_, more, current, iff_of_true ?_ ?_⟩
    · intro block found present
      rw [none] at found
      exact absurd ((HeapState.findFirstFreeBlock_spec (l := []) rfl found).resolve_left present).1
        List.not_mem_nil
    · intro block found present _
      have listed := ((HeapState.findFirstFreeBlock_spec (current ▸ more.path) found).resolve_left
        present).1
      obtain rfl := List.mem_singleton.mp listed
      exact more.path.last
  · obtain rfl := Option.some.inj ensured
    exact ⟨l, tiled, global, Iff.rfl⟩

/-- The rest of `mallock`. -/
theorem Tiled.chooseAndTake {elsewhere : List PageRun} {allocPage : List PageRun → Nat → Nat}
    {s : Nat} (grants : GrantsFresh allocPage) (tiled : Tiled heap l)
    (global : heap.heapBase = heap.heap)
    (granted : heap.findFirstFreeBlock fuel heap.heapBase s = some 0 →
      allocPage (heap.runs ++ elsewhere) (pagesAsked size) ≠ 0)
    (chosen : heap.chooseBlock (fun own pages => allocPage (own ++ elsewhere) pages) fuel size s =
      some (heap', block)) :
    TiledIff (heap'.takeBlock block s).1 (heap.CutsLast fuel s) ∧
      heap'.heapBase = heap'.heap := by
  unfold HeapState.chooseBlock at chosen
  split at chosen
  · cases chosen
  · rename_i found search
    split at chosen
    · rename_i null
      subst null
      obtain ⟨more, current, free⟩ := tiled.extend grants global (granted search) chosen
      have settled := more.takeBlock (by simp) free s
      have last : heap'.next block = 0 := more.path.last
      obtain ⟨r, taken⟩ := settled.tiled fun _ _ => last
      refine ⟨.of_tiled taken fun b isFound present => ?_, current⟩
      exact absurd (Option.some.inj (search.symm.trans isFound)).symm present
    · rename_i notNull
      obtain ⟨rfl, rfl⟩ := Prod.mk.inj (Option.some.inj chosen)
      obtain ⟨member, free, room⟩ :=
        (HeapState.findFirstFreeBlock_spec (global ▸ tiled.path) search).resolve_left notNull
      have only : heap.CutsLast fuel s ↔
          ((s + 4 + BLOCK_STRUCT_SIZE) % SIZE_T < (heap.block found).size →
            s ≤ (heap.block found).size → heap.next found = 0) := by
        unfold HeapState.CutsLast
        rw [search]
        simp [notNull, Nat.le_of_lt room]
      rw [only]
      exact ⟨tiled.takeBlock member free s, global⟩

end Calls

namespace SharedHeap

/-- One call of `process`: `mallock` of any `size_t`, which records each new page run for its
caller, or `free` of any pointer. -/
def callHeap (allocPage : List PageRun → Nat → Nat) (fuel process : Nat) (state : SharedHeap) :
    MallocAction → Option SharedHeap
  | .mallock size =>
      if size < SIZE_T then
        (state.mallock allocPage fuel process size (some process)).map Prod.fst
      else none
  | .free p => state.free fuel process p

/-- `allocPage` does not return NULL to the call. -/
def GetsItsRuns (allocPage : List PageRun → Nat → Nat) (fuel process : Nat) (state : SharedHeap) :
    MallocAction → Prop
  | .mallock size => GetsRuns allocPage fuel process state size
  | .free _ => True

/-- The condition on a call. -/
def ChangesEnd (fuel process : Nat) (state : SharedHeap) : MallocAction → Prop
  | .mallock size =>
      size ≠ 0 → (state.enterHeap process).CutsLast fuel (align4 size % SIZE_T)
  | .free p => (state.view process).isValidAddress p = true →
      ∀ block ∈ (state.view process).getBlock fuel p, block ≠ 0 →
        (state.view process).MergesLast block

instance (allocPage : List PageRun → Nat → Nat) (fuel process : Nat) (state : SharedHeap)
    (call : MallocAction) : Decidable (GetsItsRuns allocPage fuel process state call) :=
  match call with
  | .mallock _ => by
      unfold GetsItsRuns GetsRuns HeapState.Granted
      infer_instance
  | .free _ => inferInstanceAs (Decidable True)

instance (fuel process : Nat) (state : SharedHeap) (call : MallocAction) :
    Decidable (ChangesEnd fuel process state call) :=
  match call with
  | .mallock _ => by
      unfold ChangesEnd
      infer_instance
  | .free _ => by
      unfold ChangesEnd
      infer_instance

variable {allocPage : List PageRun → Nat → Nat} {state after : SharedHeap} {l : List Nat}
  {process fuel size p : Nat}

/-- `mallock` that gets its pages leaves the list tiled if it cuts at the end only, and breaks it
otherwise. -/
theorem mallock_tiled (grants : GrantsFresh allocPage) (tiled : Tiled (state.view process) l)
    (gets : GetsRuns allocPage fuel process state size)
    (called : state.mallock allocPage fuel process size (some process) = some (after, p)) :
    TiledIff (after.view process)
        (size ≠ 0 → (state.enterHeap process).CutsLast fuel (align4 size % SIZE_T)) ∧
      after.heapBase = (after.fields process).heap := by
  unfold SharedHeap.mallock at called
  split at called
  · rename_i nothing
    obtain ⟨rfl, -⟩ := Prod.mk.inj (Option.some.inj called)
    have became := put_became state process (state.enterHeap process)
    refine ⟨.of_tiled (tiled.of_same rfl became.start became.runsOf) fun some =>
      absurd nothing some, became.start.symm⟩
  · rename_i positive
    have granted := gets positive
    dsimp only at called
    split at called
    · cases called
    · rename_i ready ensured
      have entered : Tiled (state.enterHeap process) l := tiled.of_same rfl rfl rfl
      obtain ⟨r, stands, current, only⟩ :=
        entered.ensureHeap grants rfl granted.1 ensured (align4 size % SIZE_T)
      split at called
      · cases called
      · rename_i chosen block choice
        obtain ⟨rfl, -⟩ := Prod.mk.inj (Option.some.inj called)
        obtain ⟨settled, base⟩ :=
          stands.chooseAndTake grants current (granted.2 ready ensured) choice
        rw [mallock_stored (HeapState.ensureHeap_ne_zero granted.1 ensured) choice]
        let left := { (chosen.takeBlock block (align4 size % SIZE_T)).1 with pages := ready.pages }
        have put : Became state (state.put process left) process left := put_became ..
        have became : Became state (if chosen.runs = ready.runs then state.put process left
            else (state.put process left).addPagesToProcess block (some process))
            process left := by
          split
          · exact put
          · exact put.addPagesToProcess _ (.inr rfl)
        have same : (chosen.takeBlock block (align4 size % SIZE_T)).1.heapBase =
            chosen.heapBase := by
          simp only [HeapState.takeBlock, HeapState.split_block]
          split
          · split <;> rfl
          · rfl
        have start : left.heap = chosen.heap := (chosen.takeBlock_fields block _).2
        have met : (size ≠ 0 → (state.enterHeap process).CutsLast fuel (align4 size % SIZE_T)) ↔
            ready.CutsLast fuel (align4 size % SIZE_T) := by
          rw [← only]
          exact ⟨fun cuts => cuts positive, fun cuts _ => cuts⟩
        rw [met]
        refine ⟨settled.of_same became.block became.start became.runsOf, ?_⟩
        rw [became.start, start, ← base, ← same]
        split <;> rfl

/-- `free` leaves the list tiled if it merges at its end only, and breaks it otherwise. -/
theorem free_tiled (tiled : Tiled (state.view process) l)
    (global : state.heapBase = (state.fields process).heap)
    (freed : state.free fuel process p = some after) :
    TiledIff (after.view process) (ChangesEnd fuel process state (.free p)) ∧
      after.heapBase = (after.fields process).heap := by
  obtain ⟨heap, done, rfl⟩ := Option.map_eq_some_iff.mp freed
  obtain ⟨settled, base⟩ := tiled.free global done
  have became := put_became state process heap
  exact ⟨settled.of_same rfl became.start became.runsOf, base.trans became.start.symm⟩

/-- The heap list of the process is tiled, and `heapBase` points to it. -/
def Ordered (process : Nat) (state : SharedHeap) : Prop :=
  (∃ l, Tiled (state.view process) l) ∧ state.heapBase = (state.fields process).heap

/-- One call from a state in which the list is tiled. -/
theorem Ordered.callHeap (grants : GrantsFresh allocPage) {call : MallocAction}
    (ordered : Ordered process state) (gets : GetsItsRuns allocPage fuel process state call)
    (called : state.callHeap allocPage fuel process call = some after) :
    TiledIff (after.view process) (ChangesEnd fuel process state call) ∧
      after.heapBase = (after.fields process).heap := by
  obtain ⟨⟨l, tiled⟩, global⟩ := ordered
  cases call with
  | mallock size =>
      simp only [SharedHeap.callHeap] at called
      split at called
      · obtain ⟨⟨left, p⟩, allocated, rfl⟩ := Option.map_eq_some_iff.mp called
        exact mallock_tiled grants tiled gets allocated
      · cases called
  | free p => exact free_tiled tiled global called

/-- A call that gets its page runs completes with a bound above the number of blocks and one more:
the loops along the list end. -/
theorem Ordered.callHeap_completes (grants : GrantsFresh allocPage)
    (ordered : Ordered process state) : ∃ blocks, ∀ fuel, blocks < fuel → ∀ call,
      (∀ size, call = .mallock size → size < SIZE_T) →
      GetsItsRuns allocPage fuel process state call →
      (state.callHeap allocPage fuel process call).isSome := by
  obtain ⟨⟨l, tiled⟩, global⟩ := ordered
  refine ⟨l.length + 1, fun fuel enough call limit gets => ?_⟩
  cases call with
  | mallock size =>
      rw [SharedHeap.callHeap, if_pos (limit size rfl), Option.isSome_map, SharedHeap.mallock]
      split
      · rfl
      · rename_i positive
        have entered : Laid (state.enterHeap process) l := tiled.toLaid.of_same rfl rfl rfl
        obtain ⟨ready, ensured⟩ := @Laid.ensureHeap_completes _ l size
          (state.runsElsewhere process) allocPage fuel grants entered rfl (by omega)
        obtain ⟨r, held, base, length⟩ :=
          entered.held.ensureHeap_granted grants rfl (gets positive).1 ensured
        obtain ⟨chosen, block, choice⟩ := @Laid.chooseBlock_completes ready r size
          (state.runsElsewhere process) allocPage fuel grants held.toLaid base (by omega)
          (align4 size % SIZE_T)
        have sameEnsured : (state.enterHeap process).ensureHeap (state.pageFor allocPage process)
            fuel size = some ready := ensured
        have sameChoice : ready.chooseBlock (state.pageFor allocPage process) fuel size
            (align4 size % SIZE_T) = some (chosen, block) := choice
        simp only [sameEnsured, sameChoice, Option.isSome_some]
  | free p =>
      obtain ⟨heap, freed⟩ := tiled.toLaid.free_completes global (show l.length < fuel by omega) p
      simp only [SharedHeap.callHeap, SharedHeap.free, freed, Option.map_some, Option.isSome_some]

end SharedHeap

/-- From a process without a heap: while its calls get their page runs and change the list at its
end only, the heap list is well formed. A further call that gets its page runs leaves it so
exactly if it changes the end only. -/
theorem heap_list_well_formed (allocPage : List PageRun → Nat → Nat)
    (grants : GrantsFresh allocPage) (fuel process : Nat) (start : SharedHeap)
    (begins : start.fields process = ⟨0, []⟩) (none : start.runsOf process = [])
    (static : start.heapBase = 0) (calls : List MallocAction) (state : SharedHeap)
    (gets : Along (SharedHeap.callHeap allocPage fuel process)
      (SharedHeap.GetsItsRuns allocPage fuel process) start calls)
    (within : Along (SharedHeap.callHeap allocPage fuel process)
      (SharedHeap.ChangesEnd fuel process) start calls)
    (ran : run (SharedHeap.callHeap allocPage fuel process) start calls = some state) :
    (∃ l, (state.view process).WellFormed l) ∧
      ∀ call after, SharedHeap.GetsItsRuns allocPage fuel process state call →
        state.callHeap allocPage fuel process call = some after →
        ((∃ l, (after.view process).WellFormed l) ↔
          SharedHeap.ChangesEnd fuel process state call) := by
  have empty : SharedHeap.Ordered process start := by
    have noRuns : (start.view process).runs = [] := none
    have noHeap : (start.view process).heap = 0 := by simp [SharedHeap.view, begins]
    refine ⟨⟨[], ⟨noHeap, by simp, by simp, by simp, List.isChain_nil, ?_, ?_⟩, ?_, trivial, ?_⟩,
      ?_⟩
    · simp [HeapState.regions, noRuns]
    · simp [HeapState.regions, noRuns]
    · simp [noRuns]
    · simp [HeapState.regions, noRuns]
    · rw [static, begins]
  have ordered : SharedHeap.Ordered process state := by
    refine (gets.and within).invariant (fun state call after ordered meets called => ?_) empty ran
    obtain ⟨settled, global⟩ := ordered.callHeap grants meets.1 called
    exact ⟨settled.tiled meets.2, global⟩
  obtain ⟨⟨l, tiled⟩, -⟩ := id ordered
  refine ⟨⟨l, tiled.wellFormed⟩, fun call after gets called => ?_⟩
  obtain ⟨settled, -⟩ := ordered.callHeap grants gets called
  refine ⟨settled.met, fun met => ?_⟩
  obtain ⟨r, tiled⟩ := settled.tiled met
  exact ⟨r, tiled.wellFormed⟩

/-- Two blocks are freed and joined with the rest of their page run, and a second run follows. -/
theorem heap_list_well_formed_two_runs : ∃ state,
    run (SharedHeap.callHeap SharedHeap.boundedPages 10 0) SharedHeap.noHeaps
      [.mallock 100, .mallock 200, .free 0x100001c, .free 0x100009c, .mallock 5000] = some state ∧
      ∃ l, (state.view 0).WellFormed l := by
  have gets : Along (SharedHeap.callHeap SharedHeap.boundedPages 10 0)
      (SharedHeap.GetsItsRuns SharedHeap.boundedPages 10 0) SharedHeap.noHeaps
      [.mallock 100, .mallock 200, .free 0x100001c, .free 0x100009c, .mallock 5000] := by
    decide +kernel
  have within : Along (SharedHeap.callHeap SharedHeap.boundedPages 10 0)
      (SharedHeap.ChangesEnd 10 0) SharedHeap.noHeaps
      [.mallock 100, .mallock 200, .free 0x100001c, .free 0x100009c, .mallock 5000] := by
    decide +kernel
  obtain ⟨state, ran⟩ := Option.isSome_iff_exists.mp
    (show (run (SharedHeap.callHeap SharedHeap.boundedPages 10 0) SharedHeap.noHeaps
      [.mallock 100, .mallock 200, .free 0x100001c, .free 0x100009c, .mallock 5000]).isSome = true
      by decide +kernel)
  exact ⟨state, ran, (heap_list_well_formed SharedHeap.boundedPages SharedHeap.boundedPages_fresh
    10 0 _ rfl rfl rfl _ state gets within ran).1⟩

/-- A request that does not fit into the first page run, and one that does: `split_block` cuts the
rest of the first run, and the block behind still leads back to where it was cut. -/
theorem split_block_keeps_prev : GrantsFresh SharedHeap.boundedPages ∧
    SharedHeap.noHeaps.Start ∧ SharedHeap.noHeaps.heapBase = 0 ∧
    Along (SharedHeap.callHeap SharedHeap.boundedPages 10 0)
      (SharedHeap.GetsItsRuns SharedHeap.boundedPages 10 0) SharedHeap.noHeaps
      [.mallock 100, .mallock 5000, .mallock 100] ∧
    ∃ state, run (SharedHeap.callHeap SharedHeap.boundedPages 10 0) SharedHeap.noHeaps
        [.mallock 100, .mallock 5000, .mallock 100] = some state ∧
      ¬ ∃ l, (state.view 0).WellFormed l := by
  refine ⟨SharedHeap.boundedPages_fresh, SharedHeap.noHeaps_start, rfl, by decide +kernel, ?_⟩
  have result : (run (SharedHeap.callHeap SharedHeap.boundedPages 10 0) SharedHeap.noHeaps
      [.mallock 100, .mallock 5000, .mallock 100]).map (fun state => ((state.view 0).heap,
        [0x1000000, 0x1000080, 0x1000100, 0x1002000, 0x10033a4].map (state.view 0).next,
        (state.view 0).prev 0x1002000)) =
      some (0x1000000, [0x1000080, 0x1000100, 0x1002000, 0x10033a4, 0], 0x1000080) := by
    decide +kernel
  obtain ⟨state, ran, values⟩ := Option.map_eq_some_iff.mp result
  simp only [Prod.mk.injEq, List.map_cons, List.cons.injEq] at values
  obtain ⟨heap, ⟨first, second, third, fourth, fifth, -⟩, prev⟩ := values
  refine ⟨state, ran, HeapState.not_wellFormed (u := [0x1000000, 0x1000080]) (x := 0x1000100)
    (y := 0x1002000) (r := [0x10033a4]) ⟨heap, first, second, third, fourth, fifth⟩ (by simp) ?_⟩
  rw [prev]
  decide

end SistemasOperativos.Kernel
