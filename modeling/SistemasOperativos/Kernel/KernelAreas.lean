import SistemasOperativos.Kernel.HeapSizes

/-!
# The areas of the kernel's heap

Blocks of `kmalloc` are never freed, so its heap is the areas it returned and one free block
behind them. `initializeKernelHeap` gives that block all 17 pages for its data, with the header in
front of them: what is left of it ends 28 bytes behind the 17 pages. The page directory stands
inside them, with the entry `mapModulesLogical` writes.
-/

namespace SistemasOperativos.Kernel

open SistemasOperativos.Foundation SistemasOperativos.Semantics

/-- `PDbase` of `mapModulesLogical`. -/
def PDbase : Nat := 0x10000

/-- The bytes of `*userEntry`, the entry of 8 bytes at index 4. -/
def userEntry : Interval := ⟨PDbase + 4 * 8, PDbase + 4 * 8 + 8⟩

/-- Where the data of the last block ends. -/
def KERNEL_HEAP_END : Nat := dataStart KERNEL_HEAP_START + KERNEL_HEAP_SIZE

/-- The data of a block that `kmalloc` returned, and the size it was asked for. -/
structure KernelArea where
  data : Interval
  requested : Nat

namespace KernelArea

/-- The area as an allocation. -/
def allocation (area : KernelArea) : Allocation :=
  ⟨area.data.lo, area.data.hi - area.data.lo⟩

/-- The area lies in the 17 pages of the heap and does not touch the entry of the page
directory. -/
def Clear (area : KernelArea) : Prop :=
  Interval.Contains ⟨KERNEL_HEAP_START, KERNEL_HEAP_START + KERNEL_HEAP_SIZE⟩ area.data ∧
    area.data.Disjoint userEntry

end KernelArea

section Taking

variable {heap : HeapState} {live : List Allocation} {l : List Nat} {block s : Nat}

/-- The end of `kmalloc` on a block that leaves enough over for another one. -/
theorem Held.takeBlock_cut (held : Held heap live l) (member : block ∈ l)
    (free : (heap.block block).free = true) (room : s + 32 < (heap.block block).size) :
    ∃ r, Held (heap.takeBlock block s).1 (⟨dataStart block, s⟩ :: live) r ∧
      r.length = l.length + 1 ∧ dataStart block + s ∈ r ∧
      (∀ b ∈ r, b = dataStart block + s ∨ b ∈ l) ∧
      (heap.takeBlock block s).1.block =
        Function.update (Function.update heap.block (dataStart block + s)
          ⟨(heap.block block).size - (s + 28), (heap.block block).next, block, true⟩) block
          ⟨s, dataStart block + s, (heap.block block).prev, false⟩ := by
  have bound := held.size_lt member
  have large : (s + 4 + BLOCK_STRUCT_SIZE) % SIZE_T < (heap.block block).size := by
    simp only [BLOCK_STRUCT_SIZE, SIZE_T] at bound ⊢
    omega
  obtain ⟨l₁, l₂, rfl⟩ := List.append_of_mem member
  obtain ⟨cut, blocks⟩ := held.split_block free (show s + 28 ≤ _ by omega)
  have front : (heap.split_block block s).block block =
      ⟨s, block + 28 + s, (heap.block block).prev, true⟩ := by
    simp [blocks, free]
  have taken := @Held.allocate _ live _ block cut (by simp) (by rw [front]) s (by rw [front])
  rw [front] at taken
  rw [HeapState.takeBlock, if_pos large, front]
  refine ⟨_, taken, ?_, by simp [dataStart_eq], fun b isBlock => ?_, ?_⟩
  · simp only [List.length_append, List.length_cons]
    omega
  · simp only [List.mem_append, List.mem_cons, dataStart_eq] at isBlock ⊢
    tauto
  · simp only [HeapState.setBlock, blocks, Function.update_idem, dataStart_eq]

/-- The end of `kmalloc` on a block of which the rest is too small for another one. -/
theorem Held.takeBlock_whole (held : Held heap live l) (member : block ∈ l)
    (free : (heap.block block).free = true) (fits : s ≤ (heap.block block).size)
    (tight : (heap.block block).size ≤ s + 32) (bound : s ≤ 2 ^ 31) :
    Held (heap.takeBlock block s).1 (⟨dataStart block, (heap.block block).size⟩ :: live) l ∧
      (heap.takeBlock block s).1.block =
        Function.update heap.block block { heap.block block with free := false } := by
  have small : ¬ (s + 4 + BLOCK_STRUCT_SIZE) % SIZE_T < (heap.block block).size := by
    simp only [BLOCK_STRUCT_SIZE, SIZE_T]
    omega
  rw [HeapState.takeBlock, if_neg small]
  exact ⟨held.allocate member free (Nat.le_refl _), rfl⟩

end Taking

/-- The heap of the kernel and the areas it returned. -/
structure KernelAreas where
  kernel : KernelHeap
  areas : List KernelArea

namespace KernelAreas

/-- One call of `kmalloc`. The area is as large as the header in front of it says. -/
def kmalloc (fuel : Nat) (state : KernelAreas) (size : Nat) : Option KernelAreas :=
  (state.kernel.kmalloc fuel size).map fun (kernel, p) =>
    { kernel
      areas :=
        if p = 0 then state.areas
        else ⟨⟨p, p + (kernel.block (p - BLOCK_STRUCT_SIZE)).size⟩, size⟩ :: state.areas }

/-- The state after `kmalloc` returned the data of `block`. -/
def take (state : KernelAreas) (block s size : Nat) : KernelAreas where
  kernel := { state.kernel with block := (state.kernel.view.takeBlock block s).1.block }
  areas := ⟨⟨dataStart block,
    dataStart block + ((state.kernel.view.takeBlock block s).1.block block).size⟩, size⟩ ::
      state.areas

/-- Each area is as large as requested, the areas are disjoint and hold no header, and they are
clear. -/
structure Safe (state : KernelAreas) : Prop where
  served : ∀ area ∈ state.areas, area.data.lo + area.requested ≤ area.data.hi
  disjoint : state.areas.Pairwise fun a b => a.data.Disjoint b.data
  headers : ∀ area ∈ state.areas, ∀ block, state.kernel.view.OnList block →
    Interval.Disjoint ⟨block, dataStart block⟩ area.data
  clear : ∀ area ∈ state.areas, area.Clear

/-- The free block at `start` serves each request of the list that it is large enough for with
more than 32 bytes left over, and with data before or behind the entry of the page directory. -/
def StaysClear : (start : Nat) → (sizes : List Nat) → Prop
  | _, [] => True
  | start, size :: sizes =>
      if dataStart start + align4 size < KERNEL_HEAP_END then
        (dataStart start + align4 size + 32 < KERNEL_HEAP_END ∧
          (dataStart start + align4 size ≤ userEntry.lo ∨ userEntry.hi ≤ dataStart start)) ∧
        StaysClear (dataStart start + align4 size) sizes
      else StaysClear start sizes

instance StaysClear.decidable : (start : Nat) → (sizes : List Nat) →
    Decidable (StaysClear start sizes)
  | _, [] => .isTrue trivial
  | start, size :: sizes =>
      have := StaysClear.decidable (dataStart start + align4 size) sizes
      have := StaysClear.decidable start sizes
      inferInstanceAs (Decidable
        (if dataStart start + align4 size < KERNEL_HEAP_END then
          (dataStart start + align4 size + 32 < KERNEL_HEAP_END ∧
            (dataStart start + align4 size ≤ userEntry.lo ∨ userEntry.hi ≤ dataStart start)) ∧
          StaysClear (dataStart start + align4 size) sizes
        else StaysClear start sizes))

/-- The invariant of the runs: each area is a block of its own, and a free block ends where the
heap ends. -/
structure Carved (state : KernelAreas) (l : List Nat) : Prop where
  held : Held state.kernel.view (state.areas.map KernelArea.allocation) l
  base : state.kernel.kernelBase ≠ 0
  ends : ∀ block ∈ l, (state.kernel.block block).free = true →
    dataStart block + (state.kernel.block block).size = KERNEL_HEAP_END
  served : ∀ area ∈ state.areas, area.data.lo + area.requested ≤ area.data.hi

variable {state after : KernelAreas} {l : List Nat} {fuel size block start s : Nat}

/-- `initializeKernelHeap` makes one free block. -/
theorem carved_initializeKernelHeap (kernel : KernelHeap) :
    Carved ⟨kernel.initializeKernelHeap, []⟩ [KERNEL_HEAP_START] := by
  have ready := kernel.ready_initializeKernelHeap
  refine ⟨ready.laid.held, ready.base, fun block member _ => ?_, by simp⟩
  obtain rfl := List.mem_singleton.mp member
  simp [KernelHeap.initializeKernelHeap, KERNEL_HEAP_END]

namespace Carved

/-- What the claim of the areas comes down to. -/
theorem safe_iff (carved : Carved state l) :
    state.Safe ↔ ∀ area ∈ state.areas, area.Clear := by
  refine ⟨fun safe => safe.clear, fun clear => ?_⟩
  have range : ∀ area ∈ state.areas, area.allocation.range = area.data := by
    rintro ⟨⟨lo, hi⟩, requested⟩ member
    have served : lo + requested ≤ hi := carved.served _ member
    simp only [KernelArea.allocation, Allocation.range, Nat.add_sub_cancel' (show lo ≤ hi by omega)]
  have held : Held (HeapProcess.mk state.kernel.view
      (state.areas.map KernelArea.allocation)).heap _ l := carved.held
  have safe := held.safe
  refine ⟨carved.served, ?_, fun area member block onList => ?_, clear⟩
  · refine (List.pairwise_map.mp safe.disjoint).imp_of_mem fun {a b} memberA memberB apart => ?_
    rwa [range a memberA, range b memberB] at apart
  · have apart := safe.headers _ (List.mem_map_of_mem member) block onList
    rwa [range area member] at apart

/-- There is one free block at most. -/
theorem eq_of_free (carved : Carved state l) {a b : Nat} (first : a ∈ l) (second : b ∈ l)
    (freeA : (state.kernel.block a).free = true) (freeB : (state.kernel.block b).free = true) :
    a = b := by
  have endA := carved.ends a first freeA
  have endB := carved.ends b second freeB
  rw [dataStart_eq] at endA endB
  rcases Nat.le_total a b with le | le
  · refine (carved.held.eq_of_has first second ⟨le, ?_⟩).symm
    change b < a + 28 + (state.kernel.block a).size
    omega
  · refine carved.held.eq_of_has second first ⟨le, ?_⟩
    change a < b + 28 + (state.kernel.block b).size
    omega

/-- A request for which no free block is large enough gets nothing. -/
theorem kmalloc_null (carved : Carved state l) (enough : l.length < fuel) (positive : 0 < size)
    (limit : size ≤ 2 ^ 31)
    (full : ∀ block ∈ l, (state.kernel.block block).free = true →
      (state.kernel.block block).size ≤ align4 size) :
    state.kmalloc fuel size = some state := by
  have wrap : align4 size % SIZE_T = align4 size := by
    simp only [align4, SIZE_T]
    omega
  have search : state.kernel.view.findFirstFreeBlock fuel state.kernel.kernelBase
      (align4 size) = some 0 :=
    (carved.held.toLaid.findFirstFreeBlock_null_iff rfl enough).mpr fun block onList free =>
      full block (carved.held.toLaid.mem_of_onList onList) free
  rw [KernelAreas.kmalloc, KernelHeap.kmalloc, if_neg carved.base, if_neg (by omega)]
  simp only [wrap, search, if_true, Option.map_some]

/-- A request for which the free block is large enough takes it. -/
theorem kmalloc_take (carved : Carved state l) (enough : l.length < fuel) (positive : 0 < size)
    (limit : size ≤ 2 ^ 31) (member : block ∈ l)
    (free : (state.kernel.block block).free = true)
    (room : align4 size < (state.kernel.block block).size) :
    state.kmalloc fuel size = some (state.take block (align4 size) size) := by
  have wrap : align4 size % SIZE_T = align4 size := by
    simp only [align4, SIZE_T]
    omega
  obtain ⟨found, search, notNull⟩ := HeapState.findFirstFreeBlock_finds carved.held.path
    carved.held.nonnull member free room enough
  obtain ⟨isBlock, isFree, -⟩ :=
    (HeapState.findFirstFreeBlock_spec carved.held.path search).resolve_left notNull
  obtain rfl := carved.eq_of_free isBlock member isFree free
  have listed : state.kernel.view.findFirstFreeBlock fuel state.kernel.kernelBase
      (align4 size) = some found := search
  rw [KernelAreas.kmalloc, KernelHeap.kmalloc, if_neg carved.base, if_neg (by omega)]
  simp only [wrap, listed, if_neg notNull, Option.map_some, HeapState.takeBlock, take]
  rw [if_neg (show ¬ dataStart found = 0 by rw [dataStart_eq]; omega), Nat.add_sub_cancel]

/-- The block that was taken is an area. -/
theorem of_taken (carved : Carved state l) {r : List Nat} {length : Nat}
    (taken : Held (state.kernel.view.takeBlock block s).1
      (⟨dataStart block, length⟩ :: state.areas.map KernelArea.allocation) r)
    (sized : ((state.kernel.view.takeBlock block s).1.block block).size = length)
    (served : size ≤ length)
    (ends : ∀ b ∈ r, ((state.kernel.view.takeBlock block s).1.block b).free = true →
      dataStart b + ((state.kernel.view.takeBlock block s).1.block b).size = KERNEL_HEAP_END) :
    Carved (state.take block s size) r := by
  obtain ⟨runs, base⟩ := state.kernel.view.takeBlock_fields block s
  have whole : (⟨⟨dataStart block, dataStart block + length⟩, size⟩ : KernelArea).allocation =
      ⟨dataStart block, length⟩ := by
    simp [KernelArea.allocation]
  refine ⟨?_, carved.base, ends, fun area isArea => ?_⟩
  · rw [take, List.map_cons, sized, whole]
    exact taken.congr rfl base.symm runs.symm
  · rw [take, sized] at isArea
    rcases List.mem_cons.mp isArea with rfl | old
    · exact Nat.add_le_add_left served _
    · exact carved.served area old

/-- The free block is cut, and what is left of it is the free block. -/
theorem take_cut (carved : Carved state l) (member : block ∈ l)
    (free : (state.kernel.block block).free = true) (served : size ≤ s)
    (room : s + 32 < (state.kernel.block block).size) :
    ∃ r, Carved (state.take block s size) r ∧ r.length = l.length + 1 ∧
      dataStart block + s ∈ r ∧
      ((state.take block s size).kernel.block (dataStart block + s)).free = true ∧
      (state.take block s size).areas =
        ⟨⟨dataStart block, dataStart block + s⟩, size⟩ :: state.areas := by
  have atEnd := carved.ends block member free
  obtain ⟨r, taken, length, listed, parts, blocks⟩ := carved.held.takeBlock_cut member free room
  have front : (state.kernel.view.takeBlock block s).1.block block =
      ⟨s, dataStart block + s, (state.kernel.block block).prev, false⟩ := by
    rw [blocks, Function.update_self]
    rfl
  have other : dataStart block + s ≠ block := by
    rw [dataStart_eq]
    omega
  have rest : (state.kernel.view.takeBlock block s).1.block (dataStart block + s) =
      ⟨(state.kernel.block block).size - (s + 28), (state.kernel.block block).next, block,
        true⟩ := by
    rw [blocks, Function.update_of_ne other, Function.update_self]
    rfl
  refine ⟨r, carved.of_taken taken (by rw [front]) served fun b isBlock isFree => ?_, length,
    listed, ?_, ?_⟩
  · by_cases isRest : b = dataStart block + s
    · rw [isRest, rest]
      simp only [dataStart_eq] at *
      omega
    · -- The other blocks of the list are used, the one that was taken by now.
      have used : b ≠ block := by
        rintro rfl
        rw [front] at isFree
        cases isFree
      rw [blocks, Function.update_of_ne used, Function.update_of_ne isRest] at isFree
      exact absurd (carved.eq_of_free ((parts b isBlock).resolve_left isRest) member isFree free)
        used
  · change ((state.kernel.view.takeBlock block s).1.block (dataStart block + s)).free = true
    rw [rest]
  · rw [take, front]

/-- The free block is taken as it is, up to the end of the heap. -/
theorem take_whole (carved : Carved state l) (member : block ∈ l)
    (free : (state.kernel.block block).free = true) (served : size ≤ s) (bound : s ≤ 2 ^ 31)
    (fits : s < (state.kernel.block block).size)
    (tight : (state.kernel.block block).size ≤ s + 32) :
    Carved (state.take block s size) l ∧ (state.take block s size).areas =
      ⟨⟨dataStart block, KERNEL_HEAP_END⟩, size⟩ :: state.areas := by
  have atEnd := carved.ends block member free
  obtain ⟨taken, blocks⟩ :=
    carved.held.takeBlock_whole member free (Nat.le_of_lt fits) tight bound
  have front : ((state.kernel.view.takeBlock block s).1.block block).size =
      (state.kernel.block block).size := by
    rw [blocks, Function.update_self]
    rfl
  refine ⟨carved.of_taken taken front (Nat.le_trans served (Nat.le_of_lt fits))
    fun b isBlock isFree => ?_, ?_⟩
  · have used : b ≠ block := by
      rintro rfl
      rw [blocks, Function.update_self] at isFree
      cases isFree
    rw [blocks, Function.update_of_ne used] at isFree
    exact absurd (carved.eq_of_free isBlock member isFree free) used
  · rw [take, front, atEnd]

/-- One call completes, and keeps the areas there are. -/
theorem kmalloc_some (carved : Carved state l) (enough : l.length < fuel) (positive : 0 < size)
    (limit : size ≤ 2 ^ 31) :
    ∃ after r, state.kmalloc fuel size = some after ∧ Carved after r ∧
      r.length ≤ l.length + 1 ∧ state.areas ⊆ after.areas := by
  have atLeast : size ≤ align4 size ∧ align4 size ≤ 2 ^ 31 := by
    simp only [align4]
    omega
  by_cases room : ∃ block ∈ l, (state.kernel.block block).free = true ∧
      align4 size < (state.kernel.block block).size
  · obtain ⟨block, member, free, larger⟩ := room
    have call := carved.kmalloc_take enough positive limit member free larger
    by_cases cut : align4 size + 32 < (state.kernel.block block).size
    · obtain ⟨r, carved', length, -, -, areas⟩ := carved.take_cut member free atLeast.1 cut
      exact ⟨_, r, call, carved', by omega, by simp [areas]⟩
    · obtain ⟨carved', areas⟩ :=
        carved.take_whole member free atLeast.1 atLeast.2 larger (Nat.not_lt.mp cut)
      exact ⟨_, l, call, carved', by omega, by simp [areas]⟩
  · have full : ∀ block ∈ l, (state.kernel.block block).free = true →
        (state.kernel.block block).size ≤ align4 size := by
      intro block member free
      exact Nat.not_lt.mp fun larger => room ⟨block, member, free, larger⟩
    exact ⟨state, l, carved.kmalloc_null enough positive limit full, carved, by omega,
      List.Subset.refl _⟩

/-- A run of calls completes, and keeps the areas there are. -/
theorem run_some {sizes : List Nat} (carved : Carved state l)
    (enough : l.length + sizes.length ≤ fuel)
    (sized : ∀ size ∈ sizes, 0 < size ∧ size ≤ 2 ^ 31) :
    ∃ final r, run (kmalloc fuel) state sizes = some final ∧ Carved final r ∧
      state.areas ⊆ final.areas := by
  induction sizes generalizing state l with
  | nil => exact ⟨state, l, rfl, carved, List.Subset.refl _⟩
  | cons size sizes ih =>
      rw [List.length_cons] at enough
      obtain ⟨positive, limit⟩ := sized size (List.mem_cons_self ..)
      obtain ⟨after, r, called, carved', length, kept⟩ :=
        carved.kmalloc_some (show l.length < fuel by omega) positive limit
      obtain ⟨final, r', ran, carved'', kept'⟩ := ih carved' (by omega)
        fun size member => sized size (List.mem_cons_of_mem _ member)
      exact ⟨final, r', run_cons_eq_some.mpr ⟨after, called, ran⟩, carved'',
        fun area member => kept' (kept member)⟩

/-- An area behind the free block is clear if it is cut off in front of the last 32 bytes, before
or behind the entry. -/
theorem clear_iff (carved : Carved state l) (member : start ∈ l)
    (room : dataStart start + s + 32 < KERNEL_HEAP_END) :
    (⟨⟨dataStart start, dataStart start + s⟩, size⟩ : KernelArea).Clear ↔
      (dataStart start + s ≤ userEntry.lo ∨ userEntry.hi ≤ dataStart start) := by
  obtain ⟨i, isRun, lower, -⟩ := carved.held.inside start member
  obtain rfl := List.mem_singleton.mp isRun
  refine and_iff_right ⟨?_, ?_⟩
  · simp only [PageRun.interval, HeapState.extent_lo, dataStart_eq] at lower ⊢
    omega
  · simp only [KERNEL_HEAP_END, dataStart_eq] at room ⊢
    omega

/-- The areas a run leaves are clear if those before it are and the free block stays clear. -/
theorem run_clear_iff {sizes : List Nat} {final : KernelAreas} (carved : Carved state l)
    (member : start ∈ l) (free : (state.kernel.block start).free = true)
    (enough : l.length + sizes.length ≤ fuel)
    (sized : ∀ size ∈ sizes, 0 < size ∧ size ≤ 2 ^ 31)
    (ran : run (kmalloc fuel) state sizes = some final) :
    (∀ area ∈ final.areas, area.Clear) ↔
      (∀ area ∈ state.areas, area.Clear) ∧ StaysClear start sizes := by
  induction sizes generalizing state l start with
  | nil =>
      obtain rfl := Option.some.inj ran
      exact (and_iff_left trivial).symm
  | cons size sizes ih =>
      rw [List.length_cons] at enough
      obtain ⟨positive, limit⟩ := sized size (List.mem_cons_self ..)
      have rest : ∀ size ∈ sizes, 0 < size ∧ size ≤ 2 ^ 31 := fun size later =>
        sized size (List.mem_cons_of_mem _ later)
      obtain ⟨next, called, later⟩ := run_cons_eq_some.mp ran
      have ends := carved.ends start member free
      have atLeast : size ≤ align4 size ∧ align4 size ≤ 2 ^ 31 := by
        simp only [align4]
        omega
      by_cases room : dataStart start + align4 size < KERNEL_HEAP_END
      · have call := carved.kmalloc_take (show l.length < fuel by omega) positive limit member
          free (show align4 size < _ by omega)
        obtain rfl := Option.some.inj (called.symm.trans call)
        rw [StaysClear, if_pos room]
        by_cases cut : dataStart start + align4 size + 32 < KERNEL_HEAP_END
        · obtain ⟨r, carved', length, listed, isFree, areas⟩ :=
            carved.take_cut member free atLeast.1 (show align4 size + 32 < _ by omega)
          rw [ih carved' listed isFree (by omega) rest later, areas, List.forall_mem_cons,
            carved.clear_iff member cut, and_iff_right cut]
          tauto
        · obtain ⟨carved', areas⟩ := carved.take_whole member free atLeast.1 atLeast.2
            (by omega) (by omega)
          obtain ⟨final', -, ran', -, kept⟩ :=
            @run_some _ l fuel sizes carved' (by omega) rest
          obtain rfl := Option.some.inj (later.symm.trans ran')
          refine iff_of_false (fun clear => ?_) fun both => cut both.2.1.1
          have inside := (clear _ (kept (areas ▸ List.mem_cons_self ..))).1.2
          simp only [KERNEL_HEAP_END, dataStart_eq] at inside
          omega
      · have call := carved.kmalloc_null (show l.length < fuel by omega) positive limit
          fun block isBlock isFree => by
            obtain rfl := carved.eq_of_free isBlock member isFree free
            omega
        obtain rfl := Option.some.inj (called.symm.trans call)
        rw [StaysClear, if_neg room]
        exact ih carved member free (by omega) rest later

end Carved

/-- A run of `kmalloc` from `initializeKernelHeap` completes. Its areas are safe exactly if the
free block serves every request with room to spare and off the entry of the page directory. -/
theorem areas_safe_iff (kernel : KernelHeap) (sizes : List Nat)
    (sized : ∀ size ∈ sizes, 0 < size ∧ size ≤ 2 ^ 31) (fuel : Nat)
    (enough : sizes.length < fuel) :
    ∃ final, run (KernelAreas.kmalloc fuel) ⟨kernel.initializeKernelHeap, []⟩ sizes =
        some final ∧ (final.Safe ↔ StaysClear KERNEL_HEAP_START sizes) := by
  have carved := carved_initializeKernelHeap kernel
  have length : [KERNEL_HEAP_START].length + sizes.length ≤ fuel := by
    simp only [List.length_singleton]
    omega
  obtain ⟨final, r, ran, carved', -⟩ := carved.run_some length sized
  refine ⟨final, ran, carved'.safe_iff.trans ?_⟩
  have free : (kernel.initializeKernelHeap.block KERNEL_HEAP_START).free = true := by
    simp [KernelHeap.initializeKernelHeap]
  rw [carved.run_clear_iff (List.mem_singleton_self _) free length sized ran]
  simp

/-- Two buffers of 20 bytes. -/
theorem areas_safe_small : ∃ final,
    run (KernelAreas.kmalloc 3) ⟨noKernelHeap.initializeKernelHeap, []⟩ [20, 20] = some final ∧
      final.Safe := by
  obtain ⟨final, ran, safe⟩ := areas_safe_iff noKernelHeap [20, 20] (by decide) 3 (by decide)
  exact ⟨final, ran, safe.mpr (by decide)⟩

/-- An area over the entry of the page directory, and one that ends behind the 17 pages. -/
theorem areas_not_safe :
    (∃ final, run (KernelAreas.kmalloc 2) ⟨noKernelHeap.initializeKernelHeap, []⟩ [0xC010] =
      some final ∧ final.areas.map KernelArea.data = [⟨0x401C, 0x1002C⟩] ∧ ¬ final.Safe) ∧
    ∃ final, run (KernelAreas.kmalloc 2) ⟨noKernelHeap.initializeKernelHeap, []⟩ [0x10FF0] =
      some final ∧ final.areas.map KernelArea.data = [⟨0x401C, 0x1501C⟩] ∧ ¬ final.Safe := by
  have first : (run (KernelAreas.kmalloc 2) ⟨noKernelHeap.initializeKernelHeap, []⟩
      [0xC010]).map (fun final => final.areas.map KernelArea.data) =
        some [⟨0x401C, 0x1002C⟩] := by
    decide +kernel
  have second : (run (KernelAreas.kmalloc 2) ⟨noKernelHeap.initializeKernelHeap, []⟩
      [0x10FF0]).map (fun final => final.areas.map KernelArea.data) =
        some [⟨0x401C, 0x1501C⟩] := by
    decide +kernel
  have reached : ∀ {final : KernelAreas} {data : Interval},
      final.areas.map KernelArea.data = [data] → ∃ area ∈ final.areas, area.data = data :=
    fun areas => List.mem_map.mp (areas ▸ List.mem_singleton_self _)
  obtain ⟨final, ran, areas⟩ := Option.map_eq_some_iff.mp first
  obtain ⟨final', ran', areas'⟩ := Option.map_eq_some_iff.mp second
  refine ⟨⟨final, ran, areas, fun safe => ?_⟩, final', ran', areas', fun safe => ?_⟩
  · obtain ⟨area, member, data⟩ := reached areas
    have apart := (safe.clear area member).2
    rw [data] at apart
    exact absurd apart (by decide)
  · obtain ⟨area, member, data⟩ := reached areas'
    have inside := (safe.clear area member).1
    rw [data] at inside
    exact absurd inside (by decide)

end KernelAreas

end SistemasOperativos.Kernel
