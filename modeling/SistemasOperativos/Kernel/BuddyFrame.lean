import SistemasOperativos.Kernel.BuddySafety

/-!
# What the page allocator writes

For every content of `occupied`, whether calls of the allocator lead to it or not: a request
that fails leaves the whole array as it was, and one that succeeds changes the node it takes and
ancestors of this node, and returns the address of the node's block (`allocPage_frame`).
`deallocPage` in turn refuses nothing: it clears the entry that it computes from the pointer,
inside the array or not (`deallocPage_refuses_nothing`).
-/

namespace SistemasOperativos.Kernel

open SistemasOperativos.Foundation SistemasOperativos.Semantics

/-- `allocPage` took the node `w`, whose block has `2 ^ height` pages, and returned `page`. -/
structure TakesNode (before after : BuddyArray) (height w page : Nat) : Prop where
  lower : 2 ^ (10 - height) ≤ w
  upper : w < 2 ^ (11 - height)
  empty : before.occupied (w - 1) = .EMPTY
  full : after.occupied (w - 1) = .BUDDY_FULL
  /-- An entry that changed is that of the node or of an ancestor of it. -/
  frame : ∀ i, after.occupied i ≠ before.occupied i → Covers (i + 1) w
  base : after.base = before.base
  heapLevel : after.heapLevel = before.heapLevel
  address : page = before.base (w - 1)
  aligned : PAGE_SIZE * 2 ^ height ∣ page - baseMemory
  inside : baseMemory ≤ page ∧ page + PAGE_SIZE * 2 ^ height ≤ baseMemory + MEMORY

namespace Block.Placed

variable {block : Block}

/-- The address of a block is the one that `createHeap` computed for its node. -/
theorem page_eq (placed : block.Placed) : block.page = createHeap.base (block.node - 1) := by
  have positive := placed.node_positive
  have inTree : block.node - 1 < HEAPSIZE := by
    have leaf := placed.leaf_bounds.2
    have above : block.node ≤ block.leaf := placed.node_covers_leaf.le
    rw [show HEAPSIZE = 2047 by rfl]
    omega
  have filled : createHeap.base (block.node - 1) = nodeBase block.node := by
    rw [createHeap_eq]
    simp only [if_pos inTree, Nat.sub_add_cancel positive]
  rw [filled, nodeBase_eq placed.height_le placed.lower placed.upper, ← placed.aligned]
  exact placed.address

/-- The block of a node of the tree lies in the arena, at a multiple of its size. -/
theorem within (placed : block.Placed) :
    block.size ∣ block.page - baseMemory ∧
      baseMemory ≤ block.page ∧ block.page + block.size ≤ baseMemory + MEMORY := by
  have pages : 1024 = 2 ^ (10 - block.height) * 2 ^ block.height := by
    rw [← Nat.pow_add, Nat.sub_add_cancel placed.height_le]
  have last : (block.node + 1) * 2 ^ block.height ≤ 2 * 1024 := by
    have bounded : block.node + 1 ≤ 2 * 2 ^ (10 - block.height) := by
      rw [← Nat.pow_succ', ← Nat.succ_sub placed.height_le]
      exact placed.upper
    rw [pages, ← Nat.mul_assoc]
    exact Nat.mul_le_mul_right _ bounded
  have offset : block.page - baseMemory =
      PAGE_SIZE * 2 ^ block.height * (block.node - 2 ^ (10 - block.height)) := by
    calc block.page - baseMemory
        = PAGE_SIZE * (block.node * 2 ^ block.height - 1024) := by
          rw [placed.address, Nat.add_sub_cancel_left, placed.aligned]
      _ = PAGE_SIZE * ((block.node - 2 ^ (10 - block.height)) * 2 ^ block.height) := by
          rw [pages, ← Nat.sub_mul]
      _ = PAGE_SIZE * 2 ^ block.height * (block.node - 2 ^ (10 - block.height)) := by
          rw [Nat.mul_comm (block.node - _)]
          exact (Nat.mul_assoc _ _ _).symm
  refine ⟨⟨_, offset⟩, ?_, ?_⟩
  · rw [placed.address]
    exact Nat.le_add_right _ _
  · have aligned := placed.aligned
    have first := placed.leaf_bounds.1
    rw [Nat.add_mul] at last
    rw [placed.address, size]
    simp only [MEMORY, PAGE_SIZE]
    omega

end Block.Placed

/-- With the addresses that `createHeap` computes and any marks, `allocPage` of `pages` pages
returns NULL and changes nothing, or takes one empty node whose block has `pages` pages rounded
up to a power of two. -/
theorem allocPage_frame (occupied : Nat → Occupied) (pages : Nat) :
    allocPage { createHeap with occupied } pages = ({ createHeap with occupied }, none) ∨
      ∃ after w page, allocPage { createHeap with occupied } pages = (after, some page) ∧
        TakesNode { createHeap with occupied } after (Nat.clog 2 pages) w page := by
  have levels : ({ createHeap with occupied } : BuddyArray).heapLevel = 11 := by
    rw [createHeap_eq]
  have addresses : ({ createHeap with occupied } : BuddyArray).base = createHeap.base := by
    rw [createHeap_eq]
  rcases search : allocPage { createHeap with occupied } pages with ⟨after, result⟩
  cases result with
  | none =>
      rw [allocPage_null levels search]
      exact .inl rfl
  | some page =>
      obtain ⟨-, -, w, -, taken, placed, node⟩ :=
        @allocPage_taken { createHeap with occupied } after pages page addresses levels search
      obtain ⟨aligned, inside⟩ := placed.within
      have lower := placed.lower
      have upper := placed.upper
      have address := placed.page_eq
      rw [node] at lower upper address
      rw [← addresses] at address
      refine .inr ⟨after, w, page, rfl, lower, upper, taken.empty, taken.full, ?_, taken.base,
        taken.heapLevel, address, aligned, inside⟩
      intro i changed
      by_contra aside
      refine changed (taken.frame (i + 1) (Nat.succ_pos i) ?_)
      rintro k - same
      exact aside (same ▸ Covers.ancestor (same ▸ Nat.succ_pos i))

/-- What calls of `allocPage` keep of the marks, whether they find a node or not. -/
structure Kept (before after : BuddyArray) : Prop where
  full : ∀ v, 0 < v → before.mark v = .BUDDY_FULL → after.mark v = .BUDDY_FULL
  empty : ∀ v, 0 < v → after.mark v = .EMPTY → before.mark v = .EMPTY

/-- Marks that nothing changes are kept. -/
theorem Kept.refl (heap : BuddyArray) : Kept heap heap := ⟨fun _ _ full => full, fun _ _ => id⟩

/-- Taking a node empties no mark and opens no full one. -/
theorem Taken.kept {before after : BuddyArray} {levels w : Nat}
    (taken : Taken before after levels w) : Kept before after := by
  constructor
  · intro v positive full
    rw [taken.frame v positive, full]
    rintro k within rfl
    exact taken.openPath k within full
  · intro v positive empty
    by_cases path : ∃ k, k ≤ levels ∧ v = w / 2 ^ k
    · obtain ⟨k, within, rfl⟩ := path
      cases k with
      | zero =>
          rw [Nat.pow_zero, Nat.div_one, taken.full] at empty
          cases empty
      | succ k =>
          rw [taken.above k within] at empty
          split at empty
          · cases empty
          · split at empty
            · cases empty
            · exact empty
    · rw [← taken.frame v positive fun k within same => path ⟨k, within, same⟩]
      exact empty

/-! ## deallocPage -/

/-- `deallocPage` answers that the pointer is not valid and leaves the heap alone. -/
def BuddyArray.Refuses (heap : BuddyArray) (page : Int) : Prop :=
  deallocPage heap page = some (heap, -1)

/-- The entry computed from a pointer is one of the array. -/
def Indexes (page : Int) : Prop := -1023 ≤ pageIndex page ∧ pageIndex page ≤ 1023

/-- A pointer whose entry is not one of the array makes `deallocPage` write out of its bounds. -/
theorem deallocPage_outside {page : Int} (outside : ¬ Indexes page) (heap : BuddyArray) :
    deallocPage heap page = none := by
  have noEntry : ¬ (0 ≤ pageIndex page + ((HEAPSIZE / 2 : Nat) : Int) ∧
      pageIndex page + ((HEAPSIZE / 2 : Nat) : Int) < (HEAPSIZE : Nat)) := by
    rw [Indexes] at outside
    rw [show HEAPSIZE / 2 = 1023 by rfl, show HEAPSIZE = 2047 by rfl]
    omega
  rw [deallocPage]
  simp only [isValid, if_true, if_neg noEntry]

/-- Of any other pointer it clears the node: a leaf, or an inner node for a pointer below the
arena. -/
theorem deallocPage_inside {page : Int} (inside : Indexes page) (heap : BuddyArray) :
    ∃ (node : Nat) (after : BuddyArray), (node : Int) = 1024 + pageIndex page ∧
      deallocPage heap page = some (after, 0) ∧ after.mark node = .EMPTY ∧
      ∀ i, after.occupied i ≠ heap.occupied i → Covers (i + 1) node := by
  obtain ⟨lower, upper⟩ := inside
  obtain ⟨node, number⟩ := Int.eq_ofNat_of_zero_le (show 0 ≤ 1024 + pageIndex page by omega)
  have entry : pageIndex page + ((HEAPSIZE / 2 : Nat) : Int) = ((node - 1 : Nat) : Int) := by
    rw [show HEAPSIZE / 2 = 1023 by rfl]
    omega
  have stored : 0 ≤ ((node - 1 : Nat) : Int) ∧ ((node - 1 : Nat) : Int) < (HEAPSIZE : Nat) := by
    rw [show HEAPSIZE = 2047 by rfl]
    omega
  have index : ((node - 1 : Nat) : Int).toNat + 1 = node := by omega
  have positive : 0 < node := by omega
  have above : ∀ k, node ≠ node / 2 ^ (k + 1) := fun k same =>
    (Nat.div_lt_self positive (Nat.one_lt_two_pow (Nat.succ_ne_zero k))).ne same.symm
  refine ⟨node, freeUpRecursive 11 (heap.setMark node .EMPTY) node, number.symm, ?_, ?_, ?_⟩
  · rw [deallocPage]
    simp only [isValid, if_true, entry, if_pos stored, index]
  · rw [freeUpRecursive_offPath positive positive above, BuddyArray.mark_setMark_self]
  · intro i changed
    by_contra aside
    have offPath : ∀ k, i + 1 ≠ node / 2 ^ k := by
      intro k same
      have ancestor : 0 < node / 2 ^ k := by omega
      exact aside (same ▸ Covers.ancestor ancestor)
    refine changed ?_
    have kept := @freeUpRecursive_offPath 11 node (heap.setMark node .EMPTY) positive (i + 1)
      (Nat.succ_pos i) fun k => offPath (k + 1)
    have other := heap.mark_setMark_of_ne .EMPTY positive (Nat.succ_pos i)
      (by simpa using offPath 0)
    exact kept.trans other

/-- In no state of the heap and for no pointer, of a block in use or not, does `deallocPage`
refuse: if the entry of the pointer is one of the array it clears the node there, and perhaps
ancestors of it, and answers 0; if it is not it writes out of the bounds of the array. -/
theorem deallocPage_refuses_nothing (heap : BuddyArray) (page : Int) :
    ¬ heap.Refuses page ∧
      (Indexes page → ∃ (node : Nat) (after : BuddyArray), (node : Int) = 1024 + pageIndex page ∧
        deallocPage heap page = some (after, 0) ∧ after.mark node = .EMPTY ∧
        ∀ i, after.occupied i ≠ heap.occupied i → Covers (i + 1) node) ∧
      (¬ Indexes page → deallocPage heap page = none) := by
  refine ⟨fun refused => ?_, fun inside => deallocPage_inside inside heap,
    fun outside => deallocPage_outside outside heap⟩
  by_cases inside : Indexes page
  · obtain ⟨node, after, -, result, -⟩ := deallocPage_inside inside heap
    rw [BuddyArray.Refuses, result] at refused
    simp at refused
  · rw [BuddyArray.Refuses, deallocPage_outside inside] at refused
    cases refused

/-- With one page in use, a pointer into its middle frees it, and a pointer to the end of the
arena makes `deallocPage` write behind the array. -/
theorem deallocPage_of_foreign_pointers : ∃ state,
    run HeapRun.step HeapRun.boot [.allocPage 1] = some state ∧
      state.live = [⟨0x1000000, 1⟩] ∧ state.heap.mark 1024 = .BUDDY_FULL ∧
      ¬ state.heap.Refuses 0x1000008 ∧ ¬ state.heap.Refuses 0x1400000 ∧
      (∃ after, deallocPage state.heap 0x1000008 = some (after, 0) ∧ after.mark 1024 = .EMPTY) ∧
      deallocPage state.heap 0x1400000 = none := by
  have result : (run HeapRun.step HeapRun.boot [.allocPage 1]).map (fun state =>
      (state.live, state.heap.mark 1024,
        (deallocPage state.heap 0x1000008).map fun done => (done.1.mark 1024, done.2),
        (deallocPage state.heap 0x1400000).isNone)) =
      some ([⟨0x1000000, 1⟩], .BUDDY_FULL, some (.EMPTY, 0), true) := by
    rw [HeapRun.boot_eq]
    decide +kernel
  obtain ⟨state, ran, facts⟩ := Option.map_eq_some_iff.mp result
  simp only [Prod.mk.injEq] at facts
  obtain ⟨live, marked, middle, past⟩ := facts
  obtain ⟨⟨after, answer⟩, freed, cleared⟩ := Option.map_eq_some_iff.mp middle
  obtain ⟨empty, rfl⟩ := Prod.mk.inj cleared
  have behind := Option.isNone_iff_eq_none.mp past
  refine ⟨state, ran, live, marked, ?_, ?_, ⟨after, freed, empty⟩, behind⟩
  · rw [BuddyArray.Refuses, freed]
    simp
  · rw [BuddyArray.Refuses, behind]
    simp

end SistemasOperativos.Kernel
