import SistemasOperativos.Kernel.BuddyIsolation

/-!
# A block taken and given back at once

`deallocPage` right after `allocPage` does not always restore the tree:
`freeUpRecursive` rewrites the ancestors of the freed leaf from the marks beside
the path alone, whatever they were before the request. `Undone` lists, mark by
mark, when the rewriting ends where it started (`restored_iff`). Any difference
can be observed: below the block on the left children of the path, at the block
and above it in the nodes that requests can take (`restored_of_indistinguishable`).
-/

namespace SistemasOperativos.Kernel

open SistemasOperativos.Foundation SistemasOperativos.Semantics

/-- The marks, before the request, on the path of the first page of `block` and
beside it, for which taking the block and giving it back restores the path. -/
structure Undone (heap : BuddyArray) (block : Block) : Prop where
  /-- Of a block of several pages the first page is not marked, -/
  page : 0 < block.height → heap.mark block.leaf = .EMPTY
  /-- a path node inside it is not marked beside an empty node below, nor full
  beside a full one, -/
  inner : ∀ j, j + 1 < block.height →
    (heap.mark (sibling (block.leaf / 2 ^ j)) = .EMPTY →
      heap.mark (block.leaf / 2 ^ (j + 1)) = .EMPTY) ∧
    (heap.mark (sibling (block.leaf / 2 ^ j)) = .BUDDY_FULL →
      heap.mark (block.leaf / 2 ^ (j + 1)) ≠ .BUDDY_FULL)
  /-- and its right half is not marked. -/
  half : ∀ j, j + 1 = block.height → heap.mark (sibling (block.leaf / 2 ^ j)) = .EMPTY
  /-- Above a left child the parent is marked exactly when the other child is. -/
  left : ∀ k, k < 10 - block.height → block.node / 2 ^ k % 2 = 0 →
    (heap.mark (sibling (block.node / 2 ^ k)) = .EMPTY ↔
      heap.mark (block.node / 2 ^ (k + 1)) = .EMPTY)
  /-- Above right children only, both are empty, or the parent is partially full
  and the other child full. -/
  rightmost : ∀ k, k < 10 - block.height → (∀ i, i ≤ k → block.node / 2 ^ i % 2 = 1) →
    (heap.mark (sibling (block.node / 2 ^ k)) = .EMPTY ∧
        heap.mark (block.node / 2 ^ (k + 1)) = .EMPTY) ∨
      (heap.mark (sibling (block.node / 2 ^ k)) = .BUDDY_FULL ∧
        heap.mark (block.node / 2 ^ (k + 1)) = .PARTIALLY_FULL)
  /-- Above any other right child the parent is not marked beside an empty child. -/
  right : ∀ k, k < 10 - block.height → block.node / 2 ^ k % 2 = 1 →
    (∃ i, i < k ∧ block.node / 2 ^ i % 2 = 0) →
      heap.mark (sibling (block.node / 2 ^ k)) = .EMPTY →
        heap.mark (block.node / 2 ^ (k + 1)) = .EMPTY

/-! ## What the two calls leave on the path -/

/-- A parent keeps its mark unless it stands marked beside an empty child or full
beside a full one. -/
theorem freed_eq_self_iff (parent beside : Occupied) :
    freed parent beside = parent ↔ (beside = .EMPTY → parent = .EMPTY) ∧
      (beside = .BUDDY_FULL → parent ≠ .BUDDY_FULL) := by
  cases parent <;> cases beside <;> simp [freed]

/-- Only an empty child lets a full parent become empty. -/
theorem freed_full_eq_empty_iff (beside : Occupied) :
    freed .BUDDY_FULL beside = .EMPTY ↔ beside = .EMPTY := by
  cases beside <;> simp [freed]

/-- When a parent that the allocation had marked partly full gets its mark back. -/
theorem freed_partly_eq_iff {parent : Occupied} (opened : parent ≠ .BUDDY_FULL)
    (beside : Occupied) :
    freed .PARTIALLY_FULL beside = parent ↔ (beside = .EMPTY ↔ parent = .EMPTY) := by
  cases parent <;> cases beside <;> simp [freed] at opened ⊢

/-- When a parent that the allocation had marked full gets its mark back. -/
theorem freed_full_eq_iff {parent : Occupied} (opened : parent ≠ .BUDDY_FULL)
    (beside : Occupied) :
    freed .BUDDY_FULL beside = parent ↔ (beside = .EMPTY ∧ parent = .EMPTY) ∨
      (beside = .BUDDY_FULL ∧ parent = .PARTIALLY_FULL) := by
  cases parent <;> cases beside <;> simp [freed] at opened ⊢

/-- An array is its marks and what `createHeap` set for good. -/
theorem BuddyArray.eq_of_marks {one other : BuddyArray} (base : one.base = other.base)
    (heapLevel : one.heapLevel = other.heapLevel)
    (marks : ∀ u, 0 < u → one.mark u = other.mark u) : one = other := by
  cases one with
  | mk occupied oneBase oneLevel =>
      cases other with
      | mk otherOccupied otherBase otherLevel =>
          obtain rfl : oneBase = otherBase := base
          obtain rfl : oneLevel = otherLevel := heapLevel
          congr 1
          funext i
          exact marks (i + 1) (Nat.succ_pos i)

namespace Block.Placed

variable {block : Block}

/-- The path of the first page, counted from the node of the block. -/
theorem div_leaf (_placed : block.Placed) (k : Nat) :
    block.leaf / 2 ^ (block.height + k) = block.node / 2 ^ k := by
  rw [Block.node, Nat.div_div_eq_div_mul, ← Nat.pow_add]

/-- The path up from the block's first page ends at the root. -/
theorem leaf_root (placed : block.Placed) : block.leaf / 2 ^ 10 = 1 := by
  obtain ⟨lower, upper⟩ := placed.leaf_bounds
  omega

/-- The path up from the block's node ends at the root. -/
theorem node_root (placed : block.Placed) : block.node / 2 ^ (10 - block.height) = 1 := by
  rw [← placed.div_leaf, show block.height + (10 - block.height) = 10 by
    have := placed.height_le; omega, placed.leaf_root]

end Block.Placed

/-- A block taken and given back, with the two trees in between. -/
structure TakenAndFreed (before after back : BuddyArray) (block : Block) : Prop where
  placed : block.Placed
  taken : Taken before after (10 - block.height) block.node
  freed : Freed after back block.leaf

namespace TakenAndFreed

variable {before after back : BuddyArray} {block : Block}

/-- Neither call changes the nodes beside the path. -/
theorem beside (both : TakenAndFreed before after back block) {j : Nat} (below : j < 10) :
    after.mark (sibling (block.leaf / 2 ^ j)) = before.mark (sibling (block.leaf / 2 ^ j)) := by
  have inside := path_inside both.placed.leaf_root below
  refine both.taken.frame _ (sibling_positive inside) fun k _ same => ?_
  rw [← both.placed.div_leaf] at same
  refine not_covers_sibling inside (Covers.ancestor (by omega)) ?_
  rw [same]
  exact Covers.ancestor (same ▸ sibling_positive inside)

/-- Inside the block the request changes nothing. -/
theorem inner (both : TakenAndFreed before after back block) {j : Nat}
    (below : j < block.height) :
    after.mark (block.leaf / 2 ^ j) = before.mark (block.leaf / 2 ^ j) := by
  have height := both.placed.height_le
  have inside := path_inside both.placed.leaf_root (by omega : j < 10)
  refine both.taken.frame _ (by omega) fun k within same => ?_
  rw [← both.placed.div_leaf] at same
  have levels := same_level both.placed.leaf_root both.placed.leaf_root (by omega) (by omega) same
  omega

/-- What is left above the first page. -/
theorem path (both : TakenAndFreed before after back block) {j : Nat} (below : j < 10) :
    back.mark (block.leaf / 2 ^ (j + 1)) = Kernel.freed (after.mark (block.leaf / 2 ^ (j + 1)))
      (before.mark (sibling (block.leaf / 2 ^ j))) := by
  have inside := path_inside both.placed.leaf_root below
  rw [both.freed.path j (by rw [← div_two_pow_succ]; omega), both.beside below]

/-- Off the path both calls leave the marks alone. -/
theorem frame (both : TakenAndFreed before after back block) {u : Nat} (positive : 0 < u)
    (offPath : ¬ Covers u block.leaf) : back.mark u = before.mark u := by
  rw [both.freed.frame u positive offPath]
  refine both.taken.frame u positive fun k _ same => offPath ⟨positive, block.height + k, ?_⟩
  rw [both.placed.div_leaf, same]

/-- The first page ends unmarked. -/
theorem page_iff (both : TakenAndFreed before after back block) :
    back.mark block.leaf = before.mark block.leaf ↔
      (0 < block.height → before.mark block.leaf = .EMPTY) := by
  rw [both.freed.cleared]
  rcases Nat.eq_zero_or_pos block.height with single | several
  · have node : block.node = block.leaf := by rw [Block.node, single, Nat.pow_zero, Nat.div_one]
    have empty := node ▸ both.taken.empty
    simp [empty]
  · simp only [several, true_implies]
    exact eq_comm

/-- When a node between the page and the children of the block gets its mark back. -/
theorem inner_iff (both : TakenAndFreed before after back block) {j : Nat}
    (below : j + 1 < block.height) :
    back.mark (block.leaf / 2 ^ (j + 1)) = before.mark (block.leaf / 2 ^ (j + 1)) ↔
      (before.mark (sibling (block.leaf / 2 ^ j)) = .EMPTY →
        before.mark (block.leaf / 2 ^ (j + 1)) = .EMPTY) ∧
      (before.mark (sibling (block.leaf / 2 ^ j)) = .BUDDY_FULL →
        before.mark (block.leaf / 2 ^ (j + 1)) ≠ .BUDDY_FULL) := by
  have height := both.placed.height_le
  rw [both.path (by omega), both.inner below, freed_eq_self_iff]

/-- When the block's own node gets its mark back. -/
theorem half_iff (both : TakenAndFreed before after back block) {j : Nat}
    (top : j + 1 = block.height) :
    back.mark (block.leaf / 2 ^ (j + 1)) = before.mark (block.leaf / 2 ^ (j + 1)) ↔
      before.mark (sibling (block.leaf / 2 ^ j)) = .EMPTY := by
  have height := both.placed.height_le
  have node : block.leaf / 2 ^ (j + 1) = block.node := by rw [top, Block.node]
  rw [both.path (by omega), node, both.taken.full, both.taken.empty, freed_full_eq_empty_iff]

/-- What is left above the block. -/
theorem above (both : TakenAndFreed before after back block) {k : Nat}
    (below : k < 10 - block.height) :
    back.mark (block.node / 2 ^ (k + 1)) = Kernel.freed (after.mark (block.node / 2 ^ (k + 1)))
      (before.mark (sibling (block.node / 2 ^ k))) := by
  have path := both.path (by omega : block.height + k < 10)
  rwa [Nat.add_assoc, both.placed.div_leaf, both.placed.div_leaf] at path

/-- When a node above the block that the path reaches from the left gets its mark back. -/
theorem left_iff (both : TakenAndFreed before after back block) {k : Nat}
    (below : k < 10 - block.height) (even : block.node / 2 ^ k % 2 = 0) :
    back.mark (block.node / 2 ^ (k + 1)) = before.mark (block.node / 2 ^ (k + 1)) ↔
      (before.mark (sibling (block.node / 2 ^ k)) = .EMPTY ↔
        before.mark (block.node / 2 ^ (k + 1)) = .EMPTY) := by
  rw [both.above below, both.taken.above k below, if_pos even,
    freed_partly_eq_iff (both.taken.openPath (k + 1) below)]

/-- When a node that the path reaches from the right, all the way up, gets its mark back. -/
theorem rightmost_iff (both : TakenAndFreed before after back block) {k : Nat}
    (below : k < 10 - block.height) (odds : ∀ i, i ≤ k → block.node / 2 ^ i % 2 = 1) :
    back.mark (block.node / 2 ^ (k + 1)) = before.mark (block.node / 2 ^ (k + 1)) ↔
      (before.mark (sibling (block.node / 2 ^ k)) = .EMPTY ∧
          before.mark (block.node / 2 ^ (k + 1)) = .EMPTY) ∨
        (before.mark (sibling (block.node / 2 ^ k)) = .BUDDY_FULL ∧
          before.mark (block.node / 2 ^ (k + 1)) = .PARTIALLY_FULL) := by
  have full := (both.taken.full_on_path_iff (Nat.succ_le_of_lt below)).mpr
    fun i within => odds i (by omega)
  rw [both.above below, full, freed_full_eq_iff (both.taken.openPath (k + 1) below)]

/-- When a node that the path reaches from the right, after a left turn, gets its mark back. -/
theorem right_iff (both : TakenAndFreed before after back block) {k : Nat}
    (below : k < 10 - block.height) (odd : block.node / 2 ^ k % 2 = 1)
    (turn : ∃ i, i < k ∧ block.node / 2 ^ i % 2 = 0) :
    back.mark (block.node / 2 ^ (k + 1)) = before.mark (block.node / 2 ^ (k + 1)) ↔
      (before.mark (sibling (block.node / 2 ^ k)) = .EMPTY →
        before.mark (block.node / 2 ^ (k + 1)) = .EMPTY) := by
  have opened := both.taken.openPath (k + 1) below
  have childNotFull : after.mark (block.node / 2 ^ k) ≠ .BUDDY_FULL := by
    rw [Ne, both.taken.full_on_path_iff (Nat.le_of_lt below)]
    obtain ⟨i, within, even⟩ := turn
    intro odds
    have := odds i within
    omega
  rw [both.above below, both.taken.above k below, if_neg (by omega), if_neg childNotFull,
    freed_eq_self_iff]
  simp [opened]

end TakenAndFreed

/-- Taking a block and giving it back restores every mark exactly when `Undone`
holds. -/
theorem restored_iff {before after back : BuddyArray} {block : Block}
    (both : TakenAndFreed before after back block) :
    (∀ u, 0 < u → back.mark u = before.mark u) ↔ Undone before block := by
  have height := both.placed.height_le
  have pathPositive : ∀ j, j ≤ 10 → 0 < block.leaf / 2 ^ j := fun j within =>
    (covers_root_path both.placed.leaf_bounds.1 both.placed.leaf_bounds.2).mpr within
  have nodePositive : ∀ k, k ≤ 10 - block.height → 0 < block.node / 2 ^ k := by
    intro k within
    rw [← both.placed.div_leaf]
    exact pathPositive _ (by omega)
  constructor
  · intro restored
    refine ⟨?_, ?_, ?_, ?_, ?_, ?_⟩
    · exact both.page_iff.mp (restored _ (by simpa using pathPositive 0 (by omega)))
    · exact fun j below => (both.inner_iff below).mp (restored _ (pathPositive _ (by omega)))
    · exact fun j top => (both.half_iff top).mp (restored _ (pathPositive _ (by omega)))
    · exact fun k below even =>
        (both.left_iff below even).mp (restored _ (nodePositive _ (by omega)))
    · exact fun k below odds =>
        (both.rightmost_iff below odds).mp (restored _ (nodePositive _ (by omega)))
    · exact fun k below odd turn =>
        (both.right_iff below odd turn).mp (restored _ (nodePositive _ (by omega)))
  · intro undone u positive
    by_cases onPath : Covers u block.leaf
    · obtain ⟨j, within, rfl⟩ := onPath.below_root both.placed.leaf_root
      cases j with
      | zero =>
          rw [Nat.pow_zero, Nat.div_one]
          exact both.page_iff.mpr undone.page
      | succ j =>
          rcases Nat.lt_trichotomy (j + 1) block.height with inside | top | outside
          · exact (both.inner_iff inside).mpr (undone.inner j inside)
          · exact (both.half_iff top).mpr (undone.half j top)
          · obtain ⟨k, rfl⟩ := Nat.exists_eq_add_of_le (Nat.le_of_lt_succ outside)
            have below : k < 10 - block.height := by omega
            rw [Nat.add_assoc, both.placed.div_leaf]
            rcases Nat.mod_two_eq_zero_or_one (block.node / 2 ^ k) with even | odd
            · exact (both.left_iff below even).mpr (undone.left k below even)
            · by_cases turn : ∃ i, i < k ∧ block.node / 2 ^ i % 2 = 0
              · exact (both.right_iff below odd turn).mpr (undone.right k below odd turn)
              · have odds : ∀ i, i ≤ k → block.node / 2 ^ i % 2 = 1 := by
                  intro i upTo
                  rcases Nat.lt_or_eq_of_le upTo with strict | rfl
                  · by_contra notOdd
                    exact turn ⟨i, strict, by omega⟩
                  · exact odd
                exact (both.rightmost_iff below odds).mpr (undone.rightmost k below odds)
    · exact both.frame positive onPath

/-! ## Every difference can be observed -/

/-- The request found the path to the block open, so an indistinguishable tree
has the same marks on it. -/
theorem path_observed {one other : BuddyArray} {levels w : Nat} (within : levels ≤ 10)
    (root : w / 2 ^ levels = 1) (oneShaped : one.Shaped) (otherShaped : other.Shaped)
    (same : Indistinguishable BuddyArray.serve one other) (free : ¬ Blocked one levels w)
    {k : Nat} (below : k ≤ levels) : one.mark (w / 2 ^ k) = other.mark (w / 2 ^ k) := by
  have openPath : ∀ {heap : BuddyArray}, ¬ Blocked heap levels w → ∀ i, i ≤ levels →
      heap.mark (w / 2 ^ i) ≠ .BUDDY_FULL :=
    fun unblocked i upTo full => unblocked (.inr ⟨i, upTo, full⟩)
  have otherFree : ¬ Blocked other levels w :=
    fun blocked => free ((blocked_iff within root oneShaped otherShaped same).mpr blocked)
  have up : w / 2 ^ k / 2 ^ (levels - k) = 1 := by
    rw [Nat.div_div_eq_div_mul, ← Nat.pow_add, show k + (levels - k) = levels by omega, root]
  -- On an open path a node is blocked by its own mark only.
  have byMark : ∀ {heap : BuddyArray}, ¬ Blocked heap levels w →
      (Blocked heap (levels - k) (w / 2 ^ k) ↔ heap.mark (w / 2 ^ k) ≠ .EMPTY) := by
    intro heap unblocked
    refine ⟨?_, .inl⟩
    rintro (occupied | ⟨i, upTo, full⟩)
    · exact occupied
    · rw [Nat.div_div_eq_div_mul, ← Nat.pow_add] at full
      exact absurd full (openPath unblocked (k + i) (by omega))
  have marked := blocked_iff (by omega) up oneShaped otherShaped same
  rw [byMark free, byMark otherFree] at marked
  have oneOpen := openPath free k below
  have otherOpen := openPath otherFree k below
  revert marked oneOpen otherOpen
  cases one.mark (w / 2 ^ k) <;> cases other.mark (w / 2 ^ k) <;> simp

/-- Trees that a client cannot tell apart have the same marks. -/
theorem restored_of_indistinguishable {before after back : BuddyArray} {block : Block}
    (shaped : before.Shaped) (both : TakenAndFreed before after back block)
    (same : Indistinguishable BuddyArray.serve before back) (u : Nat) (positive : 0 < u) :
    back.mark u = before.mark u := by
  have height := both.placed.height_le
  have backShaped := both.freed.shaped (both.taken.shaped shaped)
  by_cases onPath : Covers u block.leaf
  · obtain ⟨j, within, rfl⟩ := onPath.below_root both.placed.leaf_root
    rcases Nat.lt_or_ge j block.height with inside | outside
    · have up : block.leaf / 2 ^ j / 2 ^ (10 - j) = 1 := by
        rw [Nat.div_div_eq_div_mul, ← Nat.pow_add, show j + (10 - j) = 10 by omega,
          both.placed.leaf_root]
      have even : block.leaf / 2 ^ j % 2 = 0 := by
        rw [both.placed.aligned, show block.height = block.height - j - 1 + 1 + j by omega,
          Nat.pow_add, ← Nat.mul_assoc, Nat.mul_div_cancel _ (Nat.two_pow_pos j), Nat.pow_succ,
          ← Nat.mul_assoc]
        exact Nat.mul_mod_left _ _
      exact (left_child_observed (by omega) up (path_inside both.placed.leaf_root (by omega)) even
        shaped backShaped same).symm
    · obtain ⟨k, rfl⟩ := Nat.exists_eq_add_of_le outside
      rw [both.placed.div_leaf]
      exact (path_observed (by omega) both.placed.node_root shaped backShaped same
        both.taken.takeable (by omega)).symm
  · exact both.frame positive onPath

/-- In every reachable state, giving back at once the block just obtained leaves
a state that a client cannot tell from the one before exactly when `Undone`
holds. -/
theorem given_back_at_once (actions : List HeapAction) (state : HeapRun)
    (ran : run HeapRun.step HeapRun.boot actions = some state) {pages page : Nat}
    {after : BuddyArray} (allocated : allocPage state.heap pages = (after, some page)) :
    ∃ back, deallocPage after page = some (back, 0) ∧
      (Indistinguishable BuddyArray.serve state.heap back ↔ Undone state.heap ⟨page, pages⟩) := by
  have grounded : Grounded state := run_invariant grounded_step grounded_boot ran
  obtain ⟨_, _, w, _, taken, placed, node⟩ :=
    allocPage_taken grounded.base grounded.heapLevel allocated
  obtain ⟨lower, upper⟩ := placed.leaf_bounds
  obtain ⟨back, dealloc, freed⟩ := @deallocPage_leaf after _ lower upper
  rw [← placed.address] at dealloc
  have both : TakenAndFreed state.heap after back ⟨page, pages⟩ := ⟨placed, node ▸ taken, freed⟩
  refine ⟨back, dealloc, ?_⟩
  rw [← restored_iff both]
  constructor
  · exact restored_of_indistinguishable ⟨grounded.base, grounded.heapLevel⟩ both
  · intro restored
    rw [BuddyArray.eq_of_marks (freed.base.trans taken.base)
      (freed.heapLevel.trans taken.heapLevel) restored]
    exact .refl state.heap

/-- The first of three pages was given back and is taken again: it can be given back unnoticed
while the other two are in use. -/
theorem given_back_at_once_beside : ∃ state after back,
    run HeapRun.step HeapRun.boot
        [.allocPage 1, .allocPage 1, .allocPage 1, .deallocPage 0x1000000] = some state ∧
      state.live.map Block.page = [0x1002000, 0x1001000] ∧
      allocPage state.heap 1 = (after, some 0x1000000) ∧
      deallocPage after (0x1000000 : Nat) = some (back, 0) ∧
      Indistinguishable BuddyArray.serve state.heap back := by
  have result : (run HeapRun.step HeapRun.boot
      [.allocPage 1, .allocPage 1, .allocPage 1, .deallocPage 0x1000000]).map (fun state =>
        (state.live.map Block.page, (allocPage state.heap 1).2,
          decide (∀ k < 10, state.heap.mark (sibling (1024 / 2 ^ k)) = .EMPTY ↔
            state.heap.mark (1024 / 2 ^ (k + 1)) = .EMPTY))) =
      some ([0x1002000, 0x1001000], some 0x1000000, true) := by
    rw [HeapRun.boot_eq]
    decide +kernel
  obtain ⟨state, ran, answers⟩ := Option.map_eq_some_iff.mp result
  simp only [Prod.mk.injEq, decide_eq_true_eq] at answers
  obtain ⟨used, page, marked⟩ := answers
  have height : (Block.mk 0x1000000 1).height = 0 := by decide
  have node : (Block.mk 0x1000000 1).node = 1024 := by decide
  -- The page is the first of all, so the path above it goes through left children only.
  have leftmost : ∀ k < 10, 1024 / 2 ^ k % 2 = 0 := by decide
  have undone : Undone state.heap ⟨0x1000000, 1⟩ := by
    constructor
    all_goals rw [height]
    all_goals try rw [node]
    · exact fun inside => absurd inside (Nat.lt_irrefl 0)
    · exact fun j inside => absurd inside (Nat.not_lt_zero _)
    · exact fun j top => absurd top (Nat.succ_ne_zero j)
    · exact fun k below _ => marked k below
    · exact fun k below ones => absurd (ones 0 (Nat.zero_le k)) (by decide)
    · exact fun k below one => absurd ((leftmost k below).symm.trans one) (by decide)
  obtain ⟨back, dealloc, iff⟩ := given_back_at_once _ state ran (Prod.ext rfl page)
  exact ⟨state, _, back, ran, used, Prod.ext rfl page, dealloc, iff.mpr undone⟩

/-- The second of two neighbouring pages: giving it back clears the node above
both although the first is still in use, and the next request for four pages
gets the address of the first. -/
theorem given_back_clears_above_first : ∃ state after back,
    run HeapRun.step HeapRun.boot [.allocPage 1] = some state ∧
      allocPage state.heap 1 = (after, some 0x1001000) ∧
      deallocPage after (0x1001000 : Nat) = some (back, 0) ∧
      (allocPage state.heap 4).2 = some 0x1004000 ∧ (allocPage back 4).2 = some 0x1000000 ∧
      ¬ Indistinguishable BuddyArray.serve state.heap back := by
  have result : (run HeapRun.step HeapRun.boot [.allocPage 1]).map (fun state =>
      ((allocPage state.heap 1).2, (allocPage state.heap 4).2,
        (deallocPage (allocPage state.heap 1).1 (0x1001000 : Nat)).map fun back =>
          (back.2, (allocPage back.1 4).2))) =
        some (some 0x1001000, some 0x1004000, some (0, some 0x1000000)) := by
    rw [HeapRun.boot_eq]
    decide +kernel
  obtain ⟨state, ran, answers⟩ := Option.map_eq_some_iff.mp result
  obtain ⟨second, answers⟩ := Prod.mk.inj answers
  obtain ⟨here, givenBack⟩ := Prod.mk.inj answers
  obtain ⟨⟨back, code⟩, dealloc, answers⟩ := Option.map_eq_some_iff.mp givenBack
  obtain ⟨rfl, there⟩ := Prod.mk.inj answers
  refine ⟨state, _, back, ran, Prod.ext rfl second, dealloc, here, there, ?_⟩
  intro same
  have search : allocPage state.heap 4 = ((allocPage state.heap 4).1, some 0x1004000) :=
    Prod.ext rfl here
  have answered := BuddyArray.serve_allocPage state.heap 4
  rw [search] at answered
  obtain ⟨next, served, -⟩ := same.served answered
  rw [BuddyArray.serve_allocPage] at served
  have equal : (allocPage back 4).2 = some 0x1004000 := congrArg Prod.snd (Option.some.inj served)
  rw [there] at equal
  simp at equal

end SistemasOperativos.Kernel
