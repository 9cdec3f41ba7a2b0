import SistemasOperativos.Kernel.BuddySafety

/-!
# When the page allocator refuses a request

`allocPage` returns `NULL` when every node of the request's size is marked or
lies below a full node. That is right as long as `Complete` holds: besides being
consistent, a node marked `BUDDY_FULL` has no free page below it. Two branches
break it. `getNextPageRecursive` marks a parent full as soon as its right child
is full, whatever the left one has left; `freeUpRecursive` leaves a full parent
full when the other child is partially full. `KeepsPagesReachable` excludes
exactly these two and the clearing treated in `Kernel.BuddySafety`
(`allocPage_complete_iff`, `deallocPage_complete_iff`).
-/

namespace SistemasOperativos.Kernel

open SistemasOperativos.Foundation SistemasOperativos.Semantics

/-- Every page below node `v` is part of a live block. -/
def Filled (live : List Block) (v : Nat) : Prop :=
  ∀ leaf, 1024 ≤ leaf → leaf < 2048 → Covers v leaf → ∃ block ∈ live, Covers block.node leaf

/-- A node marked full has no free page below it. -/
structure Complete (state : HeapRun) : Prop where
  consistent : Consistent state
  filled : ∀ v, 0 < v → state.heap.mark v = .BUDDY_FULL → Filled state.live v

/-- The leftmost node of its level that a search from the root can take. -/
def FirstFit (heap : BuddyArray) (levels w : Nat) : Prop :=
  w / 2 ^ levels = 1 ∧ ¬ Blocked heap levels w ∧
    ∀ other, other / 2 ^ levels = 1 → other < w → Blocked heap levels other

/-- Going up from the node that a request takes through right children only,
every left sibling passed has no free page. -/
def FillsParents (state : HeapRun) (levels : Nat) : Prop :=
  ∀ w, FirstFit state.heap levels w → ∀ k, k < levels →
    (∀ i, i ≤ k → w / 2 ^ i % 2 = 1) → Filled state.live (sibling (w / 2 ^ k))

/-- No full node on the way up from the leaf of `page` has a partially full
child on the other side. -/
def ReopensParents (heap : BuddyArray) (page : Nat) : Prop :=
  ∀ k, k < 10 → heap.mark ((Block.mk page 1).leaf / 2 ^ (k + 1)) = .BUDDY_FULL →
    heap.mark (sibling ((Block.mk page 1).leaf / 2 ^ k)) ≠ .PARTIALLY_FULL

/-- The condition on the calls of a run under which no free page gets lost. -/
def HeapRun.KeepsPagesReachable (state : HeapRun) : HeapAction → Prop
  | .allocPage pages =>
      0 < pages → pages ≤ 1024 → FillsParents state (10 - Nat.clog 2 pages)
  | .deallocPage page =>
      Kernel.ClearsOnlyEmpty state.heap page ∧ ReopensParents state.heap page

/-- A node that blocks fill is filled by more of them. -/
theorem Filled.mono {live more : List Block} {v : Nat} (filled : Filled live v)
    (subset : live ⊆ more) : Filled more v := by
  intro leaf lower upper covers
  obtain ⟨block, member, below⟩ := filled leaf lower upper covers
  exact ⟨block, subset member, below⟩

/-- Blocks that share a page overlap. -/
theorem Block.not_disjoint_of_shared_leaf {a b : Block} (placedA : a.Placed) (placedB : b.Placed)
    {leaf : Nat} (lower : 1024 ≤ leaf) (upper : leaf < 2048) (coversA : Covers a.node leaf)
    (coversB : Covers b.node leaf) : ¬ a.Disjoint b := by
  have interval : ∀ block : Block, block.Placed → Covers block.node leaf →
      block.leaf ≤ leaf ∧ leaf < block.leaf + 2 ^ block.height := by
    intro block placed covers
    have height := placed.height_le
    have levels := placed.upper
    rw [show 11 - block.height = 10 - block.height + 1 by omega] at levels
    have up := (covers_leaf_iff (Nat.sub_le 10 block.height) placed.lower levels
      (by omega) (by omega)).mp covers
    rw [Nat.sub_sub_self height] at up
    rw [placed.aligned]
    exact div_pow_eq_iff_mem_leaves.mp up
  have intervalA := interval a placedA coversA
  have intervalB := interval b placedB coversB
  have addressA := placedA.address
  have addressB := placedB.address
  have lowerA := placedA.leaf_bounds.1
  have lowerB := placedB.leaf_bounds.1
  simp only [Disjoint, size, show PAGE_SIZE = 4096 by rfl] at *
  omega

namespace Complete

variable {state : HeapRun}

/-- The invariant holds at boot. -/
theorem boot : Complete HeapRun.boot :=
  ⟨consistent_boot, by simp [HeapRun.boot, createHeap_eq, BuddyArray.mark]⟩

/-! ### Allocation -/

/-- After a successful request the state is complete exactly when no parent was
marked full over a free page. -/
theorem allocPage_complete_iff (complete : Complete state) {pages page : Nat}
    {after : BuddyArray} (search : Kernel.allocPage state.heap pages = (after, some page)) :
    Complete ⟨after, ⟨page, pages⟩ :: state.live⟩ ↔
      FillsParents state (10 - Nat.clog 2 pages) := by
  have consistent := complete.consistent
  obtain ⟨_, _, w, root, taken, placed, node⟩ :=
    allocPage_taken consistent.base consistent.heapLevel search
  have empty : ¬ Blocked state.heap (10 - Nat.clog 2 pages) w := by
    rintro (occupied | ⟨k, within, full⟩)
    · exact occupied taken.empty
    · exact taken.openPath k within full
  have firstFit : FirstFit state.heap (10 - Nat.clog 2 pages) w :=
    ⟨root, empty, fun other same smaller => taken.first other (same.trans root.symm) smaller⟩
  have onlyFit : ∀ v, FirstFit state.heap (10 - Nat.clog 2 pages) v → v = w := by
    rintro v ⟨vRoot, vEmpty, vFirst⟩
    rcases Nat.lt_trichotomy v w with less | same | greater
    · exact absurd (firstFit.2.2 v vRoot less) vEmpty
    · exact same
    · exact absurd (vFirst w root greater) empty
  obtain ⟨lower, upper⟩ := div_pow_eq_iff_mem_leaves.mp root
  rw [Nat.one_mul] at lower upper
  have inside : ∀ k, 0 < w / 2 ^ k ↔ k ≤ 10 - Nat.clog 2 pages := fun k =>
    covers_root_path lower (by rw [Nat.pow_succ]; omega)
  have childInside : ∀ k, k < 10 - Nat.clog 2 pages → 1 < w / 2 ^ k := by
    intro k below
    have := (inside (k + 1)).mpr below
    rw [← div_two_pow_succ] at this
    omega
  constructor
  · intro next v vFit k below odds
    obtain rfl := onlyFit v vFit
    have parentFull := (taken.full_on_path_iff (Nat.succ_le_of_lt below)).mpr
      fun i within => odds i (by omega)
    intro leaf leafLower leafUpper covers
    have parentCovers : Covers (v / 2 ^ (k + 1)) leaf := by
      refine Covers.trans ⟨(inside _).mpr below, 1, ?_⟩ covers
      rw [Nat.pow_one, sibling_div_two, div_two_pow_succ]
    obtain ⟨block, member, holds⟩ :=
      next.filled _ ((inside _).mpr below) parentFull leaf leafLower leafUpper parentCovers
    rcases List.mem_cons.mp member with rfl | old
    · rw [node] at holds
      exact absurd covers (not_covers_sibling (childInside k below)
        ((Covers.ancestor (by have := childInside k below; omega)).trans holds))
    · exact ⟨block, old, holds⟩
  · intro fills
    refine ⟨consistent.allocPage search, fun v positive full => ?_⟩
    by_cases onPath : ∃ k, k ≤ 10 - Nat.clog 2 pages ∧ v = w / 2 ^ k
    · obtain ⟨k, within, rfl⟩ := onPath
      have odds := (taken.full_on_path_iff within).mp full
      clear full positive
      induction k with
      | zero =>
          intro leaf _ _ covers
          refine ⟨_, List.mem_cons_self, ?_⟩
          simpa [node] using covers
      | succ k ih =>
          have left : Filled state.live (sibling (w / 2 ^ k)) :=
            fills w firstFit k within fun i below => odds i (by omega)
          have right := ih (by omega) fun i below => odds i (by omega)
          intro leaf leafLower leafUpper covers
          have split := covers.cases_child
          have parent := div_two_pow_succ w k
          rcases split with same | below | below
          · -- The parent of a node is not a leaf.
            exfalso
            have := (div_pow_eq_iff_mem_leaves.mp root).2
            have wide : 2 ^ (10 - Nat.clog 2 pages) ≤ 2 ^ 10 :=
              Nat.pow_le_pow_right (by omega) (by omega)
            have := Nat.div_le_self w (2 ^ k)
            omega
          all_goals
            rw [← parent] at below
            rcases children_eq (w / 2 ^ k) with ⟨l, r⟩ | ⟨r, l⟩
          · exact right leaf leafLower leafUpper (l ▸ below)
          · exact left.mono (List.subset_cons_self _ _) leaf leafLower leafUpper (l ▸ below)
          · exact left.mono (List.subset_cons_self _ _) leaf leafLower leafUpper (r ▸ below)
          · exact right leaf leafLower leafUpper (r ▸ below)
    · rw [taken.frame v positive fun k within same => onPath ⟨k, within, same⟩] at full
      exact (complete.filled v positive full).mono (List.subset_cons_self _ _)

/-! ### Deallocation -/

/-- After freeing a live block the state is complete exactly when nothing was
cleared above a live block and no parent stayed full above the freed one. -/
theorem deallocPage_complete_iff (complete : Complete state) {block : Block}
    (member : block ∈ state.live) {after : BuddyArray}
    (freed : Freed state.heap after block.leaf) :
    Complete ⟨after, state.live.erase block⟩ ↔
      ClearsOnlyEmpty state.heap block.page ∧ ReopensParents state.heap block.page := by
  have consistent := complete.consistent
  have placed := consistent.placed block member
  obtain ⟨leafLower, leafUpper⟩ := placed.leaf_bounds
  have inside : ∀ k, 0 < block.leaf / 2 ^ k ↔ k ≤ 10 := fun k =>
    covers_root_path leafLower leafUpper
  have notFreed : ∀ other ∈ state.live.erase block, ¬ Covers other.node block.leaf := by
    intro other erased covers
    obtain ⟨different, otherMember⟩ := consistent.nodup.mem_erase_iff.mp erased
    exact different (consistent.eq_of_comparable otherMember member
      (covers.comparable placed.node_covers_leaf))
  constructor
  · intro next
    refine ⟨(consistent.deallocPage_consistent_iff member freed).mp next.consistent, ?_⟩
    intro k below parentFull siblingPartly
    have parentInside := (inside (k + 1)).mpr below
    have stillFull : after.mark (block.leaf / 2 ^ (k + 1)) = .BUDDY_FULL := by
      rw [freed.path k parentInside]
      have siblingMark : state.heap.mark (sibling (block.leaf / 2 ^ k)) = .PARTIALLY_FULL :=
        siblingPartly
      have parentMark : state.heap.mark (block.leaf / 2 ^ (k + 1)) = .BUDDY_FULL := parentFull
      rw [parentMark, siblingMark]
      rfl
    obtain ⟨other, erased, covers⟩ := next.filled _ parentInside stillFull block.leaf leafLower
      leafUpper (Covers.ancestor parentInside)
    exact notFreed other erased covers
  · rintro ⟨clears, reopens⟩
    refine ⟨(consistent.deallocPage_consistent_iff member freed).mpr clears, ?_⟩
    intro v positive full
    by_cases onPath : Covers v block.leaf
    · -- No node of the path is left full.
      exfalso
      obtain ⟨_, k, rfl⟩ := onPath
      cases k with
      | zero =>
          rw [Nat.pow_zero, Nat.div_one, freed.cleared] at full
          cases full
      | succ k =>
          rw [freed.path k positive] at full
          have noPartly := reopens k ((inside (k + 1)).mp positive)
          simp only [Block.leaf] at full noPartly
          revert full noPartly
          cases state.heap.mark (_ / 2 ^ (k + 1)) <;>
            cases state.heap.mark (sibling (_ / 2 ^ k)) <;> simp [Kernel.freed]
    · rw [freed.frame v positive onPath] at full
      intro leaf lower upper covers
      obtain ⟨other, otherMember, holds⟩ := complete.filled v positive full leaf lower upper covers
      refine ⟨other, consistent.nodup.mem_erase_iff.mpr ⟨?_, otherMember⟩, holds⟩
      rintro rfl
      rcases covers.comparable holds with above | below
      · exact onPath (above.trans placed.node_covers_leaf)
      · have different : v ≠ other.node := by
          rintro rfl
          exact onPath placed.node_covers_leaf
        rw [consistent.empty_below member below different] at full
        cases full

/-- Every call of a run that meets the condition keeps the state complete. -/
theorem step (state : HeapRun) (action : HeapAction) (next : HeapRun)
    (complete : Complete state) (keeps : state.KeepsPagesReachable action)
    (stepped : state.step action = some next) : Complete next := by
  cases action with
  | allocPage pages =>
      simp only [HeapRun.step] at stepped
      split at stepped
      · rename_i heap search
        obtain rfl := Option.some.inj stepped
        rw [allocPage_null complete.consistent.heapLevel search]
        exact complete
      · rename_i heap page search
        obtain rfl := Option.some.inj stepped
        obtain ⟨positive, bounded, -⟩ :=
          allocPage_taken complete.consistent.base complete.consistent.heapLevel search
        exact (complete.allocPage_complete_iff search).mpr (keeps positive bounded)
  | deallocPage page =>
      obtain ⟨block, member, pageEq, after, freed, rfl⟩ :=
        complete.consistent.deallocPage_stepped stepped
      refine (complete.deallocPage_complete_iff member freed).mpr ?_
      rw [pageEq]
      exact keeps

end Complete

/-- A node that the search cannot take overlaps a live block. -/
private theorem Complete.overlap_of_blocked {state : HeapRun} (complete : Complete state)
    {pages : Nat} (positive : 0 < pages) (bounded : pages ≤ 1024) {w : Nat}
    (root : w / 2 ^ (10 - Nat.clog 2 pages) = 1)
    (blocked : Blocked state.heap (10 - Nat.clog 2 pages) w) :
    ∃ block ∈ state.live, ¬ (Block.mk (nodeBase w) pages).Disjoint block := by
  have consistent := complete.consistent
  obtain ⟨placed, node⟩ := Block.placed_of_node positive bounded root
  obtain ⟨lower, upper⟩ := placed.leaf_bounds
  have wPositive : 0 < w := node ▸ placed.node_positive
  rcases blocked with occupied | ⟨k, within, full⟩
  · obtain ⟨block, member, covers⟩ := (consistent.marked w wPositive).mp occupied
    have blockPlaced := consistent.placed block member
    obtain ⟨blockLower, blockUpper⟩ := blockPlaced.leaf_bounds
    refine ⟨block, member, Block.not_disjoint_of_shared_leaf placed blockPlaced blockLower
      blockUpper ?_ blockPlaced.node_covers_leaf⟩
    rw [node]
    exact covers.trans blockPlaced.node_covers_leaf
  · have inside : 0 < w / 2 ^ k := by
      have := Nat.div_le_div_left (Nat.pow_le_pow_right (by omega : 0 < 2) within)
        (Nat.two_pow_pos k) (a := w)
      omega
    have target := placed.node_covers_leaf
    rw [node] at target
    have above := (Covers.ancestor inside).trans target
    obtain ⟨block, member, covers⟩ := complete.filled _ inside full _ lower upper above
    exact ⟨block, member, Block.not_disjoint_of_shared_leaf placed (consistent.placed block member)
      lower upper placed.node_covers_leaf covers⟩

/-- Address of the `i`-th aligned block of a request's size, as the address of a node. -/
private theorem aligned_block {pages i : Nat} (bounded : pages ≤ 1024)
    (inside : (i + 1) * 2 ^ Nat.clog 2 pages ≤ 1024) :
    (2 ^ (10 - Nat.clog 2 pages) + i) / 2 ^ (10 - Nat.clog 2 pages) = 1 ∧
      nodeBase (2 ^ (10 - Nat.clog 2 pages) + i) =
        baseMemory + PAGE_SIZE * 2 ^ Nat.clog 2 pages * i := by
  have height := clog_le_ten bounded
  have split : 2 ^ (10 - Nat.clog 2 pages) * 2 ^ Nat.clog 2 pages = 1024 := by
    rw [← Nat.pow_add, show 10 - Nat.clog 2 pages + Nat.clog 2 pages = 10 by omega]
  have small : i < 2 ^ (10 - Nat.clog 2 pages) := by
    rw [← split] at inside
    exact Nat.le_of_mul_le_mul_right inside (Nat.two_pow_pos _)
  have double : 2 ^ (11 - Nat.clog 2 pages) = 2 * 2 ^ (10 - Nat.clog 2 pages) := by
    rw [← Nat.pow_succ']
    congr 1
    omega
  constructor
  · rw [div_pow_eq_iff_mem_leaves]
    omega
  · rw [nodeBase_eq height (by omega) (by omega), Nat.add_mul, split, Nat.add_sub_cancel_left,
      Nat.mul_comm i, Nat.mul_assoc PAGE_SIZE]

/-- In a run that marks no parent full over a free page, leaves none full above
a freed one and clears none above a live one, `allocPage` refuses a request only
when every aligned block of its size overlaps a live block, and the search for
one page can take every free page. -/
theorem null_only_if_no_room (actions : List HeapAction) (final : HeapRun)
    (keeps : Along HeapRun.step HeapRun.KeepsPagesReachable HeapRun.boot actions)
    (ran : run HeapRun.step HeapRun.boot actions = some final) :
    (∀ pages, 1 ≤ pages → pages ≤ 1024 → (allocPage final.heap pages).2 = none →
      ∀ i, (i + 1) * 2 ^ Nat.clog 2 pages ≤ NUMBER_OF_PAGES →
        ∃ block ∈ final.live,
          ¬ (Block.mk (baseMemory + PAGE_SIZE * 2 ^ Nat.clog 2 pages * i) pages).Disjoint block) ∧
      ∀ i, i < NUMBER_OF_PAGES →
        (∀ block ∈ final.live, (Block.mk (baseMemory + PAGE_SIZE * i) 1).Disjoint block) →
          ¬ Blocked final.heap 10 (NUMBER_OF_PAGES + i) := by
  have complete := keeps.invariant Complete.step Complete.boot ran
  have pagesEq : NUMBER_OF_PAGES = 1024 := rfl
  constructor
  · intro pages positive bounded refused i inside
    obtain ⟨root, address⟩ := aligned_block bounded (pagesEq ▸ inside)
    have search : allocPage final.heap pages = ((allocPage final.heap pages).1, none) :=
      Prod.ext rfl refused
    rw [allocPage_eq complete.consistent.heapLevel positive bounded] at search
    have blocked := (getNextPageRecursive_none search).2 _ root
    rw [← address]
    exact complete.overlap_of_blocked positive bounded root blocked
  · intro i inside free blocked
    have single : Nat.clog 2 1 = 0 := Nat.clog_one_right 2
    obtain ⟨root, address⟩ := @aligned_block 1 i (by omega) (by rw [single]; omega)
    rw [single] at root address
    obtain ⟨block, member, overlap⟩ :=
      complete.overlap_of_blocked (by omega) (by omega) (single ▸ root) (single ▸ blocked)
    rw [single, address, Nat.pow_zero, Nat.mul_one] at overlap
    exact overlap (free block member)

/-- The whole arena as one block: the request took the root, so no parent was
marked, and a further page is refused with no page left. -/
theorem null_only_if_no_room_whole_arena : ∃ final,
    run HeapRun.step HeapRun.boot [.allocPage 1024] = some final ∧
      (allocPage final.heap 1).2 = none ∧
      ∃ block ∈ final.live,
        ¬ (Block.mk (baseMemory + PAGE_SIZE * 2 ^ Nat.clog 2 1 * 5) 1).Disjoint block := by
  have result : (run HeapRun.step HeapRun.boot [.allocPage 1024]).map
      (fun final => (allocPage final.heap 1).2) = some none := by
    rw [HeapRun.boot_eq]
    decide +kernel
  have keeps : Along HeapRun.step HeapRun.KeepsPagesReachable HeapRun.boot [.allocPage 1024] := by
    refine ⟨fun _ _ w _ k below => ?_, ?_⟩
    · have levels : Nat.clog 2 1024 = 10 := Nat.clog_pow 2 10 (by omega)
      omega
    · split <;> trivial
  obtain ⟨final, ran, refused⟩ := Option.map_eq_some_iff.mp result
  have inside : (5 + 1) * 2 ^ Nat.clog 2 1 ≤ NUMBER_OF_PAGES := by
    rw [Nat.clog_one_right]
    decide
  exact ⟨final, ran, refused, (null_only_if_no_room _ final keeps ran).1 1 (by omega) (by omega)
    refused 5 inside⟩

/-- One page and then half the arena: the root is marked full because its right
child is, and the 511 free pages of the left half are refused. -/
theorem null_with_room : ∃ final,
    run HeapRun.step HeapRun.boot [.allocPage 1, .allocPage 512] = some final ∧
      (allocPage final.heap 1).2 = none ∧
      ∀ block ∈ final.live, (Block.mk (baseMemory + PAGE_SIZE * 1) 1).Disjoint block := by
  have result : (run HeapRun.step HeapRun.boot [.allocPage 1, .allocPage 512]).map
      (fun final => ((allocPage final.heap 1).2, final.live)) =
        some (none, [⟨0x1200000, 512⟩, ⟨0x1000000, 1⟩]) := by
    rw [HeapRun.boot_eq]
    decide +kernel
  obtain ⟨final, ran, answer⟩ := Option.map_eq_some_iff.mp result
  obtain ⟨refused, live⟩ := Prod.mk.inj answer
  refine ⟨final, ran, refused, ?_⟩
  rw [live]
  decide

end SistemasOperativos.Kernel
