import SistemasOperativos.Kernel.BuddySafety
import SistemasOperativos.Semantics.Observation

/-!
# What the answers of the page allocator give away

A client sees of the tree only the pointers that `allocPage` returns. Requests
of one size take the nodes of their level that can be taken from left to right,
so asking often enough shows which nodes those are (`blocked_iff`), and leaves
the nodes that cannot be taken as they were (`Reached`).
-/

namespace SistemasOperativos.Kernel

open SistemasOperativos.Foundation SistemasOperativos.Semantics

/-- The allocator as its callers see it: the pointer returned, if any. -/
def BuddyArray.serve (heap : BuddyArray) : HeapAction → Option (BuddyArray × Option Nat)
  | .allocPage pages => some (allocPage heap pages)
  | .deallocPage page => (deallocPage heap page).map fun result => (result.1, none)

theorem BuddyArray.serve_allocPage (heap : BuddyArray) (pages : Nat) :
    heap.serve (.allocPage pages) = some (allocPage heap pages) := rfl

theorem BuddyArray.serve_deallocPage {heap after : BuddyArray} {page : Nat} {result : Int}
    (freed : deallocPage heap page = some (after, result)) :
    heap.serve (.deallocPage page) = some (after, none) := by
  show (deallocPage heap page).map _ = _
  rw [freed]
  rfl

/-- The part of the array that `createHeap` sets for good. -/
structure BuddyArray.Shaped (heap : BuddyArray) : Prop where
  base : heap.base = createHeap.base
  heapLevel : heap.heapLevel = 11

/-- Ancestors of nodes of one level are equal only if equally far up. -/
theorem same_level {v w levels j k : Nat} (vRoot : v / 2 ^ levels = 1) (wRoot : w / 2 ^ levels = 1)
    (jWithin : j ≤ levels) (kWithin : k ≤ levels) (same : v / 2 ^ j = w / 2 ^ k) : j = k := by
  have depth : ∀ {x i : Nat}, x / 2 ^ levels = 1 → Nat.log 2 (x / 2 ^ i) = levels - i := by
    intro x i root
    obtain ⟨lower, upper⟩ := div_pow_eq_iff_mem_leaves.mp root
    have positive := Nat.two_pow_pos levels
    have atLevel : Nat.log 2 x = levels :=
      (Nat.log_eq_iff (.inr ⟨by omega, by omega⟩)).mpr ⟨by omega, by rw [Nat.pow_succ]; omega⟩
    rw [Nat.log_div_base_pow, atLevel]
  have left := @depth v j vRoot
  have right := @depth w k wRoot
  rw [same, right] at left
  omega

namespace Taken

variable {before after : BuddyArray} {levels f w : Nat}

/-- Taking a block keeps the marks shaped. -/
theorem shaped (taken : Taken before after levels f) (shaped : before.Shaped) : after.Shaped :=
  ⟨taken.base.trans shaped.base, taken.heapLevel.trans shaped.heapLevel⟩

/-- The node taken could be taken. -/
theorem takeable (taken : Taken before after levels f) : ¬ Blocked before levels f := by
  rintro (occupied | ⟨k, within, full⟩)
  · exact occupied taken.empty
  · exact taken.openPath k within full

/-- On the way to another node of the level, only the common ancestors change. -/
theorem mark_beside (taken : Taken before after levels f) (root : f / 2 ^ levels = 1)
    (wRoot : w / 2 ^ levels = 1) {k : Nat} (within : k ≤ levels) (apart : w / 2 ^ k ≠ f / 2 ^ k) :
    after.mark (w / 2 ^ k) = before.mark (w / 2 ^ k) := by
  refine taken.frame _ ?_ fun j jWithin same => ?_
  · obtain ⟨lower, -⟩ := div_pow_eq_iff_mem_leaves.mp wRoot
    have narrow : 2 ^ k ≤ 2 ^ levels := Nat.pow_le_pow_right (by omega) within
    exact Nat.div_pos (by omega) (Nat.two_pow_pos k)
  · obtain rfl := same_level wRoot root within jWithin same
    exact apart same

/-- The common ancestors of the node taken and a node to its right stay open. -/
private theorem meeting_open (taken : Taken before after levels f) (order : f < w) {k : Nat}
    (within : k ≤ levels) (meet : w / 2 ^ k = f / 2 ^ k) :
    after.mark (f / 2 ^ k) ≠ .BUDDY_FULL := by
  induction k with
  | zero =>
      simp only [Nat.pow_zero, Nat.div_one] at meet
      omega
  | succ k ih =>
      rw [taken.above k within]
      split
      · simp
      · rename_i odd
        -- From the right child one comes only to a node both share.
        have below : w / 2 ^ k = f / 2 ^ k := by
          have left : f / 2 ^ k ≤ w / 2 ^ k := Nat.div_le_div_right (Nat.le_of_lt order)
          rw [← div_two_pow_succ, ← div_two_pow_succ] at meet
          omega
        rw [if_neg (ih (by omega) below)]
        exact taken.openPath (k + 1) within

/-- What could be taken to the right of the node taken can still be taken. -/
theorem takeable_after (taken : Taken before after levels f) (root : f / 2 ^ levels = 1)
    (wRoot : w / 2 ^ levels = 1) (order : f < w) (free : ¬ Blocked before levels w) :
    ¬ Blocked after levels w := by
  rintro (occupied | ⟨k, within, full⟩)
  · have kept := taken.mark_beside root wRoot (Nat.zero_le _) (by simp; omega)
    simp only [Nat.pow_zero, Nat.div_one] at kept
    exact free (.inl (kept ▸ occupied))
  · by_cases meet : w / 2 ^ k = f / 2 ^ k
    · exact taken.meeting_open order within meet (meet ▸ full)
    · rw [taken.mark_beside root wRoot within meet] at full
      exact free (.inr ⟨k, within, full⟩)

/-- What can be taken afterwards could be taken before, and is another node. -/
theorem takeable_before (taken : Taken before after levels f) (root : f / 2 ^ levels = 1)
    (wRoot : w / 2 ^ levels = 1) (free : ¬ Blocked after levels w) :
    w ≠ f ∧ ¬ Blocked before levels w := by
  have different : w ≠ f := by
    rintro rfl
    refine free (.inl ?_)
    rw [taken.full]
    simp
  refine ⟨different, ?_⟩
  rintro (occupied | ⟨k, within, full⟩)
  · have kept := taken.mark_beside root wRoot (Nat.zero_le _) (by simpa using different)
    simp only [Nat.pow_zero, Nat.div_one] at kept
    exact free (.inl (kept.symm ▸ occupied))
  · by_cases meet : w / 2 ^ k = f / 2 ^ k
    · rw [meet] at full
      exact taken.openPath k within full
    · rw [← taken.mark_beside root wRoot within meet] at full
      exact free (.inr ⟨k, within, full⟩)

end Taken

/-- Where a node of the level can be taken, the request of the level's size takes
one, no further to the right. -/
theorem allocPage_takes {heap : BuddyArray} (shaped : heap.Shaped) {levels w : Nat}
    (within : levels ≤ 10) (root : w / 2 ^ levels = 1) (free : ¬ Blocked heap levels w) :
    ∃ after page, allocPage heap (2 ^ (10 - levels)) = (after, some page) ∧
      ∃ f, f ≤ w ∧ f / 2 ^ levels = 1 ∧ Taken heap after levels f ∧
        (Block.mk page (2 ^ (10 - levels))).node = f := by
  have positive : 0 < 2 ^ (10 - levels) := Nat.two_pow_pos _
  have bounded : 2 ^ (10 - levels) ≤ 1024 :=
    Nat.pow_le_pow_right (by omega) (show 10 - levels ≤ 10 by omega)
  have depth : 10 - Nat.clog 2 (2 ^ (10 - levels)) = levels := by
    rw [Nat.clog_pow _ _ (by omega)]
    omega
  cases search : allocPage heap (2 ^ (10 - levels)) with
  | mk after answer =>
      cases answer with
      | none =>
          rw [allocPage_eq shaped.heapLevel positive bounded, depth] at search
          exact absurd ((getNextPageRecursive_none search).2 w root) free
      | some page =>
          obtain ⟨_, _, f, fRoot, taken, _, node⟩ :=
            allocPage_taken shaped.base shaped.heapLevel search
          rw [depth] at fRoot taken
          refine ⟨after, page, rfl, f, ?_, fRoot, taken, node⟩
          by_contra right
          exact free (taken.first w (root.trans fRoot.symm) (by omega))

/-! ## Asking until a given node is taken -/

/-- After requests of one size, the last of which took node `t`. -/
structure Reached (before after : BuddyArray) (levels t : Nat) : Prop where
  shaped : after.Shaped
  full : after.mark t = .BUDDY_FULL
  rightChild : 0 < levels → t % 2 = 1 → after.mark (t / 2) = .BUDDY_FULL
  kept : ∀ z, z / 2 ^ levels = 1 → Blocked before levels z → after.mark z = before.mark z

/-- One request that takes the node is enough. -/
theorem Taken.reached {before after : BuddyArray} {levels t : Nat} (shaped : before.Shaped)
    (root : t / 2 ^ levels = 1) (taken : Taken before after levels t) :
    Reached before after levels t where
  shaped := taken.shaped shaped
  full := taken.full
  rightChild := by
    intro positive odd
    have parent := taken.above 0 positive
    simp only [Nat.zero_add, Nat.pow_one, Nat.pow_zero, Nat.div_one] at parent
    rw [parent, if_neg (by omega), if_pos taken.full]
  kept := by
    intro z zRoot blocked
    have different : z ≠ t := fun same => taken.takeable (same ▸ blocked)
    simpa using taken.mark_beside root zRoot (Nat.zero_le _) (by simpa using different)

theorem Reached.after_taken {before middle after : BuddyArray} {levels f t : Nat}
    (root : f / 2 ^ levels = 1) (taken : Taken before middle levels f)
    (reached : Reached middle after levels t) : Reached before after levels t where
  shaped := reached.shaped
  full := reached.full
  rightChild := reached.rightChild
  kept := by
    intro z zRoot blocked
    have different : z ≠ f := fun same => taken.takeable (same ▸ blocked)
    have still : Blocked middle levels z := by
      by_contra free
      exact (taken.takeable_before root zRoot free).2 blocked
    have beside := taken.mark_beside root zRoot (Nat.zero_le _) (by simpa using different)
    simp only [Nat.pow_zero, Nat.div_one] at beside
    rw [reached.kept z zRoot still, beside]

/-- The next request of a level's size takes the same node in both of two
indistinguishable heaps. -/
theorem take_in_both {levels t : Nat} (within : levels ≤ 10) (root : t / 2 ^ levels = 1)
    {one other : BuddyArray} (oneShaped : one.Shaped) (otherShaped : other.Shaped)
    (same : Indistinguishable BuddyArray.serve one other) (free : ¬ Blocked one levels t) :
    ∃ f one' other', f ≤ t ∧ f / 2 ^ levels = 1 ∧ Taken one one' levels f ∧
      Taken other other' levels f ∧ Indistinguishable BuddyArray.serve one' other' := by
  obtain ⟨one', page, search, f, left, fRoot, taken, node⟩ :=
    allocPage_takes oneShaped within root free
  have here : one.serve (.allocPage (2 ^ (10 - levels))) = some (one', some page) := by
    rw [BuddyArray.serve_allocPage, search]
  obtain ⟨other', there, next⟩ := same.served here
  have otherSearch : allocPage other (2 ^ (10 - levels)) = (other', some page) := by
    rw [BuddyArray.serve_allocPage] at there
    exact Option.some.inj there
  obtain ⟨_, _, g, _, otherTaken, _, otherNode⟩ :=
    allocPage_taken otherShaped.base otherShaped.heapLevel otherSearch
  have depth : 10 - Nat.clog 2 (2 ^ (10 - levels)) = levels := by
    rw [Nat.clog_pow _ _ (by omega)]
    omega
  have sameNode : g = f := otherNode.symm.trans node
  rw [depth, sameNode] at otherTaken
  exact ⟨f, one', other', left, fRoot, taken, otherTaken, next⟩

/-- Asking both of two indistinguishable heaps for blocks of one size takes the
same nodes in both, until `t` is taken in both. The induction is on how far to
the left of `t` the first node that can be taken may lie. -/
theorem reach_in_both {levels t : Nat} (within : levels ≤ 10) (root : t / 2 ^ levels = 1)
    (distance : Nat) {one other : BuddyArray} (oneShaped : one.Shaped) (otherShaped : other.Shaped)
    (same : Indistinguishable BuddyArray.serve one other) (free : ¬ Blocked one levels t)
    (near : ∀ u, u / 2 ^ levels = 1 → ¬ Blocked one levels u → t ≤ u + distance) :
    ¬ Blocked other levels t ∧ ∃ one' other', Reached one one' levels t ∧
      Reached other other' levels t ∧ Indistinguishable BuddyArray.serve one' other' := by
  induction distance generalizing one other with
  | zero =>
      obtain ⟨f, one', other', left, fRoot, taken, otherTaken, next⟩ :=
        take_in_both within root oneShaped otherShaped same free
      have first := near f fRoot taken.takeable
      obtain rfl : f = t := by omega
      exact ⟨otherTaken.takeable, one', other', taken.reached oneShaped root,
        otherTaken.reached otherShaped root, next⟩
  | succ distance ih =>
      obtain ⟨f, one', other', left, fRoot, taken, otherTaken, next⟩ :=
        take_in_both within root oneShaped otherShaped same free
      rcases Nat.lt_or_eq_of_le left with before | rfl
      · have still := taken.takeable_after fRoot root before free
        have closer : ∀ u, u / 2 ^ levels = 1 → ¬ Blocked one' levels u → t ≤ u + distance := by
          intro u uRoot uFree
          obtain ⟨different, uBefore⟩ := taken.takeable_before fRoot uRoot uFree
          have notLeft : ¬ u < f := fun leftmost =>
            uBefore (taken.first u (uRoot.trans fRoot.symm) leftmost)
          have bound := near f fRoot taken.takeable
          omega
        obtain ⟨otherFree, one'', other'', reached, otherReached, last⟩ :=
          ih (taken.shaped oneShaped) (otherTaken.shaped otherShaped) next still closer
        exact ⟨(otherTaken.takeable_before fRoot root otherFree).2, one'', other'',
          reached.after_taken fRoot taken, otherReached.after_taken fRoot otherTaken, last⟩
      · exact ⟨otherTaken.takeable, one', other', taken.reached oneShaped root,
          otherTaken.reached otherShaped root, next⟩

/-- Indistinguishable heaps have the same nodes to give, and requests take any
one of them in both. -/
theorem free_in_both {levels t : Nat} (within : levels ≤ 10) (root : t / 2 ^ levels = 1)
    {one other : BuddyArray} (oneShaped : one.Shaped) (otherShaped : other.Shaped)
    (same : Indistinguishable BuddyArray.serve one other) (free : ¬ Blocked one levels t) :
    ¬ Blocked other levels t ∧ ∃ one' other', Reached one one' levels t ∧
      Reached other other' levels t ∧ Indistinguishable BuddyArray.serve one' other' :=
  reach_in_both within root t oneShaped otherShaped same free fun u _ _ => by omega

/-- The nodes that can be taken can be observed. -/
theorem blocked_iff {levels t : Nat} (within : levels ≤ 10) (root : t / 2 ^ levels = 1)
    {one other : BuddyArray} (oneShaped : one.Shaped) (otherShaped : other.Shaped)
    (same : Indistinguishable BuddyArray.serve one other) :
    Blocked one levels t ↔ Blocked other levels t := by
  constructor
  · intro blocked
    by_contra free
    exact (free_in_both within root otherShaped oneShaped same.symm free).1 blocked
  · intro blocked
    by_contra free
    exact (free_in_both within root oneShaped otherShaped same free).1 blocked

end SistemasOperativos.Kernel
