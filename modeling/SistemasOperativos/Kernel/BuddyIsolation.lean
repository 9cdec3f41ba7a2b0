import SistemasOperativos.Kernel.BuddyObservation
import SistemasOperativos.Kernel.BuddyCoalescing

/-!
# Observing the marks of left children

Freeing marks nothing, so freeing all pages outside the subtree of a node, those
furthest from it first, leaves the rest of the tree empty (`FreedAll`,
`Isolated`), but for the parent of the node: it stays full exactly when it was
full and the node is partially full. Whether the right sibling of a left child
can be taken then gives away the child's mark (`left_child_observed`).
-/

namespace SistemasOperativos.Kernel

open SistemasOperativos.Foundation SistemasOperativos.Semantics

/-! ## Freeing a list of pages -/

namespace Freed

variable {before after : BuddyArray} {leaf : Nat}

/-- Freeing a leaf keeps the marks shaped. -/
theorem shaped (freed : Freed before after leaf) (shaped : before.Shaped) : after.Shaped :=
  ⟨freed.base.trans shaped.base, freed.heapLevel.trans shaped.heapLevel⟩

/-- Freeing marks nothing. -/
theorem keeps_empty (freed : Freed before after leaf) {u : Nat} (positive : 0 < u)
    (empty : before.mark u = .EMPTY) : after.mark u = .EMPTY := by
  by_cases covers : Covers u leaf
  · obtain ⟨_, k, rfl⟩ := covers
    cases k with
    | zero => simpa using freed.cleared
    | succ k =>
        rw [freed.path k positive, empty]
        rfl
  · rw [freed.frame u positive covers, empty]

/-- The parent of a node above the freed leaf is cleared beside an empty sibling. -/
theorem empties_parent (freed : Freed before after leaf) {y : Nat} (inside : 1 < y)
    (covers : Covers y leaf) (empty : before.mark (sibling y) = .EMPTY) :
    after.mark (y / 2) = .EMPTY := by
  obtain ⟨_, k, rfl⟩ := covers
  have positive : 0 < leaf / 2 ^ (k + 1) := by
    rw [← div_two_pow_succ]
    omega
  rw [div_two_pow_succ, freed.path k positive, empty, freed_of_empty_sibling]

/-- A parent stays full exactly beside a partially full child. -/
theorem full_parent_iff (freed : Freed before after leaf) {v : Nat} (inside : 1 < v)
    (bounded : v < 2048) (lower : 1024 ≤ leaf) (outside : ¬ Covers v leaf) :
    after.mark (v / 2) = .BUDDY_FULL ↔ before.mark (v / 2) = .BUDDY_FULL ∧
      (Covers (sibling v) leaf → before.mark v = .PARTIALLY_FULL) := by
  by_cases below : Covers (v / 2) leaf
  · have onSibling : Covers (sibling v) leaf := by
      rcases below.cases_child with same | left | right
      · omega
      · rcases children_eq v with ⟨l, _⟩ | ⟨_, l⟩
        · exact absurd (l ▸ left) outside
        · exact l ▸ left
      · rcases children_eq v with ⟨_, r⟩ | ⟨r, _⟩
        · exact r ▸ right
        · exact absurd (r ▸ right) outside
    obtain ⟨siblingPositive, k, up⟩ := id onSibling
    have parent : leaf / 2 ^ (k + 1) = v / 2 := by
      rw [← div_two_pow_succ, up, sibling_div_two]
    have aside : sibling (leaf / 2 ^ k) = v := by
      rw [up]
      unfold sibling
      split <;> split at * <;> omega
    have written := freed.path k (by omega)
    rw [parent, aside] at written
    rw [written]
    cases before.mark (v / 2) <;> cases before.mark v <;> simp [Kernel.freed, onSibling]
  · rw [freed.frame _ (by omega) below]
    have notSibling : ¬ Covers (sibling v) leaf := by
      intro covers
      refine below (Covers.trans ⟨by omega, 1, ?_⟩ covers)
      rw [Nat.pow_one, sibling_div_two]
    simp [notSibling]

end Freed

/-- The leaves of a list freed one after another. -/
inductive FreedAll : BuddyArray → List Nat → BuddyArray → Prop where
  | nil (heap : BuddyArray) : FreedAll heap [] heap
  | cons {before middle after : BuddyArray} {leaf : Nat} {leaves : List Nat}
      (freed : Freed before middle leaf) (rest : FreedAll middle leaves after) :
      FreedAll before (leaf :: leaves) after

namespace FreedAll

variable {before after : BuddyArray} {leaves : List Nat}

/-- Freeing leaves one after another keeps the marks shaped. -/
theorem shaped (freed : FreedAll before leaves after) (shaped : before.Shaped) :
    after.Shaped := by
  induction freed with
  | nil => exact shaped
  | cons freed _ ih => exact ih (freed.shaped shaped)

/-- A list is freed by freeing its front and then its rest. -/
theorem split {more : List Nat} (freed : FreedAll before (leaves ++ more) after) :
    ∃ middle, FreedAll before leaves middle ∧ FreedAll middle more after := by
  induction leaves generalizing before with
  | nil => exact ⟨before, .nil before, freed⟩
  | cons leaf leaves ih =>
      cases freed with
      | cons first rest =>
          obtain ⟨middle, front, back⟩ := ih rest
          exact ⟨middle, .cons first front, back⟩

/-- A node that was empty stays empty. -/
theorem keeps_empty (freed : FreedAll before leaves after) {u : Nat} (positive : 0 < u)
    (empty : before.mark u = .EMPTY) : after.mark u = .EMPTY := by
  induction freed with
  | nil => exact empty
  | cons freed _ ih => exact ih (freed.keeps_empty positive empty)

/-- Nodes above none of the freed leaves keep their marks. -/
theorem frame (freed : FreedAll before leaves after) {u : Nat} (positive : 0 < u)
    (outside : ∀ leaf ∈ leaves, ¬ Covers u leaf) : after.mark u = before.mark u := by
  induction freed with
  | nil => rfl
  | cons freed _ ih =>
      rw [ih fun leaf member => outside leaf (List.mem_cons_of_mem _ member),
        freed.frame u positive (outside _ List.mem_cons_self)]

/-- A node above a freed leaf and its empty sibling leave their parent empty. -/
theorem empties_parent (freed : FreedAll before leaves after) {y leaf : Nat} (inside : 1 < y)
    (member : leaf ∈ leaves) (covers : Covers y leaf)
    (empty : before.mark (sibling y) = .EMPTY) : after.mark (y / 2) = .EMPTY := by
  induction freed with
  | nil => cases member
  | cons freed rest ih =>
      rcases List.mem_cons.mp member with rfl | later
      · exact rest.keeps_empty (by omega) (freed.empties_parent inside covers empty)
      · exact ih later (freed.keeps_empty (sibling_positive inside) empty)

/-- When the parent of a node outside of the freed leaves is still given out whole. -/
theorem full_parent_iff (freed : FreedAll before leaves after) {v : Nat} (inside : 1 < v)
    (bounded : v < 2048) (lower : ∀ leaf ∈ leaves, 1024 ≤ leaf)
    (outside : ∀ leaf ∈ leaves, ¬ Covers v leaf) :
    after.mark (v / 2) = .BUDDY_FULL ↔ before.mark (v / 2) = .BUDDY_FULL ∧
      ∀ leaf ∈ leaves, Covers (sibling v) leaf → before.mark v = .PARTIALLY_FULL := by
  induction freed with
  | nil => simp
  | cons freed rest ih =>
      rename_i start middle last leaf leaves
      have here := freed.full_parent_iff inside bounded (lower leaf List.mem_cons_self)
        (outside leaf List.mem_cons_self)
      have kept := freed.frame v (by omega) (outside leaf List.mem_cons_self)
      rw [ih (fun other member => lower other (List.mem_cons_of_mem _ member))
        (fun other member => outside other (List.mem_cons_of_mem _ member)), here, kept,
        List.forall_mem_cons, and_assoc]

end FreedAll

/-- The leaves below a node of height `h`, from left to right. -/
def leavesUnder : (h node : Nat) → List Nat
  | 0, node => [node]
  | h + 1, node => leavesUnder h (2 * node) ++ leavesUnder h (2 * node + 1)

/-- The leaves below a node lead back up to it. -/
theorem div_of_mem_leavesUnder {h node leaf : Nat} (member : leaf ∈ leavesUnder h node) :
    leaf / 2 ^ h = node := by
  induction h generalizing node with
  | zero => simpa [leavesUnder] using member
  | succ h ih =>
      rw [← div_two_pow_succ]
      rcases List.mem_append.mp member with left | right
      · rw [ih left]
        omega
      · rw [ih right]
        omega

/-- The first of the leaves below a node. -/
theorem first_mem_leavesUnder (h node : Nat) : node * 2 ^ h ∈ leavesUnder h node := by
  induction h generalizing node with
  | zero => simp [leavesUnder]
  | succ h ih =>
      have left := ih (2 * node)
      rw [Nat.mul_comm 2, Nat.mul_assoc, ← Nat.pow_succ'] at left
      exact List.mem_append_left _ (Nat.mul_comm 2 node ▸ left)

/-- Freeing every leaf below a node clears the whole subtree. -/
theorem FreedAll.clears {before after : BuddyArray} {h node : Nat}
    (freed : FreedAll before (leavesUnder h node) after) (positive : 0 < node) {u j : Nat}
    (within : j ≤ h) (below : u / 2 ^ j = node) : after.mark u = .EMPTY := by
  induction h generalizing node before after u j with
  | zero =>
      obtain rfl : j = 0 := by omega
      obtain rfl : u = node := by simpa using below
      cases freed with
      | cons freed rest => exact rest.keeps_empty positive freed.cleared
  | succ h ih =>
      obtain ⟨middle, left, right⟩ := freed.split
      have uPositive : 0 < u := by
        have := Nat.div_le_self u (2 ^ j)
        omega
      cases j with
      | zero =>
          obtain rfl : u = node := by simpa using below
          have leftEmpty : middle.mark (2 * u) = .EMPTY :=
            ih left (by omega) (Nat.zero_le h) (by simp)
          have siblingEq : sibling (2 * u + 1) = 2 * u := by
            unfold sibling
            split <;> omega
          have parent := right.empties_parent (by omega) (first_mem_leavesUnder h _)
            ⟨by omega, h, Nat.mul_div_cancel _ (Nat.two_pow_pos h)⟩ (by rwa [siblingEq])
          rwa [show (2 * u + 1) / 2 = u by omega] at parent
      | succ j =>
          rw [← div_two_pow_succ] at below
          rcases Nat.mod_two_eq_zero_or_one (u / 2 ^ j) with even | odd
          · exact right.keeps_empty uPositive
              (ih left (by omega) (by omega) (by omega : u / 2 ^ j = 2 * node))
          · exact ih right (by omega) (by omega) (by omega : u / 2 ^ j = 2 * node + 1)

/-! ## Freeing everything beside a subtree -/

/-- The leaves beside the path up from a node of height `h`, for the `n` levels
above it; those furthest up come first. -/
def leavesAside (h v : Nat) : (n : Nat) → List Nat
  | 0 => []
  | n + 1 => leavesUnder (h + n) (sibling (v / 2 ^ n)) ++ leavesAside h v n

/-- The leaves beside a path are those below the siblings on it. -/
theorem mem_leavesAside {h v n leaf : Nat} :
    leaf ∈ leavesAside h v n ↔ ∃ k, k < n ∧ leaf ∈ leavesUnder (h + k) (sibling (v / 2 ^ k)) := by
  induction n with
  | zero => simp [leavesAside]
  | succ n ih =>
      rw [leavesAside, List.mem_append, ih]
      constructor
      · rintro (here | ⟨k, below, member⟩)
        · exact ⟨n, Nat.lt_succ_self n, here⟩
        · exact ⟨k, by omega, member⟩
      · rintro ⟨k, below, member⟩
        rcases Nat.lt_or_eq_of_le (Nat.le_of_lt_succ below) with strict | rfl
        · exact .inr ⟨k, strict, member⟩
        · exact .inl member

/-- A leaf beside the path lies below the path one level further up. -/
theorem div_of_mem_leavesUnder_sibling {h v k leaf : Nat}
    (member : leaf ∈ leavesUnder (h + k) (sibling (v / 2 ^ k))) :
    leaf / 2 ^ (h + k + 1) = v / 2 ^ (k + 1) := by
  rw [← div_two_pow_succ, div_of_mem_leavesUnder member, sibling_div_two, div_two_pow_succ]

namespace FreedAll

variable {before after : BuddyArray} {h v n : Nat}

/-- The siblings of the path have been cleared. -/
theorem clears_aside (freed : FreedAll before (leavesAside h v n) after) {k : Nat} (below : k < n)
    (inside : 1 < v / 2 ^ k) : after.mark (sibling (v / 2 ^ k)) = .EMPTY := by
  have positive := sibling_positive inside
  induction n generalizing before with
  | zero => omega
  | succ n ih =>
      obtain ⟨middle, furthest, rest⟩ := freed.split
      rcases Nat.lt_or_eq_of_le (Nat.le_of_lt_succ below) with strict | rfl
      · exact ih rest strict
      · exact rest.keeps_empty positive
          (furthest.clears positive (Nat.zero_le _) (by simp))

/-- The path has been cleared from the second node above `v` on. -/
theorem clears_above (freed : FreedAll before (leavesAside h v n) after) {k : Nat}
    (below : k + 1 < n) (inside : 1 < v / 2 ^ (k + 1)) :
    after.mark (v / 2 ^ (k + 2)) = .EMPTY := by
  induction n generalizing before with
  | zero => omega
  | succ n ih =>
      obtain ⟨middle, furthest, rest⟩ := freed.split
      rcases Nat.lt_or_eq_of_le (Nat.le_of_lt_succ below) with strict | rfl
      · exact ih rest strict
      · -- The sibling is empty by now, and leaves below the node are still to be freed.
        have cleared := furthest.clears (sibling_positive inside) (Nat.zero_le _)
          (u := sibling (v / 2 ^ (k + 1))) (by simp)
        have leafMember := first_mem_leavesUnder (h + k) (sibling (v / 2 ^ k))
        have parent := rest.empties_parent inside
          (mem_leavesAside.mpr ⟨k, Nat.lt_succ_self k, leafMember⟩)
          ⟨by omega, h + k + 1, div_of_mem_leavesUnder_sibling leafMember⟩ cleared
        rwa [div_two_pow_succ] at parent

end FreedAll

/-- Everything outside the subtree of `v` has been freed. -/
structure Isolated (before after : BuddyArray) (v : Nat) : Prop where
  shaped : after.Shaped
  kept : after.mark v = before.mark v
  aside : after.mark (sibling v) = .EMPTY
  above : ∀ k, 0 < v / 2 ^ (k + 2) → after.mark (v / 2 ^ (k + 2)) = .EMPTY
  parent : after.mark (v / 2) = .BUDDY_FULL ↔
    before.mark (v / 2) = .BUDDY_FULL ∧ before.mark v = .PARTIALLY_FULL

/-- The leaves beside the whole path are leaves of the tree. -/
theorem leaf_of_mem_leavesAside {levels v leaf : Nat} (within : levels ≤ 10)
    (root : v / 2 ^ levels = 1)
    (member : leaf ∈ leavesAside (10 - levels) v levels) : leaf / 2 ^ 10 = 1 := by
  obtain ⟨k, below, under⟩ := mem_leavesAside.mp member
  have up := div_of_mem_leavesUnder_sibling under
  rw [show 10 = 10 - levels + k + 1 + (levels - (k + 1)) by omega, Nat.pow_add,
    ← Nat.div_div_eq_div_mul, up, Nat.div_div_eq_div_mul, ← Nat.pow_add,
    show k + 1 + (levels - (k + 1)) = levels by omega, root]

/-- Short of the root the path has a sibling. -/
theorem path_inside {levels v k : Nat} (root : v / 2 ^ levels = 1) (below : k < levels) :
    1 < v / 2 ^ k := by
  have up : v / 2 ^ k / 2 ^ (levels - k) = 1 := by
    rw [Nat.div_div_eq_div_mul, ← Nat.pow_add, show k + (levels - k) = levels by omega, root]
  have half : v / 2 ^ k / 2 ^ (levels - k) ≤ v / 2 ^ k / 2 := by
    rw [show levels - k = levels - k - 1 + 1 by omega, Nat.pow_succ', ← Nat.div_div_eq_div_mul]
    exact Nat.div_le_self _ _
  omega

/-- Freeing the leaves beside the path up to the root frees everything outside the subtree. -/
theorem FreedAll.isolated {before after : BuddyArray} {levels v : Nat} (within : levels ≤ 10)
    (root : v / 2 ^ levels = 1) (inside : 1 < v) (shaped : before.Shaped)
    (freed : FreedAll before (leavesAside (10 - levels) v levels) after) :
    Isolated before after v := by
  have levelsPositive : 0 < levels := by
    rcases Nat.eq_zero_or_pos levels with rfl | positive
    · simp at root
      omega
    · exact positive
  have bounded : v < 2048 := by
    have := (div_pow_eq_iff_mem_leaves.mp root).2
    have : 2 ^ levels ≤ 2 ^ 10 := Nat.pow_le_pow_right (by omega) within
    omega
  have outside : ∀ leaf ∈ leavesAside (10 - levels) v levels, ¬ Covers v leaf := by
    intro leaf member covers
    obtain ⟨k, below, under⟩ := mem_leavesAside.mp member
    have pathInside := path_inside root below
    refine not_covers_sibling pathInside ((Covers.ancestor (by omega)).trans covers) ?_
    exact ⟨sibling_positive pathInside, _, div_of_mem_leavesUnder under⟩
  have lower : ∀ leaf ∈ leavesAside (10 - levels) v levels, 1024 ≤ leaf := by
    intro leaf member
    have := leaf_of_mem_leavesAside within root member
    omega
  refine ⟨freed.shaped shaped, freed.frame (by omega) outside, ?_, ?_, ?_⟩
  · simpa using freed.clears_aside levelsPositive (by simpa using inside)
  · intro k positive
    have below : k + 1 < levels := by
      by_contra beyond
      have wide : v / 2 ^ (k + 2) ≤ v / 2 ^ (levels + 1) :=
        Nat.div_le_div_left (Nat.pow_le_pow_right (by omega) (by omega)) (Nat.two_pow_pos _)
      rw [← div_two_pow_succ v levels, root] at wide
      omega
    exact freed.clears_above below (path_inside root below)
  · rw [freed.full_parent_iff inside bounded lower outside]
    have under := first_mem_leavesUnder (10 - levels + 0) (sibling (v / 2 ^ 0))
    have up := div_of_mem_leavesUnder under
    have member := mem_leavesAside.mpr ⟨0, levelsPositive, under⟩
    generalize sibling (v / 2 ^ 0) * 2 ^ (10 - levels + 0) = leaf at up member
    rw [Nat.pow_zero, Nat.div_one] at up
    constructor
    · rintro ⟨full, beside⟩
      exact ⟨full, beside leaf member ⟨sibling_positive inside, _, up⟩⟩
    · rintro ⟨full, partly⟩
      exact ⟨full, fun _ _ _ => partly⟩

/-- Freeing the same leaves of two indistinguishable heaps. -/
theorem free_all_in_both {leaves : List Nat} (inTree : ∀ leaf ∈ leaves, leaf / 2 ^ 10 = 1)
    {one other : BuddyArray} (same : Indistinguishable BuddyArray.serve one other) :
    ∃ one' other', FreedAll one leaves one' ∧ FreedAll other leaves other' ∧
      Indistinguishable BuddyArray.serve one' other' := by
  induction leaves generalizing one other with
  | nil => exact ⟨one, other, .nil one, .nil other, same⟩
  | cons leaf leaves ih =>
      have bounds := inTree leaf List.mem_cons_self
      obtain ⟨middle, dealloc, freed⟩ := @deallocPage_leaf one leaf (by omega) (by omega)
      obtain ⟨otherMiddle, otherDealloc, otherFreed⟩ :=
        @deallocPage_leaf other leaf (by omega) (by omega)
      obtain ⟨there, served, next⟩ := same.served (BuddyArray.serve_deallocPage dealloc)
      rw [BuddyArray.serve_deallocPage otherDealloc] at served
      obtain ⟨rfl, -⟩ := Prod.mk.inj (Option.some.inj served)
      obtain ⟨one', other', rest, otherRest, last⟩ :=
        ih (fun leaf member => inTree leaf (List.mem_cons_of_mem _ member)) next
      exact ⟨one', other', .cons freed rest, .cons otherFreed otherRest, last⟩

/-- Isolating the same node in two indistinguishable heaps. -/
theorem isolate_in_both {levels v : Nat} (within : levels ≤ 10) (root : v / 2 ^ levels = 1)
    (inside : 1 < v) {one other : BuddyArray} (oneShaped : one.Shaped)
    (otherShaped : other.Shaped) (same : Indistinguishable BuddyArray.serve one other) :
    ∃ one' other', Isolated one one' v ∧ Isolated other other' v ∧
      Indistinguishable BuddyArray.serve one' other' := by
  obtain ⟨one', other', freed, otherFreed, next⟩ :=
    free_all_in_both (fun _ member => leaf_of_mem_leavesAside within root member) same
  exact ⟨one', other', freed.isolated within root inside oneShaped,
    otherFreed.isolated within root inside otherShaped, next⟩

namespace Isolated

variable {before after : BuddyArray} {levels v : Nat}

/-- Only the parent can be in the way of the sibling. -/
theorem blocked_sibling_iff (isolated : Isolated before after v) (root : v / 2 ^ levels = 1)
    (inside : 1 < v) :
    Blocked after levels (sibling v) ↔ after.mark (v / 2) = .BUDDY_FULL := by
  constructor
  · rintro (occupied | ⟨k, below, full⟩)
    · exact absurd isolated.aside occupied
    · cases k with
      | zero =>
          rw [Nat.pow_zero, Nat.div_one, isolated.aside] at full
          cases full
      | succ k =>
          rw [Nat.pow_succ', ← Nat.div_div_eq_div_mul, sibling_div_two] at full
          cases k with
          | zero => simpa using full
          | succ k =>
              rw [Nat.div_div_eq_div_mul, ← Nat.pow_succ'] at full
              have positive : 0 < v / 2 ^ (k + 2) := by
                rw [← div_two_pow_succ]
                have := path_inside root (by omega : k + 1 < levels)
                omega
              rw [isolated.above k positive] at full
              cases full
  · intro full
    refine .inr ⟨1, ?_, by rwa [Nat.pow_one, sibling_div_two]⟩
    by_contra none
    obtain rfl : levels = 0 := by omega
    simp at root
    omega

/-- Under an open parent the node can be taken exactly when it is empty. -/
theorem blocked_iff (isolated : Isolated before after v) (root : v / 2 ^ levels = 1)
    (opened : after.mark (v / 2) ≠ .BUDDY_FULL) :
    Blocked after levels v ↔ before.mark v ≠ .EMPTY := by
  rw [← isolated.kept]
  constructor
  · rintro (occupied | ⟨k, below, full⟩)
    · exact occupied
    · cases k with
      | zero =>
          rw [Nat.pow_zero, Nat.div_one] at full
          simp [full]
      | succ k =>
          cases k with
          | zero =>
              rw [Nat.zero_add, Nat.pow_one] at full
              exact absurd full opened
          | succ k =>
              have positive : 0 < v / 2 ^ (k + 2) := by
                rw [← div_two_pow_succ]
                have := path_inside root (by omega : k + 1 < levels)
                omega
              rw [isolated.above k positive] at full
              cases full
  · exact .inl

end Isolated

/-- The mark of a left child can be observed. With everything outside its
subtree freed, its right sibling can be taken unless their parent is full beside
a partially full child; otherwise requests of the level's size take the sibling,
which makes the parent full, and then the same is asked again. -/
theorem left_child_observed {levels v : Nat} (within : levels ≤ 10) (root : v / 2 ^ levels = 1)
    (inside : 1 < v) (left : v % 2 = 0) {one other : BuddyArray} (oneShaped : one.Shaped)
    (otherShaped : other.Shaped) (same : Indistinguishable BuddyArray.serve one other) :
    one.mark v = other.mark v := by
  have siblingEq : sibling v = v + 1 := by simp [sibling, left]
  have levelsPositive : 0 < levels := by
    by_contra none
    obtain rfl : levels = 0 := by omega
    simp at root
    omega
  have siblingRoot : sibling v / 2 ^ levels = 1 := by
    rw [← root, show levels = levels - 1 + 1 by omega, Nat.pow_succ', ← Nat.div_div_eq_div_mul,
      sibling_div_two, Nat.div_div_eq_div_mul]
  obtain ⟨one', other', isolated, otherIsolated, next⟩ :=
    isolate_in_both within root inside oneShaped otherShaped same
  have siblings := blocked_iff within siblingRoot isolated.shaped otherIsolated.shaped next
  rw [isolated.blocked_sibling_iff root inside, otherIsolated.blocked_sibling_iff root inside]
    at siblings
  by_cases full : one'.mark (v / 2) = .BUDDY_FULL
  · rw [(isolated.parent.mp full).2, (otherIsolated.parent.mp (siblings.mp full)).2]
  · have otherOpen := fun otherFull => full (siblings.mpr otherFull)
    have selves := blocked_iff within root isolated.shaped otherIsolated.shaped next
    rw [isolated.blocked_iff root full, otherIsolated.blocked_iff root otherOpen] at selves
    by_cases empty : one.mark v = .EMPTY
    · have otherEmpty : other.mark v = .EMPTY := by
        by_contra occupied
        exact selves.mpr occupied empty
      rw [empty, otherEmpty]
    · have free : ¬ Blocked one' levels (sibling v) :=
        fun blocked => full ((isolated.blocked_sibling_iff root inside).mp blocked)
      obtain ⟨-, oneTaken, otherTaken, reached, otherReached, taken⟩ :=
        free_in_both within siblingRoot isolated.shaped otherIsolated.shaped next free
      obtain ⟨oneLast, otherLast, again, otherAgain, last⟩ :=
        isolate_in_both within root inside reached.shaped otherReached.shaped taken
      have answer := blocked_iff within siblingRoot again.shaped otherAgain.shaped last
      rw [again.blocked_sibling_iff root inside, otherAgain.blocked_sibling_iff root inside,
        again.parent, otherAgain.parent] at answer
      have parentFull := reached.rightChild levelsPositive (by omega)
      have otherParentFull := otherReached.rightChild levelsPositive (by omega)
      rw [sibling_div_two] at parentFull otherParentFull
      have kept := reached.kept v root ((isolated.blocked_iff root full).mpr empty)
      have otherKept := otherReached.kept v root
        ((otherIsolated.blocked_iff root otherOpen).mpr (selves.mp empty))
      rw [kept, otherKept, isolated.kept, otherIsolated.kept] at answer
      simp only [parentFull, otherParentFull, true_and] at answer
      have occupied := selves.mp empty
      revert answer empty occupied
      cases one.mark v <;> cases other.mark v <;> simp

end SistemasOperativos.Kernel
