import SistemasOperativos.Kernel.BuddyHeap
import SistemasOperativos.Semantics.Run
import Mathlib.Data.List.Pairwise
import Mathlib.Data.List.Perm.Subperm

/-!
# Blocks handed out by the page allocator do not overlap

`HeapRun` is the allocator together with the blocks its callers still hold.
`Consistent` is the meaning of the marks: a node is marked exactly when a live
block lies at or below it, and the live blocks are nodes of which none covers
another. `allocPage` always keeps it. `deallocPage` keeps it exactly when
`ClearsOnlyEmpty` holds (`deallocPage_consistent_iff`): `freeUpRecursive` clears
a parent as soon as the *other* child is empty, also when the child it comes
from still holds a live block.
-/

namespace SistemasOperativos.Kernel

open SistemasOperativos.Foundation SistemasOperativos.Semantics

/-- A block in use: the pointer `allocPage` returned and the pages it was asked for. -/
structure Block where
  page : Nat
  pages : Nat
  deriving DecidableEq, Repr

namespace Block

/-- `ceil(log2 n)`: the block has `2 ^ height` pages. -/
def height (block : Block) : Nat := Nat.clog 2 block.pages

/-- Size of the block in bytes. -/
def size (block : Block) : Nat := PAGE_SIZE * 2 ^ block.height

/-- The blocks `[page, page + size)` have no address in common. -/
def Disjoint (a b : Block) : Prop := a.page + a.size ≤ b.page ∨ b.page + b.size ≤ a.page

instance (a b : Block) : Decidable (a.Disjoint b) := inferInstanceAs (Decidable (_ ∨ _))

/-- Disjoint blocks have different addresses. -/
theorem Disjoint.page_ne {a b : Block} (disjoint : a.Disjoint b) : a.page ≠ b.page := by
  have positiveA : 0 < a.size := Nat.mul_pos (by decide) (Nat.two_pow_pos _)
  have positiveB : 0 < b.size := Nat.mul_pos (by decide) (Nat.two_pow_pos _)
  rcases disjoint with before | after
  · omega
  · omega

/-- The leaf of the tree for the first page of the block. -/
def leaf (block : Block) : Nat := (block.page - baseMemory) / PAGE_SIZE + 1024

/-- The node of the tree that is the whole block. -/
def node (block : Block) : Nat := block.leaf / 2 ^ block.height

/-- The block is the block of a node of the tree. -/
structure Placed (block : Block) : Prop where
  positive : 0 < block.pages
  bounded : block.pages ≤ 1024
  lower : 2 ^ (10 - block.height) ≤ block.node
  upper : block.node < 2 ^ (11 - block.height)
  aligned : block.leaf = block.node * 2 ^ block.height
  address : block.page = baseMemory + PAGE_SIZE * (block.leaf - 1024)

namespace Placed

variable {block : Block}

/-- A block is at most the whole arena. -/
theorem height_le (placed : block.Placed) : block.height ≤ 10 := clog_le_ten placed.bounded

/-- The node of a block is one of the tree. -/
theorem node_positive (placed : block.Placed) : 0 < block.node :=
  Nat.lt_of_lt_of_le (Nat.two_pow_pos _) placed.lower

/-- No block is at the null address. -/
theorem page_positive (placed : block.Placed) : 0 < block.page := by
  have address : block.page = 0x1000000 + PAGE_SIZE * (block.leaf - 1024) := placed.address
  omega

/-- The first page of a block lies below its node. -/
theorem node_covers_leaf (placed : block.Placed) : Covers block.node block.leaf :=
  ⟨placed.node_positive, block.height, rfl⟩

/-- The first page of a block is a leaf of the tree. -/
theorem leaf_bounds (placed : block.Placed) : 1024 ≤ block.leaf ∧ block.leaf < 2048 := by
  have height := placed.height_le
  have split : ∀ k, block.height ≤ k → 2 ^ (k - block.height) * 2 ^ block.height = 2 ^ k := by
    intro k within
    rw [← Nat.pow_add]
    congr 1
    omega
  have low := Nat.mul_le_mul_right (2 ^ block.height) placed.lower
  have high := Nat.mul_lt_mul_of_pos_right placed.upper (Nat.two_pow_pos block.height)
  rw [← placed.aligned, split _ (by omega)] at low high
  omega

end Placed

/-- Blocks whose nodes do not cover one another are disjoint. -/
theorem disjoint_of_incomparable {a b : Block} (placedA : a.Placed) (placedB : b.Placed)
    (notCovers : ¬ Covers a.node b.node) (notCovered : ¬ Covers b.node a.node) :
    a.Disjoint b := by
  have leaves := leaves_disjoint (h := a.height) (i := b.height) placedA.node_positive
    placedB.node_positive notCovers notCovered
  rw [← placedA.aligned, ← placedB.aligned] at leaves
  have lowerA := placedA.leaf_bounds.1
  have lowerB := placedB.leaf_bounds.1
  have addressA := placedA.address
  have addressB := placedB.address
  simp only [Disjoint, size, show PAGE_SIZE = 4096 by rfl] at *
  omega

/-- The block at the address of a node, for a request of the node's size. -/
theorem placed_of_node {w pages : Nat} (positive : 0 < pages) (bounded : pages ≤ 1024)
    (level : w / 2 ^ (10 - Nat.clog 2 pages) = 1) :
    (Block.mk (nodeBase w) pages).Placed ∧ (Block.mk (nodeBase w) pages).node = w := by
  have height := clog_le_ten bounded
  obtain ⟨lower, upper⟩ := div_pow_eq_iff_mem_leaves.mp level
  have double : 2 ^ (11 - Nat.clog 2 pages) = 2 * 2 ^ (10 - Nat.clog 2 pages) := by
    rw [← Nat.pow_succ']
    congr 1
    omega
  have split : 2 ^ (10 - Nat.clog 2 pages) * 2 ^ Nat.clog 2 pages = 1024 := by
    rw [← Nat.pow_add, show 10 - Nat.clog 2 pages + Nat.clog 2 pages = 10 by omega]
  have address := nodeBase_eq height (by omega) (by omega : w < 2 ^ (11 - Nat.clog 2 pages))
  have scaled : 1024 ≤ w * 2 ^ Nat.clog 2 pages := by
    rw [← split]
    exact Nat.mul_le_mul_right _ (by omega)
  have leaf : (Block.mk (nodeBase w) pages).leaf = w * 2 ^ Nat.clog 2 pages := by
    simp only [Block.leaf, address, Nat.add_sub_cancel_left]
    rw [Nat.mul_div_cancel_left _ (by decide)]
    omega
  have node : (Block.mk (nodeBase w) pages).node = w := by
    rw [Block.node, leaf, Block.height]
    exact Nat.mul_div_cancel _ (Nat.two_pow_pos _)
  refine ⟨⟨positive, bounded, ?_, ?_, ?_, ?_⟩, node⟩
  · simp only [node, Block.height]
    omega
  · simp only [node, Block.height]
    omega
  · rw [leaf, node, Block.height]
  · rw [leaf, address]

end Block

/-! ## Runs of the allocator -/

/-- The allocator and the blocks in use. -/
structure HeapRun where
  heap : BuddyArray
  live : List Block

/-- The calls a run is made of. -/
inductive HeapAction where
  | allocPage (pages : Nat)
  | deallocPage (page : Nat)
  deriving DecidableEq, Repr

namespace HeapRun

/-- The state after `createHeap`. -/
def boot : HeapRun := ⟨createHeap, []⟩

theorem boot_eq : boot =
    ⟨{ occupied := fun _ => .EMPTY
       base := fun k => if k < HEAPSIZE then nodeBase (k + 1) else 0
       heapLevel := 11 }, []⟩ := by
  rw [boot, createHeap_eq]

/-- One call. `deallocPage` is only called on the pointer of a block in use. -/
def step (state : HeapRun) : HeapAction → Option HeapRun
  | .allocPage pages =>
      match allocPage state.heap pages with
      | (heap, none) => some ⟨heap, state.live⟩
      | (heap, some page) => some ⟨heap, ⟨page, pages⟩ :: state.live⟩
  | .deallocPage page =>
      match state.live.find? fun block => block.page = page with
      | none => none
      | some block =>
          match deallocPage state.heap page with
          | none => none
          | some (heap, _) => some ⟨heap, state.live.erase block⟩

end HeapRun

/-- Going up from the leaf of `page`, once a sibling is in use every sibling
further up is in use too. -/
def ClearsOnlyEmpty (heap : BuddyArray) (page : Nat) : Prop :=
  ∀ j, j < 10 → ∀ i, i < j →
    heap.mark (sibling ((Block.mk page 1).leaf / 2 ^ j)) = .EMPTY →
      heap.mark (sibling ((Block.mk page 1).leaf / 2 ^ i)) = .EMPTY

instance (heap : BuddyArray) (page : Nat) : Decidable (ClearsOnlyEmpty heap page) :=
  inferInstanceAs (Decidable (∀ j, j < 10 → ∀ i, i < j → _))

/-- The condition on the calls of a run: no `deallocPage` clears an ancestor
that still holds a live block. -/
def HeapRun.ClearsOnlyEmpty (state : HeapRun) : HeapAction → Prop
  | .allocPage _ => True
  | .deallocPage page => Kernel.ClearsOnlyEmpty state.heap page

instance (state : HeapRun) (action : HeapAction) : Decidable (state.ClearsOnlyEmpty action) := by
  cases action <;> unfold HeapRun.ClearsOnlyEmpty <;> infer_instance

/-! ## What the marks mean -/

/-- The marks say where live blocks are. -/
structure Consistent (state : HeapRun) : Prop where
  base : state.heap.base = createHeap.base
  heapLevel : state.heap.heapLevel = 11
  placed : ∀ block ∈ state.live, block.Placed
  full : ∀ block ∈ state.live, state.heap.mark block.node = .BUDDY_FULL
  marked : ∀ v, 0 < v → (state.heap.mark v ≠ .EMPTY ↔ ∃ block ∈ state.live, Covers v block.node)
  apart : state.live.Pairwise fun a b => ¬ Covers a.node b.node ∧ ¬ Covers b.node a.node

/-- The invariant holds at boot. -/
theorem consistent_boot : Consistent HeapRun.boot where
  base := rfl
  heapLevel := by simp [HeapRun.boot, createHeap_eq]
  placed := by simp [HeapRun.boot]
  full := by simp [HeapRun.boot]
  marked := by simp [HeapRun.boot, createHeap_eq, BuddyArray.mark]
  apart := by simp [HeapRun.boot]

/-- A successful request takes a node of its size and returns its block. -/
theorem allocPage_taken {heap after : BuddyArray} {pages page : Nat}
    (base : heap.base = createHeap.base) (heapLevel : heap.heapLevel = 11)
    (search : allocPage heap pages = (after, some page)) :
    0 < pages ∧ pages ≤ 1024 ∧ ∃ w, w / 2 ^ (10 - Nat.clog 2 pages) = 1 ∧
      Taken heap after (10 - Nat.clog 2 pages) w ∧
      (Block.mk page pages).Placed ∧ (Block.mk page pages).node = w := by
  have accepted : 0 < pages ∧ pages ≤ 1024 := by
    by_contra refused
    rw [allocPage_refused (by omega)] at search
    simp at search
  rw [allocPage_eq heapLevel accepted.1 accepted.2] at search
  obtain ⟨w, root, taken, address⟩ := getNextPageRecursive_some (by omega) search
  obtain ⟨lower, upper⟩ := div_pow_eq_iff_mem_leaves.mp root
  have wBounded : w - 1 < HEAPSIZE := by
    have : 2 ^ (10 - Nat.clog 2 pages) ≤ 2 ^ 10 := Nat.pow_le_pow_right (by omega) (by omega)
    rw [show HEAPSIZE = 2047 by rfl]
    omega
  have pageEq : page = nodeBase w := by
    have := Nat.two_pow_pos (10 - Nat.clog 2 pages)
    rw [address, base, createHeap_eq]
    simp only [if_pos wBounded]
    rw [Nat.sub_add_cancel (by omega)]
  obtain ⟨placed, node⟩ := Block.placed_of_node accepted.1 accepted.2 root
  rw [← pageEq] at placed node
  exact ⟨accepted.1, accepted.2, w, root, taken, placed, node⟩

namespace Consistent

variable {state : HeapRun}

/-- Live blocks of a consistent state have no address in common. -/
theorem disjoint (consistent : Consistent state) : state.live.Pairwise Block.Disjoint :=
  consistent.apart.imp_of_mem fun memA memB incomparable =>
    Block.disjoint_of_incomparable (consistent.placed _ memA) (consistent.placed _ memB)
      incomparable.1 incomparable.2

/-- A live block on the same path as another is that other block. -/
theorem eq_of_comparable (consistent : Consistent state) {a b : Block} (memA : a ∈ state.live)
    (memB : b ∈ state.live) (comparable : Covers a.node b.node ∨ Covers b.node a.node) :
    a = b := by
  by_contra different
  have : Std.Symm fun a b : Block => ¬ Covers a.node b.node ∧ ¬ Covers b.node a.node :=
    ⟨fun _ _ both => both.symm⟩
  have incomparable := consistent.apart.forall memA memB different
  rcases comparable with covers | covers
  · exact incomparable.1 covers
  · exact incomparable.2 covers

/-- No block is given out twice. -/
theorem nodup (consistent : Consistent state) : state.live.Nodup :=
  consistent.apart.imp_of_mem fun memA _ incomparable same =>
    incomparable.1 (same ▸ Covers.refl (consistent.placed _ memA).node_positive)

/-- Live blocks have different addresses. -/
theorem pages_nodup (consistent : Consistent state) : (state.live.map Block.page).Nodup := by
  exact List.pairwise_map.mpr (consistent.disjoint.imp fun apart => apart.page_ne)

/-- There are no more live blocks than nodes of the tree. -/
theorem length_le (consistent : Consistent state) : state.live.length ≤ 2048 := by
  have nodes : (state.live.map Block.node).Nodup := by
    refine List.pairwise_map.mpr (consistent.apart.imp_of_mem fun {a b} memA _ incomparable => ?_)
    intro same
    have covers := Covers.refl (consistent.placed a memA).node_positive
    exact incomparable.1 (by rwa [same] at covers ⊢)
  have bounded : state.live.map Block.node ⊆ List.range 2048 := by
    intro node member
    obtain ⟨block, live, rfl⟩ := List.mem_map.mp member
    have placed := consistent.placed block live
    have leaf := placed.leaf_bounds.2
    have above : block.node ≤ block.leaf := placed.node_covers_leaf.le
    rw [List.mem_range]
    omega
  have count := (nodes.subperm bounded).length_le
  rwa [List.length_map, List.length_range] at count

/-! ### Allocation -/

/-- After a node is taken, every node on the way down to it is marked. -/
private theorem taken_path_marked (consistent : Consistent state) {after : BuddyArray}
    {levels w : Nat} (root : w / 2 ^ levels = 1) (taken : Taken state.heap after levels w) (k : Nat)
    (within : k ≤ levels) : after.mark (w / 2 ^ k) ≠ .EMPTY := by
  induction k with
  | zero => simp [taken.full]
  | succ k ih =>
      rw [taken.above k within]
      split
      · simp
      · rename_i odd
        split
        · simp
        · -- The parent keeps its mark, and the left child had no room: it was marked already.
          intro parentEmpty
          have parent := div_two_pow_succ w k
          have parentPositive : 0 < w / 2 ^ (k + 1) := by
            have upper := Nat.div_le_div_left (Nat.pow_le_pow_right (by omega : 0 < 2) within)
              (Nat.two_pow_pos (k + 1)) (a := w)
            omega
          let other := w / 2 ^ (k + 1) * 2 * 2 ^ k
          have otherUp : ∀ d, other / 2 ^ (k + 1 + d) = w / 2 ^ (k + 1 + d) := by
            intro d
            rw [Nat.pow_add, ← Nat.div_div_eq_div_mul, ← Nat.div_div_eq_div_mul]
            congr 1
            simp only [other]
            rw [Nat.mul_assoc, ← Nat.pow_succ', Nat.mul_div_cancel _ (Nat.two_pow_pos _)]
          have smaller : other < w := by
            have left : w / 2 ^ (k + 1) * 2 < w / 2 ^ k := by omega
            calc other < w / 2 ^ k * 2 ^ k := Nat.mul_lt_mul_of_pos_right left (Nat.two_pow_pos k)
              _ ≤ w := Nat.div_mul_le_self w (2 ^ k)
          have nothingBelow : ∀ v, Covers (w / 2 ^ (k + 1)) v → state.heap.mark v = .EMPTY := by
            intro v covers
            by_contra occupied
            obtain ⟨block, member, below⟩ := (consistent.marked v
              (Nat.lt_of_lt_of_le parentPositive covers.le)).mp occupied
            exact (consistent.marked _ parentPositive).mpr
              ⟨block, member, covers.trans below⟩ parentEmpty
          have otherBelow : ∀ i, i ≤ k + 1 → Covers (w / 2 ^ (k + 1)) (other / 2 ^ i) := by
            intro i inner
            refine ⟨parentPositive, k + 1 - i, ?_⟩
            rw [Nat.div_div_eq_div_mul, ← Nat.pow_add, show i + (k + 1 - i) = k + 1 by omega]
            exact otherUp 0
          have sameRoot : other / 2 ^ levels = w / 2 ^ levels := by
            have := otherUp (levels - (k + 1))
            rwa [show k + 1 + (levels - (k + 1)) = levels by omega] at this
          rcases taken.first other sameRoot smaller with occupied | ⟨i, inner, full⟩
          · have := nothingBelow other (by simpa using otherBelow 0 (by omega))
            exact occupied this
          · rcases Nat.le_total i (k + 1) with low | high
            · rw [nothingBelow _ (otherBelow i low)] at full
              cases full
            · obtain ⟨d, rfl⟩ := Nat.exists_eq_add_of_le high
              rw [otherUp d] at full
              exact taken.openPath _ inner full

/-- `allocPage` keeps the marks consistent. -/
theorem allocPage (consistent : Consistent state) {pages page : Nat} {after : BuddyArray}
    (search : Kernel.allocPage state.heap pages = (after, some page)) :
    Consistent ⟨after, ⟨page, pages⟩ :: state.live⟩ := by
  obtain ⟨_, _, w, root, taken, placed, node⟩ :=
    allocPage_taken consistent.base consistent.heapLevel search
  obtain ⟨lower, upper⟩ := div_pow_eq_iff_mem_leaves.mp root
  have wPositive : 0 < w := by
    have := Nat.two_pow_pos (10 - Nat.clog 2 pages)
    omega
  have onPath : ∀ v, Covers v w → ∃ k, k ≤ 10 - Nat.clog 2 pages ∧ v = w / 2 ^ k :=
    fun v covers => covers.below_root root
  have notAbove : ∀ block ∈ state.live, ¬ Covers block.node w := by
    intro block member covers
    obtain ⟨k, within, same⟩ := onPath _ covers
    exact taken.openPath k within (same ▸ consistent.full block member)
  have notBelow : ∀ block ∈ state.live, ¬ Covers w block.node := by
    intro block member covers
    exact (consistent.marked w wPositive).mpr ⟨block, member, covers⟩ taken.empty
  refine ⟨taken.base.trans consistent.base, taken.heapLevel.trans consistent.heapLevel,
    ?_, ?_, ?_, ?_⟩
  · simpa using ⟨placed, consistent.placed⟩
  · refine List.forall_mem_cons.mpr ⟨by rw [node, taken.full], fun block member => ?_⟩
    rw [taken.frame _ (consistent.placed block member).node_positive, consistent.full block member]
    rintro k _ same
    exact notAbove block member ⟨(consistent.placed block member).node_positive, k, same.symm⟩
  · intro v positive
    by_cases covers : Covers v w
    · obtain ⟨k, within, rfl⟩ := onPath v covers
      have marked := consistent.taken_path_marked root taken k within
      simp only [marked, ne_eq, not_false_eq_true, true_iff]
      exact ⟨_, List.mem_cons_self, node ▸ covers⟩
    · rw [taken.frame v positive fun k _ same => covers ⟨positive, k, same.symm⟩,
        consistent.marked v positive]
      simp [node, covers]
  · refine List.pairwise_cons.mpr ⟨fun block member => ?_, consistent.apart⟩
    rw [node]
    exact ⟨notBelow block member, notAbove block member⟩

/-! ### Deallocation -/

/-- Below a live block, other than at its own node, nothing is marked. -/
theorem empty_below (consistent : Consistent state) {block : Block}
    (member : block ∈ state.live) {v : Nat} (covers : Covers block.node v)
    (different : v ≠ block.node) : state.heap.mark v = .EMPTY := by
  by_contra occupied
  have positive := Nat.lt_of_lt_of_le covers.positive covers.le
  obtain ⟨other, otherMember, below⟩ := (consistent.marked v positive).mp occupied
  have same := consistent.eq_of_comparable member otherMember (.inl (covers.trans below))
  exact different (Covers.antisymm covers (same ▸ below)).symm

/-- Above the leaf of a live block, another live block lies below a node of the
path exactly when a sibling further down the path is marked. -/
private theorem other_below_iff (consistent : Consistent state) {block : Block}
    (member : block ∈ state.live) {j : Nat} (inside : 0 < block.leaf / 2 ^ j) :
    (∃ other ∈ state.live.erase block, Covers (block.leaf / 2 ^ j) other.node) ↔
      ∃ i, i < j ∧ state.heap.mark (sibling (block.leaf / 2 ^ i)) ≠ .EMPTY := by
  have leafCovered := (consistent.placed block member).node_covers_leaf
  have childInside : ∀ i, i < j → 1 < block.leaf / 2 ^ i := by
    intro i below
    have := Nat.div_le_div_left (Nat.pow_le_pow_right (by omega : 0 < 2) below)
      (Nat.two_pow_pos (i + 1)) (a := block.leaf)
    rw [← div_two_pow_succ] at this
    omega
  constructor
  · rintro ⟨other, erased, covers⟩
    obtain ⟨different, otherMember⟩ := consistent.nodup.mem_erase_iff.mp erased
    rcases covers.split with ⟨i, _, onPath⟩ | below | ⟨i, within, aside⟩
    · have up : Covers other.node block.leaf :=
        ⟨(consistent.placed other otherMember).node_positive, i, onPath.symm⟩
      exact absurd (consistent.eq_of_comparable otherMember member (up.comparable leafCovered))
        different
    · have comparable := Or.inr (a := Covers other.node block.node) (leafCovered.trans below)
      exact absurd (consistent.eq_of_comparable otherMember member comparable) different
    · exact ⟨i, within, (consistent.marked _ aside.positive).mpr ⟨other, otherMember, aside⟩⟩
  · rintro ⟨i, below, occupied⟩
    have inChild := childInside i below
    obtain ⟨other, otherMember, aside⟩ :=
      (consistent.marked _ (sibling_positive inChild)).mp occupied
    refine ⟨other, consistent.nodup.mem_erase_iff.mpr ⟨?_, otherMember⟩, ?_⟩
    · rintro rfl
      exact not_covers_sibling inChild (Covers.ancestor (by omega)) (aside.trans leafCovered)
    · refine Covers.trans ⟨inside, j - i, ?_⟩ aside
      rw [show j - i = j - (i + 1) + 1 by omega, Nat.pow_succ', ← Nat.div_div_eq_div_mul,
        sibling_div_two, div_two_pow_succ, Nat.div_div_eq_div_mul, ← Nat.pow_add,
        show i + 1 + (j - (i + 1)) = j by omega]

/-- Nothing is marked beside the path while it is still inside the block. -/
private theorem sibling_inside_empty (consistent : Consistent state) {block : Block}
    (member : block ∈ state.live) {i : Nat} (inside : i < block.height) :
    state.heap.mark (sibling (block.leaf / 2 ^ i)) = .EMPTY := by
  have placed := consistent.placed block member
  have up : block.leaf / 2 ^ (i + 1) / 2 ^ (block.height - (i + 1)) = block.node := by
    rw [Nat.div_div_eq_div_mul, ← Nat.pow_add, Block.node,
      show i + 1 + (block.height - (i + 1)) = block.height by omega]
  have parentCovered : Covers block.node (block.leaf / 2 ^ (i + 1)) :=
    ⟨placed.node_positive, _, up⟩
  have parents : sibling (block.leaf / 2 ^ i) / 2 = block.leaf / 2 ^ (i + 1) := by
    rw [sibling_div_two, div_two_pow_succ]
  have bounded := parentCovered.le
  have positive := placed.node_positive
  refine consistent.empty_below member (parentCovered.trans ⟨by omega, 1, by simpa using parents⟩)
    (by omega)

/-- The mark that `deallocPage` leaves on the path of the freed block. -/
private theorem freed_path_mark (consistent : Consistent state) {block : Block}
    (member : block ∈ state.live) {after : BuddyArray}
    (freed : Freed state.heap after block.leaf) {j : Nat} (inside : 0 < block.leaf / 2 ^ (j + 1)) :
    after.mark (block.leaf / 2 ^ (j + 1)) ≠ .EMPTY ↔
      state.heap.mark (sibling (block.leaf / 2 ^ j)) ≠ .EMPTY := by
  have placed := consistent.placed block member
  rw [freed.path j inside]
  rcases Nat.lt_or_ge (j + 1) block.height with below | above
  · have up : block.leaf / 2 ^ (j + 1) / 2 ^ (block.height - (j + 1)) = block.node := by
      rw [Nat.div_div_eq_div_mul, ← Nat.pow_add, Block.node,
        show j + 1 + (block.height - (j + 1)) = block.height by omega]
    have covers : Covers block.node (block.leaf / 2 ^ (j + 1)) := ⟨placed.node_positive, _, up⟩
    have different : block.leaf / 2 ^ (j + 1) ≠ block.node := by
      intro same
      rw [same] at up
      have := Nat.div_lt_self placed.node_positive
        (Nat.one_lt_two_pow (by omega : block.height - (j + 1) ≠ 0))
      omega
    rw [consistent.empty_below member covers different,
      consistent.sibling_inside_empty member (by omega)]
    simp [Kernel.freed]
  · have covers : Covers (block.leaf / 2 ^ (j + 1)) block.node := by
      refine ⟨inside, j + 1 - block.height, ?_⟩
      rw [Block.node, Nat.div_div_eq_div_mul, ← Nat.pow_add,
        show block.height + (j + 1 - block.height) = j + 1 by omega]
    have occupied := (consistent.marked _ inside).mpr ⟨block, member, covers⟩
    cases parent : state.heap.mark (block.leaf / 2 ^ (j + 1)) <;>
      cases state.heap.mark (sibling (block.leaf / 2 ^ j)) <;> simp_all [Kernel.freed]

/-- Freeing a live block keeps the marks consistent exactly when no ancestor
that still holds a live block is cleared. -/
theorem deallocPage_consistent_iff (consistent : Consistent state) {block : Block}
    (member : block ∈ state.live) {after : BuddyArray}
    (freed : Freed state.heap after block.leaf) :
    Consistent ⟨after, state.live.erase block⟩ ↔ ClearsOnlyEmpty state.heap block.page := by
  have placed := consistent.placed block member
  have leafBounds := placed.leaf_bounds
  have erased : ∀ other ∈ state.live.erase block, other ≠ block ∧ other ∈ state.live :=
    fun other => consistent.nodup.mem_erase_iff.mp
  have onPath : ∀ v, Covers v block.leaf → ∃ j, j ≤ 10 ∧ v = block.leaf / 2 ^ j := by
    rintro v ⟨positive, j, rfl⟩
    exact ⟨j, (@covers_root_path block.leaf 10 (by omega) (by omega) j).mp positive, rfl⟩
  constructor
  · intro next j within i below siblingEmpty
    by_contra occupied
    have inside : 0 < block.leaf / 2 ^ (j + 1) :=
      (@covers_root_path block.leaf 10 (by omega) (by omega) (j + 1)).mpr (by omega)
    have stillHeld := (consistent.other_below_iff member inside).mpr ⟨i, by omega, occupied⟩
    have marked := (next.marked _ inside).mpr stillHeld
    exact (consistent.freed_path_mark member freed inside).mp marked siblingEmpty
  · intro clears
    refine ⟨freed.base.trans consistent.base, freed.heapLevel.trans consistent.heapLevel,
      fun other mem => consistent.placed other (erased other mem).2, ?_, ?_,
      consistent.apart.sublist List.erase_sublist⟩
    · intro other mem
      obtain ⟨different, otherMember⟩ := erased other mem
      rw [freed.frame _ (consistent.placed other otherMember).node_positive,
        consistent.full other otherMember]
      intro covers
      exact different (consistent.eq_of_comparable otherMember member
        (covers.comparable placed.node_covers_leaf))
    · intro v positive
      by_cases covers : Covers v block.leaf
      · obtain ⟨j, within, rfl⟩ := onPath v covers
        refine Iff.trans ?_ (consistent.other_below_iff member positive).symm
        cases j with
        | zero => simp [freed.cleared]
        | succ j =>
            rw [consistent.freed_path_mark member freed positive]
            constructor
            · intro occupied
              exact ⟨j, by omega, occupied⟩
            · rintro ⟨i, below, occupied⟩ siblingEmpty
              rcases Nat.lt_or_eq_of_le (Nat.le_of_lt_succ below) with strict | rfl
              · exact occupied (clears j (by omega) i strict siblingEmpty)
              · exact occupied siblingEmpty
      · rw [freed.frame v positive covers, consistent.marked v positive]
        constructor
        · rintro ⟨other, otherMember, below⟩
          refine ⟨other, consistent.nodup.mem_erase_iff.mpr ⟨?_, otherMember⟩, below⟩
          rintro rfl
          exact covers (below.trans placed.node_covers_leaf)
        · rintro ⟨other, mem, below⟩
          exact ⟨other, (erased other mem).2, below⟩

/-- `deallocPage` of the pointer of a live block succeeds and frees its leaf. -/
theorem deallocPage (consistent : Consistent state) {block : Block}
    (member : block ∈ state.live) :
    ∃ after, Kernel.deallocPage state.heap (block.page : Nat) = some (after, 0) ∧
      Freed state.heap after block.leaf := by
  have placed := consistent.placed block member
  obtain ⟨lower, upper⟩ := placed.leaf_bounds
  have result := @deallocPage_leaf state.heap _ lower upper
  rwa [← placed.address] at result

/-- What a `deallocPage` call of a run does. -/
theorem deallocPage_stepped (consistent : Consistent state) {page : Nat} {next : HeapRun}
    (stepped : state.step (.deallocPage page) = some next) :
    ∃ block ∈ state.live, block.page = page ∧ ∃ after, Freed state.heap after block.leaf ∧
      next = ⟨after, state.live.erase block⟩ := by
  simp only [HeapRun.step] at stepped
  split at stepped
  · cases stepped
  · rename_i block found
    have member := List.mem_of_find?_eq_some found
    have pageEq : block.page = page := by simpa using List.find?_some found
    obtain ⟨after, dealloc, freed⟩ := consistent.deallocPage member
    rw [← pageEq, dealloc] at stepped
    exact ⟨block, member, pageEq, after, freed, (Option.some.inj stepped).symm⟩

end Consistent

/-- Every call of a run that meets the condition keeps the marks consistent. -/
theorem consistent_step (state : HeapRun) (action : HeapAction) (next : HeapRun)
    (consistent : Consistent state) (clears : state.ClearsOnlyEmpty action)
    (stepped : state.step action = some next) : Consistent next := by
  cases action with
  | allocPage pages =>
      simp only [HeapRun.step] at stepped
      split at stepped
      · rename_i heap search
        obtain rfl := Option.some.inj stepped
        rw [allocPage_null consistent.heapLevel search]
        exact consistent
      · rename_i heap page search
        obtain rfl := Option.some.inj stepped
        exact consistent.allocPage search
  | deallocPage page =>
      obtain ⟨block, member, pageEq, after, freed, rfl⟩ := consistent.deallocPage_stepped stepped
      refine (consistent.deallocPage_consistent_iff member freed).mpr ?_
      rw [pageEq]
      exact clears

/-- In a run none of whose `deallocPage` calls clears an ancestor that still
holds a live block, the blocks in use never overlap. -/
theorem live_blocks_disjoint (actions : List HeapAction) (final : HeapRun)
    (clears : Along HeapRun.step HeapRun.ClearsOnlyEmpty HeapRun.boot actions)
    (ran : run HeapRun.step HeapRun.boot actions = some final) :
    final.live.Pairwise Block.Disjoint :=
  (clears.invariant consistent_step consistent_boot ran).disjoint

/-- Two halves, the first given back and split again: the second half sits under
the last sibling of the path, so the condition holds. -/
theorem live_blocks_disjoint_halves : ∃ final,
    run HeapRun.step HeapRun.boot [.allocPage 512, .allocPage 512, .deallocPage 0x1000000,
      .allocPage 256] = some final ∧ final.live.Pairwise Block.Disjoint := by
  have finishes : (run HeapRun.step HeapRun.boot [.allocPage 512, .allocPage 512,
      .deallocPage 0x1000000, .allocPage 256]).isSome = true := by
    rw [HeapRun.boot_eq]
    decide +kernel
  have clears : Along HeapRun.step HeapRun.ClearsOnlyEmpty HeapRun.boot [.allocPage 512,
      .allocPage 512, .deallocPage 0x1000000, .allocPage 256] := by
    rw [HeapRun.boot_eq]
    decide +kernel
  obtain ⟨final, ran⟩ := Option.isSome_iff_exists.mp finishes
  exact ⟨final, ran, live_blocks_disjoint _ final clears ran⟩

/-- Two neighbouring pages, the first given back: its parent's sibling is empty,
so the grandparent is cleared although it still holds the second page, and the
next request for four pages gets that page again. -/
theorem live_blocks_overlap : ∃ final,
    run HeapRun.step HeapRun.boot [.allocPage 1, .allocPage 1, .deallocPage 0x1000000,
      .allocPage 4] = some final ∧
      final.live = [⟨0x1000000, 4⟩, ⟨0x1001000, 1⟩] ∧ ¬ final.live.Pairwise Block.Disjoint := by
  have result : (run HeapRun.step HeapRun.boot [.allocPage 1, .allocPage 1,
      .deallocPage 0x1000000, .allocPage 4]).map HeapRun.live =
        some [⟨0x1000000, 4⟩, ⟨0x1001000, 1⟩] := by
    rw [HeapRun.boot_eq]
    decide +kernel
  obtain ⟨final, ran, live⟩ := Option.map_eq_some_iff.mp result
  refine ⟨final, ran, live, ?_⟩
  rw [live]
  decide

end SistemasOperativos.Kernel
