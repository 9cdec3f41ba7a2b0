import Mathlib.Data.Nat.Log
import Mathlib.Tactic.Ring

/-!
# Complete binary trees in level order

Nodes are numbered from 1 in level order: `2 * v` and `2 * v + 1` are the
children of `v`, and `x / 2 ^ k` is the ancestor of `x` that lies `k` levels
above it. `Covers v x` says that `v` is `x` or an ancestor of `x`; the nodes
covering one node form a chain (`Covers.comparable`), and a node below
`z / 2 ^ j` is on the path of `z`, below `z`, or below a sibling of that path
(`Covers.split`). At height `h` a node covers the interval of `2 ^ h` leaves
given by `div_pow_eq_iff_mem_leaves`.
-/

namespace SistemasOperativos.Foundation

/-- Node `v` is `x` itself or one of its ancestors. -/
def Covers (v x : Nat) : Prop := 0 < v ∧ ∃ k, x / 2 ^ k = v

/-- The other child of the same parent. -/
def sibling (i : Nat) : Nat := if i % 2 = 0 then i + 1 else i - 1

namespace Covers

variable {u v w x y z : Nat}

/-- A node covers itself. -/
theorem refl (positive : 0 < v) : Covers v v := ⟨positive, 0, by simp⟩

/-- A node that covers another one is one of the tree. -/
theorem positive (covers : Covers v x) : 0 < v := covers.1

/-- What a covered node covers is covered. -/
theorem trans (upper : Covers u v) (lower : Covers v w) : Covers u w := by
  obtain ⟨positive, j, rfl⟩ := upper
  obtain ⟨_, k, rfl⟩ := lower
  exact ⟨positive, k + j, by rw [Nat.pow_add, Nat.div_div_eq_div_mul]⟩

/-- A covered node is not before the one that covers it. -/
theorem le (covers : Covers v x) : v ≤ x := by
  obtain ⟨_, k, rfl⟩ := covers
  exact Nat.div_le_self _ _

/-- The ancestor `k` levels up covers its descendant. -/
theorem ancestor {k : Nat} (positive : 0 < x / 2 ^ k) : Covers (x / 2 ^ k) x :=
  ⟨positive, k, rfl⟩

/-- Both ways round only for equal nodes. -/
theorem antisymm (one : Covers v x) (other : Covers x v) : v = x :=
  Nat.le_antisymm one.le other.le

/-- Two nodes that cover the same node are on one path. -/
theorem comparable (left : Covers v x) (right : Covers w x) : Covers v w ∨ Covers w v := by
  obtain ⟨vPositive, j, rfl⟩ := left
  obtain ⟨wPositive, k, rfl⟩ := right
  rcases Nat.le_total j k with below | below
  · obtain ⟨d, rfl⟩ := Nat.exists_eq_add_of_le below
    exact .inr ⟨wPositive, d, by rw [Nat.div_div_eq_div_mul, ← Nat.pow_add]⟩
  · obtain ⟨d, rfl⟩ := Nat.exists_eq_add_of_le below
    exact .inl ⟨vPositive, d, by rw [Nat.div_div_eq_div_mul, ← Nat.pow_add]⟩

/-- A covered node is the node itself or lies below one of its children. -/
theorem cases_child (covers : Covers v x) : x = v ∨ Covers (2 * v) x ∨ Covers (2 * v + 1) x := by
  obtain ⟨positive, k, rfl⟩ := covers
  cases k with
  | zero => exact .inl (by simp)
  | succ k =>
      have parent : x / 2 ^ k / 2 = x / 2 ^ (k + 1) := by
        rw [Nat.div_div_eq_div_mul, ← Nat.pow_succ]
      right
      rcases Nat.mod_two_eq_zero_or_one (x / 2 ^ k) with even | odd
      · exact .inl ⟨by omega, k, by omega⟩
      · exact .inr ⟨by omega, k, by omega⟩

end Covers

/-- Below the root a sibling is a node of the tree. -/
theorem sibling_positive {i : Nat} (inside : 1 < i) : 0 < sibling i := by
  unfold sibling
  split <;> omega

/-- A node and its sibling are the two children of their parent. -/
theorem children_eq (i : Nat) :
    (2 * (i / 2) = i ∧ 2 * (i / 2) + 1 = sibling i) ∨
      (2 * (i / 2) + 1 = i ∧ 2 * (i / 2) = sibling i) := by
  unfold sibling
  split <;> omega

/-- Siblings have the same parent. -/
theorem sibling_div_two (i : Nat) : sibling i / 2 = i / 2 := by
  unfold sibling
  split <;> omega

/-- No node is its own sibling. -/
theorem sibling_ne (i : Nat) (positive : 0 < i) : sibling i ≠ i := by
  unfold sibling
  split <;> omega

/-- Halving repeatedly is dividing by a power of two. -/
theorem div_two_pow_succ (x k : Nat) : x / 2 ^ k / 2 = x / 2 ^ (k + 1) := by
  rw [Nat.div_div_eq_div_mul, ← Nat.pow_succ]

/-- A node with `2 ^ d ≤ v < 2 ^ (d + 1)` lies at depth `d`; that many halvings
reach the root and one more leaves the tree. -/
theorem covers_root_path {v d : Nat} (lower : 2 ^ d ≤ v) (upper : v < 2 ^ (d + 1)) {k : Nat} :
    0 < v / 2 ^ k ↔ k ≤ d := by
  constructor
  · intro positive
    by_contra beyond
    have wide : 2 ^ (d + 1) ≤ 2 ^ k := Nat.pow_le_pow_right (by omega) (by omega)
    have : v / 2 ^ k = 0 := Nat.div_eq_of_lt (by omega)
    omega
  · intro within
    have narrow : 2 ^ k ≤ 2 ^ d := Nat.pow_le_pow_right (by omega) within
    exact Nat.div_pos (by omega) (Nat.two_pow_pos k)

/-- No node covers both itself's sibling and itself. -/
theorem not_covers_sibling {i x : Nat} (inside : 1 < i) (covers : Covers i x) :
    ¬ Covers (sibling i) x := by
  intro other
  have strict : ∀ {a b : Nat}, 0 < a → a ≠ b → a / 2 = b / 2 → ¬ Covers a b := by
    rintro a b positive different parents ⟨_, k, same⟩
    cases k with
    | zero => exact different (by simpa using same.symm)
    | succ k =>
        have halved : b / 2 ^ (k + 1) ≤ b / 2 := by
          rw [Nat.pow_succ', ← Nat.div_div_eq_div_mul]
          exact Nat.div_le_self _ _
        omega
  rcases covers.comparable other with below | below
  · exact strict (by omega) (sibling_ne i (by omega)).symm (sibling_div_two i).symm below
  · exact strict (sibling_positive inside) (sibling_ne i (by omega)) (sibling_div_two i) below

/-- Where a node below the `j`-th ancestor of `z` can be: on the path from `z`
up to that ancestor, below `z`, or below a sibling of a path node. -/
theorem Covers.split {z y j : Nat} (covers : Covers (z / 2 ^ j) y) :
    (∃ i, i ≤ j ∧ y = z / 2 ^ i) ∨ Covers z y ∨ ∃ i, i < j ∧ Covers (sibling (z / 2 ^ i)) y := by
  induction j with
  | zero => exact .inr (.inl (by simpa using covers))
  | succ j ih =>
      have parent := div_two_pow_succ z j
      have below : y = z / 2 ^ (j + 1) ∨ Covers (z / 2 ^ j) y ∨ Covers (sibling (z / 2 ^ j)) y := by
        rcases covers.cases_child with same | left | right
        · exact .inl same
        · rcases children_eq (z / 2 ^ j) with ⟨l, _⟩ | ⟨_, l⟩
          · rw [← parent, l] at left
            exact .inr (.inl left)
          · rw [← parent, l] at left
            exact .inr (.inr left)
        · rcases children_eq (z / 2 ^ j) with ⟨_, r⟩ | ⟨r, _⟩
          · rw [← parent, r] at right
            exact .inr (.inr right)
          · rw [← parent, r] at right
            exact .inr (.inl right)
      rcases below with same | onPath | aside
      · exact .inl ⟨j + 1, le_refl _, same⟩
      · rcases ih onPath with ⟨i, within, same⟩ | below | ⟨i, within, aside⟩
        · exact .inl ⟨i, by omega, same⟩
        · exact .inr (.inl below)
        · exact .inr (.inr ⟨i, by omega, aside⟩)
      · exact .inr (.inr ⟨j, by omega, aside⟩)

/-- The `2 ^ h` leaves below a node of height `h`. -/
theorem div_pow_eq_iff_mem_leaves {v leaf h : Nat} :
    leaf / 2 ^ h = v ↔ v * 2 ^ h ≤ leaf ∧ leaf < v * 2 ^ h + 2 ^ h := by
  rw [Nat.div_eq_iff (Nat.two_pow_pos h)]
  have positive : 0 < 2 ^ h := Nat.two_pow_pos h
  have product : 2 ^ h * v = v * 2 ^ h := Nat.mul_comm _ _
  constructor <;> intro bounds <;> omega

/-- The nodes that cover a node `levels` below the root. -/
theorem Covers.below_root {v w levels : Nat} (root : w / 2 ^ levels = 1)
    (covers : Covers v w) : ∃ k, k ≤ levels ∧ v = w / 2 ^ k := by
  obtain ⟨positive, k, rfl⟩ := covers
  obtain ⟨lower, upper⟩ := div_pow_eq_iff_mem_leaves.mp root
  have bounds := @covers_root_path w levels (by omega) (by rw [Nat.pow_succ]; omega) k
  exact ⟨k, bounds.mp positive, rfl⟩

/-- The height of a node over the leaves of a tree of depth `H` settles how far
above a leaf it can be. -/
theorem covers_leaf_iff {v leaf d H : Nat} (shallow : d ≤ H) (lower : 2 ^ d ≤ v)
    (upper : v < 2 ^ (d + 1)) (leafLower : 2 ^ H ≤ leaf) (leafUpper : leaf < 2 ^ (H + 1)) :
    Covers v leaf ↔ leaf / 2 ^ (H - d) = v := by
  have vPositive : 0 < v := Nat.lt_of_lt_of_le (Nat.two_pow_pos d) lower
  constructor
  · rintro ⟨_, k, rfl⟩
    have within : k ≤ H := (covers_root_path leafLower leafUpper).mp vPositive
    have down : 2 ^ (H - k) ≤ leaf / 2 ^ k := by
      rw [Nat.le_div_iff_mul_le (Nat.two_pow_pos k), ← Nat.pow_add, Nat.sub_add_cancel within]
      exact leafLower
    have up : leaf / 2 ^ k < 2 ^ (H + 1 - k) := by
      rw [Nat.div_lt_iff_lt_mul (Nat.two_pow_pos k), ← Nat.pow_add,
        Nat.sub_add_cancel (by omega)]
      exact leafUpper
    have first := (Nat.pow_lt_pow_iff_right (by omega : 1 < 2)).mp (Nat.lt_of_le_of_lt lower up)
    have second := (Nat.pow_lt_pow_iff_right (by omega : 1 < 2)).mp (Nat.lt_of_le_of_lt down upper)
    rw [show H - d = k by omega]
  · intro same
    exact ⟨vPositive, H - d, same⟩

/-- Nodes that do not cover one another have disjoint intervals of leaves. -/
theorem leaves_disjoint {v w h i : Nat} (vPositive : 0 < v) (wPositive : 0 < w)
    (notCovers : ¬ Covers v w) (notCovered : ¬ Covers w v) :
    v * 2 ^ h + 2 ^ h ≤ w * 2 ^ i ∨ w * 2 ^ i + 2 ^ i ≤ v * 2 ^ h := by
  by_contra meet
  have hPositive : 0 < 2 ^ h := Nat.two_pow_pos h
  have iPositive : 0 < 2 ^ i := Nat.two_pow_pos i
  -- The larger of the two left ends is a leaf of both intervals.
  have shared : ∃ leaf, leaf / 2 ^ h = v ∧ leaf / 2 ^ i = w := by
    refine ⟨max (v * 2 ^ h) (w * 2 ^ i), ?_, ?_⟩ <;> rw [div_pow_eq_iff_mem_leaves] <;> omega
  obtain ⟨leaf, vCovers, wCovers⟩ := shared
  rcases Covers.comparable ⟨vPositive, h, vCovers⟩ ⟨wPositive, i, wCovers⟩ with below | below
  · exact notCovers below
  · exact notCovered below

end SistemasOperativos.Foundation
