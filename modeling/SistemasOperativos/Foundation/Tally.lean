import Mathlib.Algebra.BigOperators.Group.Finset.Basic
import Mathlib.Algebra.Order.BigOperators.Group.Finset
import Mathlib.Tactic.Ring

/-!
# Counting what numbered threads hold

`n` threads stand at points, and each point holds some units. `tally` is what
they hold together. When one thread goes on, the tally changes by what its two
points hold (`tally_update`).
-/

namespace SistemasOperativos.Foundation

universe u

variable {Point : Type u} {weight : Point → Nat} {n k : Nat}

/-- The units that the first `n` threads hold. -/
def tally (n : Nat) (weight : Point → Nat) (point : Nat → Point) : Nat :=
  ∑ k ∈ Finset.range n, weight (point k)

/-- One thread holds no more than all of them. -/
theorem le_tally (inside : k < n) (weight : Point → Nat) (point : Nat → Point) :
    weight (point k) ≤ tally n weight point :=
  Finset.single_le_sum (f := fun k => weight (point k)) (fun _ _ => Nat.zero_le _)
    (Finset.mem_range.mpr inside)

/-- Two threads hold no more than all of them. -/
theorem add_le_tally {j : Nat} (inside : k < n) (within : j < n) (other : j ≠ k)
    (weight : Point → Nat) (point : Nat → Point) :
    weight (point j) + weight (point k) ≤ tally n weight point := by
  rw [tally, ← Finset.sum_pair (f := fun i => weight (point i)) other]
  refine Finset.sum_le_sum_of_subset fun i member => ?_
  rcases Finset.mem_insert.mp member with rfl | last
  · exact Finset.mem_range.mpr within
  · rw [Finset.mem_singleton.mp last]
    exact Finset.mem_range.mpr inside

/-- One thread goes on to another point. -/
theorem tally_update (inside : k < n) (weight : Point → Nat) (point : Nat → Point) (next : Point) :
    tally n weight (Function.update point k next) + weight (point k) =
      tally n weight point + weight next := by
  have member : k ∈ Finset.range n := Finset.mem_range.mpr inside
  have others : ∀ j ∈ (Finset.range n).erase k,
      weight (Function.update point k next j) = weight (point j) := by
    intro j inner
    rw [Function.update_of_ne (Finset.ne_of_mem_erase inner)]
  have before := Finset.add_sum_erase _ (fun j => weight (point j)) member
  have after :=
    Finset.add_sum_erase _ (fun j => weight (Function.update point k next j)) member
  rw [Finset.sum_congr rfl others] at after
  simp only [Function.update_self] at after
  rw [tally, tally, ← before, ← after]
  omega

/-- Where nobody holds anything the tally is zero. -/
theorem tally_eq_zero {point : Nat → Point} (none : ∀ k < n, weight (point k) = 0) :
    tally n weight point = 0 :=
  Finset.sum_eq_zero fun k member => none k (Finset.mem_range.mp member)

/-- Where all threads stand at one point they hold equally much. -/
@[simp] theorem tally_const (n : Nat) (weight : Point → Nat) (point : Point) :
    tally n weight (fun _ => point) = n * weight point := by
  rw [tally, Finset.sum_const, Finset.card_range, nsmul_eq_mul, Nat.cast_id]

end SistemasOperativos.Foundation
