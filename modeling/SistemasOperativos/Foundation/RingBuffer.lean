import Mathlib.Data.List.Basic
import Mathlib.Tactic.Ring

/-!
# Ring buffers

A buffer of `size` cells read and written at positions that go around.
`window` lists the cells of a stretch, `store` writes a list into the cells
after it. Writing behind a stretch appends to it as long as the stretch does
not meet its own beginning.
-/

namespace SistemasOperativos.Foundation

universe u

variable {α : Type u} {size : Nat} [NeZero size]

/-- The content of the cell at a position. -/
def cell (cells : Vector α size) (position : Nat) : α := cells[Fin.ofNat size position]

/-- The contents of `count` cells from position `start` on. -/
def window (cells : Vector α size) (start : Nat) : Nat → List α
  | 0 => []
  | count + 1 => cell cells start :: window cells (start + 1) count

/-- Write a list into the cells from position `start` on. -/
def store (cells : Vector α size) (start : Nat) : List α → Vector α size
  | [] => cells
  | x :: xs => store (cells.setIfInBounds (start % size) x) (start + 1) xs

variable {cells : Vector α size}

/-- The cell at a position is the one at its remainder. -/
theorem getElem?_mod (start : Nat) : cells[start % size]? = some (cell cells start) := by
  have within : start % size < size := Nat.mod_lt _ (Nat.pos_of_neZero size)
  simp [cell, Fin.ofNat, within]

/-- Writing an index changes the positions with that remainder. -/
theorem cell_setIfInBounds (index start : Nat) (x : α) :
    cell (cells.setIfInBounds index x) start =
      if index = start % size then x else cell cells start := by
  simp [cell, Fin.ofNat, Vector.getElem_setIfInBounds]

/-- A cell only depends on its position around the ring. -/
theorem cell_congr {start other : Nat} (same : start % size = other % size) :
    cell cells start = cell cells other := by
  simp [cell, Fin.ofNat, same]

@[simp] theorem window_zero (start : Nat) : window cells start 0 = [] := rfl

omit [NeZero size] in
@[simp] theorem store_nil (start : Nat) : store cells start [] = cells := rfl

@[simp] theorem length_window (start count : Nat) : (window cells start count).length = count := by
  induction count generalizing start with
  | zero => rfl
  | succ count ih => simp [window, ih]

/-- A stretch is its beginning followed by its rest. -/
theorem window_add (start a b : Nat) :
    window cells start (a + b) = window cells start a ++ window cells (start + a) b := by
  induction a generalizing start with
  | zero => simp
  | succ a ih =>
      rw [Nat.add_right_comm, window, window, ih, Nat.add_assoc start 1 a, Nat.add_comm 1 a]
      rfl

/-- Only the remainder of the start counts. -/
theorem window_congr {start other : Nat} (same : start % size = other % size) (count : Nat) :
    window cells start count = window cells other count := by
  induction count generalizing start other with
  | zero => rfl
  | succ count ih =>
      have next : (start + 1) % size = (other + 1) % size := by
        rw [Nat.add_mod, same, ← Nat.add_mod]
      rw [window, window, cell_congr same, ih next]

omit [NeZero size] in
/-- Only the remainder of the start counts. -/
theorem store_congr {start other : Nat} (same : start % size = other % size) (xs : List α)
    (cells : Vector α size) : store cells start xs = store cells other xs := by
  induction xs generalizing cells start other with
  | nil => rfl
  | cons x xs ih =>
      have next : (start + 1) % size = (other + 1) % size := by
        rw [Nat.add_mod, same, ← Nat.add_mod]
      rw [store, store, same, ih next]

/-- Writing a cell outside of a stretch does not change it. -/
theorem window_set_of_ne {start position : Nat} {x : α} {count : Nat}
    (outside : ∀ k < count, (start + k) % size ≠ position) :
    window (cells.setIfInBounds position x) start count = window cells start count := by
  induction count generalizing start with
  | zero => rfl
  | succ count ih =>
      have here : position ≠ start % size := (outside 0 (by omega)).symm
      have rest := @ih (start + 1) fun k within => by
        have further := outside (k + 1) (by omega)
        rwa [show start + (k + 1) = start + 1 + k by omega] at further
      rw [window, window, rest, cell_setIfInBounds, if_neg here]

/-- Writing the cell behind a stretch that leaves room appends to it. -/
theorem window_set_next {start count : Nat} (room : count < size) (x : α) :
    window (cells.setIfInBounds ((start + count) % size) x) start (count + 1) =
      window cells start count ++ [x] := by
  have apart : ∀ k < count, (start + k) % size ≠ (start + count) % size := by
    intro k within same
    have period := Nat.sub_mod_eq_zero_of_mod_eq same.symm
    rw [show start + count - (start + k) = count - k by omega,
      Nat.mod_eq_of_lt (by omega)] at period
    omega
  rw [window_add, window_set_of_ne apart, window, window_zero, cell_setIfInBounds, if_pos rfl]

/-- Storing a list behind a stretch appends it, as long as it fits. -/
theorem window_store {start count : Nat} {xs : List α} (fits : count + xs.length ≤ size) :
    window (store cells (start + count) xs) start (count + xs.length) =
      window cells start count ++ xs := by
  induction xs generalizing cells count with
  | nil => simp
  | cons x xs ih =>
      rw [List.length_cons] at fits
      have next := @ih (cells.setIfInBounds ((start + count) % size) x) (count + 1) (by omega)
      rw [window_set_next (by omega)] at next
      rw [store, List.length_cons, Nat.add_assoc start, show count + (xs.length + 1) =
        count + 1 + xs.length by omega, next, List.append_assoc]
      rfl

end SistemasOperativos.Foundation
