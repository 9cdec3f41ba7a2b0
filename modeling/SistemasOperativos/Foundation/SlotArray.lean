import Mathlib.Data.List.Basic
import Mathlib.Data.List.Nodup
import Mathlib.Tactic.Ring

/-!
# Fixed arrays of slots with a vacant mark

A waiting list kept in an array of fixed length stores its entries in any slot
whose content is the mark `vacant`. `occupied` is the list of entries in slot
order. Storing into the first vacant slot adds one entry, clearing the first
occupied slot takes the first entry away, and there is a vacant slot exactly
when fewer entries than slots are stored.
-/

namespace SistemasOperativos.Foundation

universe u

variable {α : Type u} [DecidableEq α]

/-- The entries of the array, in slot order. -/
def occupied (vacant : α) (slots : List α) : List α := slots.filter (· ≠ vacant)

/-- The lowest slot that holds the mark. -/
def vacantSlot (vacant : α) (slots : List α) : Option Nat := slots.findIdx? (· = vacant)

/-- The lowest slot that holds an entry. -/
def occupiedSlot (vacant : α) (slots : List α) : Option Nat := slots.findIdx? (· ≠ vacant)

/-- No entry stands behind the lowest slot that holds the mark. -/
def Packed (vacant : α) (slots : List α) : Prop :=
  ∀ i ∈ vacantSlot vacant slots, occupied vacant (slots.drop i) = []

instance (vacant : α) (slots : List α) : Decidable (Packed vacant slots) :=
  inferInstanceAs (Decidable (∀ i ∈ vacantSlot vacant slots, _))

variable {vacant : α}

/-- A vacant first slot is skipped. -/
@[simp] theorem occupied_cons_vacant (slots : List α) :
    occupied vacant (vacant :: slots) = occupied vacant slots := by
  simp [occupied]

/-- An occupied first slot is the first entry. -/
theorem occupied_cons {x : α} (entry : x ≠ vacant) (slots : List α) :
    occupied vacant (x :: slots) = x :: occupied vacant slots := by
  simp [occupied, entry]

/-- The entries are the slots that are not vacant. -/
@[simp] theorem mem_occupied {slots : List α} {x : α} :
    x ∈ occupied vacant slots ↔ x ∈ slots ∧ x ≠ vacant := by
  simp [occupied]

/-- An array of marks has no entries. -/
theorem occupied_eq_nil {slots : List α} :
    occupied vacant slots = [] ↔ ∀ x ∈ slots, x = vacant := by
  simp [occupied, List.filter_eq_nil_iff]

/-- There is room exactly when fewer entries than slots are stored. -/
theorem vacantSlot_isSome {slots : List α} :
    (vacantSlot vacant slots).isSome ↔ (occupied vacant slots).length < slots.length := by
  have split := List.length_filter_lt_length_iff_exists
    (p := fun x => decide (x ≠ vacant)) (l := slots)
  rw [occupied, split, vacantSlot, List.findIdx?_isSome]
  simp

/-- Storing into the lowest vacant slot adds one entry. -/
theorem occupied_set_vacantSlot {slots : List α} {i : Nat} {x : α}
    (room : vacantSlot vacant slots = some i) (entry : x ≠ vacant) :
    (occupied vacant (slots.set i x)).Perm (x :: occupied vacant slots) := by
  induction slots generalizing i with
  | nil => simp [vacantSlot] at room
  | cons y slots ih =>
      by_cases mark : y = vacant
      · subst mark
        obtain rfl : i = 0 := by simpa [vacantSlot, List.findIdx?_cons, eq_comm] using room
        rw [List.set_cons_zero, occupied_cons entry, occupied_cons_vacant]
      · obtain ⟨j, here, rfl⟩ : ∃ j, vacantSlot vacant slots = some j ∧ j + 1 = i := by
          simpa [vacantSlot, List.findIdx?_cons, mark] using room
        rw [List.set_cons_succ, occupied_cons mark, occupied_cons mark]
        exact ((ih here).cons y).trans (List.Perm.swap x y _)

/-- Storing into the lowest vacant slot of a packed array adds the entry at the end. -/
theorem occupied_set_packed {slots : List α} {i : Nat} {x : α}
    (room : vacantSlot vacant slots = some i) (entry : x ≠ vacant)
    (packed : Packed vacant slots) :
    occupied vacant (slots.set i x) = occupied vacant slots ++ [x] := by
  have rest := packed i room
  clear packed
  induction slots generalizing i with
  | nil => simp [vacantSlot] at room
  | cons y slots ih =>
      by_cases mark : y = vacant
      · subst mark
        obtain rfl : i = 0 := by simpa [vacantSlot, List.findIdx?_cons, eq_comm] using room
        rw [List.drop_zero, occupied_cons_vacant] at rest
        rw [List.set_cons_zero, occupied_cons entry, occupied_cons_vacant, rest]
        rfl
      · obtain ⟨j, here, rfl⟩ : ∃ j, vacantSlot vacant slots = some j ∧ j + 1 = i := by
          simpa [vacantSlot, List.findIdx?_cons, mark] using room
        rw [List.set_cons_succ, occupied_cons mark, occupied_cons mark, ih here rest]
        rfl

/-- Clearing the lowest occupied slot takes the first entry away. -/
theorem occupied_set_occupiedSlot {slots : List α} {i : Nat}
    (found : occupiedSlot vacant slots = some i) :
    ∃ x, slots[i]? = some x ∧
      occupied vacant slots = x :: occupied vacant (slots.set i vacant) := by
  induction slots generalizing i with
  | nil => simp [occupiedSlot] at found
  | cons y slots ih =>
      by_cases mark : y = vacant
      · subst mark
        obtain ⟨j, here, rfl⟩ : ∃ j, occupiedSlot y slots = some j ∧ j + 1 = i := by
          simpa [occupiedSlot, List.findIdx?_cons] using found
        obtain ⟨x, stored, entries⟩ := ih here
        refine ⟨x, by simpa using stored, ?_⟩
        rw [List.set_cons_succ, occupied_cons_vacant, occupied_cons_vacant, entries]
      · obtain rfl : i = 0 := by simpa [occupiedSlot, List.findIdx?_cons, mark] using found.symm
        refine ⟨y, by simp, ?_⟩
        rw [List.set_cons_zero, occupied_cons mark, occupied_cons_vacant]

/-- No occupied slot is found exactly when there is no entry. -/
theorem occupiedSlot_eq_none {slots : List α} :
    occupiedSlot vacant slots = none ↔ occupied vacant slots = [] := by
  rw [occupied_eq_nil, occupiedSlot, List.findIdx?_eq_none_iff]
  simp

/-! ## Tables of entries that are in use or free -/

/-- Taking one free entry adds one to the number of entries in use. -/
theorem countP_range_insert {p q : Nat → Bool} {n size : Nat} (inside : n < size)
    (before : p n = false) (after : q n = true) (others : ∀ k, k ≠ n → q k = p k) :
    (List.range size).countP q = (List.range size).countP p + 1 := by
  induction size with
  | zero => omega
  | succ size ih =>
      rw [List.range_succ, List.countP_append, List.countP_append]
      by_cases last : n = size
      · subst last
        have lower : (List.range n).countP q = (List.range n).countP p := by
          apply List.countP_congr
          intro k listed
          rw [others k (Nat.ne_of_lt (List.mem_range.mp listed))]
        simp [lower, before, after]
      · rw [ih (by omega)]
        simp only [List.countP_singleton, others size (Ne.symm last)]
        omega

end SistemasOperativos.Foundation
