import Mathlib.Order.Bounds.Basic
import SistemasOperativos.Foundation.Interval

/-!
# First fit

A search along intervals in order for the first gap that is wide enough. It finds the lowest place
of all that avoid the intervals, and if it finds none there is none (`firstFit_eq_some_iff`,
`firstFit_eq_none_iff`).
-/

namespace SistemasOperativos.Foundation

namespace Interval

/-- The intervals lie one behind the other between `lo` and `hi`, perhaps with gaps. -/
def Lined : (lo hi : Nat) → List Interval → Prop
  | lo, hi, [] => lo ≤ hi
  | lo, hi, i :: l => lo ≤ i.lo ∧ i.lo < i.hi ∧ Lined i.hi hi l

/-- The places between `lo` and `hi` where `need` addresses avoid the intervals. -/
def places (need lo hi : Nat) (l : List Interval) : Set Nat :=
  {place | lo ≤ place ∧ place + need ≤ hi ∧ ∀ i ∈ l, Disjoint ⟨place, place + need⟩ i}

/-- The first gap of the intervals that has `need` addresses. -/
def firstFit (need : Nat) : (lo hi : Nat) → List Interval → Option Nat
  | lo, hi, [] => if need ≤ hi - lo then some lo else none
  | lo, hi, i :: l => if need ≤ i.lo - lo then some lo else firstFit need i.hi hi l

variable {need lo hi place : Nat} {i : Interval} {l : List Interval}

/-- Intervals that are lined up fit between their bounds. -/
theorem Lined.le (lined : Lined lo hi l) : lo ≤ hi := by
  induction l generalizing lo with
  | nil => exact lined
  | cons i l ih =>
      obtain ⟨before, nonempty, behind⟩ := lined
      exact before.trans (nonempty.le.trans (ih behind))

/-- Each interval that is lined up lies between the bounds. -/
theorem Lined.mem (lined : Lined lo hi l) (member : i ∈ l) :
    lo ≤ i.lo ∧ i.lo < i.hi ∧ i.hi ≤ hi := by
  induction l generalizing lo with
  | nil => cases member
  | cons j l ih =>
      obtain ⟨before, nonempty, behind⟩ := lined
      rcases List.mem_cons.mp member with rfl | later
      · exact ⟨before, nonempty, behind.le⟩
      · obtain ⟨low, inside, high⟩ := ih behind later
        exact ⟨before.trans (nonempty.le.trans low), inside, high⟩

/-- Disjoint intervals sorted by where they start. -/
theorem lined_of_sorted (sorted : l.Pairwise fun a b => a.lo ≤ b.lo)
    (disjoint : l.Pairwise Disjoint) (within : ∀ i ∈ l, lo ≤ i.lo ∧ i.lo < i.hi ∧ i.hi ≤ hi)
    (room : lo ≤ hi) : Lined lo hi l := by
  induction l generalizing lo with
  | nil => exact room
  | cons i l ih =>
      obtain ⟨least, sortedRest⟩ := List.pairwise_cons.mp sorted
      obtain ⟨apart, disjointRest⟩ := List.pairwise_cons.mp disjoint
      obtain ⟨before, nonempty, ends⟩ := within i List.mem_cons_self
      refine ⟨before, nonempty, ih sortedRest disjointRest (fun j member => ?_) ends⟩
      obtain ⟨-, inhabited, last⟩ := within j (List.mem_cons_of_mem i member)
      have start := least j member
      refine ⟨?_, inhabited, last⟩
      rcases apart j member with first | second
      · exact first
      · omega

/-- A first gap that is wide enough is the lowest place. -/
theorem places_of_gap (lined : Lined lo hi (i :: l)) (gap : need ≤ i.lo - lo) :
    IsLeast (places need lo hi (i :: l)) lo := by
  obtain ⟨before, nonempty, behind⟩ := lined
  refine ⟨⟨Nat.le_refl lo, ?_, fun j member => .inl ?_⟩, fun place here => here.1⟩
  · have room := behind.le
    omega
  · rcases List.mem_cons.mp member with rfl | later
    · simp only
      omega
    · have start := (behind.mem later).1
      simp only
      omega

/-- If the first gap is too narrow, every place is behind the first interval. -/
theorem places_behind (lined : Lined lo hi (i :: l)) (narrow : ¬ need ≤ i.lo - lo) :
    places need lo hi (i :: l) = places need i.hi hi l := by
  obtain ⟨before, nonempty, behind⟩ := lined
  ext place
  constructor
  · rintro ⟨low, high, avoids⟩
    refine ⟨?_, high, fun j member => avoids j (List.mem_cons_of_mem i member)⟩
    rcases avoids i List.mem_cons_self with first | second
    · simp only at first
      omega
    · exact second
  · rintro ⟨low, high, avoids⟩
    refine ⟨by omega, high, fun j member => ?_⟩
    rcases List.mem_cons.mp member with rfl | later
    · exact .inr low
    · exact avoids j later

/-- The search finds a place exactly if it is the lowest one. -/
theorem firstFit_eq_some_iff (lined : Lined lo hi l) :
    firstFit need lo hi l = some place ↔ IsLeast (places need lo hi l) place := by
  induction l generalizing lo with
  | nil =>
      have room : lo ≤ hi := lined
      rw [firstFit]
      split
      · rename_i fits
        have least : IsLeast (places need lo hi []) lo :=
          ⟨⟨Nat.le_refl lo, by omega, nofun⟩, fun place here => here.1⟩
        exact ⟨fun found => Option.some.inj found ▸ least,
          fun other => congrArg some (least.unique other)⟩
      · rename_i narrow
        refine ⟨nofun, fun least => ?_⟩
        obtain ⟨low, high, -⟩ := least.1
        omega
  | cons i l ih =>
      rw [firstFit]
      split
      · rename_i gap
        have least := places_of_gap lined gap
        exact ⟨fun found => Option.some.inj found ▸ least,
          fun other => congrArg some (least.unique other)⟩
      · rename_i narrow
        rw [places_behind lined narrow]
        exact ih lined.2.2

/-- The search finds nothing exactly if there is no place. -/
theorem firstFit_eq_none_iff (lined : Lined lo hi l) :
    firstFit need lo hi l = none ↔ places need lo hi l = ∅ := by
  induction l generalizing lo with
  | nil =>
      rw [firstFit]
      split
      · rename_i fits
        have room : lo ≤ hi := lined
        refine ⟨nofun, fun none => ?_⟩
        have here : lo ∈ places need lo hi [] := ⟨Nat.le_refl lo, by omega, nofun⟩
        exact absurd (none ▸ here) (Set.notMem_empty lo)
      · rename_i narrow
        refine ⟨fun _ => Set.eq_empty_iff_forall_notMem.mpr fun place here => ?_, fun _ => rfl⟩
        obtain ⟨low, high, -⟩ := here
        omega
  | cons i l ih =>
      rw [firstFit]
      split
      · rename_i gap
        refine ⟨nofun, fun none => ?_⟩
        exact absurd (none ▸ (places_of_gap lined gap).1) (Set.notMem_empty lo)
      · rename_i narrow
        rw [places_behind lined narrow]
        exact ih lined.2.2

/-- Only the order of the intervals does not count. -/
theorem places_perm {r : List Interval} (perm : l.Perm r) :
    places need lo hi l = places need lo hi r := by
  ext place
  simp only [places, Set.mem_ofPred_eq, perm.mem_iff]

end Interval

end SistemasOperativos.Foundation
