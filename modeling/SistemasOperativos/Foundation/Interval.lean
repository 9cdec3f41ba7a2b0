import Mathlib.Data.List.Chain
import Mathlib.Tactic.Ring

/-!
# Lists of address intervals

Half-open intervals of addresses in the order of a list. An interval of a
list of disjoint intervals may be cut in two, and two that touch may be joined.
`Tiling` says that neighbours of the same region touch, `Tiles` that the intervals make up a
region.
-/

namespace SistemasOperativos.Foundation

/-- The addresses from `lo` up to but not including `hi`. -/
structure Interval where
  lo : Nat
  hi : Nat
  deriving DecidableEq, Repr

namespace Interval

/-- One of the intervals ends where or before the other starts. -/
def Disjoint (a b : Interval) : Prop := a.hi ≤ b.lo ∨ b.hi ≤ a.lo

instance (a b : Interval) : Decidable (a.Disjoint b) := inferInstanceAs (Decidable (_ ∨ _))

/-- The second interval lies in the first. -/
def Contains (a b : Interval) : Prop := a.lo ≤ b.lo ∧ b.hi ≤ a.hi

instance (a b : Interval) : Decidable (a.Contains b) := inferInstanceAs (Decidable (_ ∧ _))

/-- It does not matter which of two intervals is named first. -/
theorem Disjoint.symm {a b : Interval} (disjoint : a.Disjoint b) : b.Disjoint a :=
  Or.symm disjoint

/-- Parts of disjoint intervals are disjoint. -/
theorem Disjoint.mono {a b c d : Interval} (disjoint : a.Disjoint b) (first : a.Contains c)
    (second : b.Contains d) : c.Disjoint d := by
  unfold Disjoint Contains at *
  omega

/-- The address lies in the interval. -/
def Has (a : Interval) (address : Nat) : Prop := a.lo ≤ address ∧ address < a.hi

instance (a : Interval) (address : Nat) : Decidable (a.Has address) :=
  inferInstanceAs (Decidable (_ ∧ _))

/-- The two addresses lie in one of the regions. -/
def Together (regions : List Interval) (a b : Nat) : Prop :=
  ∃ i ∈ regions, i.Has a ∧ i.Has b

instance (regions : List Interval) (a b : Nat) : Decidable (Together regions a b) :=
  inferInstanceAs (Decidable (∃ i ∈ regions, _))

/-- An address lies in one of a list of disjoint intervals at most. -/
theorem eq_of_has {regions : List Interval} (disjoint : regions.Pairwise Disjoint)
    {i j : Interval} (memberI : i ∈ regions) (memberJ : j ∈ regions) {address : Nat}
    (hasI : i.Has address) (hasJ : j.Has address) : i = j := by
  have clash : ∀ k l : Interval, k.Has address → l.Has address → ¬ k.Disjoint l := by
    intro k l hasK hasL apart
    unfold Has Disjoint at *
    omega
  induction disjoint with
  | nil => cases memberI
  | cons apart _ ih =>
      rcases List.mem_cons.mp memberI with rfl | restI
      · rcases List.mem_cons.mp memberJ with rfl | restJ
        · rfl
        · exact absurd (apart j restJ) (clash i j hasI hasJ)
      · rcases List.mem_cons.mp memberJ with rfl | restJ
        · exact absurd (apart i restI) (clash j i hasJ hasI)
        · exact ih restI restJ

/-- Disjoint regions are classes. -/
theorem Together.trans {regions : List Interval} (disjoint : regions.Pairwise Disjoint)
    {a b c : Nat} (first : Together regions a b) (second : Together regions b c) :
    Together regions a c := by
  obtain ⟨i, memberI, hasA, hasB⟩ := first
  obtain ⟨j, memberJ, hasB', hasC⟩ := second
  obtain rfl := eq_of_has disjoint memberI memberJ hasB hasB'
  exact ⟨i, memberI, hasA, hasC⟩

/-- It does not matter which of two addresses is named first. -/
theorem Together.symm {regions : List Interval} {a b : Nat} (together : Together regions a b) :
    Together regions b a := by
  obtain ⟨i, member, hasA, hasB⟩ := together
  exact ⟨i, member, hasB, hasA⟩

/-- Addresses of one region are in the same regions. -/
theorem Together.has_iff {regions : List Interval} (disjoint : regions.Pairwise Disjoint)
    {a b : Nat} (together : Together regions a b) {i : Interval} (member : i ∈ regions) :
    i.Has a ↔ i.Has b := by
  obtain ⟨j, memberJ, hasA, hasB⟩ := together
  constructor
  · intro has
    obtain rfl := eq_of_has disjoint member memberJ has hasA
    exact hasB
  · intro has
    obtain rfl := eq_of_has disjoint member memberJ has hasB
    exact hasA

variable {l r : List Interval} {s m m' e : Nat}

/-- Cutting an interval in two keeps the list disjoint. -/
theorem pairwise_cut (disjoint : (l ++ ⟨s, e⟩ :: r).Pairwise Disjoint) (lower : s ≤ m)
    (upper : m ≤ e) : (l ++ ⟨s, m⟩ :: ⟨m, e⟩ :: r).Pairwise Disjoint := by
  simp only [List.pairwise_append, List.pairwise_cons, List.mem_cons, forall_eq_or_imp] at *
  obtain ⟨left, ⟨before, right⟩, across⟩ := disjoint
  have first : Contains ⟨s, e⟩ ⟨s, m⟩ := ⟨Nat.le_refl s, upper⟩
  have second : Contains ⟨s, e⟩ ⟨m, e⟩ := ⟨lower, Nat.le_refl e⟩
  have self : ∀ i : Interval, i.Contains i := fun i => ⟨Nat.le_refl _, Nat.le_refl _⟩
  refine ⟨left, ⟨⟨.inl (Nat.le_refl m), fun i member => (before i member).mono first (self i)⟩,
    fun i member => (before i member).mono second (self i), right⟩, fun i member => ?_⟩
  obtain ⟨cut, others⟩ := across i member
  exact ⟨cut.mono (self i) first, cut.mono (self i) second, others⟩

/-- A nonempty interval that avoids two touching ones avoids their union. -/
theorem Disjoint.join {i : Interval} (nonempty : i.lo < i.hi) (first : Disjoint ⟨s, m⟩ i)
    (second : Disjoint ⟨m, e⟩ i) : Disjoint ⟨s, e⟩ i := by
  unfold Disjoint at *
  simp only at *
  omega

/-- Joining two touching intervals keeps the list disjoint. -/
theorem pairwise_join (disjoint : (l ++ ⟨s, m⟩ :: ⟨m, e⟩ :: r).Pairwise Disjoint)
    (nonempty : ∀ i ∈ l ++ r, i.lo < i.hi) : (l ++ ⟨s, e⟩ :: r).Pairwise Disjoint := by
  simp only [List.pairwise_append, List.pairwise_cons, List.mem_cons, forall_eq_or_imp] at *
  obtain ⟨left, ⟨⟨-, first⟩, second, right⟩, across⟩ := disjoint
  refine ⟨left, ⟨fun i member => ?_, right⟩, fun i member => ?_⟩
  · exact (first i member).join (nonempty i (List.mem_append_right _ member)) (second i member)
  · obtain ⟨firstAcross, secondAcross, others⟩ := across i member
    have inhabited := nonempty i (List.mem_append_left _ member)
    exact ⟨(firstAcross.symm.join inhabited secondAcross.symm).symm, others⟩

/-- Neighbours in the list that start in the same region touch. -/
def Tiling (region : Nat → Nat → Prop) : List Interval → Prop :=
  List.IsChain fun a b => region a.lo b.lo → a.hi = b.lo

variable {region : Nat → Nat → Prop}

/-- Neighbours of one region touch. -/
theorem Tiling.touch {a b : Interval} (tiling : Tiling region (l ++ a :: b :: r))
    (same : region a.lo b.lo) : a.hi = b.lo :=
  (List.isChain_append_cons_cons.mp tiling).2.1 same

/-- Cutting an interval in two keeps the tiling. -/
theorem Tiling.cut (tiling : Tiling region (l ++ ⟨s, e⟩ :: r))
    (inherits : ∀ b, region m b → region s b) :
    Tiling region (l ++ ⟨s, m⟩ :: ⟨m, e⟩ :: r) := by
  simp only [Tiling, List.isChain_append, List.isChain_cons, List.head?_cons, Option.mem_def,
    Option.some.injEq, forall_eq'] at *
  obtain ⟨left, ⟨next, right⟩, across⟩ := tiling
  exact ⟨left, ⟨fun _ => trivial, fun b head same => next b head (inherits b.lo same), right⟩,
    across⟩

/-- Joining two neighbours keeps the tiling. -/
theorem Tiling.join (tiling : Tiling region (l ++ ⟨s, m⟩ :: ⟨m', e⟩ :: r))
    (inherits : ∀ b, region s b → region m' b) : Tiling region (l ++ ⟨s, e⟩ :: r) := by
  simp only [Tiling, List.isChain_append, List.isChain_cons, List.head?_cons, Option.mem_def,
    Option.some.injEq, forall_eq'] at *
  obtain ⟨left, ⟨-, next, right⟩, across⟩ := tiling
  exact ⟨left, ⟨fun b head same => next b head (inherits b.lo same), right⟩, across⟩

/-- A new last interval that starts in a region of its own keeps the tiling. -/
theorem Tiling.extend (tiling : Tiling region l) {a : Interval}
    (alone : ∀ b ∈ l, ¬ region b.lo a.lo) : Tiling region (l ++ [a]) := by
  refine List.isChain_append.mpr ⟨tiling, List.isChain_singleton a, fun b last c only same => ?_⟩
  obtain rfl : a = c := by simpa using only
  exact absurd same (alone b (List.mem_of_getLast? last))

/-- A tiling for more regions is one for fewer. -/
theorem Tiling.mono {region' : Nat → Nat → Prop} (tiling : Tiling region l)
    (fewer : ∀ a ∈ l, ∀ b ∈ l, region' a.lo b.lo → region a.lo b.lo) : Tiling region' l := by
  refine List.IsChain.imp_of_mem_imp ?_ tiling
  intro a b memberA memberB touch same
  exact touch (fewer a memberA b memberB same)

/-- The intervals of the list, one behind the other, make up the addresses from `lo` to `hi`. -/
def Tiles : Nat → Nat → List Interval → Prop
  | lo, hi, [] => lo = hi
  | lo, hi, i :: l => i.lo = lo ∧ lo < i.hi ∧ Tiles i.hi hi l

variable {i : Interval} {lo hi : Nat}

/-- Two lists of intervals tile an area together if they meet somewhere in it. -/
theorem Tiles.append_iff :
    Tiles lo hi (l ++ r) ↔ ∃ mid, Tiles lo mid l ∧ Tiles mid hi r := by
  induction l generalizing lo with
  | nil => simp [Tiles]
  | cons i l ih => simp [Tiles, ih, and_assoc]

/-- The intervals of a tiling take up all of it. -/
theorem Tiles.sum_eq (tiles : Tiles lo hi l) : lo + (l.map fun j => j.hi - j.lo).sum = hi := by
  induction l generalizing lo with
  | nil => exact tiles
  | cons j l ih =>
      obtain ⟨start, nonempty, behind⟩ := tiles
      have ends := ih behind
      rw [List.map_cons, List.sum_cons]
      omega

/-- The intervals behind one of a tiling take up what is left. -/
theorem Tiles.rest (tiles : Tiles lo hi (l ++ i :: r)) :
    i.hi + (r.map fun j => j.hi - j.lo).sum = hi := by
  obtain ⟨_, -, -, -, behind⟩ := Tiles.append_iff.mp tiles
  exact behind.sum_eq

/-- Cutting an interval of a tiling in two. -/
theorem Tiles.cut (tiles : Tiles lo hi (l ++ ⟨s, e⟩ :: r)) (lower : s < m) (upper : m < e) :
    Tiles lo hi (l ++ ⟨s, m⟩ :: ⟨m, e⟩ :: r) := by
  obtain ⟨mid, before, rfl, -, behind⟩ := Tiles.append_iff.mp tiles
  exact Tiles.append_iff.mpr ⟨_, before, rfl, lower, rfl, upper, behind⟩

/-- Joining two neighbours of a tiling. -/
theorem Tiles.join (tiles : Tiles lo hi (l ++ ⟨s, m⟩ :: ⟨m', e⟩ :: r)) :
    Tiles lo hi (l ++ ⟨s, e⟩ :: r) := by
  obtain ⟨mid, before, rfl, lower, rfl, upper, behind⟩ := Tiles.append_iff.mp tiles
  exact Tiles.append_iff.mpr ⟨_, before, rfl, lower.trans upper, behind⟩

end Interval

end SistemasOperativos.Foundation
