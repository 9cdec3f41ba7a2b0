import SistemasOperativos.Foundation.Ring
import Mathlib.Data.List.Rotate

/-!
# The order of turns

The nodes of a ring from the one behind the current node on, as a list: who comes first is
looked at first, and the current node comes last. Giving a node its turn rotates the list, a
node linked in behind the current one comes first, and a node taken out leaves the others in
their order. How far a node is from its turn is its index in the list.
-/

namespace SistemasOperativos.Foundation

universe u v

variable {α : Type u} {β : Type v}

/-! ## The list -/

section Order

variable [DecidableEq α] {a b : α} {x y order : List α}

/-- The order after the turn of `a`: those that were passed go to the end with it. -/
def afterTurn (a : α) (order : List α) : List α := order.rotate (order.idxOf a + 1)

/-- The turn of `a` moves those in front of it, and `a` itself, behind the others. -/
theorem afterTurn_append (new : a ∉ x) : afterTurn a (x ++ a :: y) = y ++ (x ++ [a]) := by
  have index : (x ++ a :: y).idxOf a = x.length := by
    rw [List.idxOf_append_of_notMem new, List.idxOf_cons_self, Nat.add_zero]
  have parts : x ++ a :: y = (x ++ [a]) ++ y := by simp
  have length : x.length + 1 = (x ++ [a]).length := by simp
  rw [afterTurn, index, parts, length, List.rotate_append_length_eq]

/-- A node behind the one that had the turn is nearer to its own by the nodes passed. -/
theorem idxOf_afterTurn (nodup : (x ++ b :: y).Nodup) (behind : a ∈ y) :
    (afterTurn b (x ++ b :: y)).idxOf a + (x.length + 1) = (x ++ b :: y).idxOf a := by
  obtain ⟨-, rest, apart⟩ := List.nodup_append.mp nodup
  have notFirst : a ∉ x := fun member => apart a member a (List.mem_cons_of_mem _ behind) rfl
  have other : b ≠ a := by
    rintro rfl
    exact (List.nodup_cons.mp rest).1 behind
  have new : b ∉ x := fun member => apart b member b List.mem_cons_self rfl
  rw [afterTurn_append new, List.idxOf_append_of_mem behind, List.idxOf_append_of_notMem notFirst,
    List.idxOf_cons_ne _ other]
  omega

/-- Taking another node out moves a node forward, if at all. -/
theorem idxOf_erase_le (other : b ≠ a) : (order.erase b).idxOf a ≤ order.idxOf a := by
  induction order with
  | nil => exact Nat.le_refl _
  | cons z order ih =>
      rw [List.erase_cons]
      by_cases first : z = b
      · subst first
        rw [if_pos (beq_self_eq_true _), List.idxOf_cons_ne _ other]
        exact Nat.le_succ _
      · rw [if_neg (by simpa using first)]
        by_cases here : z = a
        · subst here
          rw [List.idxOf_cons_self, List.idxOf_cons_self]
        · rw [List.idxOf_cons_ne _ here, List.idxOf_cons_ne _ here]
          exact Nat.succ_le_succ ih

/-- Where names tell the nodes apart, a node is taken out with its name. -/
theorem map_erase_of_nodup [DecidableEq β] {name : α → β} (nodup : (order.map name).Nodup)
    (member : a ∈ order) : (order.erase a).map name = (order.map name).erase (name a) := by
  obtain ⟨x, y, rfl⟩ := List.append_of_mem member
  rw [List.map_append, List.map_cons] at nodup ⊢
  obtain ⟨-, -, apart⟩ := List.nodup_append.mp nodup
  have newName : name a ∉ x.map name := fun inner =>
    apart _ inner _ List.mem_cons_self rfl
  have new : a ∉ x := fun inner => newName (List.mem_map_of_mem inner)
  rw [List.erase_append_right _ new, List.erase_cons_head, List.erase_append_right _ newName,
    List.erase_cons_head, List.map_append]

end Order

/-! ## The ring -/

namespace Ring

variable {next next' : α → α} {c d x y : α} {l r : List α}

/-- The order behind another node of the ring. -/
theorem behind (ring : Ring next c (l ++ d :: r)) : Ring next (next d) (r ++ (l ++ [d])) := by
  obtain ⟨m, before, rfl, after⟩ := Path.append_iff.mp ring.path
  refine ⟨Path.append_iff.mpr ⟨c, after, Path.append_iff.mpr ⟨m, before, rfl, rfl⟩⟩, ?_, by simp⟩
  have turned : (r ++ (l ++ [m])).Perm (l ++ m :: r) := by
    rw [← List.append_assoc]
    exact (List.perm_append_singleton m _).trans
      ((List.perm_append_comm.cons m).trans List.perm_middle.symm)
  exact turned.nodup_iff.mpr ring.nodup

/-- The node that a round from the one behind it ends with. -/
theorem ends (ring : Ring next (next c) l) (member : c ∈ l) : ∃ r, l = r ++ [c] := by
  obtain ⟨r, d, rfl⟩ := List.eq_nil_or_concat l |>.resolve_left ring.inhabited
  rw [List.concat_eq_append] at ring member ⊢
  have last : next d = next c := ring.path.last
  rw [← ring.next_injective (by simp) member last]
  exact ⟨r, rfl⟩

/-- A node linked in behind `c` comes first. -/
theorem link (ring : Ring next (next c) l) (member : c ∈ l) (new : y ∉ l) (first : next' c = y)
    (second : next' y = next c) (others : ∀ z ∈ l, z ≠ c → next' z = next z) :
    Ring next' (next' c) (y :: l) := by
  refine ⟨?_, List.nodup_cons.mpr ⟨new, ring.nodup⟩, by simp⟩
  obtain ⟨r, rfl⟩ := ring.ends member
  obtain ⟨-, -, apart⟩ := List.nodup_append.mp ring.nodup
  rw [first]
  refine ⟨rfl, ?_⟩
  rw [second]
  exact ring.path.setLast first fun z inner =>
    others z (List.mem_append_left _ inner) (apart z inner c List.mem_cons_self)

/-- The node `y` behind `x` taken out of a round that does not start at it. -/
theorem unlink [DecidableEq α] (ring : Ring next c l) (before : x ∈ l) (leads : next x = y)
    (inner : y ≠ c) (unlinked : next' x = next y) (others : ∀ z ∈ l, z ≠ x → next' z = next z) :
    Ring next' c (l.erase y) := by
  have member : y ∈ l := leads ▸ ring.next_mem before
  obtain ⟨u, v, rfl⟩ := List.append_of_mem member
  rcases List.eq_nil_or_concat u with rfl | ⟨w, z, rfl⟩
  · exact absurd ring.path.1.symm inner
  · rw [List.concat_eq_append] at *
    rw [List.append_assoc, List.singleton_append] at ring before others member ⊢
    have isBefore : next z = y := ring.path.next_eq
    obtain rfl := ring.next_injective (by simp) before (isBefore.trans leads.symm)
    obtain ⟨-, rest, apart⟩ := List.nodup_append.mp ring.nodup
    have notFirst : y ∉ w := fun early => apart y early y (by simp) rfl
    have other : y ≠ z := by
      rintro rfl
      exact (List.nodup_cons.mp rest).1 List.mem_cons_self
    have erased : (w ++ z :: y :: v).erase y = w ++ z :: v := by
      rw [List.erase_append_right _ notFirst, List.erase_cons_tail (by simpa using other.symm),
        List.erase_cons_head]
    refine erased ▸ ⟨ring.path.removeAfter unlinked fun a inside => others a ?_ ?_, ?_, by simp⟩
    · rcases List.mem_append.mp inside with early | late
      · exact List.mem_append_left _ early
      · exact List.mem_append_right _ (by simp [late])
    · rintro rfl
      rcases List.mem_append.mp inside with early | late
      · exact apart a early a List.mem_cons_self rfl
      · exact (List.nodup_cons.mp rest).1 (List.mem_cons_of_mem _ late)
    · exact ring.nodup.sublist (List.Sublist.append_left
        (List.Sublist.cons_cons z (List.sublist_cons_self y v)) w)

/-- The same with the round from the node behind `c`, which may be the one taken out. -/
theorem unlinkBehind [DecidableEq α] (ring : Ring next (next c) l) (member : c ∈ l)
    (before : x ∈ l) (leads : next x = y) (two : y ≠ x) (unlinked : next' x = next y)
    (others : ∀ z ∈ l, z ≠ x → next' z = next z) : Ring next' (next' c) (l.erase y) := by
  have inside : y ∈ l := leads ▸ ring.next_mem before
  by_cases isCurrent : y = c
  · subst isCurrent
    have leaves : y ≠ next y := fun alone =>
      two (ring.eq_of_next_self inside alone.symm x before).symm
    rw [others y inside two]
    exact ring.unlink before leads leaves unlinked others
  · obtain ⟨r, rfl⟩ := ring.ends member
    obtain ⟨m, path, rfl, -⟩ := Path.append_iff.mp ring.path
    have swap : (m :: r).Perm (r ++ [m]) := (List.perm_append_singleton m r).symm
    have around : Ring next m (m :: r) := ⟨⟨rfl, path⟩, swap.nodup_iff.mpr ring.nodup, by simp⟩
    have shrunk := around.unlink (swap.mem_iff.mpr before) leads isCurrent unlinked
      fun z inner => others z (swap.mem_iff.mp inner)
    rw [List.erase_cons_tail (by simpa using Ne.symm isCurrent)] at shrunk
    have inner : y ∈ r := (List.mem_cons.mp (swap.mem_iff.mpr inside)).resolve_left isCurrent
    rw [List.erase_append_left _ inner]
    exact Ring.behind (l := []) shrunk

end Ring

end SistemasOperativos.Foundation
