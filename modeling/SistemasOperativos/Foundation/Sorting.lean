import Mathlib.Data.List.Basic

/-!
# Sorting by a comparison that need not be consistent

A merge sort brings a list in order also if its comparison contradicts itself where the order
has no preference: it may answer yes both ways there, or no both ways. `Answers` is what it has to
get right.
-/

namespace SistemasOperativos.Foundation

universe u

variable {α : Type u} {le : α → α → Bool} {r : α → α → Prop} {l xs ys : List α}

/-- On the members of the list the comparison answers as the order does, and anything where
the order holds both ways. -/
structure Answers (le : α → α → Bool) (r : α → α → Prop) (l : List α) : Prop where
  yes : ∀ a ∈ l, ∀ b ∈ l, le a b = true → r a b
  no : ∀ a ∈ l, ∀ b ∈ l, le a b = false → r b a

/-- A comparison that is right on a list is right on a part of it. -/
theorem Answers.mono (answers : Answers le r l) (fewer : xs ⊆ l) : Answers le r xs where
  yes a first b second := answers.yes a (fewer first) b (fewer second)
  no a first b second := answers.no a (fewer first) b (fewer second)

/-- Merging two lists in order. -/
theorem pairwise_merge (trans : ∀ a b c, r a b → r b c → r a c)
    (answers : Answers le r (xs ++ ys)) (first : xs.Pairwise r) (second : ys.Pairwise r) :
    (List.merge xs ys le).Pairwise r := by
  induction xs generalizing ys with
  | nil => simpa using second
  | cons x xs ihFirst =>
      induction ys with
      | nil => simpa using first
      | cons y ys ihSecond =>
          obtain ⟨least, firstRest⟩ := List.pairwise_cons.mp first
          obtain ⟨least', secondRest⟩ := List.pairwise_cons.mp second
          by_cases before : le x y = true
          · have ordered := answers.yes x (by simp) y (by simp) before
            rw [List.cons_merge_cons_pos _ _ _ before, List.pairwise_cons]
            refine ⟨fun z member => ?_, ihFirst (answers.mono (by simp)) firstRest second⟩
            rcases List.mem_merge.mp member with inside | inside
            · exact least z inside
            · rcases List.mem_cons.mp inside with rfl | later
              · exact ordered
              · exact trans x y z ordered (least' z later)
          · have ordered := answers.no x (by simp) y (by simp) (Bool.eq_false_iff.mpr before)
            rw [List.cons_merge_cons_neg _ _ _ before, List.pairwise_cons]
            refine ⟨fun z member => ?_, ihSecond (answers.mono ?_) secondRest⟩
            · rcases List.mem_merge.mp member with inside | inside
              · rcases List.mem_cons.mp inside with rfl | later
                · exact ordered
                · exact trans y x z ordered (least z later)
              · exact least' z inside
            · intro z member
              simp only [List.mem_append, List.mem_cons] at member ⊢
              tauto

/-- A merge sort brings the list in order. -/
theorem pairwise_mergeSort (trans : ∀ a b c, r a b → r b c → r a c) (answers : Answers le r l) :
    (l.mergeSort le).Pairwise r := by
  -- The induction is on the length, as the halves are no sublists by structure.
  induction size : l.length using Nat.strongRecOn generalizing l with
  | ind n ih =>
      match l with
      | [] => simp
      | [a] => simp
      | a :: b :: l =>
          have half : (a :: b :: l).length = l.length + 2 := rfl
          rw [List.mergeSort]
          simp only [List.MergeSort.Internal.splitInTwo_fst,
            List.MergeSort.Internal.splitInTwo_snd]
          refine pairwise_merge trans (answers.mono ?_) ?_ ?_
          · intro z member
            rcases List.mem_append.mp member with inside | inside
            · exact List.mem_of_mem_take (List.mem_mergeSort.mp inside)
            · exact List.mem_of_mem_drop (List.mem_mergeSort.mp inside)
          · refine ih _ ?_ (answers.mono fun z => List.mem_of_mem_take) rfl
            rw [List.length_take]
            omega
          · refine ih _ ?_ (answers.mono fun z => List.mem_of_mem_drop) rfl
            rw [List.length_drop]
            omega

end SistemasOperativos.Foundation
