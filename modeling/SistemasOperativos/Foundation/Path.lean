import Mathlib.Data.List.Basic
import Mathlib.Tactic.Ring

/-!
# Chains of pointers

`Path next a l b` says that from `a` the successor function `next` passes
through the nodes of `l`, in order, and arrives at `b`. A null-terminated list
is a path to the null address, a ring is a path from a node back to itself. The
lemmas say how a path follows an update of `next`. `BackLinks` are the pointers
back of a doubly linked list.
-/

namespace SistemasOperativos.Foundation

universe u

variable {α : Type u}

/-- Following `next` from the first address leads through the list to the last one. -/
def Path (next : α → α) : α → List α → α → Prop
  | a, [], b => a = b
  | a, x :: l, b => a = x ∧ Path next (next x) l b

instance decidablePath [DecidableEq α] (next : α → α) :
    (a : α) → (l : List α) → (b : α) → Decidable (Path next a l b)
  | a, [], b => inferInstanceAs (Decidable (a = b))
  | a, x :: l, b =>
      have := decidablePath next (next x) l b
      inferInstanceAs (Decidable (a = x ∧ Path next (next x) l b))

namespace Path

variable {next next' : α → α} {a b c x y : α} {l r : List α}

@[simp] theorem nil_iff : Path next a [] b ↔ a = b := Iff.rfl

@[simp] theorem cons_iff : Path next a (x :: l) b ↔ a = x ∧ Path next (next x) l b := Iff.rfl

/-- A path through two lists goes through an address between them. -/
theorem append_iff : Path next a (l ++ r) b ↔ ∃ m, Path next a l m ∧ Path next m r b := by
  induction l generalizing a with
  | nil => simp
  | cons x l ih => simp [ih, and_assoc]

/-- Only the successors of the nodes passed count. -/
theorem congr (same : ∀ z ∈ l, next' z = next z) (path : Path next a l b) :
    Path next' a l b := by
  induction l generalizing a with
  | nil => exact path
  | cons x l ih =>
      obtain ⟨rfl, rest⟩ := path
      refine ⟨rfl, ?_⟩
      rw [same a (List.mem_cons_self ..)]
      exact ih (fun z member => same z (List.mem_cons_of_mem _ member)) rest

/-- The last node of a path leads to its end. -/
theorem last (path : Path next a (l ++ [x]) b) : next x = b := by
  obtain ⟨m, -, rfl, rest⟩ := append_iff.mp path
  exact rest

/-- A node of a path leads to the node behind it. -/
theorem next_eq (path : Path next a (l ++ x :: y :: r) b) : next x = y := by
  obtain ⟨m, -, rfl, rest, -⟩ := append_iff.mp path
  exact rest

/-- Turning the last node of a path to another address moves the end there. -/
theorem setLast (path : Path next a (l ++ [x]) b) (last : next' x = c)
    (same : ∀ z ∈ l, next' z = next z) : Path next' a (l ++ [x]) c := by
  obtain ⟨m, before, rfl, -⟩ := append_iff.mp path
  exact append_iff.mpr ⟨m, before.congr same, rfl, last⟩

/-- Linking a new node between `x` and the node behind it. -/
theorem insertAfter (path : Path next a (l ++ x :: r) b) (first : next' x = y)
    (second : next' y = next x) (same : ∀ z ∈ l ++ r, next' z = next z) :
    Path next' a (l ++ x :: y :: r) b := by
  obtain ⟨m, before, rfl, after⟩ := append_iff.mp path
  refine append_iff.mpr ⟨m, ?_, rfl, ?_, ?_⟩
  · exact before.congr fun z member => same z (List.mem_append_left _ member)
  · rw [first]
  · rw [second]
    exact after.congr fun z member => same z (List.mem_append_right _ member)

/-- Unlinking the node `y` behind `x`. -/
theorem removeAfter (path : Path next a (l ++ x :: y :: r) b) (first : next' x = next y)
    (same : ∀ z ∈ l ++ r, next' z = next z) : Path next' a (l ++ x :: r) b := by
  obtain ⟨m, before, rfl, rfl, after⟩ := append_iff.mp path
  refine append_iff.mpr ⟨m, ?_, rfl, ?_⟩
  · exact before.congr fun z member => same z (List.mem_append_left _ member)
  · rw [first]
    exact after.congr fun z member => same z (List.mem_append_right _ member)

/-- Two paths from the same address that stop at `b` for the first time are equal. -/
theorem unique (path : Path next a l b) (other : Path next a r b) (notIn : b ∉ l)
    (notOther : b ∉ r) : l = r := by
  induction l generalizing a r with
  | nil =>
      cases r with
      | nil => rfl
      | cons y r =>
          obtain rfl := path
          obtain ⟨rfl, -⟩ := other
          simp at notOther
  | cons x l ih =>
      obtain ⟨rfl, rest⟩ := path
      cases r with
      | nil =>
          obtain rfl := other
          simp at notIn
      | cons y r =>
          obtain ⟨rfl, otherRest⟩ := other
          rw [ih rest otherRest (fun member => notIn (List.mem_cons_of_mem _ member))
            (fun member => notOther (List.mem_cons_of_mem _ member))]

/-- An address the path of a list arrives at before its end is on the list. -/
theorem mem_of_arrives (path : Path next a l b) (part : Path next a r c) (notIn : b ∉ r)
    (other : c ≠ b) : c ∈ l := by
  induction r generalizing a l with
  | nil =>
      obtain rfl := part
      cases l with
      | nil => exact absurd path other
      | cons x l =>
          obtain ⟨rfl, -⟩ := path
          simp
  | cons y r ih =>
      obtain ⟨rfl, rest⟩ := part
      cases l with
      | nil =>
          obtain rfl := path
          simp at notIn
      | cons x l =>
          obtain ⟨rfl, path⟩ := path
          exact List.mem_cons_of_mem _
            (ih path rest fun member => notIn (List.mem_cons_of_mem _ member))

end Path

/-- Every node of the list leads back to the one before it, and the first one to `a`. -/
def BackLinks (prev : α → α) : α → List α → Prop
  | _, [] => True
  | a, x :: l => prev x = a ∧ BackLinks prev x l

namespace BackLinks

variable {next prev prev' : α → α} {a b c x : α} {l r : List α}

/-- Only the predecessors of the nodes of the list count. -/
theorem congr (same : ∀ z ∈ l, prev' z = prev z) (back : BackLinks prev a l) :
    BackLinks prev' a l := by
  induction l generalizing a with
  | nil => trivial
  | cons x l ih =>
      obtain ⟨here, rest⟩ := back
      refine ⟨(same x (List.mem_cons_self ..)).trans here, ?_⟩
      exact ih (fun z member => same z (List.mem_cons_of_mem _ member)) rest

/-- Splitting the links at a node. -/
theorem append_cons_iff : BackLinks prev a (l ++ x :: r) ↔
    BackLinks prev a (l ++ [x]) ∧ BackLinks prev x r := by
  induction l generalizing a with
  | nil => simp [BackLinks]
  | cons y l ih => simp only [List.cons_append, BackLinks, ih, and_assoc]

/-- A node leads back to the one before it. -/
theorem eq_append (back : BackLinks prev a (l ++ x :: r)) :
    l = [] ∧ prev x = a ∨ ∃ before, l = before ++ [prev x] := by
  induction l generalizing a with
  | nil => exact .inl ⟨rfl, back.1⟩
  | cons y l ih =>
      rcases ih back.2 with ⟨rfl, here⟩ | ⟨before, split⟩
      · exact .inr ⟨[], by rw [here, List.nil_append]⟩
      · exact .inr ⟨y :: before, by rw [split, List.cons_append]⟩

/-- The links lead back along the path. -/
theorem prev_next (back : BackLinks prev a l) (path : Path next b l c) (member : x ∈ l)
    (more : next x ≠ c) : prev (next x) = x := by
  obtain ⟨before, rest, rfl⟩ := List.append_of_mem member
  cases rest with
  | nil => exact absurd path.last more
  | cons y rest =>
      rw [path.next_eq]
      exact (append_cons_iff.mp back).2.1

end BackLinks

end SistemasOperativos.Foundation
