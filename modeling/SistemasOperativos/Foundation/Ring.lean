import SistemasOperativos.Foundation.Path
import Mathlib.Data.List.Iterate
import Mathlib.Data.List.Nodup

/-!
# Rings of pointers

A circular list is a path from a node back to itself that meets no node twice.
`Ring next c l` names the nodes of one round from `c`; `Returns next c n` says
the same by counting, without a list. The lemmas turn a ring to start at
another of its nodes and follow it when a node is linked in or taken out.
-/

namespace SistemasOperativos.Foundation

universe u

variable {α : Type u}

/-- Following `next` from `c` comes back to `c` after `n` steps and not before. -/
structure Returns (next : α → α) (c : α) (n : Nat) : Prop where
  positive : 0 < n
  back : next^[n] c = c
  first : ∀ k, 0 < k → k < n → next^[k] c ≠ c

/-- One round along `next` from `c` meets the nodes of `l`, in order. -/
structure Ring (next : α → α) (c : α) (l : List α) : Prop where
  path : Path next c l c
  nodup : l.Nodup
  inhabited : l ≠ []

/-- A path is what following `next` gives. -/
theorem Path.eq_iterate {next : α → α} {a b : α} {l : List α} (path : Path next a l b) :
    l = List.iterate next a l.length ∧ next^[l.length] a = b := by
  induction l generalizing a with
  | nil => exact ⟨rfl, path⟩
  | cons x l ih =>
      obtain ⟨rfl, rest⟩ := path
      obtain ⟨same, ends⟩ := ih rest
      exact ⟨congrArg (a :: ·) same, ends⟩

/-- Following `next` gives a path. -/
theorem Path.iterate (next : α → α) (a : α) (n : Nat) :
    Path next a (List.iterate next a n) (next^[n] a) := by
  induction n generalizing a with
  | zero => rfl
  | succ n ih => exact ⟨rfl, ih (next a)⟩

namespace Ring

variable {next next' : α → α} {c d x y : α} {l : List α}

/-- A ring has at least one element. -/
theorem positive (ring : Ring next c l) : 0 < l.length :=
  List.length_pos_of_ne_nil ring.inhabited

/-- The nodes of a ring are what following `next` for one round gives. -/
theorem eq_iterate (ring : Ring next c l) : l = List.iterate next c l.length :=
  ring.path.eq_iterate.1

/-- A ring comes back to its start after as many steps as it has nodes. -/
theorem returns (ring : Ring next c l) : Returns next c l.length where
  positive := ring.positive
  back := ring.path.eq_iterate.2
  first := by
    intro k positive bound back
    have nodes := ring.eq_iterate
    have start : l[0]? = some c := by
      rw [nodes, List.getElem?_iterate _ _ _ _ ring.positive]
      rfl
    have later : l[k]? = some c := by
      rw [nodes, List.getElem?_iterate _ _ _ _ bound, back]
    have same := (List.getElem?_inj ring.positive ring.nodup).mp (start.trans later.symm)
    omega

/-- The elements of a ring are those reached from its start in fewer steps than its length. -/
theorem mem_iff (ring : Ring next c l) : x ∈ l ↔ ∃ k, k < l.length ∧ next^[k] c = x := by
  rw [ring.eq_iterate, List.mem_iterate, List.length_iterate]
  constructor
  · rintro ⟨k, bound, rfl⟩
    exact ⟨k, bound, rfl⟩
  · rintro ⟨k, bound, rfl⟩
    exact ⟨k, bound, rfl⟩

/-- A ring holds its start. -/
theorem start_mem (ring : Ring next c l) : c ∈ l :=
  ring.mem_iff.mpr ⟨0, ring.positive, rfl⟩

/-- Only one list is the round from a node. -/
theorem unique {r : List α} (ring : Ring next c l) (other : Ring next c r) : l = r := by
  have lengths : l.length = r.length := by
    rcases Nat.lt_trichotomy l.length r.length with less | same | more
    · exact absurd ring.returns.back (other.returns.first _ ring.positive less)
    · exact same
    · exact absurd other.returns.back (ring.returns.first _ other.positive more)
  rw [ring.eq_iterate, other.eq_iterate, lengths]

/-- Only the successors of the nodes of a ring count. -/
theorem congr (same : ∀ z ∈ l, next' z = next z) (ring : Ring next c l) : Ring next' c l :=
  ⟨ring.path.congr same, ring.nodup, ring.inhabited⟩

/-- A ring can be entered at any of its nodes. -/
theorem rotate (ring : Ring next c l) (member : d ∈ l) :
    ∃ r, Ring next d r ∧ r.Perm l := by
  obtain ⟨u, v, rfl⟩ := List.append_of_mem member
  obtain ⟨m, before, rfl, after⟩ := Path.append_iff.mp ring.path
  have turned : ((m :: v) ++ u).Perm (u ++ m :: v) := List.perm_append_comm
  refine ⟨(m :: v) ++ u, ⟨?_, turned.nodup_iff.mpr ring.nodup, by simp⟩, turned⟩
  exact Path.append_iff.mpr ⟨c, ⟨rfl, after⟩, before⟩

/-- From a node of a ring, `next` leads to a node of it. -/
theorem next_mem (ring : Ring next c l) (member : x ∈ l) : next x ∈ l := by
  obtain ⟨r, turned, same⟩ := ring.rotate member
  cases r with
  | nil => exact absurd rfl turned.inhabited
  | cons z r =>
      obtain ⟨rfl, rest⟩ := turned.path
      cases r with
      | nil =>
          rw [show next x = x from rest]
          exact member
      | cons z r =>
          obtain ⟨rfl, -⟩ := rest
          exact same.mem_iff.mp (by simp)

/-- Following `next` any number of times stays on the ring. -/
theorem iterate_mem (ring : Ring next c l) (member : x ∈ l) (k : Nat) : next^[k] x ∈ l := by
  induction k with
  | zero => exact member
  | succ k ih =>
      rw [Function.iterate_succ_apply']
      exact ring.next_mem ih

/-- Different nodes of a ring have different successors. -/
theorem next_injective (ring : Ring next c l) (first : x ∈ l) (second : y ∈ l)
    (same : next x = next y) : x = y := by
  by_contra different
  obtain ⟨r, turned, perm⟩ := ring.rotate (ring.next_mem first)
  have returns := turned.returns
  have index : ∀ z ∈ l, next z = next x → z = next^[r.length - 1] (next x) := by
    intro z member leads
    obtain ⟨k, bound, rfl⟩ := turned.mem_iff.mp (perm.mem_iff.mpr member)
    rw [← Function.iterate_succ_apply' next] at leads
    rcases Nat.lt_or_ge (k + 1) r.length with less | most
    · exact absurd leads (returns.first (k + 1) (by omega) less)
    · rw [show r.length - 1 = k by omega]
  exact different ((index x first rfl).trans (index y second same.symm).symm)

/-- A node that is its own successor is alone on its ring. -/
theorem eq_of_next_self (ring : Ring next c l) (member : x ∈ l) (alone : next x = x) :
    ∀ z ∈ l, z = x := by
  intro z other
  obtain ⟨r, turned, perm⟩ := ring.rotate member
  obtain ⟨k, -, rfl⟩ := turned.mem_iff.mp (perm.mem_iff.mpr other)
  exact Function.iterate_fixed alone k

/-- Linking a new node behind the start. -/
theorem insert (ring : Ring next c l) (new : y ∉ l) (first : next' c = y)
    (second : next' y = next c) (others : ∀ z ∈ l, z ≠ c → next' z = next z) :
    ∃ r, Ring next' c r ∧ r.Perm (y :: l) := by
  cases l with
  | nil => exact absurd rfl ring.inhabited
  | cons z l =>
      obtain ⟨rfl, rest⟩ := ring.path
      have swap : (c :: y :: l).Perm (y :: c :: l) := List.Perm.swap ..
      refine ⟨c :: y :: l, ⟨⟨rfl, first, ?_⟩, ?_, by simp⟩, swap⟩
      · rw [second]
        refine rest.congr fun z member => others z (List.mem_cons_of_mem _ member) ?_
        rintro rfl
        exact (List.nodup_cons.mp ring.nodup).1 member
      · exact swap.nodup_iff.mpr (List.nodup_cons.mpr ⟨new, ring.nodup⟩)

/-- Taking the node `y` behind `x` out leaves a ring that can be entered at any
of the other nodes. -/
theorem remove (ring : Ring next c l) (member : x ∈ l) (leads : next x = y) (two : y ≠ x)
    (unlinked : next' x = next y) (others : ∀ z ∈ l, z ≠ x → next' z = next z) :
    ∃ r, (y :: r).Perm l ∧ ∀ d ∈ r, ∃ m, Ring next' d m ∧ m.Perm r := by
  obtain ⟨r, turned, perm⟩ := ring.rotate member
  cases r with
  | nil => exact absurd rfl turned.inhabited
  | cons z r =>
      obtain ⟨rfl, rest⟩ := turned.path
      cases r with
      | nil => exact absurd (leads.symm.trans rest) two
      | cons z r =>
          obtain ⟨rfl, rest⟩ := rest
          obtain rfl := leads
          have nodup := List.nodup_cons.mp turned.nodup
          have ring' : Ring next' x (x :: r) := by
            refine ⟨⟨rfl, ?_⟩, ?_, by simp⟩
            · rw [unlinked]
              refine rest.congr fun z inner => others z (perm.mem_iff.mp (by simp [inner])) ?_
              rintro rfl
              exact nodup.1 (List.mem_cons_of_mem _ inner)
            · exact List.nodup_cons.mpr ⟨fun inner => nodup.1 (List.mem_cons_of_mem _ inner),
                (List.nodup_cons.mp nodup.2).2⟩
          exact ⟨x :: r, (List.Perm.swap ..).trans perm, fun d inner => ring'.rotate inner⟩

end Ring

/-- Coming back for the first time after `n` steps makes the nodes met a ring. -/
theorem Returns.ring {next : α → α} {c : α} {n : Nat} (returns : Returns next c n) :
    Ring next c (List.iterate next c n) := by
  refine ⟨?_, ?_, ?_⟩
  · have path := Path.iterate next c n
    rwa [returns.back] at path
  · rw [List.nodup_iff_getElem?_ne_getElem?]
    intro i j before within same
    rw [List.length_iterate] at within
    rw [List.getElem?_iterate _ _ _ _ (by omega), List.getElem?_iterate _ _ _ _ within] at same
    refine returns.first (n - j + i) (by omega) (by omega) ?_
    rw [Function.iterate_add_apply, Option.some.inj same, ← Function.iterate_add_apply,
      show n - j + j = n by omega, returns.back]
  · have positive := returns.positive
    rw [ne_eq, List.iterate_eq_nil]
    omega

end SistemasOperativos.Foundation
