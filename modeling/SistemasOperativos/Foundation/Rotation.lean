import SistemasOperativos.Foundation.Ring
import Mathlib.Dynamics.PeriodicPts.Defs

/-!
# Taking turns on a ring

A walk that always goes on to the first node ahead with a property `p` meets
the nodes of a ring that have it in the order of the ring, round after round.
`Finds next p a b` is one search of such a walk; `Ring.skip` says that the nodes
with `p` are a ring under the searches, and `Ring.visits` and `Ring.round_perm`
say the same of a sequence of nodes.
-/

namespace SistemasOperativos.Foundation

universe u

variable {α : Type u}

/-- Following `next` from `a`, the first node with `p` is `b`. -/
def Finds (next : α → α) (p : α → Prop) (a b : α) : Prop :=
  ∃ k, next^[k] a = b ∧ p b ∧ ∀ j < k, ¬ p (next^[j] a)

namespace Finds

variable {next : α → α} {p : α → Prop} {a b d : α}

/-- What a search finds has the property. -/
theorem found (finds : Finds next p a b) : p b := finds.choose_spec.2.1

/-- A search that starts at an element with the property finds it. -/
theorem here (holds : p a) : Finds next p a a :=
  ⟨0, rfl, holds, fun _ impossible => absurd impossible (Nat.not_lt_zero _)⟩

/-- A search passes over an element without the property. -/
theorem later (fails : ¬ p a) (finds : Finds next p (next a) b) : Finds next p a b := by
  obtain ⟨k, rfl, holds, none⟩ := finds
  refine ⟨k + 1, rfl, holds, fun j less => ?_⟩
  cases j with
  | zero => exact fails
  | succ j => exact none j (Nat.lt_of_succ_lt_succ less)

/-- A search has one result. -/
theorem unique (first : Finds next p a b) (second : Finds next p a d) : b = d := by
  obtain ⟨k, rfl, holds, none⟩ := first
  obtain ⟨m, rfl, holds', none'⟩ := second
  rcases Nat.lt_trichotomy k m with less | rfl | more
  · exact absurd holds (none' k less)
  · rfl
  · exact absurd holds' (none m more)

/-- A search ends if some node ahead has the property. -/
theorem exists_of_iterate {k : Nat} (holds : p (next^[k] a)) :
    ∃ j ≤ k, Finds next p a (next^[j] a) := by
  induction k generalizing a with
  | zero => exact ⟨0, Nat.le_refl 0, here holds⟩
  | succ k ih =>
      by_cases now : p a
      · exact ⟨0, Nat.zero_le _, here now⟩
      · obtain ⟨j, bound, finds⟩ := ih holds
        exact ⟨j + 1, Nat.succ_le_succ bound, finds.later now⟩

/-- Only what `next` and `p` say on the way counts. -/
theorem congr {p' : α → Prop} (same : ∀ x, p' x ↔ p x) (finds : Finds next p a b) :
    Finds next p' a b := by
  obtain ⟨k, arrives, holds, none⟩ := finds
  exact ⟨k, arrives, (same b).mpr holds, fun j less => fun now => none j less ((same _).mp now)⟩

end Finds

/-- From a node of a ring the search finds a node of it, if there is one with the property. -/
theorem Ring.exists_finds {next : α → α} {p : α → Prop} {a c x : α} {l : List α}
    (ring : Ring next c l) (start : a ∈ l) (member : x ∈ l) (holds : p x) :
    ∃ j < l.length, next^[j] a ∈ l ∧ Finds next p a (next^[j] a) := by
  obtain ⟨r, turned, perm⟩ := ring.rotate start
  obtain ⟨k, bound, rfl⟩ := turned.mem_iff.mp (perm.mem_iff.mpr member)
  obtain ⟨j, most, finds⟩ := Finds.exists_of_iterate holds
  rw [perm.length_eq] at bound
  exact ⟨j, by omega, ring.iterate_mem start j, finds⟩

section Skip

variable {next next' : α → α} {p : α → Prop} [DecidablePred p] {a b c d x : α} {l : List α}

/-- Where `next'` is the search for the next node with `p`, it passes the nodes of a path that
have it. -/
theorem Path.skip (path : Path next a l b) (ahead : Finds next p b d)
    (skips : ∀ x ∈ l, p x → Finds next p (next x) (next' x)) :
    ∃ e, Finds next p a e ∧ Path next' e (l.filter p) d := by
  induction l generalizing a with
  | nil =>
      obtain rfl := path
      exact ⟨d, ahead, rfl⟩
  | cons x l ih =>
      obtain ⟨rfl, rest⟩ := path
      obtain ⟨e, finds, passes⟩ := ih rest fun x member => skips x (List.mem_cons_of_mem _ member)
      by_cases holds : p a
      · obtain rfl := finds.unique (skips a (List.mem_cons_self ..) holds)
        refine ⟨a, .here holds, ?_⟩
        rw [List.filter_cons_of_pos (by simpa using holds)]
        exact ⟨rfl, passes⟩
      · refine ⟨e, finds.later holds, ?_⟩
        rwa [List.filter_cons_of_neg (by simpa using holds)]

namespace Ring

/-- A search around a ring finds one of its elements with the property. -/
theorem finds_mem (ring : Ring next c l) (start : a ∈ l) (finds : Finds next p a d) :
    d ∈ l.filter p := by
  obtain ⟨k, rfl, holds, -⟩ := finds
  rw [List.mem_filter]
  exact ⟨ring.iterate_mem start k, by simpa using holds⟩

/-- The nodes of a ring with a property are a ring under the search for the next one. -/
theorem skip (ring : Ring next c l) (first : Finds next p c d)
    (skips : ∀ x ∈ l, p x → Finds next p (next x) (next' x)) : Ring next' d (l.filter p) := by
  obtain ⟨e, finds, passes⟩ := ring.path.skip first skips
  obtain rfl := first.unique finds
  exact ⟨passes, ring.nodup.filter _,
    List.ne_nil_of_mem (ring.finds_mem ring.start_mem first)⟩

/-- After any number of steps a ring is where that number, modulo its length, says. -/
theorem getElem?_mod (ring : Ring next c l) (n : Nat) :
    l[n % l.length]? = some (next^[n] c) := by
  have bound : n % l.length < l.length := Nat.mod_lt n ring.positive
  have periodic : Function.IsPeriodicPt next l.length c := ring.returns.back
  have nodes := congrArg (fun r : List α => r[n % l.length]?) ring.eq_iterate
  rw [List.getElem?_iterate _ _ _ _ bound, periodic.iterate_mod_apply] at nodes
  exact nodes

/-- As many steps in a row as a ring has nodes meet each of them once. -/
theorem round_perm (ring : Ring next c l) (m : Nat) :
    ((List.range l.length).map fun j => next^[m + j] c).Perm l := by
  obtain ⟨r, turned, perm⟩ := ring.rotate (ring.iterate_mem ring.start_mem m)
  have round : ((List.range l.length).map fun j => next^[m + j] c) = r := by
    rw [turned.eq_iterate, perm.length_eq]
    refine List.ext_getElem? fun j => ?_
    rcases Nat.lt_or_ge j l.length with inside | outside
    · rw [List.getElem?_iterate _ _ _ _ inside, List.getElem?_map, List.getElem?_range inside,
        Option.map_some, Nat.add_comm, Function.iterate_add_apply]
    · rw [List.getElem?_eq_none (by simpa using outside),
        List.getElem?_eq_none (by simpa using outside)]
  exact round ▸ perm

section Sequence

variable {sequence : Nat → α}

/-- A sequence of searches that starts on a ring follows the ring of the nodes it can find. -/
theorem exists_skip (ring : Ring next c l) (first : Finds next p c (sequence 0))
    (step : ∀ n, Finds next p (next (sequence n)) (sequence (n + 1))) :
    ∃ next', Ring next' (sequence 0) (l.filter p) ∧ ∀ n, sequence n = next'^[n] (sequence 0) := by
  have start := List.mem_filter.mp (ring.finds_mem ring.start_mem first)
  have total : ∀ x, ∃ y, x ∈ l → Finds next p (next x) y := by
    intro x
    by_cases member : x ∈ l
    · obtain ⟨j, -, -, finds⟩ := ring.exists_finds (ring.next_mem member) start.1 first.found
      exact ⟨_, fun _ => finds⟩
    · exact ⟨x, fun inside => absurd inside member⟩
  choose next' skips using total
  have ring' := ring.skip first fun x member _ => skips x member
  refine ⟨next', ring', fun n => ?_⟩
  induction n with
  | zero => rfl
  | succ n ih =>
      have member := (List.mem_filter.mp (ring'.iterate_mem ring'.start_mem n)).1
      rw [Function.iterate_succ_apply', ← ih]
      exact (step n).unique (skips _ (ih ▸ member))

variable (sequence)

/-- A sequence of searches meets the nodes with the property in the order of the ring. -/
theorem visits (ring : Ring next c l) (first : Finds next p c (sequence 0))
    (step : ∀ n, Finds next p (next (sequence n)) (sequence (n + 1))) (n : Nat) :
    (l.filter p)[n % (l.filter p).length]? = some (sequence n) := by
  obtain ⟨next', ring', follows⟩ := ring.exists_skip first step
  rw [follows n]
  exact ring'.getElem?_mod n

/-- As many searches in a row as a ring has nodes with the property find each of them once. -/
theorem visits_perm (ring : Ring next c l) (first : Finds next p c (sequence 0))
    (step : ∀ n, Finds next p (next (sequence n)) (sequence (n + 1))) (m : Nat) :
    ((List.range (l.filter p).length).map fun j => sequence (m + j)).Perm (l.filter p) := by
  obtain ⟨next', ring', follows⟩ := ring.exists_skip first step
  have same : ∀ j, sequence (m + j) = next'^[m + j] (sequence 0) := fun j => follows (m + j)
  simp only [same]
  exact ring'.round_perm m

end Sequence

end Ring

end Skip

end SistemasOperativos.Foundation
