import SistemasOperativos.Kernel.ThreadPages

/-!
# Listing the processes

`getCurrentProcesses` takes pages for an array and goes round the ring once. It stores the first
process before its loop and the others behind an increment, so it goes one process too far: the
current process stands at both ends of the array. `printProcesses` prints the array and keeps
its pages.
-/

namespace SistemasOperativos.Kernel

open SistemasOperativos.Foundation SistemasOperativos.Semantics

/-- `sizeof(Process *)`. -/
def sizeofProcessPointer : Nat := 8

/-- What a call of `getCurrentProcesses` stores: the address of its array, the entries that it
wrote, and `*a`. -/
structure ProcessList where
  address : Nat
  processes : Nat → Option Nat
  a : Nat

namespace Scheduler

/-- The loop of `getCurrentProcesses` with `remaining` turns left. -/
def getCurrentProcessesLoop (s : Scheduler) :
    (remaining i aux : Nat) → (processes : Nat → Option Nat) → (Nat → Option Nat)
  | 0, _, _, processes => processes
  | remaining + 1, i, aux, processes =>
      s.getCurrentProcessesLoop remaining (i + 1) (s.next aux)
        (Function.update processes (i + 1) (some (s.slot aux).process))

/-- `getCurrentProcesses`. -/
def getCurrentProcesses (s : Scheduler) : Option (Scheduler × ProcessList) := do
  let (after, address) ←
    s.allocPage (NUMBER_OF_PAGES_TO_ALLOC (s.cardinal_processes * sizeofProcessPointer))
  let first : Nat → Option Nat := Function.update (fun _ => none) 0
    (some (s.slot s.current).process)
  let processes := s.getCurrentProcessesLoop s.cardinal_processes 0 (s.next s.current) first
  some (after, { address, processes, a := s.cardinal_processes })

/-- `printProcesses`, with the processes it prints a line for. -/
def printProcesses (s : Scheduler) : Option (Scheduler × List Nat) :=
  s.getCurrentProcesses.map fun (after, list) =>
    (after, (List.range list.a).filterMap list.processes)

/-- The process `i` steps ahead of the current one. -/
def processAt (s : Scheduler) (i : Nat) : Nat := (s.slot (s.next^[i] s.current)).process

/-- Each page is free in both arrays or in none of them. -/
def SameFreePages (before after : BuddyArray) : Prop :=
  ∀ leaf, 1024 ≤ leaf → leaf < 2048 → (after.PageFree leaf ↔ before.PageFree leaf)

/-- `getCurrentProcesses` stores the number of processes and writes an entry for each of them, in
the order of the ring, and no other entry; `printProcesses` leaves the free pages as they were. -/
def ListsProcesses (s : Scheduler) : Prop :=
  (∃ after list, s.getCurrentProcesses = some (after, list) ∧ list.a = s.cardinal_processes ∧
    ∀ i, list.processes i = if i < s.cardinal_processes then some (s.processAt i) else none) ∧
  ∃ after lines, s.printProcesses = some (after, lines) ∧
    SameFreePages s.buddyArray after.buddyArray

section Listing

variable {s after : Scheduler} {list : ProcessList}

/-- The loop writes the entries behind `i`, one for each turn. -/
theorem getCurrentProcessesLoop_eq (s : Scheduler) (remaining i : Nat)
    (processes : Nat → Option Nat) (k : Nat) :
    s.getCurrentProcessesLoop remaining i (s.next^[i + 1] s.current) processes k =
      if i < k ∧ k ≤ i + remaining then some (s.processAt k) else processes k := by
  induction remaining generalizing i processes with
  | zero =>
      rw [getCurrentProcessesLoop, if_neg (by omega)]
  | succ remaining ih =>
      rw [getCurrentProcessesLoop, ← Function.iterate_succ_apply' s.next, ih (i + 1)]
      by_cases later : i + 1 < k ∧ k ≤ i + 1 + remaining
      · rw [if_pos later, if_pos (by omega)]
      · rw [if_neg later]
        by_cases here : k = i + 1
        · rw [if_pos (by omega), here, Function.update_self]
          rfl
        · rw [if_neg (by omega), Function.update_of_ne here]

/-- `getCurrentProcesses` writes one entry more than there are processes. -/
theorem getCurrentProcesses_spec (called : s.getCurrentProcesses = some (after, list)) :
    list.a = s.cardinal_processes ∧
      ∀ i, list.processes i = if i ≤ s.cardinal_processes then some (s.processAt i) else none := by
  obtain ⟨⟨after', address⟩, -, result⟩ := Option.bind_eq_some_iff.mp called
  obtain ⟨-, rfl⟩ := Prod.mk.inj (Option.some.inj result)
  refine ⟨rfl, fun i => ?_⟩
  have loop := s.getCurrentProcessesLoop_eq s.cardinal_processes 0
    (Function.update (fun _ => none) 0 (some (s.slot s.current).process)) i
  rw [Nat.zero_add, Function.iterate_one] at loop
  refine loop.trans ?_
  cases i with
  | zero => simp [processAt]
  | succ i => simp

/-- A page of the block that `allocPage` returned was free and is no more. -/
theorem allocPage_takes_page {blocks : List Block} (consistent : Consistent (s.heapRun blocks))
    {pages page : Nat} (allocated : s.allocPage pages = some (after, page)) :
    ∃ leaf, 1024 ≤ leaf ∧ leaf < 2048 ∧ s.buddyArray.PageFree leaf ∧
      ¬ after.buddyArray.PageFree leaf := by
  unfold Scheduler.allocPage at allocated
  split at allocated
  · rename_i buddyArray found search
    obtain ⟨rfl, rfl⟩ := Prod.mk.inj (Option.some.inj allocated)
    obtain ⟨-, -, w, root, taken, placed, rfl⟩ :=
      allocPage_taken consistent.base consistent.heapLevel search
    have covers := placed.node_covers_leaf
    refine ⟨_, placed.leaf_bounds.1, placed.leaf_bounds.2, fun v above full => ?_,
      fun free => free _ covers taken.full⟩
    rcases Covers.comparable above covers with ancestor | below
    · obtain ⟨positive, k, rfl⟩ := ancestor
      refine taken.openPath k ?_ full
      by_contra high
      obtain ⟨d, length⟩ := Nat.exists_eq_add_of_lt (Nat.not_le.mp high)
      rw [length, Nat.add_assoc, Nat.pow_add, ← Nat.div_div_eq_div_mul, root,
        Nat.div_eq_of_lt (Nat.one_lt_two_pow (by omega))] at positive
      exact Nat.lt_irrefl 0 positive
    · -- A node in use below the one taken would have marked it.
      obtain ⟨block, live, under⟩ := (consistent.marked v above.positive).mp (by simp [full])
      exact (consistent.marked _ covers.positive).mpr ⟨block, live, below.trans under⟩ taken.empty
  · cases allocated

end Listing

/-- For every ring, `getCurrentProcesses` writes the current process once more behind the
entries of the ring, and `printProcesses` leaves a page that was free in use. -/
theorem listing_goes_too_far (s : Scheduler) (ring : List Nat) (closed : Ring s.next s.current ring)
    (cardinal : s.cardinal_processes = ring.length) (blocks : List Block)
    (consistent : Consistent (s.heapRun blocks)) :
    ¬ s.ListsProcesses ∧
      (∀ after list, s.getCurrentProcesses = some (after, list) →
        list.a = s.cardinal_processes ∧
        (∀ i, i < s.cardinal_processes → list.processes i = some (s.processAt i)) ∧
        list.processes s.cardinal_processes = some (s.slot s.current).process) ∧
      ∀ after lines, s.printProcesses = some (after, lines) →
        ¬ SameFreePages s.buddyArray after.buddyArray := by
  have entries : ∀ after list, s.getCurrentProcesses = some (after, list) →
      list.a = s.cardinal_processes ∧
      (∀ i, i < s.cardinal_processes → list.processes i = some (s.processAt i)) ∧
      list.processes s.cardinal_processes = some (s.slot s.current).process := by
    intro after list called
    obtain ⟨number, written⟩ := getCurrentProcesses_spec called
    refine ⟨number, fun i inside => by rw [written, if_pos (by omega)], ?_⟩
    rw [written, if_pos (Nat.le_refl _), processAt, cardinal, closed.returns.back]
  refine ⟨?_, entries, ?_⟩
  · rintro ⟨⟨after, list, called, -, only⟩, -⟩
    have last := (entries after list called).2.2
    rw [only, if_neg (Nat.lt_irrefl _)] at last
    cases last
  · intro after lines printed same
    obtain ⟨⟨after', list⟩, called, result⟩ := Option.map_eq_some_iff.mp printed
    obtain ⟨rfl, -⟩ := Prod.mk.inj result
    obtain ⟨⟨taken, address⟩, allocated, stored⟩ := Option.bind_eq_some_iff.mp called
    obtain ⟨rfl, -⟩ := Prod.mk.inj (Option.some.inj stored)
    obtain ⟨leaf, lower, upper, free, used⟩ := allocPage_takes_page consistent allocated
    exact used ((same leaf lower upper).mpr free)

/-- The ring of the first process alone. -/
theorem listing_goes_too_far_alone : ∃ s, SchedulerRun.emptyMemory.createProcess 0x400000 =
    some (s, 0) ∧ ¬ s.ListsProcesses := by
  have result : (SchedulerRun.emptyMemory.createProcess 0x400000).map Prod.snd = some 0 := by
    rw [SchedulerRun.emptyMemory, createHeap_eq]
    decide +kernel
  obtain ⟨⟨s, pid⟩, made, first⟩ := Option.map_eq_some_iff.mp result
  obtain rfl : pid = 0 := first
  have begins : SchedulerRun.Start ⟨s, [0]⟩ :=
    ⟨SchedulerRun.emptyMemory, 0x400000, 0, SchedulerRun.emptyMemory_boot, made, rfl⟩
  obtain ⟨slots, ring, blocks, linked, stored, -⟩ := begins.sound
  exact ⟨s, made, (listing_goes_too_far s ring linked.closed linked.cardinal blocks
    stored.consistent).1⟩

/-- Its array has a second entry. -/
theorem second_entry_written : ∃ s after list,
    SchedulerRun.emptyMemory.createProcess 0x400000 = some (s, 0) ∧
      s.getCurrentProcesses = some (after, list) ∧ list.a = 1 ∧ (list.processes 1).isSome ∧
      ¬ s.ListsProcesses := by
  have result : (SchedulerRun.emptyMemory.createProcess 0x400000).bind (fun made =>
      made.1.getCurrentProcesses.map fun called =>
        (made.2, made.1.cardinal_processes, called.2.a, (called.2.processes 1).isSome)) =
      some (0, 1, 1, true) := by
    rw [SchedulerRun.emptyMemory, createHeap_eq]
    decide +kernel
  obtain ⟨⟨s, pid⟩, made, result⟩ := Option.bind_eq_some_iff.mp result
  obtain ⟨⟨after, list⟩, called, values⟩ := Option.map_eq_some_iff.mp result
  simp only [Prod.mk.injEq] at values
  obtain ⟨rfl, cardinal, number, second⟩ := values
  refine ⟨s, after, list, made, called, number, second, ?_⟩
  rintro ⟨⟨after', list', called', -, only⟩, -⟩
  obtain ⟨-, rfl⟩ := Prod.mk.inj (Option.some.inj (called.symm.trans called'))
  rw [only, cardinal] at second
  cases second

end Scheduler

end SistemasOperativos.Kernel
