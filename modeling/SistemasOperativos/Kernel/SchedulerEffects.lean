import SistemasOperativos.Kernel.BuddySafety
import SistemasOperativos.Kernel.Scheduler

/-!
# Effect of the scheduler's functions

What each function of the scheduler does to the ring of processes and to the
page allocator. `SameLinks` holds where the ring is not touched, `Switched` is a
switch to another slot of it, `Created` a new process in a new slot.
-/

namespace SistemasOperativos.Kernel

open SistemasOperativos.Foundation

/-- Calls of `allocPage` that all succeed, with the blocks they return. -/
def allocPages (buddyArray : BuddyArray) : List Nat → Option (BuddyArray × List Block)
  | [] => some (buddyArray, [])
  | pages :: sizes =>
      match allocPage buddyArray pages with
      | (buddyArray, some page) =>
          (allocPages buddyArray sizes).map fun (buddyArray, blocks) =>
            (buddyArray, ⟨page, pages⟩ :: blocks)
      | (_, none) => none

/-- One sequence of calls after another. -/
theorem allocPages_append {before middle after : BuddyArray} {sizes sizes' : List Nat}
    {blocks blocks' : List Block} (first : allocPages before sizes = some (middle, blocks))
    (second : allocPages middle sizes' = some (after, blocks')) :
    allocPages before (sizes ++ sizes') = some (after, blocks ++ blocks') := by
  induction sizes generalizing before blocks with
  | nil =>
      obtain ⟨rfl, rfl⟩ := Prod.mk.inj (Option.some.inj first)
      exact second
  | cons pages sizes ih =>
      simp only [allocPages, List.cons_append] at first ⊢
      split at first
      · obtain ⟨⟨last, rest⟩, taken, result⟩ := Option.map_eq_some_iff.mp first
        obtain ⟨rfl, rfl⟩ := Prod.mk.inj result
        rw [ih taken]
        rfl
      · cases first

/-- The blocks of several calls are all live after them. -/
theorem Consistent.allocPages {before after : BuddyArray} {live blocks : List Block}
    {sizes : List Nat} (consistent : Consistent ⟨before, live⟩)
    (allocated : Kernel.allocPages before sizes = some (after, blocks)) :
    Consistent ⟨after, blocks.reverse ++ live⟩ := by
  induction sizes generalizing before live blocks with
  | nil =>
      obtain ⟨rfl, rfl⟩ := Prod.mk.inj (Option.some.inj allocated)
      exact consistent
  | cons pages sizes ih =>
      simp only [Kernel.allocPages] at allocated
      split at allocated
      · rename_i search
        obtain ⟨⟨last, rest⟩, taken, result⟩ := Option.map_eq_some_iff.mp allocated
        obtain ⟨rfl, rfl⟩ := Prod.mk.inj result
        have next := ih (consistent.allocPage search) taken
        rwa [List.reverse_cons, List.append_assoc]
      · cases allocated

namespace Scheduler

section Effects

variable {s s' : Scheduler}

@[simp] theorem setProcess_slot (s : Scheduler) (p : Nat) (process : Process) :
    (s.setProcess p process).slot = s.slot := rfl

@[simp] theorem setProcess_current (s : Scheduler) (p : Nat) (process : Process) :
    (s.setProcess p process).current = s.current := rfl

/-- The process that was stored is read back. -/
@[simp] theorem setProcess_same (s : Scheduler) (p : Nat) (process : Process) :
    (s.setProcess p process).process p = process := by
  simp [setProcess]

/-- Storing a process leaves the others. -/
theorem setProcess_ne {p a : Nat} (other : a ≠ p) (s : Scheduler) (process : Process) :
    (s.setProcess p process).process a = s.process a := by
  simp [setProcess, Function.update_of_ne other]

/-- A call of `allocPage` that succeeds changes the allocator only. -/
theorem allocPage_eq {pages page : Nat} (allocated : s.allocPage pages = some (s', page)) :
    ∃ buddyArray, s' = { s with buddyArray } ∧
      allocPages s.buddyArray [pages] = some (buddyArray, [⟨page, pages⟩]) := by
  unfold allocPage at allocated
  split at allocated
  · rename_i buddyArray found search
    obtain ⟨rfl, rfl⟩ := Prod.mk.inj (Option.some.inj allocated)
    exact ⟨buddyArray, rfl, by simp [allocPages, search]⟩
  · cases allocated

/-- What does not move the ring: everything but the fields of processes other
than `pid`, threads, and the page allocator. -/
structure SameLinks (s s' : Scheduler) : Prop where
  slot : s'.slot = s.slot
  cardinal : s'.cardinal_processes = s.cardinal_processes
  counter : s'.pid = s.pid
  pids : ∀ p, (s'.process p).pid = (s.process p).pid

/-- The page allocator does not move either. -/
structure SameRing (s s' : Scheduler) : Prop extends SameLinks s s' where
  buddyArray : s'.buddyArray = s.buddyArray

namespace SameLinks

/-- The ring is linked as before. -/
theorem next (same : SameLinks s s') : s'.next = s.next := by
  funext a
  simp only [Scheduler.next, same.slot]

/-- The slots hold the pids they held before. -/
theorem pidOf (same : SameLinks s s') : s'.pidOf = s.pidOf := by
  funext a
  simp only [Scheduler.pidOf, processOf, same.slot, same.pids]

/-- Two operations that do not move the ring do not move it together. -/
theorem trans {s'' : Scheduler} (first : SameLinks s s') (second : SameLinks s' s'') :
    SameLinks s s'' :=
  ⟨second.slot.trans first.slot, second.cardinal.trans first.cardinal,
    second.counter.trans first.counter, fun p => (second.pids p).trans (first.pids p)⟩

end SameLinks

namespace SameRing

/-- A scheduler has its own ring. -/
theorem refl (s : Scheduler) : SameRing s s := ⟨⟨rfl, rfl, rfl, fun _ => rfl⟩, rfl⟩

/-- Two operations that leave the ring leave it together. -/
theorem trans {s'' : Scheduler} (first : SameRing s s') (second : SameRing s' s'') :
    SameRing s s'' :=
  ⟨first.toSameLinks.trans second.toSameLinks, second.buddyArray.trans first.buddyArray⟩

end SameRing

/-- Writing a process without changing its pid. -/
theorem setProcess_sameRing {p : Nat} {process : Process}
    (pid : process.pid = (s.process p).pid) : SameRing s (s.setProcess p process) := by
  refine ⟨⟨rfl, rfl, rfl, fun a => ?_⟩, rfl⟩
  by_cases same : a = p
  · rw [same, setProcess_same, pid]
  · rw [setProcess_ne same]

/-- Storing a thread does not move the ring. -/
theorem setThread_sameRing (s : Scheduler) (t : Nat) (thread : Thread) :
    SameRing s (s.setThread t thread) :=
  ⟨⟨rfl, rfl, rfl, fun _ => rfl⟩, rfl⟩

/-- `preempt` moves neither the ring nor `current`. -/
theorem preempt_sameRing (s : Scheduler) :
    SameRing s s.preempt ∧ s.preempt.current = s.current := by
  unfold preempt
  split
  · exact ⟨setProcess_sameRing rfl, rfl⟩
  · exact ⟨.refl s, rfl⟩

/-- `changeProcessState` moves neither the ring nor `current`. -/
theorem changeProcessState_sameRing (s : Scheduler) (pid : Int) (state : ProcessState) :
    SameRing s (s.changeProcessState pid state) ∧
      (s.changeProcessState pid state).current = s.current := by
  have loop : ∀ remaining slot, SameRing s (s.changeProcessStateLoop pid state remaining slot) ∧
      (s.changeProcessStateLoop pid state remaining slot).current = s.current := by
    intro remaining
    induction remaining with
    | zero => exact fun _ => ⟨.refl s, rfl⟩
    | succ remaining ih =>
        intro slot
        unfold changeProcessStateLoop
        split
        · exact ⟨setProcess_sameRing rfl, rfl⟩
        · exact ih (s.next slot)
  exact loop _ _

/-- The walk of `schedule` stops at a READY process some steps further on. -/
theorem scheduleLoop_eq_some {fuel slot found : Nat}
    (walked : s.scheduleLoop fuel slot = some found) :
    (s.processOf found).state = .ready ∧ ∃ k, found = s.next^[k] slot := by
  induction fuel generalizing slot with
  | zero => cases walked
  | succ fuel ih =>
      unfold scheduleLoop at walked
      split at walked
      · rename_i ready
        obtain rfl := Option.some.inj walked
        exact ⟨ready, 0, rfl⟩
      · obtain ⟨ready, k, rfl⟩ := ih walked
        exact ⟨ready, k + 1, rfl⟩

/-- The walk of `schedule` ends when a READY process lies ahead. -/
theorem scheduleLoop_isSome {fuel slot k : Nat} (bound : k < fuel)
    (ready : (s.processOf (s.next^[k] slot)).state = .ready) :
    (s.scheduleLoop fuel slot).isSome := by
  induction fuel generalizing slot k with
  | zero => omega
  | succ fuel ih =>
      unfold scheduleLoop
      split
      · rfl
      · rename_i notReady
        cases k with
        | zero => exact absurd ready notReady
        | succ k => exact ih (by omega) ready

/-- The ring after a switch, and the slot it goes on with. -/
structure Switched (s s' : Scheduler) : Prop where
  same : SameRing s s'
  running : (s'.processOf s'.current).state = .running
  ahead : ∃ k, s'.current = s.next^[k] (s.next s.current)

/-- `schedule` goes on with a process ahead of the current one. -/
theorem schedule_switched {fuel : Nat} (switched : s.schedule fuel = some s') :
    Switched s s' := by
  obtain ⟨same, current⟩ := preempt_sameRing s
  obtain ⟨slot, walked, rfl⟩ := Option.map_eq_some_iff.mp switched
  obtain ⟨-, k, position⟩ := scheduleLoop_eq_some walked
  rw [same.next, current] at position
  have write : SameRing s.preempt (s.preempt.setProcess (s.preempt.slot slot).process
      { s.preempt.processOf slot with state := .running }) := setProcess_sameRing rfl
  refine ⟨?_, ?_, k, position⟩
  · have both := same.trans write
    exact ⟨⟨both.slot, both.cardinal, both.counter, both.pids⟩, both.buddyArray⟩
  · simp [processOf]

/-- `next_process` goes on with a process ahead of the current one. -/
theorem next_process_switched {fuel rsp stack : Nat} (present : s.current ≠ NULL)
    (switched : s.next_process fuel rsp = some (s', stack)) : Switched s s' := by
  rw [next_process, if_neg present] at switched
  obtain ⟨next, scheduled, result⟩ := Option.map_eq_some_iff.mp switched
  obtain ⟨rfl, -⟩ := Prod.mk.inj result
  obtain ⟨same, running, ahead⟩ := schedule_switched scheduled
  exact ⟨(setThread_sameRing s _ _).trans same, running, ahead⟩

/-- `_yield` goes on with a process ahead of the current one. -/
theorem yield_switched {fuel rsp : Nat} (present : s.current ≠ NULL)
    (switched : s._yield fuel rsp = some s') : Switched s s' := by
  obtain ⟨⟨next, stack⟩, chosen, rfl⟩ := Option.map_eq_some_iff.mp switched
  exact next_process_switched present chosen

/-- `switchKernelToUser` goes on with a process ahead of the current one. -/
theorem switchKernelToUser_switched {fuel stack : Nat}
    (switched : s.switchKernelToUser fuel = some (s', stack)) : Switched s s' := by
  obtain ⟨next, scheduled, rest⟩ := Option.bind_eq_some_iff.mp switched
  obtain ⟨index, -, result⟩ := Option.bind_eq_some_iff.mp rest
  obtain ⟨rfl, -⟩ := Prod.mk.inj (Option.some.inj result)
  obtain ⟨same, running, ahead⟩ := schedule_switched scheduled
  have write : SameRing next (next.setProcess (next.slot next.current).process
    { next.processOf next.current with activeThread := index }) := setProcess_sameRing rfl
  refine ⟨same.trans write, ?_, ahead⟩
  simpa [processOf] using running

/-! ### Unlinking -/

/-- Unlinking the slot behind `x` changes the link of `x` only. -/
theorem unlink_next (s : Scheduler) (x y : Nat) :
    (s.unlink x y).next = Function.update s.next x (s.next y) := by
  funext a
  by_cases same : a = x
  · simp [unlink, setSlot, next, same]
  · simp [unlink, setSlot, next, same]

/-- Unlinking leaves every slot its process. -/
theorem unlink_process (s : Scheduler) (x y a : Nat) :
    ((s.unlink x y).slot a).process = (s.slot a).process := by
  by_cases same : a = x
  · simp [unlink, setSlot, same]
  · simp [unlink, setSlot, same]

/-- Unlinking leaves every slot its pid. -/
@[simp] theorem unlink_pidOf (s : Scheduler) (x y : Nat) : (s.unlink x y).pidOf = s.pidOf := by
  funext a
  rw [pidOf, pidOf, processOf, processOf, unlink_process]
  rfl

/-- What an operation leaves alone that links the ring anew but stores nothing:
the process of each slot, the pids, and the page allocator. -/
structure SamePages (s s' : Scheduler) : Prop where
  process : ∀ a, (s'.slot a).process = (s.slot a).process
  pidOf : s'.pidOf = s.pidOf
  counter : s'.pid = s.pid
  buddyArray : s'.buddyArray = s.buddyArray

/-- An operation that leaves the ring leaves what is stored in the slots. -/
theorem SameRing.samePages (same : SameRing s s') : SamePages s s' :=
  ⟨fun a => by rw [same.slot], same.pidOf, same.counter, same.buddyArray⟩

/-- Two operations that store nothing store nothing together. -/
theorem SamePages.trans {s'' : Scheduler} (first : SamePages s s') (second : SamePages s' s'') :
    SamePages s s'' :=
  ⟨fun a => (second.process a).trans (first.process a), second.pidOf.trans first.pidOf,
    second.counter.trans first.counter, second.buddyArray.trans first.buddyArray⟩

/-- Unlinking stores nothing and returns no page. -/
theorem unlink_samePages (s : Scheduler) (x y : Nat) : SamePages s (s.unlink x y) :=
  ⟨unlink_process s x y, unlink_pidOf s x y, rfl, rfl⟩

/-! ### Creating -/

/-- What `createProcess` leaves: a new process `p` in a new slot behind the
current one. -/
structure Created (s s' : Scheduler) (p slot : Nat) : Prop where
  cardinal : s'.cardinal_processes = s.cardinal_processes + 1
  counter : s'.pid = toInt32 (s.pid + 1)
  current : s'.current = if s.current = NULL then slot else s.current
  added : s'.slot slot = ⟨if s.current = NULL then slot else s.next s.current, p⟩
  linked : s.current ≠ NULL → s'.slot s.current = ⟨slot, (s.slot s.current).process⟩
  others : ∀ a, a ≠ slot → a ≠ s.current → s'.slot a = s.slot a
  pid : (s'.process p).pid = s.pid
  state : (s'.process p).state = .ready
  processes : ∀ a, a ≠ p → s'.process a = s.process a

/-- `createThread` takes its pages first. Then it adds the thread if there is an entry for it. -/
theorem createThread_cases {entryPoint p : Nat} {result : Int}
    (made : s.createThread entryPoint p = some (s', result)) :
    ∃ t page1 page2 buddyArray, allocPages s.buddyArray [1, 2, 2] =
        some (buddyArray, [⟨t, 1⟩, ⟨page1, 2⟩, ⟨page2, 2⟩]) ∧
      ((findNextSpot (s.process p).thread 3).2 = none ∧ s' = { s with buddyArray } ∨
        ∃ thread i added, findNextSpot (s.process p).thread 3 = (thread, some i) ∧
          s' = ({ s with buddyArray }.setProcess p
            { s.process p with
              numberOfThreads := (s.process p).numberOfThreads + 1
              thread := thread.set i t i.isLt }).setThread t added) := by
  obtain ⟨⟨s₁, t⟩, first, made⟩ := Option.bind_eq_some_iff.mp made
  obtain ⟨_, rfl, took₁⟩ := allocPage_eq first
  obtain ⟨⟨s₂, page1⟩, second, made⟩ := Option.bind_eq_some_iff.mp made
  obtain ⟨_, rfl, took₂⟩ := allocPage_eq second
  obtain ⟨⟨s₃, page2⟩, third, made⟩ := Option.bind_eq_some_iff.mp made
  obtain ⟨buddyArray, rfl, took₃⟩ := allocPage_eq third
  refine ⟨t, page1, page2, buddyArray,
    allocPages_append took₁ (allocPages_append took₂ took₃), ?_⟩
  simp only at made
  split at made
  · rename_i found
    obtain ⟨rfl, -⟩ := Prod.mk.inj (Option.some.inj made)
    exact .inl ⟨congrArg Prod.snd found, rfl⟩
  · rename_i thread i found
    obtain ⟨rfl, -⟩ := Prod.mk.inj (Option.some.inj made)
    exact .inr ⟨thread, i, _, found, rfl⟩

/-- `createThread` takes its pages first and touches no process but `p`. -/
theorem createThread_allocates {entryPoint p : Nat} {result : Int}
    (made : s.createThread entryPoint p = some (s', result)) :
    ∃ t page1 page2, allocPages s.buddyArray [1, 2, 2] =
        some (s'.buddyArray, [⟨t, 1⟩, ⟨page1, 2⟩, ⟨page2, 2⟩]) ∧
      SameLinks s s' ∧ s'.current = s.current ∧ ∀ a, a ≠ p → s'.process a = s.process a := by
  obtain ⟨t, page1, page2, buddyArray, took, ⟨-, rfl⟩ | ⟨thread, i, added, -, rfl⟩⟩ :=
    createThread_cases made
  · exact ⟨t, page1, page2, took, ⟨rfl, rfl, rfl, fun _ => rfl⟩, rfl, fun _ _ => rfl⟩
  · refine ⟨t, page1, page2, took, ⟨rfl, rfl, rfl, fun a => ?_⟩, rfl,
      fun a other => setProcess_ne other _ _⟩
    by_cases same : a = p
    · simp [setThread, same]
    · simp [setThread, setProcess_ne same]

/-- `getProcess` builds a process in a page of its own. -/
theorem getProcess_allocates {entryPoint p : Nat}
    (made : s.getProcess entryPoint = some (s', p)) :
    ∃ t page1 page2, allocPages s.buddyArray [1, 1, 2, 2] =
        some (s'.buddyArray, [⟨p, 1⟩, ⟨t, 1⟩, ⟨page1, 2⟩, ⟨page2, 2⟩]) ∧
      s'.slot = s.slot ∧ s'.current = s.current ∧ s'.pid = toInt32 (s.pid + 1) ∧
      s'.cardinal_processes = s.cardinal_processes ∧
      (s'.process p).pid = s.pid ∧ (s'.process p).state = .ready ∧
      ∀ a, a ≠ p → s'.process a = s.process a := by
  obtain ⟨⟨s₁, page⟩, allocated, made⟩ := Option.bind_eq_some_iff.mp made
  obtain ⟨_, rfl, took₁⟩ := allocPage_eq allocated
  obtain ⟨⟨s₂, result⟩, threaded, made⟩ := Option.bind_eq_some_iff.mp made
  obtain ⟨result, rfl⟩ := Prod.mk.inj (Option.some.inj made)
  obtain ⟨t, page1, page2, took₂, same, current, processes⟩ := createThread_allocates threaded
  rw [← result]
  refine ⟨t, page1, page2, allocPages_append took₁ took₂, same.slot, current, ?_, same.cardinal,
    ?_, ?_, ?_⟩
  · exact congrArg (fun counter => toInt32 (counter + 1)) same.counter
  · simp only [setProcess_same]
    exact same.counter
  · simp only [setProcess_same]
  · intro a other
    simp only [setProcess_ne other, processes a other]

/-- `addProcess` links a new slot behind the current one. -/
theorem addProcess_allocates {p : Nat} (added : s.addProcess p = some s') :
    ∃ slot, allocPages s.buddyArray [1] = some (s'.buddyArray, [⟨slot, 1⟩]) ∧
      s'.cardinal_processes = s.cardinal_processes ∧ s'.pid = s.pid ∧ s'.process = s.process ∧
      s'.current = (if s.current = NULL then slot else s.current) ∧
      (slot ≠ s.current →
        s'.slot slot = ⟨if s.current = NULL then slot else s.next s.current, p⟩ ∧
        (s.current ≠ NULL → s'.slot s.current = ⟨slot, (s.slot s.current).process⟩) ∧
        ∀ a, a ≠ slot → a ≠ s.current → s'.slot a = s.slot a) := by
  obtain ⟨⟨s₁, slot⟩, placed, added⟩ := Option.bind_eq_some_iff.mp added
  obtain ⟨⟨s₂, page⟩, allocated, stored⟩ := Option.bind_eq_some_iff.mp placed
  obtain ⟨_, rfl, took⟩ := allocPage_eq allocated
  obtain ⟨rfl, rfl⟩ := Prod.mk.inj (Option.some.inj stored)
  change (if s.current = NULL then some _ else some _) = some s' at added
  refine ⟨page, ?_⟩
  by_cases absent : s.current = NULL
  · rw [if_pos absent] at added
    obtain rfl := Option.some.inj added
    refine ⟨took, rfl, rfl, rfl, ?_, fun _ => ⟨?_, fun present => absurd absent present, ?_⟩⟩
    · rw [if_pos absent]
    · simp [setSlot, absent]
    · intro a other _
      simp [setSlot, other]
  · rw [if_neg absent] at added
    obtain rfl := Option.some.inj added
    refine ⟨took, rfl, rfl, rfl, ?_, fun different => ⟨?_, fun _ => ?_, ?_⟩⟩
    · simp [setSlot, absent]
    · simp [setSlot, next, absent, different, different.symm]
    · simp [setSlot, next, different.symm]
    · intro a other notCurrent
      simp [setSlot, next, other, notCurrent]

/-- The blocks `createProcess` takes, in order: those of the process, its first
thread with the two stacks, and its slot. -/
def processBlocks (p t page1 page2 slot : Nat) : List Block :=
  [⟨p, 1⟩, ⟨t, 1⟩, ⟨page1, 2⟩, ⟨page2, 2⟩, ⟨slot, 1⟩]

/-- `createProcess` adds a process, when its slot is not the current one. -/
theorem createProcess_allocates {entryPoint : Nat} {q : Int}
    (made : s.createProcess entryPoint = some (s', q)) :
    ∃ p t page1 page2 slot, allocPages s.buddyArray [1, 1, 2, 2, 1] =
        some (s'.buddyArray, processBlocks p t page1 page2 slot) ∧
      q = s.pid ∧ (slot ≠ s.current → Created s s' p slot) := by
  obtain ⟨⟨s₁, p⟩, built, made⟩ := Option.bind_eq_some_iff.mp made
  obtain ⟨t, page1, page2, took₁, slots, current, counter, cardinal, pid, state, processes⟩ :=
    getProcess_allocates built
  obtain ⟨s₂, added, made⟩ := Option.bind_eq_some_iff.mp made
  obtain ⟨rfl, rfl⟩ := Prod.mk.inj (Option.some.inj made)
  obtain ⟨slot, took₂, sameCardinal, sameCounter, sameProcess, newCurrent, links⟩ :=
    addProcess_allocates added
  rw [current, slots] at links
  rw [current] at newCurrent
  have next : s₁.next = s.next := by
    funext a
    simp only [Scheduler.next, slots]
  rw [next] at links
  refine ⟨p, t, page1, page2, slot, allocPages_append took₁ took₂, ?_, fun different => ?_⟩
  · rw [sameProcess, pid]
  · obtain ⟨new, linked, others⟩ := links different
    refine ⟨?_, ?_, newCurrent, new, linked, others, ?_, ?_, ?_⟩
    · rw [sameCardinal, cardinal]
    · rw [sameCounter, counter]
    · rw [sameProcess, pid]
    · rw [sameProcess, state]
    · intro a other
      rw [sameProcess, processes a other]

/-- The slots and processes there were are not written, except for the link of
the current slot. -/
theorem Created.kept {p slot : Nat} (created : Created s s' p slot) (present : s.current ≠ NULL)
    {a : Nat} (otherSlot : a ≠ slot) (otherProcess : (s.slot a).process ≠ p) :
    (s'.slot a).process = (s.slot a).process ∧ s'.pidOf a = s.pidOf a := by
  have process : (s'.slot a).process = (s.slot a).process := by
    by_cases isCurrent : a = s.current
    · subst isCurrent
      rw [created.linked present]
    · rw [created.others a otherSlot isCurrent]
  refine ⟨process, ?_⟩
  rw [pidOf, pidOf, processOf, processOf, process, created.processes _ otherProcess]

/-- The new slot has the pid that the counter stood at. -/
theorem Created.pidOf_slot {p slot : Nat} (created : Created s s' p slot) :
    s'.pidOf slot = s.pid := by
  rw [pidOf, processOf, created.added, created.pid]

end Effects

end Scheduler

end SistemasOperativos.Kernel
