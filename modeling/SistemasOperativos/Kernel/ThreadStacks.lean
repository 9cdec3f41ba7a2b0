import SistemasOperativos.Kernel.ThreadSwitching
import SistemasOperativos.Kernel.TurnQueue

/-!
# The threads of the ring and their stacks

`Scheduler.Has` names the threads of the processes on the ring by pid and entry. A switch, the
end of a process and a change of state bring no thread that was not there, and leave the page
allocator alone (`Narrows`). `createThread` and `createProcess` bring one, whose user stack is
two pages that the allocator took for it (`Brings`): its first stack pointer is where
`fillStackFrame` put the frame in them.
-/

namespace SistemasOperativos.Kernel

open SistemasOperativos.Foundation SistemasOperativos.Semantics

/-- A thread: the pid of its process and its entry there. -/
abbrev ThreadEntry := Int × Fin MAX_THREADS

namespace Scheduler

open ThreadRun

/-- The thread that runs. -/
def runningThread (s : Scheduler) : ThreadEntry := (s.pidOf s.current, s.activeOf s.current)

/-- A thread of a process on the ring. -/
def Has (s : Scheduler) (thread : ThreadEntry) : Prop :=
  ∃ a ∈ s.upcoming, s.pidOf a = thread.1 ∧ s.threadOf a thread.2 ≠ NULL

/-- No thread comes up, and no page is taken or given back. -/
structure Narrows (s s' : Scheduler) : Prop where
  buddyArray : s'.buddyArray = s.buddyArray
  has : ∀ thread, s'.Has thread → s.Has thread

section Threads

variable {s s' s'' : Scheduler} {frames : Frames} {live live' : List Int} {ring ring' : List Nat}

theorem Narrows.trans (first : Narrows s s') (second : Narrows s' s'') : Narrows s s'' :=
  ⟨second.buddyArray.trans first.buddyArray,
    fun thread has => first.has thread (second.has thread has)⟩

/-- Slots that stay, with the pids and threads they had. -/
theorem Narrows.of_ring (linked : Linked s live ring) (linked' : Linked s' live' ring')
    (within : ring' ⊆ ring) (pids : s'.pidOf = s.pidOf) (threads : s'.threadOf = s.threadOf)
    (buddyArray : s'.buddyArray = s.buddyArray) : Narrows s s' := by
  refine ⟨buddyArray, ?_⟩
  rintro thread ⟨a, member, pid, made⟩
  rw [pids] at pid
  rw [threads] at made
  exact ⟨a, linked.mem_upcoming.mp (within (linked'.mem_upcoming.mpr member)), pid, made⟩

theorem Narrows.saveUserStack (s : Scheduler) (rsp : Nat) : Narrows s (s.saveUserStack rsp) :=
  ⟨rfl, fun _ has => has⟩

theorem Narrows.schedule (linked : Linked s live ring) {fuel : Nat}
    (switched : s.schedule fuel = some s') : Narrows s s' := by
  have moved := schedule_switched switched
  have same := schedule_sameThreads switched
  obtain ⟨ring', linked', perm⟩ := linked.switched moved
  exact .of_ring linked linked' (fun _ member => perm.mem_iff.mp member) same.pidOf same.threadOf
    moved.same.buddyArray

/-- The links do not change where a stack pointer is saved. -/
theorem Linked.saveUserStack (linked : Linked s live ring) (rsp : Nat) :
    ∃ ring', Linked (s.saveUserStack rsp) live ring' ∧ ring'.Perm ring :=
  linked.same (setThread_sameRing s _ _).toSameLinks linked.closed.start_mem

theorem Narrows.next_process (linked : Linked s live ring) (present : s.current ≠ NULL)
    {fuel rsp stack : Nat} (switched : s.next_process fuel rsp = some (s', stack)) :
    Narrows s s' := by
  rw [Scheduler.next_process, if_neg present] at switched
  obtain ⟨next, scheduled, pair⟩ := Option.map_eq_some_iff.mp switched
  obtain ⟨rfl, -⟩ := Prod.mk.inj pair
  obtain ⟨ring', linked', -⟩ := linked.saveUserStack rsp
  exact (saveUserStack s rsp).trans (.schedule linked' scheduled)

/-- The thread that gets active changes no entry. -/
theorem setProcess_threadOf {p : Nat} {process : Process}
    (threads : process.thread = (s.process p).thread) :
    (s.setProcess p process).threadOf = s.threadOf := by
  funext a i
  rw [threadOf, processOf, setProcess_slot]
  by_cases same : (s.slot a).process = p
  · rw [same, setProcess_same, threads, threadOf, processOf, same]
  · rw [setProcess_ne same]
    rfl

theorem Narrows.switchKernelToUser (linked : Linked s live ring) {fuel stack : Nat}
    (switched : s.switchKernelToUser fuel = some (s', stack)) : Narrows s s' := by
  obtain ⟨next, scheduled, rest⟩ := Option.bind_eq_some_iff.mp switched
  obtain ⟨index, found, pair⟩ := Option.bind_eq_some_iff.mp rest
  obtain ⟨rfl, -⟩ := Prod.mk.inj (Option.some.inj pair)
  have moved := schedule_switched scheduled
  obtain ⟨ring', linked', -⟩ := linked.switched moved
  have write : SameRing next (next.setProcess (next.slot next.current).process
    { next.processOf next.current with activeThread := index }) := setProcess_sameRing rfl
  obtain ⟨ring'', linked'', perm⟩ := linked'.same write.toSameLinks linked'.closed.start_mem
  exact (Narrows.schedule linked scheduled).trans
    (.of_ring linked' linked'' (fun _ member => perm.mem_iff.mp member) write.pidOf
      (setProcess_threadOf rfl) write.buddyArray)

theorem Narrows.changeProcessState (linked : Linked s live ring) (pid : Int)
    (state : ProcessState) : Narrows s (s.changeProcessState pid state) := by
  obtain ⟨same, current⟩ := changeProcessState_sameRing s pid state
  obtain ⟨ring', linked', perm⟩ :=
    linked.same same.toSameLinks (current ▸ linked.closed.start_mem)
  exact .of_ring linked linked' (fun _ member => perm.mem_iff.mp member) same.pidOf
    (changeProcessState_sameThreads s pid state).threadOf same.buddyArray

/-- The threads of a process that ends are gone, and the others stay. -/
theorem Narrows.terminateThread (linked : Linked s live ring) (present : s.current ≠ NULL)
    (first : s.activeOf s.current = 0) {fuel rsp : Nat}
    (ended : s.terminateThread fuel rsp = some s') : Narrows s s' := by
  have isFirst : (s.processOf s.current).activeThread = 0 := first
  simp only [Scheduler.terminateThread, isFirst, if_true] at ended
  change s.removeProcess fuel rsp (s.pidOf s.current) = some s' at ended
  unfold Scheduler.removeProcess at ended
  by_cases init : s.pidOf s.current = 0
  · rw [if_pos init] at ended
    obtain ⟨⟨next, stack⟩, chosen, rfl⟩ := Option.map_eq_some_iff.mp ended
    exact .next_process linked present chosen
  · rw [if_neg init, if_neg present, if_neg (linked.not_onlyProcess init)] at ended
    split at ended
    · rename_i missing
      exact absurd (linked.mem_live.mpr ⟨_, linked.closed.start_mem, rfl⟩)
        (linked.findSlot_none missing)
    · rename_i x y found
      obtain ⟨leads, before, member, isPid⟩ := linked.findSlot_some found
      obtain ⟨same, ring', linked', perm⟩ := linked.removeSlot present before leads
        (by rw [isPid]; exact init) ended
      have unlinked := unlink_sameThreads s x y
      have threads : s'.threadOf = s.threadOf := by
        simp only [Scheduler.removeSlot, unlink_pidOf, isPid] at ended
        change (if s.pidOf s.current = s.pidOf s.current then _ else _) = some s' at ended
        rw [if_pos rfl] at ended
        obtain ⟨⟨next, stack⟩, chosen, rfl⟩ := Option.map_eq_some_iff.mp ended
        have still : (s.unlink x y).current ≠ NULL := present
        rw [Scheduler.next_process, if_neg still] at chosen
        obtain ⟨next, scheduled, pair⟩ := Option.map_eq_some_iff.mp chosen
        obtain ⟨rfl, -⟩ := Prod.mk.inj pair
        exact (schedule_sameThreads scheduled).threadOf.trans unlinked.threadOf
      exact .of_ring linked linked' (fun _ inner => perm.mem_iff.mp (List.mem_cons_of_mem _ inner))
        (same.pidOf.trans unlinked.pidOf) threads same.buddyArray

/-! ## New threads -/

/-- The page of the user stack that `createThread` is going to take. -/
def threadStack (s : Scheduler) : Option Nat :=
  match allocPages s.buddyArray [1, 2, 2] with
  | some (_, [_, page1, _]) => some page1.page
  | _ => none

/-- The page of the user stack that `createProcess` is going to take. -/
def processStack (s : Scheduler) : Option Nat :=
  match allocPages s.buddyArray [1, 1, 2, 2, 1] with
  | some (_, [_, _, page1, _, _]) => some page1.page
  | _ => none

/-- Pages are taken, two of them from `page` on for a stack, and no thread but that of the stack
comes up. -/
structure Brings (s s' : Scheduler) (page : Nat) (thread : Option ThreadEntry) : Prop where
  took : ∃ sizes blocks, allocPages s.buddyArray sizes = some (s'.buddyArray, blocks) ∧
    ⟨page, 2⟩ ∈ blocks
  running : s'.runningThread = s.runningThread
  has : ∀ other, s'.Has other → s.Has other ∨ thread = some other

/-- Every thread but the one that came up was there before. -/
theorem Brings.has_of_ne {page : Nat} {thread : Option ThreadEntry}
    (brings : Brings s s' page thread) {other : ThreadEntry} (has : s'.Has other)
    (different : thread ≠ some other) : s.Has other :=
  (brings.has other has).resolve_right different

/-- The other entries stay. -/
theorem ThreadAdded.threadOf_ne {p t : Nat} {i j : Fin MAX_THREADS} (added : ThreadAdded s s' p t i)
    {a : Nat} (other : ¬ ((s.slot a).process = p ∧ i = j)) : s'.threadOf a j = s.threadOf a j := by
  rw [threadOf, processOf, added.slot]
  by_cases same : (s.slot a).process = p
  · have index : i ≠ j := fun equal => other ⟨same, equal⟩
    rw [same, added.threads, get_thread, Vector.getElem_set,
      if_neg fun value => index (Fin.ext value), threadOf, processOf, same]
    rfl
  · rw [added.others _ same]
    rfl

/-- A new process has one thread. -/
theorem Created.threadOf_slot {p t slot : Nat} (created : Created s s' p slot)
    (threads : (s'.process p).thread = initializeThreadArray.set 0 t) {i : Fin MAX_THREADS}
    (filled : s'.threadOf slot i ≠ NULL) : i = 0 := by
  rw [threadOf, processOf, created.added, threads, get_thread, Vector.getElem_set] at filled
  by_contra other
  rw [if_neg fun zero => other (Fin.ext zero.symm)] at filled
  exact filled (by simp [initializeThreadArray])

/-- The first stack pointer of a thread that `createThread` adds. -/
theorem createThread_userStack {entryPoint p : Nat} {result : Int}
    (made : s.createThread entryPoint p = some (s', result)) {t page1 page2 : Nat}
    {i : Fin MAX_THREADS} (found : (findNextSpot (s.process p).thread 3).2 = some i)
    (took : allocPages s.buddyArray [1, 2, 2] =
      some (s'.buddyArray, [⟨t, 1⟩, ⟨page1, 2⟩, ⟨page2, 2⟩])) :
    (s'.thread t).userStack = fillStackFrame (page1 + 2 * PAGE_SIZE) := by
  obtain ⟨⟨s₁, t'⟩, first, made⟩ := Option.bind_eq_some_iff.mp made
  obtain ⟨_, rfl, took₁⟩ := allocPage_eq first
  obtain ⟨⟨s₂, page1'⟩, second, made⟩ := Option.bind_eq_some_iff.mp made
  obtain ⟨_, rfl, took₂⟩ := allocPage_eq second
  obtain ⟨⟨s₃, page2'⟩, third, made⟩ := Option.bind_eq_some_iff.mp made
  obtain ⟨buddyArray, rfl, took₃⟩ := allocPage_eq third
  have blocks := took.symm.trans (allocPages_append took₁ (allocPages_append took₂ took₃))
  simp only [List.cons_append, List.nil_append, Option.some.injEq, Prod.mk.injEq, List.cons.injEq,
    Block.mk.injEq, and_true] at blocks
  obtain ⟨-, ⟨rfl, -⟩, rfl, -⟩ := blocks
  simp only at made
  split at made
  · rename_i none
    rw [none] at found
    cases found
  · obtain ⟨rfl, -⟩ := Prod.mk.inj (Option.some.inj made)
    simp [setThread]

/-- `thread_create` brings a thread where the process has an entry for it. -/
theorem thread_create_brings (linked : Linked s live ring) {entryPoint : Nat}
    (made : s.thread_create entryPoint = some s') : ∃ page, s.threadStack = some page ∧
      Brings s s' page (((findNextSpot (s.processOf s.current).thread 3).2).map
        fun i => (s.pidOf s.current, i)) ∧
      ∀ i, (findNextSpot (s.processOf s.current).thread 3).2 = some i →
        s'.stackOf s'.current i = fillStackFrame (page + 2 * PAGE_SIZE) := by
  obtain ⟨⟨after, result⟩, created, rfl⟩ := Option.map_eq_some_iff.mp made
  obtain ⟨t, page1, page2, took, threads⟩ := createThread_threads created
  obtain ⟨_, _, _, -, links, current, -⟩ := createThread_allocates created
  obtain ⟨ring', linked', perm⟩ := linked.same links (current ▸ linked.closed.start_mem)
  have upcoming : ∀ a ∈ after.upcoming, a ∈ s.upcoming := fun a member =>
    linked.mem_upcoming.mp (perm.mem_iff.mp (linked'.mem_upcoming.mpr member))
  have stack : s.threadStack = some page1 := by
    rw [threadStack, took]
  refine ⟨page1, stack, ⟨⟨_, _, took, by simp⟩, ?_, ?_⟩, ?_⟩
  · have active : after.activeOf s.current = s.activeOf s.current := by
      cases found : (findNextSpot (s.process (s.slot s.current).process).thread 3).2 with
      | none =>
          rw [found] at threads
          rw [threads.1.activeOf]
      | some i =>
          rw [found] at threads
          rw [activeOf, processOf, threads.slot, threads.active]
          rfl
    rw [runningThread, runningThread, current, links.pidOf, active]
  · rintro ⟨pid, j⟩ ⟨a, member, isPid, filled⟩
    simp only at isPid filled
    rw [links.pidOf] at isPid
    cases found : (findNextSpot (s.process (s.slot s.current).process).thread 3).2 with
    | none =>
        rw [found] at threads
        rw [threads.1.threadOf] at filled
        exact .inl ⟨a, upcoming a member, isPid, filled⟩
    | some i =>
        rw [found] at threads
        by_cases new : (s.slot a).process = (s.slot s.current).process ∧ i = j
        · obtain ⟨same, rfl⟩ := new
          have pids : s.pidOf a = s.pidOf s.current := by
            rw [pidOf, pidOf, processOf, processOf, same]
          rw [processOf, found, ← isPid, pids]
          exact .inr rfl
        · refine .inl ⟨a, upcoming a member, isPid, ?_⟩
          rwa [threads.threadOf_ne new] at filled
  · intro i found
    change (findNextSpot (s.process (s.slot s.current).process).thread 3).2 = some i at found
    rw [found] at threads
    have entry : after.threadOf after.current i = t := by
      rw [threadOf, processOf, current, threads.slot, threads.threads]
      simp [get_thread]
    rw [stackOf, entry]
    exact createThread_userStack created found took

/-- The first stack pointer of a process that `createProcess` makes. -/
theorem createProcess_userStack {entryPoint : Nat} {q : Int}
    (made : s.createProcess entryPoint = some (s', q)) {p t page1 page2 slot : Nat}
    (took : allocPages s.buddyArray [1, 1, 2, 2, 1] =
      some (s'.buddyArray, processBlocks p t page1 page2 slot)) :
    (s'.thread t).userStack = fillStackFrame (page1 + 2 * PAGE_SIZE) := by
  obtain ⟨⟨s₁, p'⟩, built, made⟩ := Option.bind_eq_some_iff.mp made
  obtain ⟨s₂, linked, made⟩ := Option.bind_eq_some_iff.mp made
  obtain ⟨rfl, -⟩ := Prod.mk.inj (Option.some.inj made)
  obtain ⟨slot', took', -⟩ := addProcess_allocates linked
  obtain ⟨⟨s₃, page⟩, allocated, built⟩ := Option.bind_eq_some_iff.mp built
  obtain ⟨_, rfl, took₁⟩ := allocPage_eq allocated
  obtain ⟨⟨s₄, result⟩, threaded, built⟩ := Option.bind_eq_some_iff.mp built
  obtain ⟨rfl, rfl⟩ := Prod.mk.inj (Option.some.inj built)
  obtain ⟨t', page1', page2', took₂, -⟩ := createThread_threads threaded
  have found : (findNextSpot initializeThreadArray 3).2 = some 0 := by decide
  have blocks := took.symm.trans (allocPages_append took₁ (allocPages_append took₂ took'))
  simp only [processBlocks, List.cons_append, List.nil_append, Option.some.injEq, Prod.mk.injEq,
    List.cons.injEq, Block.mk.injEq, and_true] at blocks
  obtain ⟨-, -, rfl, rfl, -⟩ := blocks
  rw [← createThread_userStack threaded (by rw [setProcess_same]; exact found) took₂]
  exact congrArg (fun thread => (thread t).userStack) (addProcess_thread linked)

/-- `createProcess` brings the first thread of the process. -/
theorem createProcess_brings {slots : List Nat} {blocks : List Block}
    (linked : Linked s live ring) (stored : Stored s slots blocks) (within : ring ⊆ slots)
    (present : s.current ≠ NULL) {entryPoint : Nat} {q : Int}
    (made : s.createProcess entryPoint = some (s', q)) : ∃ page, s.processStack = some page ∧
      Brings s s' page (some (s.pid, 0)) ∧
      s'.stackOf (s'.next s'.current) 0 = fillStackFrame (page + 2 * PAGE_SIZE) := by
  obtain ⟨p, t, page1, page2, slot, ring', -, took, created, -, stored', -⟩ :=
    linked.createProcess stored within present made
  obtain ⟨p', t', _, _, slot', took', threads, -⟩ := createProcess_threads made
  rw [took] at took'
  obtain ⟨rfl, rfl, rfl⟩ := processBlocks_injective (Prod.mk.inj (Option.some.inj took')).2
  have fresh := fun a member => stored.fresh (a := a) stored'.consistent member
  have new : s.pid ∉ live := by
    intro member
    obtain ⟨a, onRing, pid⟩ := linked.mem_live.mp member
    have below := stored.pid a (within onRing)
    omega
  obtain ⟨ring', linked', perm⟩ :=
    linked.created present created (fun a member => fresh a (within member)) new
  have stack : s.processStack = some page1 := by
    rw [processStack, took]
    rfl
  refine ⟨page1, stack, ⟨⟨_, _, took, by simp [processBlocks]⟩, ?_, ?_⟩, ?_⟩
  · obtain ⟨otherSlot, otherProcess⟩ := fresh _ (within linked.closed.start_mem)
    obtain ⟨process, pids⟩ := created.kept present otherSlot otherProcess
    have current : s'.current = s.current := by
      rw [created.current, if_neg present]
    have active : s'.activeOf s.current = s.activeOf s.current := by
      rw [activeOf, processOf, process, created.processes _ otherProcess]
      rfl
    rw [runningThread, runningThread, current, pids, active]
  · rintro ⟨pid, i⟩ ⟨a, member, isPid, filled⟩
    simp only at isPid filled
    rcases List.mem_cons.mp (perm.mem_iff.mp (linked'.mem_upcoming.mpr member)) with rfl | old
    · rw [created.pidOf_slot] at isPid
      refine .inr (congrArg _ (Prod.ext isPid (created.threadOf_slot threads filled).symm))
    · obtain ⟨otherSlot, otherProcess⟩ := fresh a (within old)
      obtain ⟨process, pids⟩ := created.kept present otherSlot otherProcess
      rw [pids] at isPid
      rw [threadOf, processOf, process, created.processes _ otherProcess] at filled
      exact .inl ⟨a, linked.mem_upcoming.mp old, isPid, filled⟩
  · have next : s'.next s'.current = slot := by
      rw [created.current, if_neg present, Scheduler.next, created.linked present]
    have entry : s'.threadOf slot 0 = t := by
      rw [threadOf, processOf, created.added, threads]
      rfl
    rw [next, stackOf, entry]
    exact createProcess_userStack made took

end Threads

end Scheduler

end SistemasOperativos.Kernel
