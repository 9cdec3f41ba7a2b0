import SistemasOperativos.Kernel.SchedulerRing

/-!
# Switching between threads

A tick of the timer and `_yield` save the stack pointer of the thread that runs in its
`Thread` structure, pick the next process and load the stack pointer of one of its
threads: a tick of the next thread after `activeThread`, `_yield` of `activeThread`
itself. Each process and thread has its own structure, so what is loaded is what was
saved for them (`stacks_restored`), as long as only first threads end. The end of another
thread leaves `activeThread` at an entry that is NULL, through which the next switch
saves (`ended_thread_saves_through_null`).
-/

namespace SistemasOperativos.Kernel

open SistemasOperativos.Foundation SistemasOperativos.Semantics

namespace Scheduler

/-- The entry `i` of the array `thread` of the process in a slot. -/
def threadOf (s : Scheduler) (slot : Nat) (i : Fin MAX_THREADS) : Nat :=
  (s.processOf slot).thread.get i

/-- `slot->process->activeThread`. -/
def activeOf (s : Scheduler) (slot : Nat) : Fin MAX_THREADS := (s.processOf slot).activeThread

/-- The stack pointer that a thread will go on with. -/
def stackOf (s : Scheduler) (slot : Nat) (i : Fin MAX_THREADS) : Nat :=
  (s.thread (s.threadOf slot i)).userStack

/-- What each process goes on with, thread by thread. -/
abbrev Frames := Int → Fin MAX_THREADS → Nat

/-- The stack pointer of one thread changes. -/
def Frames.set (frames : Frames) (pid : Int) (i : Fin MAX_THREADS) (stack : Nat) : Frames :=
  Function.update frames pid (Function.update (frames pid) i stack)

/-- The stack that was saved is what the thread goes on with. -/
theorem Frames.set_same (frames : Frames) (pid : Int) (i : Fin MAX_THREADS) (stack : Nat) :
    frames.set pid i stack pid i = stack := by
  simp [set]

/-- Saving a stack leaves those of the other threads. -/
theorem Frames.set_ne {pid other : Int} {i j : Fin MAX_THREADS}
    (different : other ≠ pid ∨ j ≠ i) (frames : Frames) (stack : Nat) :
    frames.set pid i stack other j = frames other j := by
  by_cases same : other = pid
  · subst same
    have index := different.resolve_left fun apart => apart rfl
    simp [set, Function.update_of_ne index]
  · simp [set, Function.update_of_ne same]

/-- The threads of the processes made so far have `Thread` structures of their own, which
hold what the process will go on with, and `activeThread` is one of them. -/
structure Threaded (s : Scheduler) (frames : Frames) (slots : List Nat)
    (blocks : List Block) : Prop where
  active : ∀ a ∈ slots, s.threadOf a (s.activeOf a) ≠ NULL
  block : ∀ a ∈ slots, ∀ i, s.threadOf a i ≠ NULL → ⟨s.threadOf a i, 1⟩ ∈ blocks
  distinct : ∀ a ∈ slots, ∀ b ∈ slots, ∀ i j, s.threadOf a i ≠ NULL →
    s.threadOf a i = s.threadOf b j → a = b ∧ i = j
  stack : ∀ a ∈ slots, ∀ i, s.threadOf a i ≠ NULL → s.stackOf a i = frames (s.pidOf a) i

/-- What leaves the threads of all processes alone. -/
structure SameThreads (s s' : Scheduler) : Prop where
  process : ∀ a, (s'.slot a).process = (s.slot a).process
  pid : ∀ p, (s'.process p).pid = (s.process p).pid
  active : ∀ p, (s'.process p).activeThread = (s.process p).activeThread
  threads : ∀ p, (s'.process p).thread = (s.process p).thread
  thread : s'.thread = s.thread

section Threads

variable {s s' : Scheduler} {frames : Frames} {slots : List Nat} {blocks : List Block}

namespace SameThreads

/-- A scheduler has its own threads. -/
theorem refl (s : Scheduler) : SameThreads s s :=
  ⟨fun _ => rfl, fun _ => rfl, fun _ => rfl, fun _ => rfl, rfl⟩

/-- Two operations that leave the threads leave them together. -/
theorem trans {s'' : Scheduler} (first : SameThreads s s') (second : SameThreads s' s'') :
    SameThreads s s'' :=
  ⟨fun a => (second.process a).trans (first.process a),
    fun p => (second.pid p).trans (first.pid p),
    fun p => (second.active p).trans (first.active p),
    fun p => (second.threads p).trans (first.threads p), second.thread.trans first.thread⟩

/-- The processes keep their threads. -/
theorem threadOf (same : SameThreads s s') : s'.threadOf = s.threadOf := by
  funext a i
  simp only [Scheduler.threadOf, processOf, same.process, same.threads]

/-- The processes keep their active threads. -/
theorem activeOf (same : SameThreads s s') : s'.activeOf = s.activeOf := by
  funext a
  simp only [Scheduler.activeOf, processOf, same.process, same.active]

/-- The processes keep their pids. -/
theorem pidOf (same : SameThreads s s') : s'.pidOf = s.pidOf := by
  funext a
  simp only [Scheduler.pidOf, processOf, same.process, same.pid]

/-- The threads keep the stacks that were saved. -/
theorem stackOf (same : SameThreads s s') : s'.stackOf = s.stackOf := by
  funext a i
  simp only [Scheduler.stackOf, same.threadOf, same.thread]

end SameThreads

/-- Threads stay laid out by an operation that leaves them. -/
theorem Threaded.same (threaded : Threaded s frames slots blocks) (same : SameThreads s s') :
    Threaded s' frames slots blocks := by
  refine ⟨?_, ?_, ?_, ?_⟩
  · rw [same.threadOf, same.activeOf]
    exact threaded.active
  · rw [same.threadOf]
    exact threaded.block
  · rw [same.threadOf]
    exact threaded.distinct
  · rw [same.threadOf, same.stackOf, same.pidOf]
    exact threaded.stack

/-- Threads stay laid out when more blocks are given out. -/
theorem Threaded.more (threaded : Threaded s frames slots blocks) {more : List Block}
    (kept : blocks ⊆ more) : Threaded s frames slots more :=
  ⟨threaded.active, fun a member i made => kept (threaded.block a member i made),
    threaded.distinct, threaded.stack⟩

/-- Writing the state of a process. -/
theorem setState_sameThreads (s : Scheduler) (p : Nat) (state : ProcessState) :
    SameThreads s (s.setProcess p { s.process p with state := state }) := by
  refine ⟨fun _ => rfl, fun a => ?_, fun a => ?_, fun a => ?_, rfl⟩ <;>
  · by_cases same : a = p
    · simp [setProcess, same]
    · simp [setProcess, same]

/-- `preempt` leaves the threads. -/
theorem preempt_sameThreads (s : Scheduler) : SameThreads s s.preempt := by
  unfold preempt
  split
  · exact setState_sameThreads s _ _
  · exact .refl s

/-- `schedule` leaves the threads. -/
theorem schedule_sameThreads {fuel : Nat} (switched : s.schedule fuel = some s') :
    SameThreads s s' := by
  obtain ⟨slot, -, rfl⟩ := Option.map_eq_some_iff.mp switched
  have write := setState_sameThreads s.preempt (s.preempt.slot slot).process .running
  have moved := (preempt_sameThreads s).trans write
  exact ⟨moved.process, moved.pid, moved.active, moved.threads, moved.thread⟩

/-- `changeProcessState` leaves the threads. -/
theorem changeProcessState_sameThreads (s : Scheduler) (pid : Int) (state : ProcessState) :
    SameThreads s (s.changeProcessState pid state) := by
  have loop : ∀ remaining slot,
      SameThreads s (s.changeProcessStateLoop pid state remaining slot) := by
    intro remaining
    induction remaining with
    | zero => exact fun _ => .refl s
    | succ remaining ih =>
        intro slot
        unfold changeProcessStateLoop
        split
        · exact setState_sameThreads s _ _
        · exact ih (s.next slot)
  exact loop _ _

/-- Unlinking a slot leaves the threads. -/
theorem unlink_sameThreads (s : Scheduler) (x y : Nat) : SameThreads s (s.unlink x y) :=
  ⟨unlink_process s x y, fun _ => rfl, fun _ => rfl, fun _ => rfl, rfl⟩

/-! ### Saving and loading -/

/-- Saving the stack pointer of the thread that runs changes what it goes on with, and
nothing else. -/
theorem Threaded.save (threaded : Threaded s frames slots blocks) (running : s.current ∈ slots)
    (pids : ∀ a ∈ slots, ∀ b ∈ slots, s.pidOf a = s.pidOf b → a = b) (rsp : Nat) :
    Threaded (s.saveUserStack rsp)
      (frames.set (s.pidOf s.current) (s.activeOf s.current) rsp) slots blocks := by
  refine ⟨threaded.active, threaded.block, threaded.distinct, ?_⟩
  intro a member i made
  have kept : (s.saveUserStack rsp).threadOf a i = s.threadOf a i := rfl
  rw [kept] at made
  by_cases here : a = s.current ∧ i = s.activeOf s.current
  · obtain ⟨rfl, rfl⟩ := here
    refine Eq.trans ?_ (Frames.set_same ..).symm
    simp [stackOf, saveUserStack, setThread, currentThread, threadOf, activeOf, processOf]
  · have other : s.threadOf a i ≠ s.currentThread := fun shared =>
      here (threaded.distinct a member s.current running i (s.activeOf s.current) made shared)
    have different : s.pidOf a ≠ s.pidOf s.current ∨ i ≠ s.activeOf s.current := by
      by_cases slot : a = s.current
      · exact .inr fun index => here ⟨slot, index⟩
      · exact .inl fun pid => slot (pids a member s.current running pid)
    refine Eq.trans ?_ (Frames.set_ne different frames rsp).symm
    rw [← threaded.stack a member i made]
    exact congrArg Thread.userStack (Function.update_of_ne other ..)

/-- The two ways to read a vector. -/
theorem get_thread (t : Vector Nat MAX_THREADS) (i : Fin MAX_THREADS) :
    t.get i = GetElem.getElem t i.val i.isLt := rfl

/-- The thread that a tick goes on with is one of the process. -/
theorem nextThread_ne {p : Process} {index : Fin MAX_THREADS} (found : nextThread p = some index) :
    p.thread.get index ≠ NULL := by
  simpa using List.find?_some found

/-- Another thread of the process gets active. -/
theorem Threaded.activate (threaded : Threaded s frames slots blocks) {slot : Nat}
    {index : Fin MAX_THREADS} (made : s.threadOf slot index ≠ NULL) :
    Threaded (s.setProcess (s.slot slot).process { s.processOf slot with activeThread := index })
      frames slots blocks := by
  obtain ⟨after, eq⟩ : ∃ after, after = s.setProcess (s.slot slot).process
      { s.processOf slot with activeThread := index } := ⟨_, rfl⟩
  have fields (p : Nat) : (after.process p).thread = (s.process p).thread ∧
      (after.process p).pid = (s.process p).pid := by
    rw [eq]
    by_cases same : p = (s.slot slot).process
    · rw [same, setProcess_same]
      exact ⟨rfl, rfl⟩
    · rw [setProcess_ne same]
      exact ⟨rfl, rfl⟩
  have links : after.slot = s.slot ∧ after.thread = s.thread := by
    rw [eq]
    exact ⟨rfl, rfl⟩
  have threads : after.threadOf = s.threadOf := by
    funext a i
    simp only [threadOf, processOf, links.1, (fields _).1]
  have pids : after.pidOf = s.pidOf := by
    funext a
    simp only [pidOf, processOf, links.1, (fields _).2]
  rw [← eq]
  refine ⟨?_, ?_, ?_, ?_⟩
  · intro a member
    by_cases same : (s.slot a).process = (s.slot slot).process
    · have active : after.activeOf a = index := by
        rw [eq, activeOf, processOf, setProcess_slot, same, setProcess_same]
      rw [threads, active, threadOf, processOf, same]
      exact made
    · have active : after.activeOf a = s.activeOf a := by
        rw [eq, activeOf, processOf, setProcess_slot, setProcess_ne same]
        rfl
      rw [threads, active]
      exact threaded.active a member
  · rw [threads]
    exact threaded.block
  · rw [threads]
    exact threaded.distinct
  · intro a member i
    simp only [stackOf, threads, pids, links.2]
    exact threaded.stack a member i

/-! ### New threads -/

/-- The mark of `findNextSpot` is overwritten by the thread. -/
theorem findNextSpot_eq_some {t marked : Vector Nat MAX_THREADS} {dim : Nat}
    {index : Fin MAX_THREADS} (found : findNextSpot t dim = (marked, some index)) :
    t.get index = NULL ∧
      ∀ thread, marked.set index thread index.isLt = t.set index thread index.isLt := by
  simp only [findNextSpot] at found
  split at found
  · rename_i i first
    obtain ⟨rfl, same⟩ := Prod.mk.inj found
    obtain rfl := Option.some.inj same
    have free := List.find?_some first
    simp only [decide_eq_true_eq] at free
    exact ⟨free.2, fun thread => by simp⟩
  · cases (Prod.mk.inj found).2

/-- What `createThread` does to the threads: nothing, or a new one in a free entry. -/
structure ThreadAdded (s s' : Scheduler) (p t : Nat) (i : Fin MAX_THREADS) : Prop where
  slot : s'.slot = s.slot
  free : (s.process p).thread.get i = NULL
  others : ∀ q, q ≠ p → s'.process q = s.process q
  pid : (s'.process p).pid = (s.process p).pid
  active : (s'.process p).activeThread = (s.process p).activeThread
  threads : (s'.process p).thread = (s.process p).thread.set i t
  thread : ∀ u, u ≠ t → s'.thread u = s.thread u

/-- `createThread` takes its pages and adds the thread if there is an entry for it. -/
theorem createThread_threads {entryPoint p : Nat} {result : Int}
    (made : s.createThread entryPoint p = some (s', result)) :
    ∃ t page1 page2, allocPages s.buddyArray [1, 2, 2] =
        some (s'.buddyArray, [⟨t, 1⟩, ⟨page1, 2⟩, ⟨page2, 2⟩]) ∧
      match (findNextSpot (s.process p).thread 3).2 with
      | none => SameThreads s s' ∧ s'.slot = s.slot
      | some i => ThreadAdded s s' p t i := by
  obtain ⟨t, page1, page2, buddyArray, took, ⟨found, rfl⟩ | ⟨thread, i, added, found, rfl⟩⟩ :=
    createThread_cases made
  · refine ⟨t, page1, page2, took, ?_⟩
    rw [found]
    exact ⟨⟨fun _ => rfl, fun _ => rfl, fun _ => rfl, fun _ => rfl, rfl⟩, rfl⟩
  · obtain ⟨free, set⟩ := findNextSpot_eq_some found
    refine ⟨t, page1, page2, took, ?_⟩
    rw [found]
    refine ⟨rfl, free, ?_, ?_, ?_, ?_, ?_⟩
    · intro q other
      exact setProcess_ne other _ _
    · simp [setThread, setProcess]
    · simp [setThread, setProcess]
    · simpa [setThread, setProcess] using set t
    · intro u other
      exact Function.update_of_ne other ..

/-- `addProcess` writes to no thread. -/
theorem addProcess_thread {p : Nat} (linked : s.addProcess p = some s') :
    s'.thread = s.thread := by
  obtain ⟨⟨s₁, slot⟩, placed, linked⟩ := Option.bind_eq_some_iff.mp linked
  obtain ⟨⟨s₂, page⟩, allocated, stored⟩ := Option.bind_eq_some_iff.mp placed
  obtain ⟨_, rfl, -⟩ := allocPage_eq allocated
  obtain ⟨rfl, rfl⟩ := Prod.mk.inj (Option.some.inj stored)
  simp only at linked
  split at linked
  · obtain rfl := Option.some.inj linked
    rfl
  · obtain rfl := Option.some.inj linked
    rfl

/-- `createProcess` gives the process one thread. -/
theorem createProcess_threads {entryPoint : Nat} {q : Int}
    (made : s.createProcess entryPoint = some (s', q)) :
    ∃ p t page1 page2 slot, allocPages s.buddyArray [1, 1, 2, 2, 1] =
        some (s'.buddyArray, processBlocks p t page1 page2 slot) ∧
      (s'.process p).thread = initializeThreadArray.set 0 t ∧
      (s'.process p).activeThread = 0 ∧ ∀ u, u ≠ t → s'.thread u = s.thread u := by
  obtain ⟨⟨s₁, p⟩, built, made⟩ := Option.bind_eq_some_iff.mp made
  obtain ⟨s₂, linked, made⟩ := Option.bind_eq_some_iff.mp made
  obtain ⟨rfl, -⟩ := Prod.mk.inj (Option.some.inj made)
  obtain ⟨slot, took, -, -, sameProcess, -⟩ := addProcess_allocates linked
  obtain ⟨⟨s₃, page⟩, allocated, built⟩ := Option.bind_eq_some_iff.mp built
  obtain ⟨_, rfl, took₁⟩ := allocPage_eq allocated
  obtain ⟨⟨s₄, result⟩, threaded, built⟩ := Option.bind_eq_some_iff.mp built
  obtain ⟨rfl, rfl⟩ := Prod.mk.inj (Option.some.inj built)
  obtain ⟨t, page1, page2, took₂, added⟩ := createThread_threads threaded
  have first : (findNextSpot initializeThreadArray 3).2 = some 0 := by decide
  simp only [setProcess_same, first] at added
  have threads := added.threads
  have active := added.active
  simp only [setProcess_same] at threads active
  refine ⟨page, t, page1, page2, slot, allocPages_append took₁ (allocPages_append took₂ took),
    ?_, ?_, ?_⟩
  · rw [sameProcess, setProcess_same]
    exact threads
  · rw [sameProcess, setProcess_same]
    exact active
  · intro u other
    rw [addProcess_thread linked]
    exact added.thread u other

/-- A page that was just taken is the structure of no thread. -/
theorem Threaded.fresh (threaded : Threaded s frames slots blocks) {t : Nat} (present : t ≠ NULL)
    (new : ∀ b ∈ blocks, b.page ≠ t) {a : Nat} (member : a ∈ slots) (i : Fin MAX_THREADS) :
    s.threadOf a i ≠ t := by
  intro same
  by_cases none : s.threadOf a i = NULL
  · exact present (same.symm.trans none)
  · exact new _ (threaded.block a member i none) same

/-- The slots stay stored when more pages are taken. -/
theorem Stored.more (stored : Stored s slots blocks) (same : SameLinks s s') {taken : List Block}
    (consistent : Consistent (s'.heapRun (taken ++ blocks))) :
    Stored s' slots (taken ++ blocks) := by
  have kept : blocks ⊆ taken ++ blocks := List.subset_append_right ..
  refine ⟨consistent, ?_, ?_, ?_, ?_, ?_⟩
  · intro a member
    exact kept (stored.slot a member)
  · intro a member
    rw [same.slot]
    exact kept (stored.process a member)
  · rw [same.pidOf, same.counter]
    exact stored.pid
  · rw [same.pidOf]
    exact stored.distinct
  · have counter := stored.counter
    rw [same.counter, List.length_append]
    omega

/-- The pages taken last are not those of a block there was. -/
theorem page_ne_of_consistent {state : HeapRun} {taken : List Block}
    (consistent : Consistent state) (live : state.live = taken ++ blocks) {b c : Block}
    (first : c ∈ taken) (second : b ∈ blocks) : b.page ≠ c.page := by
  have pages := consistent.pages_nodup
  rw [live, List.map_append, List.nodup_append] at pages
  intro same
  exact pages.2.2 c.page (List.mem_map.mpr ⟨c, first, rfl⟩) b.page
    (List.mem_map.mpr ⟨b, second, rfl⟩) same.symm

/-- A thread more for the process in a slot. -/
theorem Threaded.added (threaded : Threaded s frames slots blocks) {c t : Nat}
    {i : Fin MAX_THREADS} (member : c ∈ slots)
    (pids : ∀ a ∈ slots, ∀ b ∈ slots, s.pidOf a = s.pidOf b → a = b)
    (added : ThreadAdded s s' (s.slot c).process t i) {more : List Block}
    (kept : blocks ⊆ more) (taken : ⟨t, 1⟩ ∈ more) (present : t ≠ NULL)
    (new : ∀ b ∈ blocks, b.page ≠ t) :
    Threaded s' (frames.set (s.pidOf c) i (s'.thread t).userStack) slots more := by
  have here (j : Fin MAX_THREADS) :
      s'.threadOf c j = if i = j then t else s.threadOf c j := by
    rw [threadOf, processOf, added.slot, added.threads]
    simp only [get_thread, Vector.getElem_set]
    by_cases same : i = j
    · rw [if_pos same, if_pos (congrArg Fin.val same)]
    · rw [if_neg same, if_neg fun index => same (Fin.ext index)]
      rfl
  have elsewhere : ∀ a ∈ slots, a ≠ c → ∀ j, s'.threadOf a j = s.threadOf a j := by
    intro a inside other j
    have apart : (s.slot a).process ≠ (s.slot c).process := fun same =>
      other (pids a inside c member (by rw [pidOf, pidOf, processOf, processOf, same]))
    rw [threadOf, processOf, added.slot, added.others _ apart]
    rfl
  have active : s'.activeOf = s.activeOf := by
    funext a
    by_cases same : (s.slot a).process = (s.slot c).process
    · rw [activeOf, processOf, added.slot, same, added.active, activeOf, processOf, same]
    · rw [activeOf, processOf, added.slot, added.others _ same]
      rfl
  have pid : s'.pidOf = s.pidOf := by
    funext a
    by_cases same : (s.slot a).process = (s.slot c).process
    · rw [pidOf, processOf, added.slot, same, added.pid, pidOf, processOf, same]
    · rw [pidOf, processOf, added.slot, added.others _ same]
      rfl
  have unused := fun a inside => threaded.fresh (a := a) present new inside
  have either : ∀ a ∈ slots, ∀ j, (a = c ∧ j = i ∧ s'.threadOf a j = t) ∨
      ((a ≠ c ∨ j ≠ i) ∧ s'.threadOf a j = s.threadOf a j) := by
    intro a inside j
    by_cases slot : a = c
    · subst slot
      rw [here]
      by_cases same : i = j
      · exact .inl ⟨rfl, same.symm, if_pos same⟩
      · exact .inr ⟨.inr (Ne.symm same), if_neg same⟩
    · exact .inr ⟨.inl slot, elsewhere a inside slot j⟩
  refine ⟨?_, ?_, ?_, ?_⟩
  · intro a inside
    rcases either a inside (s'.activeOf a) with ⟨-, -, made⟩ | ⟨-, old⟩
    · rw [made]
      exact present
    · rw [old, active]
      exact threaded.active a inside
  · intro a inside j made
    rcases either a inside j with ⟨-, -, new⟩ | ⟨-, old⟩
    · rw [new]
      exact taken
    · rw [old] at made ⊢
      exact kept (threaded.block a inside j made)
  · intro a inside b inside' j k made shared
    rcases either a inside j with ⟨rfl, rfl, new⟩ | ⟨-, old⟩
    · rcases either b inside' k with ⟨rfl, rfl, -⟩ | ⟨-, old'⟩
      · exact ⟨rfl, rfl⟩
      · rw [new, old'] at shared
        exact absurd shared.symm (unused b inside' k)
    · rcases either b inside' k with ⟨-, -, new'⟩ | ⟨-, old'⟩
      · rw [old, new'] at shared
        exact absurd shared (unused a inside j)
      · rw [old] at made
        rw [old, old'] at shared
        exact threaded.distinct a inside b inside' j k made shared
  · intro a inside j made
    rw [pid]
    rcases either a inside j with ⟨rfl, rfl, new⟩ | ⟨other, old⟩
    · rw [Frames.set_same, stackOf, new]
    · have different : s.pidOf a ≠ s.pidOf c ∨ j ≠ i :=
        other.imp_left fun slot same => slot (pids a inside c member same)
      rw [old] at made
      rw [Frames.set_ne different, stackOf, old, added.thread _ (unused a inside j)]
      exact threaded.stack a inside j made

/-- A new process with its first thread. -/
theorem Threaded.created (threaded : Threaded s frames slots blocks)
    (present : slots ≠ [] → s.current ≠ NULL) {p t slot : Nat} (created : Created s s' p slot)
    (threads : (s'.process p).thread = initializeThreadArray.set 0 t)
    (first : (s'.process p).activeThread = 0) (thread : ∀ u, u ≠ t → s'.thread u = s.thread u)
    (apart : ∀ a ∈ slots, a ≠ slot ∧ (s.slot a).process ≠ p)
    (pids : ∀ a ∈ slots, s.pidOf a ≠ s.pid) {more : List Block} (kept : blocks ⊆ more)
    (taken : ⟨t, 1⟩ ∈ more) (made : t ≠ NULL) (new : ∀ b ∈ blocks, b.page ≠ t) :
    Threaded s' (frames.set s.pid 0 (s'.thread t).userStack) (slot :: slots) more := by
  have same : ∀ a ∈ slots, (s'.slot a).process = (s.slot a).process ∧ s'.pidOf a = s.pidOf a :=
    fun a member => created.kept (present (List.ne_nil_of_mem member)) (apart a member).1
      (apart a member).2
  have processes : ∀ a ∈ slots, s'.processOf a = s.processOf a := by
    intro a member
    rw [processOf, (same a member).1, created.processes _ (apart a member).2]
    rfl
  have old : ∀ a ∈ slots, ∀ i, s'.threadOf a i = s.threadOf a i := by
    intro a member i
    rw [threadOf, processes a member]
    rfl
  have here (i : Fin MAX_THREADS) : s'.threadOf slot i = if i = 0 then t else NULL := by
    rw [threadOf, processOf, created.added, threads]
    simp only [get_thread, Vector.getElem_set]
    by_cases index : i = 0
    · subst index
      rfl
    · rw [if_neg index, if_neg fun zero => index (Fin.ext zero.symm)]
      simp [initializeThreadArray]
  have only : ∀ i, s'.threadOf slot i ≠ NULL → i = 0 ∧ s'.threadOf slot i = t := by
    intro i some
    rw [here] at some ⊢
    split at some
    · rename_i index
      exact ⟨index, if_pos index⟩
    · exact absurd rfl some
  have unused := fun a member => threaded.fresh (a := a) made new member
  refine ⟨?_, ?_, ?_, ?_⟩
  · intro a member
    rcases List.mem_cons.mp member with rfl | before
    · have active : s'.activeOf a = 0 := by
        rw [activeOf, processOf, created.added, first]
      rw [active, here, if_pos rfl]
      exact made
    · have active : s'.activeOf a = s.activeOf a := by
        rw [activeOf, processes a before]
        rfl
      rw [active, old a before]
      exact threaded.active a before
  · intro a member i some
    rcases List.mem_cons.mp member with rfl | before
    · rw [(only i some).2]
      exact taken
    · rw [old a before] at some ⊢
      exact kept (threaded.block a before i some)
  · intro a member b member' i j some shared
    rcases List.mem_cons.mp member with rfl | before
    · obtain ⟨zero, self⟩ := only i some
      rcases List.mem_cons.mp member' with rfl | before'
      · rw [shared] at some
        exact ⟨rfl, zero.trans (only j some).1.symm⟩
      · rw [self, old b before'] at shared
        exact absurd shared.symm (unused b before' j)
    · rcases List.mem_cons.mp member' with rfl | before'
      · rw [shared] at some
        rw [(only j some).2, old a before] at shared
        exact absurd shared (unused a before i)
      · rw [old a before] at some
        rw [old a before, old b before'] at shared
        exact threaded.distinct a before b before' i j some shared
  · intro a member i some
    rcases List.mem_cons.mp member with rfl | before
    · obtain ⟨rfl, self⟩ := only i some
      rw [created.pidOf_slot, Frames.set_same, stackOf, self]
    · rw [(same a before).2, Frames.set_ne (.inl (pids a before)), stackOf, old a before,
        thread _ (unused a before i)]
      rw [old a before] at some
      exact threaded.stack a before i some

/-- The blocks that `createProcess` takes tell what it made. -/
theorem processBlocks_injective {p t page1 page2 slot p' t' page1' page2' slot' : Nat}
    (same : processBlocks p t page1 page2 slot = processBlocks p' t' page1' page2' slot') :
    p = p' ∧ t = t' ∧ slot = slot' := by
  simp only [processBlocks, List.cons.injEq, Block.mk.injEq] at same
  exact ⟨same.1.1, same.2.1.1, same.2.2.2.2.1.1⟩

/-- A process that was made with one thread. -/
theorem Threaded.createProcess (stored : Stored s slots blocks)
    (threaded : Threaded s frames slots blocks) (present : slots ≠ [] → s.current ≠ NULL)
    {entryPoint : Nat} {pid : Int} (made : s.createProcess entryPoint = some (s', pid))
    {p t page1 page2 slot : Nat}
    (took : allocPages s.buddyArray [1, 1, 2, 2, 1] =
      some (s'.buddyArray, processBlocks p t page1 page2 slot))
    (created : Created s s' p slot) :
    Threaded s' (frames.set s.pid 0 (s'.stackOf slot 0)) (slot :: slots)
      ((processBlocks p t page1 page2 slot).reverse ++ blocks) := by
  obtain ⟨p', t', _, _, slot', took', threads, first, thread⟩ := createProcess_threads made
  rw [took] at took'
  obtain ⟨rfl, rfl, rfl⟩ := processBlocks_injective (Prod.mk.inj (Option.some.inj took')).2
  have consistent : Consistent
      (s'.heapRun ((processBlocks p t page1 page2 slot).reverse ++ blocks)) :=
    stored.consistent.allocPages took
  have taken : (⟨t, 1⟩ : Block) ∈ (processBlocks p t page1 page2 slot).reverse := by
    simp [processBlocks]
  have stack : s'.stackOf slot 0 = (s'.thread t).userStack := by
    rw [stackOf, threadOf, processOf, created.added, threads]
    rfl
  rw [stack]
  refine threaded.created present created threads first thread
    (fun a member => stored.fresh consistent member) ?_ (List.subset_append_right ..)
    (List.mem_append_left _ taken) ?_ fun b old => page_ne_of_consistent consistent rfl taken old
  · intro a member
    have below := stored.pid a member
    omega
  · exact Nat.ne_of_gt
      (consistent.placed ⟨t, 1⟩ (List.mem_append_left _ taken)).page_positive

end Threads

end Scheduler

/-! ## Runs of several threads -/

/-- A stack pointer that the switch code returned, the process and thread it is for, and
what was saved for them last. -/
structure Restore where
  pid : Int
  thread : Fin MAX_THREADS
  stack : Nat
  saved : Nat
  deriving DecidableEq, Repr

/-- The scheduler, the stack pointers that were saved last, or the frames that
`fillStackFrame` made, the `Thread` structures that were accessed to save or load
a stack pointer, and the stack pointers that were returned. -/
structure ThreadRun where
  scheduler : Scheduler
  frames : Scheduler.Frames
  accessed : List Nat
  restored : List Restore

/-- What the current process, or the timer, does. -/
inductive ThreadAction where
  | createProcess (entryPoint : Nat)
  | changeProcessState (pid : Int) (state : ProcessState)
  | createThread (entryPoint : Nat)
  | terminateThread (rsp : Nat)
  | _yield (rsp : Nat)
  | timerTick (esp : Nat)
  deriving DecidableEq

namespace ThreadRun

open Scheduler

/-- The stack pointer of the thread that runs is saved. -/
def switchedOut (state : ThreadRun) (rsp : Nat) : ThreadRun :=
  let s := state.scheduler
  { state with
    frames := state.frames.set (s.pidOf s.current) (s.activeOf s.current) rsp
    accessed := state.accessed ++ [s.currentThread] }

/-- The switch code returned the stack pointer of the thread to go on with. -/
def switchedIn (state : ThreadRun) (s : Scheduler) (stack : Nat) : ThreadRun :=
  let pid := s.pidOf s.current
  let thread := s.activeOf s.current
  { state with
    scheduler := s
    accessed := state.accessed ++ [s.currentThread]
    restored := state.restored ++ [⟨pid, thread, stack, state.frames pid thread⟩] }

/-- `terminateThread` gets to the `_yield` in `removeProcess`. -/
def EndsSwitching (s : Scheduler) : Prop :=
  s.current ≠ NULL ∧ s.activeOf s.current = 0 ∧
    (s.pidOf s.current = 0 ∨ ¬ s.IsOnlyProcess (s.pidOf s.current) ∧
      ∃ found ∈ s.findSlot (s.pidOf s.current), s.pidOf found.2 = s.pidOf s.current)

instance (s : Scheduler) : Decidable (EndsSwitching s) := by
  unfold EndsSwitching
  infer_instance

/-- One call that completes. -/
def step (fuel : Nat) (state : ThreadRun) : ThreadAction → Option ThreadRun
  | .createProcess entryPoint =>
      (state.scheduler.createProcess entryPoint).map fun (s, pid) =>
        { state with
          scheduler := s
          frames := state.frames.set pid 0 (s.stackOf (s.next s.current) 0) }
  | .changeProcessState pid processState =>
      some { state with scheduler := state.scheduler.changeProcessState pid processState }
  | .createThread entryPoint =>
      let before := state.scheduler
      (before.thread_create entryPoint).map fun s =>
        match (findNextSpot (before.processOf before.current).thread 3).2 with
        | none => { state with scheduler := s }
        | some i =>
            { state with
              scheduler := s
              frames := state.frames.set (s.pidOf s.current) i (s.stackOf s.current i) }
  | .terminateThread rsp =>
      (state.scheduler.terminateThread fuel rsp).map fun s =>
        if EndsSwitching state.scheduler then
          (state.switchedOut rsp).switchedIn s (s.thread s.currentThread).userStack
        else { state with scheduler := s }
  | ._yield rsp =>
      (state.scheduler.next_process fuel rsp).map fun (s, stack) =>
        if state.scheduler.current = NULL then state
        else (state.switchedOut rsp).switchedIn s stack
  | .timerTick esp =>
      ((state.scheduler.switchUserToKernel esp).1.switchKernelToUser fuel).map fun (s, stack) =>
        (state.switchedOut esp).switchedIn s stack

/-- Every `Thread` structure accessed was one, and every stack pointer returned was the one
that was saved last for the process and thread, or its first. -/
structure Matched (state : ThreadRun) : Prop where
  accessed : ∀ t ∈ state.accessed, t ≠ NULL
  restored : ∀ r ∈ state.restored, r.stack = r.saved

/-- The first process has been created. -/
structure Start (state : ThreadRun) : Prop where
  made : ∃ boot entryPoint pid, SchedulerRun.Boot boot ∧
    boot.createProcess entryPoint = some (state.scheduler, pid) ∧
    state.frames pid 0 = state.scheduler.stackOf state.scheduler.current 0
  accessed : state.accessed = []
  restored : state.restored = []

/-- The condition on a step: only the first thread of a process ends. -/
def FirstThreadEnds (state : ThreadRun) : ThreadAction → Prop
  | .terminateThread _ => state.scheduler.activeOf state.scheduler.current = 0
  | _ => True

instance (state : ThreadRun) (action : ThreadAction) :
    Decidable (state.FirstThreadEnds action) := by
  cases action <;> unfold FirstThreadEnds <;> infer_instance

/-- The ring with its threads. -/
def Ready (s : Scheduler) (frames : Frames) : Prop :=
  ∃ live ring slots blocks, Linked s live ring ∧ Stored s slots blocks ∧ ring ⊆ slots ∧
    Threaded s frames slots blocks

section Ready

variable {s s' : Scheduler} {frames : Frames}

/-- The thread that runs has its structure, with the stack pointer it was left with. -/
theorem Ready.current (ready : Ready s frames) : s.currentThread ≠ NULL ∧
    (s.thread s.currentThread).userStack = frames (s.pidOf s.current) (s.activeOf s.current) := by
  obtain ⟨live, ring, slots, blocks, linked, stored, within, threaded⟩ := ready
  have running := within linked.closed.start_mem
  have made : s.currentThread ≠ NULL := threaded.active _ running
  exact ⟨made, threaded.stack _ running _ made⟩

/-- Some process runs. -/
theorem Ready.present (ready : Ready s frames) : s.current ≠ NULL := by
  obtain ⟨live, ring, slots, blocks, linked, stored, within, -⟩ := ready
  exact stored.present (within linked.closed.start_mem)

/-- Saving the stack of the running thread records it. -/
theorem Ready.save (ready : Ready s frames) (rsp : Nat) :
    Ready (s.saveUserStack rsp)
      (frames.set (s.pidOf s.current) (s.activeOf s.current) rsp) := by
  obtain ⟨live, ring, slots, blocks, linked, stored, within, threaded⟩ := ready
  have same : SameRing s (s.saveUserStack rsp) := setThread_sameRing s _ _
  obtain ⟨ring', linked', perm⟩ := linked.same same.toSameLinks linked.closed.start_mem
  refine ⟨live, ring', slots, blocks, linked', stored.same same.samePages,
    fun _ member => within (perm.mem_iff.mp member), ?_⟩
  exact threaded.save (within linked.closed.start_mem) stored.distinct rsp

/-- `schedule` changes no saved stack. -/
theorem Ready.schedule (ready : Ready s frames) {fuel : Nat}
    (switched : s.schedule fuel = some s') : Ready s' frames := by
  obtain ⟨live, ring, slots, blocks, linked, stored, within, threaded⟩ := ready
  have moved := schedule_switched switched
  obtain ⟨ring', linked', perm⟩ := linked.switched moved
  exact ⟨live, ring', slots, blocks, linked', stored.same moved.same.samePages,
    fun _ member => within (perm.mem_iff.mp member),
    threaded.same (schedule_sameThreads switched)⟩

/-- What keeps the ring and the threads. -/
theorem Ready.same (ready : Ready s frames) (same : SameRing s s')
    (current : s'.current = s.current) (threads : SameThreads s s') : Ready s' frames := by
  obtain ⟨live, ring, slots, blocks, linked, stored, within, threaded⟩ := ready
  obtain ⟨ring', linked', perm⟩ :=
    linked.same same.toSameLinks (current ▸ linked.closed.start_mem)
  exact ⟨live, ring', slots, blocks, linked', stored.same same.samePages,
    fun _ member => within (perm.mem_iff.mp member), threaded.same threads⟩

/-- `next_process` returns the stack pointer of `activeThread` of the next process. -/
theorem Ready.next_process (ready : Ready s frames) {fuel rsp stack : Nat}
    (switched : s.next_process fuel rsp = some (s', stack)) :
    Ready s' (frames.set (s.pidOf s.current) (s.activeOf s.current) rsp) ∧
      stack = (s'.thread s'.currentThread).userStack := by
  rw [Scheduler.next_process, if_neg ready.present] at switched
  obtain ⟨next, scheduled, pair⟩ := Option.map_eq_some_iff.mp switched
  obtain ⟨rfl, rfl⟩ := Prod.mk.inj pair
  exact ⟨(ready.save rsp).schedule scheduled, rfl⟩

/-- `_yield` saves the stack of the running thread and changes no other. -/
theorem Ready._yield (ready : Ready s frames) {fuel rsp : Nat}
    (switched : s._yield fuel rsp = some s') :
    Ready s' (frames.set (s.pidOf s.current) (s.activeOf s.current) rsp) := by
  obtain ⟨⟨next, stack⟩, chosen, rfl⟩ := Option.map_eq_some_iff.mp switched
  exact (ready.next_process chosen).1

/-- A tick goes on with another thread of the next process. -/
theorem Ready.switchKernelToUser (ready : Ready s frames) {fuel stack : Nat}
    (switched : s.switchKernelToUser fuel = some (s', stack)) :
    Ready s' frames ∧ stack = (s'.thread s'.currentThread).userStack := by
  obtain ⟨next, scheduled, rest⟩ := Option.bind_eq_some_iff.mp switched
  obtain ⟨index, found, pair⟩ := Option.bind_eq_some_iff.mp rest
  obtain ⟨rfl, rfl⟩ := Prod.mk.inj (Option.some.inj pair)
  refine ⟨?_, rfl⟩
  obtain ⟨live, ring, slots, blocks, linked, stored, within, threaded⟩ :=
    ready.schedule scheduled
  have write : SameRing next (next.setProcess (next.slot next.current).process
    { next.processOf next.current with activeThread := index }) := setProcess_sameRing rfl
  obtain ⟨ring', linked', perm⟩ := linked.same write.toSameLinks linked.closed.start_mem
  exact ⟨live, ring', slots, blocks, linked', stored.same write.samePages,
    fun _ member => within (perm.mem_iff.mp member), threaded.activate (nextThread_ne found)⟩

/-- `thread_create` adds a thread with its first frame, or none. -/
theorem Ready.thread_create (ready : Ready s frames) {entryPoint : Nat}
    (made : s.thread_create entryPoint = some s') :
    match (findNextSpot (s.processOf s.current).thread 3).2 with
    | none => Ready s' frames
    | some i => Ready s' (frames.set (s'.pidOf s'.current) i (s'.stackOf s'.current i)) := by
  obtain ⟨live, ring, slots, blocks, linked, stored, within, threaded⟩ := ready
  obtain ⟨⟨after, result⟩, created, rfl⟩ := Option.map_eq_some_iff.mp made
  obtain ⟨_, _, _, -, links, current, -⟩ := createThread_allocates created
  obtain ⟨t, page1, page2, took, threads⟩ := createThread_threads created
  have consistent := stored.consistent.allocPages took
  have running := within linked.closed.start_mem
  have more : Stored after slots _ := stored.more links consistent
  obtain ⟨ring', linked', perm⟩ := linked.same links (current ▸ linked.closed.start_mem)
  have inside : ring' ⊆ slots := fun _ member => within (perm.mem_iff.mp member)
  have kept : blocks ⊆ [⟨t, 1⟩, ⟨page1, 2⟩, ⟨page2, 2⟩].reverse ++ blocks :=
    List.subset_append_right ..
  have taken : (⟨t, 1⟩ : Block) ∈ [⟨t, 1⟩, ⟨page1, 2⟩, ⟨page2, 2⟩].reverse := by simp
  have present : t ≠ NULL :=
    Nat.ne_of_gt (consistent.placed ⟨t, 1⟩ (List.mem_append_left _ taken)).page_positive
  change match (findNextSpot (s.process (s.slot s.current).process).thread 3).2 with
    | none => Ready after frames
    | some i => Ready after (frames.set (after.pidOf after.current) i
        (after.stackOf after.current i))
  split at threads
  · refine ⟨live, ring', slots, _, linked', more, inside, ?_⟩
    exact (threaded.same threads.1).more kept
  · rename_i i _
    have added := threaded.added running stored.distinct threads kept
      (List.mem_append_left _ taken) present
      fun b old => page_ne_of_consistent consistent rfl taken old
    have pid : after.pidOf after.current = s.pidOf s.current := by
      rw [links.pidOf, current]
    have stack : after.stackOf after.current i = (after.thread t).userStack := by
      rw [stackOf, threadOf, processOf, current, threads.slot, threads.threads]
      simp [get_thread]
    rw [pid, stack]
    exact ⟨live, ring', slots, _, linked', more, inside, added⟩

/-- `createProcess` adds a process with one thread and its first frame. -/
theorem Ready.createProcess (ready : Ready s frames) {entryPoint : Nat} {pid : Int}
    (made : s.createProcess entryPoint = some (s', pid)) :
    Ready s' (frames.set pid 0 (s'.stackOf (s'.next s'.current) 0)) := by
  have present := ready.present
  obtain ⟨live, ring, slots, blocks, linked, stored, within, threaded⟩ := ready
  obtain ⟨p, t, page1, page2, slot, ring', rfl, took, created, linked', stored', within'⟩ :=
    linked.createProcess stored within present made
  have next : s'.next s'.current = slot := by
    rw [created.current, if_neg present, Scheduler.next, created.linked present]
  rw [next]
  exact ⟨_, ring', slot :: slots, _, linked', stored', within',
    threaded.createProcess stored (fun _ => present) made took created⟩

/-- The first thread of a process ends with the process, and another one goes on. -/
theorem Ready.terminateThread (ready : Ready s frames) (first : s.activeOf s.current = 0)
    {fuel rsp : Nat} (ended : s.terminateThread fuel rsp = some s') :
    EndsSwitching s ∧ Ready s' (frames.set (s.pidOf s.current) (s.activeOf s.current) rsp) := by
  have present := ready.present
  have isFirst : (s.processOf s.current).activeThread = 0 := first
  simp only [Scheduler.terminateThread, isFirst, if_true] at ended
  change s.removeProcess fuel rsp (s.pidOf s.current) = some s' at ended
  unfold Scheduler.removeProcess at ended
  by_cases init : s.pidOf s.current = 0
  · rw [if_pos init] at ended
    exact ⟨⟨present, first, .inl init⟩, ready._yield ended⟩
  · obtain ⟨live, ring, slots, blocks, linked, stored, within, threaded⟩ := ready
    have running := linked.closed.start_mem
    have alone := linked.not_onlyProcess init
    rw [if_neg init, if_neg present, if_neg alone] at ended
    split at ended
    · rename_i missing
      exact absurd (linked.mem_live.mpr ⟨_, running, rfl⟩) (linked.findSlot_none missing)
    · rename_i x y found
      obtain ⟨leads, before, member, isPid⟩ := linked.findSlot_some found
      have removed := ended
      simp only [removeSlot, unlink_pidOf] at ended
      have onCurrent : s.pidOf y = s.pidOf (s.unlink x y).current := isPid
      rw [if_pos onCurrent] at ended
      refine ⟨⟨present, first, .inr ⟨alone, _, found, isPid⟩⟩, ?_⟩
      obtain ⟨same, ring', linked', perm⟩ := linked.removeSlot present before leads
        (by rw [isPid]; exact init) removed
      have unlinked := unlink_sameThreads s x y
      have still : (s.unlink x y).current ≠ NULL := present
      obtain ⟨⟨after, stack⟩, chosen, rfl⟩ := Option.map_eq_some_iff.mp ended
      rw [Scheduler.next_process, if_neg still] at chosen
      obtain ⟨next, scheduled, pair⟩ := Option.map_eq_some_iff.mp chosen
      obtain ⟨rfl, -⟩ := Prod.mk.inj pair
      have saved := (threaded.same unlinked).save (within running)
        (by rw [unlink_pidOf]; exact stored.distinct) rsp
      rw [unlinked.pidOf, unlinked.activeOf] at saved
      refine ⟨_, ring', slots, blocks, linked',
        stored.same ((unlink_samePages s x y).trans same.samePages), ?_,
        saved.same (schedule_sameThreads scheduled)⟩
      exact fun _ inner => within (perm.mem_iff.mp (List.mem_cons_of_mem _ inner))

end Ready

/-- The invariant of the runs. -/
structure Tracked (state : ThreadRun) : Prop extends Matched state where
  ready : Ready state.scheduler state.frames

/-- A switch saves for the thread that runs and loads what was saved for the next one. -/
theorem Tracked.switch {state : ThreadRun} (tracked : Tracked state) {rsp stack : Nat}
    {s : Scheduler} (ready : Ready s (state.switchedOut rsp).frames)
    (loaded : stack = (s.thread s.currentThread).userStack) :
    Tracked ((state.switchedOut rsp).switchedIn s stack) := by
  obtain ⟨made, -⟩ := tracked.ready.current
  obtain ⟨made', saved⟩ := ready.current
  refine ⟨⟨?_, ?_⟩, ready⟩
  · intro t member
    simp only [switchedIn, switchedOut, List.mem_append, List.mem_singleton] at member
    rcases member with (before | rfl) | rfl
    · exact tracked.accessed t before
    · exact made
    · exact made'
  · intro r member
    simp only [switchedIn, List.mem_append, List.mem_singleton] at member
    rcases member with before | rfl
    · exact tracked.restored r before
    · exact loaded.trans saved

/-- A step in which at most first threads end keeps the invariant. -/
theorem tracked_step (fuel : Nat) (state : ThreadRun) (action : ThreadAction) (next : ThreadRun)
    (tracked : Tracked state) (ends : state.FirstThreadEnds action)
    (stepped : state.step fuel action = some next) : Tracked next := by
  cases action with
  | createProcess entryPoint =>
      obtain ⟨⟨s, pid⟩, made, rfl⟩ := Option.map_eq_some_iff.mp stepped
      exact ⟨⟨tracked.accessed, tracked.restored⟩, tracked.ready.createProcess made⟩
  | changeProcessState pid processState =>
      obtain rfl := Option.some.inj stepped
      obtain ⟨same, current⟩ := changeProcessState_sameRing state.scheduler pid processState
      exact ⟨⟨tracked.accessed, tracked.restored⟩, tracked.ready.same same current
        (changeProcessState_sameThreads state.scheduler pid processState)⟩
  | createThread entryPoint =>
      obtain ⟨s, made, result⟩ := Option.map_eq_some_iff.mp stepped
      have ready := tracked.ready.thread_create made
      cases found : (findNextSpot
          (state.scheduler.processOf state.scheduler.current).thread 3).2 with
      | none =>
          simp only [found] at ready result
          rw [← result]
          exact ⟨⟨tracked.accessed, tracked.restored⟩, ready⟩
      | some i =>
          simp only [found] at ready result
          rw [← result]
          exact ⟨⟨tracked.accessed, tracked.restored⟩, ready⟩
  | terminateThread rsp =>
      obtain ⟨s, ended, rfl⟩ := Option.map_eq_some_iff.mp stepped
      obtain ⟨switching, ready⟩ := tracked.ready.terminateThread ends ended
      rw [if_pos switching]
      exact tracked.switch ready rfl
  | _yield rsp =>
      obtain ⟨⟨s, stack⟩, switched, rfl⟩ := Option.map_eq_some_iff.mp stepped
      obtain ⟨ready, loaded⟩ := tracked.ready.next_process switched
      simp only [tracked.ready.present, if_false]
      exact tracked.switch ready loaded
  | timerTick esp =>
      obtain ⟨⟨s, stack⟩, switched, rfl⟩ := Option.map_eq_some_iff.mp stepped
      obtain ⟨ready, loaded⟩ := (tracked.ready.save esp).switchKernelToUser switched
      exact tracked.switch ready loaded

/-- The invariant holds at the start. -/
theorem Start.tracked {state : ThreadRun} (start : Start state) : Tracked state := by
  obtain ⟨⟨boot, entryPoint, pid, empty, made, frame⟩, accessed, restored⟩ := start
  refine ⟨⟨by simp [accessed], by simp [restored]⟩, ?_⟩
  obtain ⟨p, t, page1, page2, slot, rfl, created, linked, took, stored⟩ :=
    empty.createProcess made
  have nothing : Stored boot [] [] := by
    refine ⟨?_, by simp, by simp, by simp, by simp, by simp [empty.pid]⟩
    rw [heapRun, empty.buddyArray]
    exact consistent_boot
  have threaded : Threaded boot state.frames [] [] := by
    refine ⟨?_, ?_, ?_, ?_⟩ <;>
    · intro a member
      cases member
  have one := threaded.createProcess nothing (fun made => absurd rfl made) made took created
  have current : state.scheduler.current = slot := by
    rw [created.current, if_pos empty.current]
  have same : state.frames.set boot.pid 0 (state.scheduler.stackOf slot 0) = state.frames := by
    rw [empty.pid, ← current, ← frame]
    simp [Frames.set]
  rw [same] at one
  exact ⟨_, _, _, _, linked, stored, List.Subset.refl _, one⟩

/-- In every run from boot in which only first threads end, every switch saves and loads
through the structure of a thread, and goes on with the stack pointer that was saved. -/
theorem stacks_restored (fuel : Nat) {state final : ThreadRun} (start : Start state)
    {actions : List ThreadAction} (ends : Along (step fuel) FirstThreadEnds state actions)
    (ran : run (step fuel) state actions = some final) : Matched final := by
  have tracked : Tracked final :=
    Along.invariant (tracked_step fuel) start.tracked ends ran
  exact tracked.toMatched

/-- The first process, in a memory of zeros. -/
def bootRun : Option ThreadRun :=
  (SchedulerRun.emptyMemory.createProcess 0x400000).map fun (s, _) =>
    { scheduler := s
      frames := fun _ _ => s.stackOf s.current 0
      accessed := []
      restored := [] }

/-- The scheduler after boot is a start. -/
theorem bootRun_start {state : ThreadRun} (booted : bootRun = some state) : Start state := by
  obtain ⟨⟨s, pid⟩, made, rfl⟩ := Option.map_eq_some_iff.mp booted
  exact ⟨⟨_, 0x400000, pid, SchedulerRun.emptyMemory_boot, made, rfl⟩, rfl, rfl⟩

/-- The second process starts a thread; both run, and then the process ends. -/
def twoThreads : List ThreadAction :=
  [.createProcess 0x800000, .timerTick 100, .createThread 0x900000, .timerTick 200, .timerTick 300,
    ._yield 400, .timerTick 500, .terminateThread 600, .timerTick 700]

theorem twoThreads_matched : ∃ start final, Start start ∧
    run (step 4) start twoThreads = some final ∧
      final.restored.map Restore.stack = [16826000, 100, 16850576, 300, 200, 500, 700] ∧
      Matched final := by
  have result : (bootRun.bind fun start =>
      if Along (step 4) FirstThreadEnds start twoThreads then run (step 4) start twoThreads
      else none).map (fun final => final.restored.map Restore.stack) =
      some [16826000, 100, 16850576, 300, 200, 500, 700] := by
    rw [bootRun, SchedulerRun.emptyMemory, createHeap_eq]
    decide +kernel
  obtain ⟨final, ran, restored⟩ := Option.map_eq_some_iff.mp result
  obtain ⟨start, booted, ran⟩ := Option.bind_eq_some_iff.mp ran
  split at ran
  · rename_i ends
    have begins := bootRun_start booted
    exact ⟨start, final, begins, ran, restored, stacks_restored 4 begins ends ran⟩
  · cases ran

/-- The second thread of the second process ends and, as `callProcess` does, yields. Later the
first process yields too. -/
def secondThreadEnds : List ThreadAction :=
  [.createProcess 0x800000, .timerTick 100, .createThread 0x900000, .timerTick 200, .timerTick 300,
    .terminateThread 400, ._yield 500, ._yield 600]

/-- The switch after the end of the thread saves through NULL, and when the process is
picked by a `_yield` the thread that ended goes on. -/
theorem ended_thread_saves_through_null : ∃ start final, Start start ∧
    run (step 4) start secondThreadEnds = some final ∧ NULL ∈ final.accessed ∧
      final.restored.getLast? = some ⟨1, 1, 500, 500⟩ ∧
      final.scheduler.threadOf final.scheduler.current 1 = NULL ∧ ¬ Matched final := by
  have result : (bootRun.bind fun start =>
      (run (step 4) start secondThreadEnds).map fun final =>
        (decide (NULL ∈ final.accessed), final.restored.getLast?,
          final.scheduler.threadOf final.scheduler.current 1)) =
      some (true, some ⟨1, 1, 500, 500⟩, NULL) := by
    rw [bootRun, SchedulerRun.emptyMemory, createHeap_eq]
    decide +kernel
  obtain ⟨start, booted, ran⟩ := Option.bind_eq_some_iff.mp result
  obtain ⟨final, ran, outcome⟩ := Option.map_eq_some_iff.mp ran
  simp only [Prod.mk.injEq, decide_eq_true_eq] at outcome
  obtain ⟨null, last, ended⟩ := outcome
  exact ⟨start, final, bootRun_start booted, ran, null, last, ended,
    fun matched => matched.accessed NULL null rfl⟩

end ThreadRun

end SistemasOperativos.Kernel
