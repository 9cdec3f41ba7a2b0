import SistemasOperativos.Kernel.MachineContext
import SistemasOperativos.Kernel.ThreadStacks

/-!
# Switching between contexts

The scheduler's switches with the registers and stacks of the threads: what a tick of the timer
and `_yield` push, the frames `fillStackFrame` makes up, and what `popState` and `iretq` load. A
thread may do anything to its registers and to memory outside the stacks of the others and outside
what the kernel keeps there: nothing protects either, so the rest is a condition (`Confined`). The
page allocator gives the stacks pages of their own, so what a thread left on its stack still
stands there when it goes on, and every switch loads the context that was saved for its thread
last, or its first one (`contexts_restored`). What `timerTickHandlerC` left in the registers is
part of what a tick saves.
-/

namespace SistemasOperativos.Kernel

open SistemasOperativos.Foundation SistemasOperativos.Semantics

/-- Addresses of code that the frames hold. -/
structure Labels where
  ret : UInt64
  callProcess : UInt64

/-- The context that a switch loaded for a thread, and the one that was saved for it last. -/
structure Resume where
  thread : ThreadEntry
  saved : Context
  loaded : Context

/-- The scheduler, memory, and the registers of the thread that runs, with what was saved last
for each thread, where its stack is, and the contexts loaded so far. -/
structure ContextRun where
  threads : ThreadRun
  memory : Nat → UInt8
  running : Context
  saved : ThreadEntry → Context
  areas : ThreadEntry → Interval
  resumed : List Resume

/-- What the thread that runs, or the timer, does. `switching` are the bytes that the switch
code writes to memory beside the scheduler's structures, and `handling` those of
`timerTickHandlerC`, which leaves `registers`. A process that this wakes is READY by a call of
`changeProcessState` before the tick. -/
inductive ContextAction where
  | executes (context : Context)
  | stores (address : Nat) (byte : UInt8)
  | createProcess (entryPoint args : UInt64)
  | changeProcessState (pid : Int) (state : ProcessState)
  | createThread (entryPoint args : UInt64)
  | terminateThread (switching : List (Nat × UInt8))
  | _yield (switching : List (Nat × UInt8))
  | timerTick (registers : Register → UInt64) (handling switching : List (Nat × UInt8))

namespace ContextRun

open Scheduler ThreadRun

/-- The thread to go on with takes over from the one that `context` was saved for. -/
def switch (state : ContextRun) (threads : ThreadRun) (memory : Nat → UInt8) (context : Context) :
    ContextRun :=
  let saved := Function.update state.saved state.threads.scheduler.runningThread context
  let s := threads.scheduler
  let loaded := Context.pop memory (s.thread s.currentThread).userStack state.running.general
  { state with
    threads, memory, saved
    running := loaded
    resumed := state.resumed ++ [⟨s.runningThread, saved s.runningThread, loaded⟩] }

/-- Memory when `_yield` got the stack pointer to go on with. -/
def yieldMemory (labels : Labels) (state : ContextRun) (switching : List (Nat × UInt8)) :
    Nat → UInt8 :=
  writeBytes (state.running._yield labels.ret state.memory).1 switching

/-- The first frame on the stack that begins at `page`, and the thread that gets it. -/
def starts (labels : Labels) (state : ContextRun) (threads : ThreadRun) (page : Nat)
    (entryPoint args : UInt64) (thread : Option ThreadEntry) : ContextRun :=
  let userStack := page + 2 * PAGE_SIZE
  let first := Context.first labels.callProcess entryPoint args userStack
  { state with
    threads
    memory := Context.fillStackFrame labels.callProcess entryPoint args userStack state.memory
    saved := thread.elim state.saved fun thread => Function.update state.saved thread first
    areas := thread.elim state.areas fun thread =>
      Function.update state.areas thread ⟨page, userStack⟩ }

/-- One action that completes. -/
def step (labels : Labels) (fuel : Nat) (state : ContextRun) : ContextAction → Option ContextRun
  | .executes context => some { state with running := context }
  | .stores address byte =>
      some { state with memory := Function.update state.memory address byte }
  | .createProcess entryPoint args =>
      let s := state.threads.scheduler
      s.processStack.bind fun page =>
        (state.threads.step fuel (.createProcess entryPoint.toNat)).map fun threads =>
          state.starts labels threads page entryPoint args (some (s.pid, 0))
  | .changeProcessState pid processState =>
      (state.threads.step fuel (.changeProcessState pid processState)).map fun threads =>
        { state with threads }
  | .createThread entryPoint args =>
      let s := state.threads.scheduler
      s.threadStack.bind fun page =>
        (state.threads.step fuel (.createThread entryPoint.toNat)).map fun threads =>
          state.starts labels threads page entryPoint args
            ((findNextSpot (s.processOf s.current).thread 3).2.map
              fun i => (s.pidOf s.current, i))
  | .terminateThread switching =>
      let rsp := (state.running._yield labels.ret state.memory).2
      (state.threads.step fuel (.terminateThread rsp)).map fun threads =>
        if EndsSwitching state.threads.scheduler then
          state.switch threads (state.yieldMemory labels switching)
            (state.running.yielded labels.ret)
        else { state with threads }
  | ._yield switching =>
      let rsp := (state.running._yield labels.ret state.memory).2
      let memory := state.yieldMemory labels switching
      (state.threads.step fuel (._yield rsp)).map fun threads =>
        -- Without a current process `next_process` returns what it got.
        if state.threads.scheduler.current = NULL then
          { state with memory, running := Context.pop memory rsp state.running.general }
        else state.switch threads memory (state.running.yielded labels.ret)
  | .timerTick registers handling switching =>
      let ticked := state.running.timerTickHandler state.memory registers handling
      (state.threads.step fuel (.timerTick ticked.2)).map fun threads =>
        state.switch threads (writeBytes ticked.1 switching)
          (state.running.interrupted registers)

/-! ## The condition -/

/-- The address lies on no stack of a thread that waits. -/
def OffOthers (state : ContextRun) (address : Nat) : Prop :=
  let s := state.threads.scheduler
  ∀ a ∈ s.upcoming, ∀ i, s.threadOf a i ≠ NULL → (s.pidOf a, i) ≠ s.runningThread →
    ¬ (state.areas (s.pidOf a, i)).Has address

instance (state : ContextRun) (address : Nat) : Decidable (state.OffOthers address) := by
  unfold OffOthers
  infer_instance

/-- The address lies in no structure that the scheduler has of a process of the ring: not in its
slot, not in the process and in none of its threads. -/
def OffStructures (state : ContextRun) (address : Nat) : Prop :=
  let s := state.threads.scheduler
  ∀ a ∈ s.upcoming,
    ¬ Interval.Has ⟨a, a + sizeofProcessSlot⟩ address ∧
      ¬ Interval.Has ⟨(s.slot a).process, (s.slot a).process + sizeofProcess⟩ address ∧
      ∀ i, s.threadOf a i ≠ NULL →
        ¬ Interval.Has ⟨s.threadOf a i, s.threadOf a i + sizeofThread⟩ address

instance (state : ContextRun) (address : Nat) : Decidable (state.OffStructures address) := by
  unfold OffStructures
  infer_instance

/-- The address belongs to no thread that waits, neither to its stack nor to what the scheduler
knows of it. -/
def Spares (state : ContextRun) (address : Nat) : Prop :=
  state.OffOthers address ∧ state.OffStructures address

instance (state : ContextRun) (address : Nat) : Decidable (state.Spares address) :=
  inferInstanceAs (Decidable (_ ∧ _))

/-- Bytes are written outside of `frame`, and none where it would reach a thread that waits. -/
def KeepsOff (state : ContextRun) (frame : Interval) (writes : List (Nat × UInt8)) : Prop :=
  ∀ write ∈ writes, ¬ frame.Has write.1 ∧ state.Spares write.1

instance (state : ContextRun) (frame : Interval) (writes : List (Nat × UInt8)) :
    Decidable (state.KeepsOff frame writes) :=
  inferInstanceAs (Decidable (∀ write ∈ writes, _))

/-- The stack of the thread that runs has room for `size` bytes below `top`. -/
def Room (state : ContextRun) (size top : Nat) : Prop :=
  let stack := state.areas state.threads.scheduler.runningThread
  stack.lo + size ≤ top ∧ top ≤ stack.hi

instance (state : ContextRun) (size top : Nat) : Decidable (state.Room size top) :=
  inferInstanceAs (Decidable (_ ∧ _))

/-- `_yield` has room, and what it saved is left alone until it is loaded. -/
def Yields (state : ContextRun) (switching : List (Nat × UInt8)) : Prop :=
  let rsp := state.running.rsp.toNat
  state.Room Context.YIELD_SIZE rsp ∧
    state.KeepsOff ⟨rsp - Context.YIELD_SIZE, rsp⟩ switching

instance (state : ContextRun) (switching : List (Nat × UInt8)) :
    Decidable (state.Yields switching) :=
  inferInstanceAs (Decidable (_ ∧ _))

/-- The condition on a step: threads write to no stack of another one and to nothing of the
kernel's, whose code and variables are in the areas `kernel`, they have room on their own stacks,
and only the first thread of a process ends. -/
def Confined (kernel : List Interval) (state : ContextRun) : ContextAction → Prop
  | .stores address _ => state.Spares address ∧ ∀ area ∈ kernel, ¬ area.Has address
  | .terminateThread switching =>
      state.threads.scheduler.activeOf state.threads.scheduler.current = 0 ∧
        state.Yields switching
  | ._yield switching => state.Yields switching
  | .timerTick _ handling switching =>
      let top := state.running.interruptStack
      state.Room Context.FRAME_SIZE top ∧ state.KeepsOff ⟨top - 40, top⟩ handling ∧
        state.KeepsOff ⟨top - Context.FRAME_SIZE, top⟩ switching
  | _ => True

instance (kernel : List Interval) (state : ContextRun) (action : ContextAction) :
    Decidable (Confined kernel state action) := by
  cases action <;> unfold Confined <;> infer_instance

/-- The first process has been created and runs, on a stack below the pages of the allocator. -/
structure Start (state : ContextRun) : Prop where
  threads : state.threads.Start
  stack : (state.areas state.threads.scheduler.runningThread).hi ≤ baseMemory
  resumed : state.resumed = []

/-! ## The invariant -/

/-- The stack is two pages of the allocator, or lies below all of them. -/
def Allocated (live : List Block) (area : Interval) : Prop :=
  (∃ page, ⟨page, 2⟩ ∈ live ∧ area = ⟨page, page + 2 * PAGE_SIZE⟩) ∨ area.hi ≤ baseMemory

/-- The threads of the ring have stacks of their own. -/
structure Separate (s : Scheduler) (areas : ThreadEntry → Interval) : Prop where
  allocated : ∃ live, Consistent (s.heapRun live) ∧
    ∀ thread, s.Has thread → Allocated live (areas thread)
  apart : ∀ thread, s.Has thread → ∀ other, s.Has other → thread ≠ other →
    (areas thread).Disjoint (areas other)

/-- What was saved for a thread stands on its stack, where its stack pointer says. -/
structure Left (state : ContextRun) (thread : ThreadEntry) : Prop where
  holds : HoldsWords state.memory (state.threads.frames thread.1 thread.2)
    (state.saved thread).frame
  inside : (state.areas thread).Contains ⟨state.threads.frames thread.1 thread.2,
    state.threads.frames thread.1 thread.2 + Context.FRAME_SIZE⟩

/-- The invariant of the runs. -/
structure Kept (state : ContextRun) : Prop where
  tracked : Tracked state.threads
  separate : Separate state.threads.scheduler state.areas
  left : ∀ thread, state.threads.scheduler.Has thread →
    thread ≠ state.threads.scheduler.runningThread → state.Left thread
  restored : ∀ r ∈ state.resumed, r.loaded = r.saved

section Stacks

variable {s s' : Scheduler} {areas : ThreadEntry → Interval} {page : Nat}

/-- Areas stay separate when threads and pages only go. -/
theorem Separate.narrows (separate : Separate s areas) (narrows : Narrows s s') :
    Separate s' areas := by
  obtain ⟨live, consistent, allocated⟩ := separate.allocated
  refine ⟨⟨live, ?_, fun thread has => allocated thread (narrows.has thread has)⟩, ?_⟩
  · rw [heapRun, narrows.buddyArray]
    exact consistent
  · intro thread has other has' different
    exact separate.apart thread (narrows.has thread has) other (narrows.has other has') different

/-- Two pages for a stack are taken from none of the stacks there are. -/
theorem Separate.fresh (separate : Separate s areas) {thread : Option ThreadEntry}
    (brings : Brings s s' page thread) : (∃ live, Consistent (s'.heapRun live) ∧
        ⟨page, 2⟩ ∈ live ∧ ∀ other, s.Has other → Allocated live (areas other)) ∧
      ∀ other, s.Has other → (areas other).Disjoint ⟨page, page + 2 * PAGE_SIZE⟩ := by
  obtain ⟨live, consistent, allocated⟩ := separate.allocated
  obtain ⟨sizes, blocks, took, new⟩ := brings.took
  have more : Consistent (s'.heapRun (blocks.reverse ++ live)) := consistent.allocPages took
  have taken : ⟨page, 2⟩ ∈ blocks.reverse := List.mem_reverse.mpr new
  have disjoint := (List.pairwise_append.mp more.disjoint).2.2
  refine ⟨⟨_, more, List.mem_append_left _ taken, ?_⟩, ?_⟩
  · intro other has
    refine (allocated other has).imp_left ?_
    rintro ⟨page', old, place⟩
    exact ⟨page', List.mem_append_right _ old, place⟩
  · intro other has
    rcases allocated other has with ⟨page', old, place⟩ | below
    · have apart : (Block.mk page 2).Disjoint ⟨page', 2⟩ := disjoint _ taken _ old
      have size : ∀ page, (Block.mk page 2).size = 2 * PAGE_SIZE := fun page => by
        rw [Block.size, Block.height, show Nat.clog 2 2 = 1 by decide, Nat.pow_one, Nat.mul_comm]
      rw [place]
      unfold Block.Disjoint at apart
      rw [size, size] at apart
      exact apart.symm
    · have address := (more.placed _ (List.mem_append_left _ taken)).address
      exact .inl (by simp only at address ⊢; omega)

/-- The stack of the thread that comes up is one more. -/
theorem Separate.brings (separate : Separate s areas) {thread : ThreadEntry}
    (brings : Brings s s' page (some thread)) :
    Separate s' (Function.update areas thread ⟨page, page + 2 * PAGE_SIZE⟩) := by
  obtain ⟨⟨live, consistent, taken, allocated⟩, apart⟩ := separate.fresh brings
  have old : ∀ other, s'.Has other → other ≠ thread → s.Has other := fun other has different =>
    brings.has_of_ne has fun same => different (Option.some.inj same).symm
  refine ⟨⟨live, consistent, fun other has => ?_⟩, fun other has third has' different => ?_⟩
  · by_cases same : other = thread
    · subst same
      rw [Function.update_self]
      exact .inl ⟨page, taken, rfl⟩
    · rw [Function.update_of_ne same]
      exact allocated other (old other has same)
  · by_cases same : other = thread
    · subst same
      rw [Function.update_self, Function.update_of_ne different.symm]
      exact (apart third (old third has' different.symm)).symm
    · rw [Function.update_of_ne same]
      by_cases same' : third = thread
      · subst same'
        rw [Function.update_self]
        exact apart other (old other has same)
      · rw [Function.update_of_ne same']
        exact separate.apart other (old other has same) third (old third has' same') different

/-- Areas stay separate when pages come that belong to no thread. -/
theorem Separate.brings_none (separate : Separate s areas) (brings : Brings s s' page none) :
    Separate s' areas := by
  obtain ⟨⟨live, consistent, -, allocated⟩, -⟩ := separate.fresh brings
  have old : ∀ other, s'.Has other → s.Has other := fun other has =>
    brings.has_of_ne has (Option.some_ne_none other).symm
  exact ⟨⟨live, consistent, fun other has => allocated other (old other has)⟩,
    fun other has third has' => separate.apart other (old other has) third (old third has')⟩

end Stacks

section Steps

variable {state : ContextRun} {labels : Labels} {memory : Nat → UInt8} {thread : ThreadEntry}

/-- An address off the others is in no area of a thread that waits. -/
theorem OffOthers.outside {address : Nat} (off : state.OffOthers address)
    (has : state.threads.scheduler.Has thread)
    (waits : thread ≠ state.threads.scheduler.runningThread) :
    ¬ (state.areas thread).Has address := by
  obtain ⟨pid, i⟩ := thread
  obtain ⟨a, member, rfl, made⟩ := has
  exact off a member i made waits

/-- Only what stands on the stack of the thread counts. -/
theorem Left.holds_of_same (left : state.Left thread)
    (same : ∀ a, (state.areas thread).Has a → memory a = state.memory a) :
    HoldsWords memory (state.threads.frames thread.1 thread.2) (state.saved thread).frame := by
  refine left.holds.congr fun a within => same a ?_
  have inside := left.inside
  rw [Context.length_frame] at within
  unfold Interval.Has Interval.Contains at *
  simp only at within inside
  omega

/-- A thread whose stack pointer and stack do not change still has on it what was saved. -/
theorem Left.unchanged {next : ContextRun} (left : state.Left thread)
    (frames : next.threads.frames thread.1 thread.2 = state.threads.frames thread.1 thread.2)
    (saved : next.saved thread = state.saved thread)
    (areas : next.areas thread = state.areas thread)
    (same : ∀ a, (state.areas thread).Has a → next.memory a = state.memory a) :
    next.Left thread := by
  refine ⟨?_, ?_⟩
  · rw [frames, saved]
    exact left.holds_of_same same
  · rw [frames, areas]
    exact left.inside

/-- A thread whose stack pointer is where its frame begins. -/
theorem Left.of_frame {rsp : Nat} (frames : state.threads.frames thread.1 thread.2 = rsp)
    (holds : HoldsWords state.memory rsp (state.saved thread).frame)
    (inside : (state.areas thread).Contains ⟨rsp, rsp + Context.FRAME_SIZE⟩) :
    state.Left thread := by
  subst frames
  exact ⟨holds, inside⟩

/-- The stack pointers of the other threads stay. -/
theorem frames_set_of_ne {frames : Frames} {other : ThreadEntry} {rsp : Nat}
    (different : thread ≠ other) :
    frames.set other.1 other.2 rsp thread.1 thread.2 = frames thread.1 thread.2 := by
  refine Frames.set_ne ?_ ..
  by_contra same
  push Not at same
  exact different (Prod.ext same.1 same.2)

/-- The thread that runs is one of the ring. -/
theorem Kept.runs (kept : Kept state) :
    state.threads.scheduler.Has state.threads.scheduler.runningThread := by
  obtain ⟨made, -⟩ := kept.tracked.ready.current
  obtain ⟨live, ring, slots, blocks, linked, -⟩ := kept.tracked.ready
  exact ⟨_, linked.mem_upcoming.mp linked.closed.start_mem, rfl, made⟩

/-- What has room on the stack of the thread that runs touches no other stack. -/
theorem Kept.off_room (kept : Kept state) {size top : Nat} (room : state.Room size top)
    (has : state.threads.scheduler.Has thread)
    (waits : thread ≠ state.threads.scheduler.runningThread) {a : Nat}
    (inside : (state.areas thread).Has a) : ¬ Interval.Has ⟨top - size, top⟩ a := by
  have apart := kept.separate.apart thread has _ kept.runs waits
  unfold Room at room
  unfold Interval.Disjoint at apart
  unfold Interval.Has at inside ⊢
  simp only at room ⊢
  omega

/-- Memory changes outside of the stacks of the threads that wait. -/
theorem Kept.write (kept : Kept state)
    (same : ∀ thread, state.threads.scheduler.Has thread →
      thread ≠ state.threads.scheduler.runningThread →
        ∀ a, (state.areas thread).Has a → memory a = state.memory a) :
    Kept { state with memory } :=
  ⟨kept.tracked, kept.separate, fun thread has waits =>
    ⟨(kept.left thread has waits).holds_of_same (same thread has waits),
      (kept.left thread has waits).inside⟩, kept.restored⟩

/-- A switch loads what was saved for the thread that goes on. -/
theorem Kept.switch (kept : Kept state) {threads : ThreadRun} (tracked : Tracked threads)
    {context : Context} {rsp : Nat}
    (frames : threads.frames = state.threads.frames.set
      (state.threads.scheduler.pidOf state.threads.scheduler.current)
      (state.threads.scheduler.activeOf state.threads.scheduler.current) rsp)
    (narrows : Narrows state.threads.scheduler threads.scheduler)
    (holds : HoldsWords memory rsp context.frame)
    (inside : (state.areas state.threads.scheduler.runningThread).Contains
      ⟨rsp, rsp + Context.FRAME_SIZE⟩)
    (same : ∀ thread, state.threads.scheduler.Has thread →
      thread ≠ state.threads.scheduler.runningThread →
        ∀ a, (state.areas thread).Has a → memory a = state.memory a) :
    Kept (state.switch threads memory context) := by
  have left : ∀ thread, threads.scheduler.Has thread →
      (state.switch threads memory context).Left thread := by
    intro thread has
    by_cases runs : thread = state.threads.scheduler.runningThread
    · subst runs
      have stack : threads.frames state.threads.scheduler.runningThread.1
          state.threads.scheduler.runningThread.2 = rsp := by
        rw [frames]
        exact Frames.set_same ..
      have saved : (state.switch threads memory context).saved
          state.threads.scheduler.runningThread = context := Function.update_self ..
      refine .of_frame stack ?_ inside
      rw [saved]
      exact holds
    · have before := narrows.has thread has
      have stack : threads.frames thread.1 thread.2 =
          state.threads.frames thread.1 thread.2 := by
        rw [frames]
        exact frames_set_of_ne runs
      exact (kept.left thread before runs).unchanged stack (Function.update_of_ne runs ..) rfl
        (same thread before runs)
  refine ⟨tracked, kept.separate.narrows narrows, fun thread has _ => left thread has, ?_⟩
  obtain ⟨made, stack⟩ := tracked.ready.current
  obtain ⟨live, ring, slots, blocks, linked, -⟩ := tracked.ready
  have runs : threads.scheduler.Has threads.scheduler.runningThread :=
    ⟨_, linked.mem_upcoming.mp linked.closed.start_mem, rfl, made⟩
  intro r member
  rcases List.mem_append.mp member with before | new
  · exact kept.restored r before
  · rw [List.mem_singleton.mp new]
    refine Context.pop_eq ?_ _
    rw [stack]
    exact (left _ runs).holds

/-- What `_yield` saves stands on the stack until it is loaded, and no other stack changes. -/
theorem Kept.yield (kept : Kept state) {switching : List (Nat × UInt8)}
    (yields : state.Yields switching) {threads : ThreadRun} (tracked : Tracked threads)
    (frames : threads.frames = state.threads.frames.set
      (state.threads.scheduler.pidOf state.threads.scheduler.current)
      (state.threads.scheduler.activeOf state.threads.scheduler.current)
      (state.running._yield labels.ret state.memory).2)
    (narrows : Narrows state.threads.scheduler threads.scheduler) :
    Kept (state.switch threads (state.yieldMemory labels switching)
      (state.running.yielded labels.ret)) := by
  obtain ⟨room, off⟩ := yields
  have enough : Context.YIELD_SIZE ≤ state.running.rsp.toNat :=
    Nat.le_trans (Nat.le_add_left ..) room.1
  rw [Context.yield_rsp] at frames
  refine kept.switch tracked frames narrows ?_ ?_ fun thread has waits a inside => ?_
  · have saved : HoldsWords (state.running._yield labels.ret state.memory).1 _ _ :=
      Context.holds_yield enough
    refine saved.congr fun a within => ?_
    rw [yieldMemory]
    refine writeBytes_outside fun write member same => (off write member).1 ?_
    rw [Context.length_frame] at within
    unfold Context.FRAME_SIZE Context.YIELD_SIZE at *
    unfold Interval.Has at *
    simp only at within ⊢
    omega
  · unfold Room Context.YIELD_SIZE at room
    unfold Interval.Contains Context.FRAME_SIZE Context.YIELD_SIZE
    simp only at room ⊢
    omega
  · rw [yieldMemory, writeBytes_outside, Context.yield_outside enough]
    · exact kept.off_room room has waits inside
    · rintro write member rfl
      exact (off write member).2.1.outside has waits inside

/-- What a tick saves stands on the stack until it is loaded, and no other stack changes. -/
theorem Kept.tick (kept : Kept state) {registers : Register → UInt64}
    {handling switching : List (Nat × UInt8)} {kernel : List Interval}
    (confined : Confined kernel state (.timerTick registers handling switching))
    {threads : ThreadRun} (tracked : Tracked threads)
    (frames : threads.frames = state.threads.frames.set
      (state.threads.scheduler.pidOf state.threads.scheduler.current)
      (state.threads.scheduler.activeOf state.threads.scheduler.current)
      (state.running.timerTickHandler state.memory registers handling).2)
    (narrows : Narrows state.threads.scheduler threads.scheduler) :
    Kept (state.switch threads (writeBytes
        (state.running.timerTickHandler state.memory registers handling).1 switching)
      (state.running.interrupted registers)) := by
  obtain ⟨room, off, off'⟩ := confined
  have enough : Context.FRAME_SIZE ≤ state.running.interruptStack :=
    Nat.le_trans (Nat.le_add_left ..) room.1
  rw [Context.timerTickHandler_rsp] at frames
  refine kept.switch tracked frames narrows ?_ ?_ fun thread has waits a inside => ?_
  · have saved : HoldsWords
        (state.running.timerTickHandler state.memory registers handling).1 _ _ :=
      Context.holds_timerTick enough fun write member => (off write member).1
    refine saved.congr fun a within => ?_
    refine writeBytes_outside fun write member same => (off' write member).1 ?_
    rw [Context.length_frame] at within
    unfold Context.FRAME_SIZE at *
    unfold Interval.Has at *
    simp only at within ⊢
    omega
  · unfold Room at room
    unfold Interval.Contains
    simp only at room ⊢
    omega
  · rw [writeBytes_outside, Context.timerTickHandler_outside enough]
    · exact kept.off_room room has waits inside
    · rintro write member rfl
      exact (off write member).2.1.outside has waits inside
    · rintro write member rfl
      exact (off' write member).2.1.outside has waits inside

theorem starts_memory {threads : ThreadRun} {page : Nat} {entryPoint args : UInt64}
    {new : Option ThreadEntry} : (state.starts labels threads page entryPoint args new).memory =
      Context.fillStackFrame labels.callProcess entryPoint args (page + 2 * PAGE_SIZE)
        state.memory := by
  rw [starts]

/-- A thread that comes up has its first frame on its stack, and no other stack changes. -/
theorem Kept.starts (kept : Kept state) {threads : ThreadRun} (tracked : Tracked threads)
    {page : Nat} {entryPoint args : UInt64} {new : Option ThreadEntry}
    (brings : Brings state.threads.scheduler threads.scheduler page new)
    (frames : threads.frames = match new with
      | none => state.threads.frames
      | some thread => state.threads.frames.set thread.1 thread.2
          (fillStackFrame (page + 2 * PAGE_SIZE))) :
    Kept (state.starts labels threads page entryPoint args new) := by
  have frame : fillStackFrame (page + 2 * PAGE_SIZE) = page + 7824 := by
    rw [fillStackFrame, sizeofStackFrame, PAGE_SIZE]
    omega
  obtain ⟨-, apart⟩ := kept.separate.fresh brings
  have written : ∀ thread, state.threads.scheduler.Has thread → ∀ a, (state.areas thread).Has a →
      (state.starts labels threads page entryPoint args new).memory a = state.memory a := by
    intro thread has a inside
    have clear := apart thread has
    rw [starts_memory]
    refine Context.fillStackFrame_outside ?_
    rw [frame, sizeofStackFrame]
    unfold Interval.Disjoint PAGE_SIZE at clear
    unfold Interval.Has at inside ⊢
    simp only at clear ⊢
    omega
  cases new with
  | none =>
      refine ⟨tracked, kept.separate.brings_none brings, fun thread has waits => ?_,
        kept.restored⟩
      change thread ≠ threads.scheduler.runningThread at waits
      rw [brings.running] at waits
      have old := brings.has_of_ne has (Option.some_ne_none thread).symm
      have stack : threads.frames thread.1 thread.2 =
          state.threads.frames thread.1 thread.2 := by
        rw [frames]
      exact (kept.left thread old waits).unchanged stack rfl rfl (written thread old)
  | some new =>
      refine ⟨tracked, kept.separate.brings brings, fun thread has waits => ?_, kept.restored⟩
      change thread ≠ threads.scheduler.runningThread at waits
      rw [brings.running] at waits
      by_cases same : thread = new
      · subst same
        have stack : threads.frames thread.1 thread.2 = fillStackFrame (page + 2 * PAGE_SIZE) := by
          rw [frames]
          exact Frames.set_same ..
        refine .of_frame stack ?_ ?_
        · rw [starts_memory]
          change HoldsWords _ _ (Function.update state.saved thread _ thread).frame
          rw [Function.update_self]
          exact Context.holds_fillStackFrame
        · change (Function.update state.areas thread _ thread).Contains _
          rw [frame, Function.update_self]
          unfold Interval.Contains Context.FRAME_SIZE PAGE_SIZE
          simp only
          omega
      · have old := brings.has_of_ne has fun other => same (Option.some.inj other).symm
        have stack : threads.frames thread.1 thread.2 =
            state.threads.frames thread.1 thread.2 := by
          rw [frames]
          exact frames_set_of_ne same
        exact (kept.left thread old waits).unchanged stack (Function.update_of_ne same ..)
          (Function.update_of_ne same ..) (written thread old)

end Steps

/-- A step whose stores are confined keeps the contexts. -/
theorem kept_step (labels : Labels) (kernel : List Interval) (fuel : Nat) (state : ContextRun)
    (action : ContextAction) (next : ContextRun) (kept : Kept state)
    (confined : Confined kernel state action)
    (stepped : state.step labels fuel action = some next) : Kept next := by
  have present := kept.tracked.ready.present
  obtain ⟨live, ring, slots, blocks, linked, stored, within, -⟩ := kept.tracked.ready
  cases action with
  | executes context =>
      obtain rfl := Option.some.inj stepped
      exact ⟨kept.tracked, kept.separate,
        fun thread has waits => ⟨(kept.left thread has waits).holds,
          (kept.left thread has waits).inside⟩, kept.restored⟩
  | stores address byte =>
      obtain rfl := Option.some.inj stepped
      refine kept.write fun thread has waits a inside => Function.update_of_ne ?_ ..
      rintro rfl
      obtain ⟨⟨off, -⟩, -⟩ := confined
      exact off.outside has waits inside
  | createProcess entryPoint args =>
      obtain ⟨page, stack, rest⟩ := Option.bind_eq_some_iff.mp stepped
      obtain ⟨threads, moved, rfl⟩ := Option.map_eq_some_iff.mp rest
      have tracked := tracked_step fuel state.threads (.createProcess entryPoint.toNat) threads
        kept.tracked trivial moved
      obtain ⟨⟨s, pid⟩, made, rfl⟩ := Option.map_eq_some_iff.mp moved
      obtain ⟨page', stack', brings, first⟩ :=
        createProcess_brings linked stored within present made
      obtain rfl := Option.some.inj (stack.symm.trans stack')
      obtain ⟨-, -, -, -, -, -, rfl, -⟩ := linked.createProcess stored within present made
      refine kept.starts tracked brings ?_
      rw [← first]
  | changeProcessState pid processState =>
      have tracked := tracked_step fuel state.threads (.changeProcessState pid processState) _
        kept.tracked trivial rfl
      have result : { state with
          threads := { state.threads with
            scheduler := state.threads.scheduler.changeProcessState pid processState } } = next :=
        Option.some.inj stepped
      rw [← result]
      have narrows := Narrows.changeProcessState linked pid processState
      obtain ⟨same, current⟩ := changeProcessState_sameRing state.threads.scheduler pid processState
      have threads := changeProcessState_sameThreads state.threads.scheduler pid processState
      refine ⟨tracked, kept.separate.narrows narrows, fun thread has waits => ?_, kept.restored⟩
      have running : (state.threads.scheduler.changeProcessState pid processState).runningThread =
          state.threads.scheduler.runningThread := by
        rw [runningThread, runningThread, same.pidOf, threads.activeOf, current]
      have left := kept.left thread (narrows.has thread has)
        fun runs => waits (runs.trans running.symm)
      exact ⟨left.holds, left.inside⟩
  | createThread entryPoint args =>
      obtain ⟨page, stack, rest⟩ := Option.bind_eq_some_iff.mp stepped
      obtain ⟨threads, moved, rfl⟩ := Option.map_eq_some_iff.mp rest
      have tracked := tracked_step fuel state.threads (.createThread entryPoint.toNat) threads
        kept.tracked trivial moved
      obtain ⟨s, made, result⟩ := Option.map_eq_some_iff.mp moved
      obtain ⟨page', stack', brings, first⟩ := thread_create_brings linked made
      obtain rfl := Option.some.inj (stack.symm.trans stack')
      have pid : s.pidOf s.current =
          state.threads.scheduler.pidOf state.threads.scheduler.current :=
        congrArg Prod.fst brings.running
      cases found : (findNextSpot (state.threads.scheduler.processOf
          state.threads.scheduler.current).thread 3).2 with
      | none =>
          rw [found] at brings
          simp only [found] at result
          rw [← result] at tracked ⊢
          exact kept.starts tracked brings rfl
      | some i =>
          rw [found] at brings
          simp only [found] at result
          rw [← result] at tracked ⊢
          refine kept.starts tracked brings ?_
          rw [← first i found, pid]
          rfl
  | terminateThread switching =>
      obtain ⟨first, yields⟩ := confined
      obtain ⟨threads, moved, rfl⟩ := Option.map_eq_some_iff.mp stepped
      have tracked :=
        tracked_step fuel state.threads (.terminateThread _) threads kept.tracked first moved
      obtain ⟨s, ended, result⟩ := Option.map_eq_some_iff.mp moved
      obtain ⟨switches, -⟩ := kept.tracked.ready.terminateThread first ended
      have narrows := Narrows.terminateThread linked present first ended
      rw [if_pos switches] at result ⊢
      refine kept.yield yields tracked ?_ ?_
      · rw [← result]
        rfl
      · rw [← result]
        exact narrows
  | _yield switching =>
      obtain ⟨threads, moved, rfl⟩ := Option.map_eq_some_iff.mp stepped
      have tracked :=
        tracked_step fuel state.threads (._yield _) threads kept.tracked trivial moved
      obtain ⟨⟨s, stack⟩, switched, result⟩ := Option.map_eq_some_iff.mp moved
      have narrows := Narrows.next_process linked present switched
      simp only [present, if_false] at result ⊢
      refine kept.yield confined tracked ?_ ?_
      · rw [← result]
        rfl
      · rw [← result]
        exact narrows
  | timerTick registers handling switching =>
      obtain ⟨threads, moved, rfl⟩ := Option.map_eq_some_iff.mp stepped
      have tracked :=
        tracked_step fuel state.threads (.timerTick _) threads kept.tracked trivial moved
      obtain ⟨⟨s, stack⟩, switched, result⟩ := Option.map_eq_some_iff.mp moved
      obtain ⟨ring', linked', -⟩ := linked.saveUserStack
        (state.running.timerTickHandler state.memory registers handling).2
      have narrows := (Narrows.saveUserStack ..).trans (.switchKernelToUser linked' switched)
      refine kept.tick confined tracked ?_ ?_
      · rw [← result]
        rfl
      · rw [← result]
        exact narrows

/-- Only the first process is there, and it runs. -/
theorem Start.kept {state : ContextRun} (start : Start state) : Kept state := by
  obtain ⟨boot, entryPoint, pid, empty, made, -⟩ := start.threads.made
  obtain ⟨p, t, page1, page2, slot, rfl, created, linked, took, stored⟩ :=
    empty.createProcess made
  obtain ⟨p', t', _, _, slot', took', threads, first, -⟩ := createProcess_threads made
  rw [took] at took'
  obtain ⟨rfl, rfl, rfl⟩ := processBlocks_injective (Prod.mk.inj (Option.some.inj took')).2
  have current : state.threads.scheduler.current = slot := by
    rw [created.current, if_pos empty.current]
  have active : state.threads.scheduler.activeOf slot = 0 := by
    rw [activeOf, processOf, created.added, first]
  have alone : ∀ thread, state.threads.scheduler.Has thread →
      thread = state.threads.scheduler.runningThread := by
    rintro ⟨pid, i⟩ ⟨a, member, isPid, filled⟩
    obtain rfl := List.mem_singleton.mp (linked.mem_upcoming.mpr member)
    rw [runningThread, current, active]
    exact Prod.ext isPid.symm (created.threadOf_slot threads filled)
  refine ⟨start.threads.tracked, ⟨⟨_, stored.consistent, ?_⟩, ?_⟩, ?_, ?_⟩
  · intro thread has
    rw [alone thread has]
    exact .inr start.stack
  · intro thread has other has' different
    exact absurd ((alone thread has).trans (alone other has').symm) different
  · intro thread has waits
    exact absurd (alone thread has) waits
  · intro r member
    rw [start.resumed] at member
    cases member

/-- In every run from boot in which no thread writes to the stack of another one or to what is the
kernel's, and only first threads end, every switch loads the registers that were saved for the
thread it goes on with, or made up for its start. -/
theorem contexts_restored (labels : Labels) (kernel : List Interval) (fuel : Nat)
    {state final : ContextRun} (start : Start state) {actions : List ContextAction}
    (confined : Along (step labels fuel) (Confined kernel) state actions)
    (ran : run (step labels fuel) state actions = some final) :
    ∀ r ∈ final.resumed, r.loaded = r.saved := by
  have kept : Kept final :=
    Along.invariant (kept_step labels kernel fuel) start.kept confined ran
  exact kept.restored

/-- A thread that executes at `rip` with its stack pointer at `rsp`. -/
def contextAt (value rip rsp : UInt64) : Context :=
  ⟨fun _ => value, rip, 0x008, 0x202, rsp, 0⟩

/-- The first process runs, on the stack the kernel was started with. -/
def bootContexts : Option ContextRun :=
  bootRun.map fun threads =>
    { threads
      memory := fun _ => 0
      running := contextAt 0 0xC00000 0x118000
      saved := fun _ => contextAt 0 0 0
      areas := fun _ => ⟨0x110000, 0x118000⟩
      resumed := [] }

/-- The machine after boot is a start. -/
theorem bootContexts_start {state : ContextRun} (booted : bootContexts = some state) :
    Start state := by
  obtain ⟨threads, first, rfl⟩ := Option.map_eq_some_iff.mp booted
  have below : 0x118000 ≤ baseMemory := by decide
  exact ⟨bootRun_start first, below, rfl⟩

/-- The table of interrupts, and the kernel below its stack. -/
def kernelAreas : List Interval := [⟨0, 0x1000⟩, ⟨0x100000, 0x110000⟩]

/-- A tick goes on with a new process, which writes to its stack and yields. -/
def twoContexts : List ContextAction :=
  [.createProcess 0x800000 7, .timerTick (fun _ => 5) [(0x117F00, 1)] [],
    .executes (contextAt 9 0x800010 0x100BE40), .stores 0x100B000 1, ._yield [(0x100B008, 2)]]

theorem twoContexts_restored : ∃ start final, Start start ∧
    run (step ⟨0x101000, 0x102000⟩ 4) start twoContexts = some final ∧
      final.resumed.map (fun r => (r.thread, r.loaded.general .rax, r.loaded.rip)) =
        [((1, 0), 0x11, 0x102000), ((0, 0), 5, 0xC00000)] ∧
      ∀ r ∈ final.resumed, r.loaded = r.saved := by
  have result : (bootContexts.bind fun start =>
      if Along (step ⟨0x101000, 0x102000⟩ 4) (Confined kernelAreas) start twoContexts then
        run (step ⟨0x101000, 0x102000⟩ 4) start twoContexts
      else none).map (fun final =>
        final.resumed.map fun r => (r.thread, r.loaded.general .rax, r.loaded.rip)) =
      some [((1, 0), 0x11, 0x102000), ((0, 0), 5, 0xC00000)] := by
    rw [bootContexts, bootRun, SchedulerRun.emptyMemory, createHeap_eq]
    decide +kernel
  obtain ⟨final, ran, resumed⟩ := Option.map_eq_some_iff.mp result
  obtain ⟨start, booted, ran⟩ := Option.bind_eq_some_iff.mp ran
  split at ran
  · rename_i confined
    have begins := bootContexts_start booted
    exact ⟨start, final, begins, ran, resumed, contexts_restored _ _ 4 begins confined ran⟩
  · cases ran

end ContextRun

end SistemasOperativos.Kernel
