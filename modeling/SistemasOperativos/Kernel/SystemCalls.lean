import SistemasOperativos.Kernel.ThreadPages

/-!
# The system calls that remove a process and start a thread

`sys_call_kill` and `sys_call_createThread` of systemCalls.c. Their arguments are quadwords:
the pid comes as a sign-extended `int`, the function of a thread and its argument as they are.
A new thread starts from the frame that `fillStackFrame` wrote to its stack, and
`createThread_started` states that it calls this function with this argument.
-/

namespace SistemasOperativos.Kernel

open SistemasOperativos.Foundation

/-- The `qword` that an `int` is converted to. -/
def toQword (value : Int) : Nat := (value % 2 ^ 64).toNat

/-- Converted back, it is the `int` again. -/
theorem toInt32_toQword {value : Int} (low : -2 ^ 31 ≤ value) (high : value < 2 ^ 31) :
    toInt32 (toQword value) = value := by
  rw [toInt32, toQword, Int.bmod_def]
  omega

/-! ## The frame of a new thread -/

/-- The registers that a new thread starts with, as far as `callProcess` reads them. -/
structure StackFrame where
  rdi : Nat
  rsi : Nat
  rdx : Nat
  rcx : Nat
  deriving DecidableEq, Repr

/-- `callProcess`, where a new thread starts: the function that it calls and its argument. -/
def callProcess (_entryPoint entryPoint2 _args args2 : Nat) : Nat × Nat := (entryPoint2, args2)

/-- The call of a thread that starts from a frame. -/
def StackFrame.call (frame : StackFrame) : Nat × Nat :=
  callProcess frame.rdi frame.rsi frame.rdx frame.rcx

/-- The scheduler with the frames on the stacks of its threads. -/
structure Threads where
  scheduler : Scheduler
  frame : Nat → StackFrame

/-- The three calls of `allocPage` answer something. -/
theorem takesPages (before : BuddyArray) :
    ∃ after t page1 page2, TakesPages before after t page1 page2 :=
  ⟨_, _, _, _, _, _, rfl, rfl, rfl⟩

/-- They answer one thing only. -/
theorem TakesPages.unique {before after after' : BuddyArray}
    {t t' page1 page1' page2 page2' : Option Nat}
    (took : TakesPages before after t page1 page2)
    (took' : TakesPages before after' t' page1' page2') :
    t = t' ∧ page1 = page1' ∧ page2 = page2' := by
  obtain ⟨first, second, single, user, kernel⟩ := took
  obtain ⟨first', second', single', user', kernel'⟩ := took'
  obtain ⟨rfl, rfl⟩ := Prod.mk.inj (single.symm.trans single')
  obtain ⟨rfl, rfl⟩ := Prod.mk.inj (user.symm.trans user')
  exact ⟨rfl, rfl, (Prod.mk.inj (kernel.symm.trans kernel')).2⟩

namespace Threads

/-- `fillStackFrame`, with the frame that it writes and its address. -/
def fillStackFrame (m : Threads) (entryPoint userStack args : Nat) : Threads × Nat :=
  let frame := Scheduler.fillStackFrame userStack
  ({ m with frame := Function.update m.frame frame ⟨entryPoint, entryPoint, args, args⟩ }, frame)

/-- `createThread`, with the frame of the thread. -/
def createThread (m : Threads) (entryPoint args p : Nat) : Option (Threads × Int) := do
  let (s, t) ← m.scheduler.allocPage (NUMBER_OF_PAGES_TO_ALLOC sizeofThread)
  let (s, page1) ← s.allocPage 2
  let (s, page2) ← s.allocPage 2
  let userStack := page1 + 2 * PAGE_SIZE
  let kernelStack := page2 + 2 * PAGE_SIZE
  let (m, stack) := fillStackFrame ⟨s, m.frame⟩ entryPoint userStack args
  match Scheduler.findNextSpot (s.process p).thread 3 with
  | (_, none) => some (m, -1)
  | (thread, some index) =>
      let s := s.setProcess p
        { s.process p with
          numberOfThreads := (s.process p).numberOfThreads + 1
          thread := thread.set index t index.isLt }
      some ({ m with scheduler := s.setThread t ⟨stack, kernelStack, entryPoint⟩ }, 0)

/-- `getCurrentProcess`. -/
def getCurrentProcess (m : Threads) : Nat := (m.scheduler.slot m.scheduler.current).process

/-- `sys_call_createThread`, with the result of `createThread` that it drops. -/
def sys_call_createThread (m : Threads) (qentryPoint qargs : Nat) : Option (Threads × Int) :=
  m.createThread qentryPoint qargs m.getCurrentProcess

/-- The call with its pages taken. -/
theorem createThread_of_pages {m : Threads} {entryPoint args p t page1 page2 : Nat}
    {after : BuddyArray}
    (took : TakesPages m.scheduler.buddyArray after (some t) (some page1) (some page2)) :
    m.createThread entryPoint args p =
      (m.scheduler.createThread entryPoint p).map fun made =>
        (⟨made.1, Function.update m.frame (Scheduler.fillStackFrame (page1 + 2 * PAGE_SIZE))
          ⟨entryPoint, entryPoint, args, args⟩⟩, made.2) := by
  obtain ⟨first, second, single, user, kernel⟩ := took
  simp only [createThread, Scheduler.createThread, Scheduler.allocPage, fillStackFrame, single,
    user, kernel, Option.bind_eq_bind, Option.bind_some]
  rcases Scheduler.findNextSpot (m.scheduler.process p).thread 3 with ⟨thread, _ | index⟩ <;> rfl

/-- A call that succeeds has taken its pages. -/
theorem createThread_pages {m m' : Threads} {entryPoint args p : Nat} {result : Int}
    (made : m.createThread entryPoint args p = some (m', result)) :
    ∃ after t page1 page2,
      TakesPages m.scheduler.buddyArray after (some t) (some page1) (some page2) := by
  rcases single : allocPage m.scheduler.buddyArray (NUMBER_OF_PAGES_TO_ALLOC sizeofThread) with
    ⟨first, _ | t⟩
  · simp [createThread, Scheduler.allocPage, single] at made
  rcases user : allocPage first 2 with ⟨second, _ | page1⟩
  · simp [createThread, Scheduler.allocPage, single, user] at made
  rcases kernel : allocPage second 2 with ⟨after, _ | page2⟩
  · simp [createThread, Scheduler.allocPage, single, user, kernel] at made
  · exact ⟨after, t, page1, page2, first, second, single, user, kernel⟩

/-- In the entry that `findNextSpot` finds, the call put a thread that starts from `frame`. -/
def Started (m m' : Threads) (p : Nat) (frame : StackFrame) : Prop :=
  ∃ index, (Scheduler.findNextSpot (m.scheduler.process p).thread 3).2 = some index ∧
    m'.frame (m'.scheduler.thread ((m'.scheduler.process p).thread.get index)).userStack = frame

/-- It starts from one frame only. -/
theorem Started.unique {m m' : Threads} {p : Nat} {frame frame' : StackFrame}
    (started : m.Started m' p frame) (started' : m.Started m' p frame') : frame = frame' := by
  obtain ⟨index, found, rfl⟩ := started
  obtain ⟨index', found', rfl⟩ := started'
  obtain rfl := Option.some.inj (found.symm.trans found')
  rfl

/-- A call that answers 0 got its pages and found a free entry. -/
theorem can_of_createThread {m m' : Threads} {entryPoint args p : Nat}
    (made : m.createThread entryPoint args p = some (m', 0)) : ¬ m.scheduler.CannotAdd p := by
  intro cannot
  obtain ⟨after, t, page1, page2, took⟩ := createThread_pages made
  rcases cannot with occupied | ⟨_, _, _, _, took', missing⟩
  · have none := Scheduler.findNextSpot_eq_none_iff.mpr occupied
    rw [createThread_of_pages took, Scheduler.createThread_eq took,
      Scheduler.createThreadThrough_eq took] at made
    split at made
    · simp at made
    · rename_i found
      rw [found] at none
      cases none
  · obtain ⟨rfl, rfl, rfl⟩ := took.unique took'
    rcases missing with missing | missing | missing <;> cases missing

/-- If it can, `createThread` starts a thread that calls the function with the argument. -/
theorem createThread_started {m : Threads} {p : Nat} (can : ¬ m.scheduler.CannotAdd p)
    (entryPoint args : Nat) :
    ∃ m', m.createThread entryPoint args p = some (m', 0) ∧
      Started m m' p ⟨entryPoint, entryPoint, args, args⟩ := by
  obtain ⟨entries, pages⟩ := not_or.mp can
  obtain ⟨after, t, page1, page2, took⟩ := takesPages m.scheduler.buddyArray
  match t, page1, page2, took with
  | none, _, _, took => exact absurd ⟨after, _, _, _, took, .inl rfl⟩ pages
  | _, none, _, took => exact absurd ⟨after, _, _, _, took, .inr (.inl rfl)⟩ pages
  | _, _, none, took => exact absurd ⟨after, _, _, _, took, .inr (.inr rfl)⟩ pages
  | some t, some page1, some page2, took =>
      rw [createThread_of_pages took, Scheduler.createThread_eq took,
        Scheduler.createThreadThrough_eq took]
      split
      · rename_i found
        exact absurd (Scheduler.findNextSpot_eq_none_iff.mp (congrArg Prod.snd found)) entries
      · rename_i thread index found
        have entered : (thread.set index t index.isLt).get index = t :=
          Vector.getElem_set_self index.isLt
        refine ⟨_, rfl, index, congrArg Prod.snd found, ?_⟩
        simp [Scheduler.setThread, Scheduler.setProcess, entered]

end Threads

/-! ## The process that is removed -/

namespace Scheduler

/-- `sys_call_kill`. -/
def sys_call_kill (s : Scheduler) (fuel rsp qpid : Nat) : Option Scheduler :=
  s.removeProcess fuel rsp (toInt32 qpid)

/-- From the slot behind the current one `next` leads once through `cardinal_processes` slots and
back, and they hold the processes of `live`. -/
def Encircles (s : Scheduler) (live : List Int) : Prop :=
  ∃ ring, Ring s.next (s.next s.current) ring ∧ s.cardinal_processes = ring.length ∧
    (ring.map s.pidOf).Perm live

/-- The call takes `pid` out of the ring of `live`, and nothing else. If that process runs, the
call goes on with a switch, which does not return while no other process is READY. -/
def Removes (s : Scheduler) (live : List Int) (fuel rsp : Nat) (pid : Int)
    (result : Option Scheduler) : Prop :=
  (∃ after, after.Encircles (live.erase pid) ∧
    (result = some after ∨ s.pidOf s.current = pid ∧ result = after._yield fuel rsp)) ∧
  ∀ s', result = some s' → s'.Intact (live.erase pid)

variable {s : Scheduler} {live : List Int} {ring : List Nat} {pid : Int}

/-- Once the slot of the process is unlinked, the slot behind the current one leads around the
rest of the ring. -/
theorem Linked.encircles (linked : Linked s live ring) {x y : Nat} (before : x ∈ ring)
    (leads : s.next x = y) (notInit : s.pidOf y ≠ 0) :
    (s.unlink x y).Encircles (live.erase (s.pidOf y)) := by
  obtain ⟨rest, perm, behind, shrunk⟩ := linked.unlink before leads notInit
  have entered : (s.unlink x y).next s.current ∈ rest := by
    by_cases isCurrent : s.current = y
    · have two : y ≠ x := by
        rintro rfl
        exact linked.next_ne before notInit leads
      rw [isCurrent, unlink_next, Function.update_of_ne two]
      exact behind
    · have onRest : s.current ∈ rest :=
        (List.mem_cons.mp (perm.mem_iff.mpr linked.closed.start_mem)).resolve_left isCurrent
      obtain ⟨ring', linked', perm'⟩ := shrunk (s.unlink x y) (.refl _) onRest
      exact perm'.mem_iff.mp (linked'.closed.next_mem linked'.closed.start_mem)
  obtain ⟨ring', linked', -⟩ :=
    shrunk { s.unlink x y with current := (s.unlink x y).next s.current }
      ⟨⟨rfl, rfl, rfl, fun _ => rfl⟩, rfl⟩ entered
  exact ⟨ring', linked'.closed, linked'.cardinal, linked'.pids⟩

/-- `removeProcess` removes every process of the ring but the first one. -/
theorem Linked.removes (linked : Linked s live ring) (present : s.current ≠ NULL)
    (isLive : pid ∈ live) (notInit : pid ≠ 0) (fuel rsp : Nat) :
    s.Removes live fuel rsp pid (s.removeProcess fuel rsp pid) := by
  refine ⟨?_, fun s' removed => ?_⟩
  · rw [Scheduler.removeProcess, if_neg notInit, if_neg present,
      if_neg (linked.not_onlyProcess notInit)]
    match found : s.findSlot pid with
    | none => exact absurd isLive (linked.findSlot_none found)
    | some (x, y) =>
        obtain ⟨leads, before, -, rfl⟩ := linked.findSlot_some found
        refine ⟨s.unlink x y, linked.encircles before leads notInit, ?_⟩
        simp only [Scheduler.removeSlot, unlink_pidOf]
        split
        · rename_i isCurrent
          exact .inr ⟨isCurrent.symm, rfl⟩
        · exact .inl rfl
  · obtain ⟨-, ring', linked', -⟩ := linked.removeProcess present removed
    rw [if_neg notInit] at linked'
    exact linked'.intact

/-- A call for another process does not remove this one. -/
theorem Linked.not_removes (linked : Linked s live ring) (present : s.current ≠ NULL)
    (isLive : pid ∈ live) {other : Int} (different : other ≠ pid) (notInit : other ≠ 0)
    (fuel rsp : Nat) :
    ¬ s.Removes live fuel rsp pid (s.removeProcess fuel rsp other) := by
  rintro ⟨⟨after, -, returned⟩, removed⟩
  cases result : s.removeProcess fuel rsp other with
  | some s' =>
      obtain ⟨-, ring', linked', -⟩ := linked.removeProcess present result
      rw [if_neg notInit] at linked'
      have gone : pid ∉ live.erase pid := linked.distinct.not_mem_erase
      rw [(removed s' result).live, ← linked'.intact.live] at gone
      exact gone ((List.mem_erase_of_ne different.symm).mpr isLive)
  | none =>
      -- Only a call that removes the process that runs may not return.
      rw [result] at returned
      obtain ⟨isCurrent, -⟩ := returned.resolve_left (fun returned => nomatch returned)
      rw [Scheduler.removeProcess, if_neg notInit, if_neg present,
        if_neg (linked.not_onlyProcess notInit)] at result
      match found : s.findSlot other with
      | none =>
          rw [found] at result
          cases result
      | some (x, y) =>
          obtain ⟨-, -, -, isOther⟩ := linked.findSlot_some found
          rw [found] at result
          simp only [Scheduler.removeSlot, unlink_pidOf] at result
          rw [if_neg] at result
          · cases result
          · change s.pidOf y ≠ s.pidOf s.current
            rw [isOther, isCurrent]
            exact different

end Scheduler

end SistemasOperativos.Kernel
