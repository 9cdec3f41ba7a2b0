import SistemasOperativos.Kernel.StateAssignments

/-!
# The order of waking up

Runs of `lockMutex` and `freeMutex` on all mutexes, and of `wait` and `signal` on all
semaphores. `mutexArrivals` and `semaphoreArrivals` are not part of the kernel: they list
the waiting processes of each queue in the order in which they came. The kernel wakes the
process in the lowest slot. As long as everybody who comes gets a slot behind all the
others, this is the one who came first (`woken_in_order`). A slot that was left empty in
front of the others lets a newcomer overtake them (`newcomer_overtakes`).
-/

namespace SistemasOperativos.Kernel

open SistemasOperativos.Semantics

/-- The processes of a queue in the order of their arrival, after a step that led from the
pids `before` to the pids `after` in it: those who left are taken away, and those who
came stand at the end. -/
def arrivalsAfter (before after arrivals : List Int) : List Int :=
  arrivals.diff (before.diff after) ++ after.diff before

/-- From the one queue to the other nobody came or left, somebody came to the end, or the
first one left. -/
inductive Orderly (before : List Int) : List Int → Prop where
  | same : Orderly before before
  | came (pid : Int) : Orderly before (before ++ [pid])
  | left : Orderly before before.tail

section Orderly

/-- Nobody is new in a queue that stayed. -/
theorem diff_self (queue : List Int) : queue.diff queue = [] := by
  induction queue with
  | nil => rfl
  | cons pid queue ih => rw [List.diff_cons, List.erase_cons_head, ih]

/-- The one that came to the end is new. -/
theorem append_diff_self (queue : List Int) (pid : Int) : (queue ++ [pid]).diff queue = [pid] := by
  induction queue with
  | nil => rfl
  | cons first queue ih => rw [List.cons_append, List.diff_cons, List.erase_cons_head, ih]

/-- The one that left the front is what the queue had more. -/
theorem cons_diff_self (first : Int) (queue : List Int) :
    (first :: queue).diff queue = [first] := by
  induction queue with
  | nil => rfl
  | cons second queue ih =>
      rw [List.diff_cons]
      by_cases same : first = second
      · subst same
        rw [List.erase_cons_head, ih]
      · rw [List.erase_cons_tail (by simpa using same), List.erase_cons_head, ih]

/-- A queue that stayed changed in order. -/
theorem Orderly.of_eq {before after : List Int} (same : after = before) : Orderly before after := by
  rw [same]
  exact .same

/-- In an orderly step the pids stay in the order of their arrival. -/
theorem Orderly.arrivals {before after : List Int} (orderly : Orderly before after) :
    arrivalsAfter before after before = after := by
  cases orderly with
  | same => rw [arrivalsAfter, diff_self, List.append_nil, List.diff_nil]
  | came pid =>
      have nobody : before.diff (before ++ [pid]) = [] := by
        rw [List.diff_append, diff_self, List.nil_diff]
      rw [arrivalsAfter, nobody, append_diff_self, List.diff_nil]
  | left =>
      cases before with
      | nil => rfl
      | cons first rest =>
          have gone : rest.diff (first :: rest) = [] := by
            rw [List.diff_cons_right, diff_self, List.erase_nil]
          rw [arrivalsAfter, List.tail_cons, cons_diff_self, gone, List.append_nil]
          simp

end Orderly

/-- Where a process stands in a call: in a `lockMutex`, in the one that a `wait` makes, or
at the end of `wait`. -/
inductive QueueWait where
  | inLock
  | inLockOfWait (semaphore : Int)
  | inWait
  deriving DecidableEq, Repr

/-- The kernel, where each process stands, and the processes of each queue in the order
of their arrival. -/
structure QueueRun where
  kernel : SemaphoreState
  pending : Int → Option QueueWait
  mutexArrivals : Int → List Int
  semaphoreArrivals : Int → List Int

/-- What the current process, or the timer, does. `next` is the process that `schedule`
picks if there is a switch. -/
inductive QueueAction where
  | lockMutex (mutex garbage next : Int)
  | freeMutex (mutex : Int)
  | wait (semaphore garbage next : Int)
  | signal (semaphore : Int)
  | resume (next : Int)
  | timerTick (next : Int)
  deriving DecidableEq, Repr

namespace QueueRun

/-- The process that runs. -/
def current (state : QueueRun) : Int := state.kernel.processes.current

/-- Take over what the current process did, and where it stands. -/
def settle (state : QueueRun) (kernel : SemaphoreState) (wait : Option QueueWait) : QueueRun where
  kernel := kernel
  pending := Function.update state.pending state.current wait
  mutexArrivals := fun m => arrivalsAfter (state.kernel.mutexes m).entries
    (kernel.mutexes m).entries (state.mutexArrivals m)
  semaphoreArrivals := fun s => arrivalsAfter (state.kernel.semaphores s).entries
    (kernel.semaphores s).entries (state.semaphoreArrivals s)

/-- Switch to `next`. -/
def dispatch (state : QueueRun) (next : Int) : Option QueueRun :=
  (state.kernel.processes.schedule next).map fun processes =>
    { state with kernel := { state.kernel with processes } }

/-- One call, the rest of one, or a tick of the timer. A handle in front of a table is
none that the kernel gives out. -/
def step (state : QueueRun) : QueueAction → Option QueueRun
  | .lockMutex mutex garbage next =>
      if state.pending state.current = none ∧ 0 ≤ mutex then
        match state.kernel.lockMutex mutex garbage with
        | (mutexes, .returned) =>
            some (state.settle { state.kernel with toMutexState := mutexes } none)
        | (mutexes, .yielded) =>
            (state.settle { state.kernel with toMutexState := mutexes }
              (some .inLock)).dispatch next
      else none
  | .freeMutex mutex =>
      if state.pending state.current = none ∧ 0 ≤ mutex then
        some (state.settle
          { state.kernel with toMutexState := state.kernel.freeMutex mutex } none)
      else none
  | .wait semaphore garbage next =>
      if state.pending state.current = none ∧ 0 ≤ semaphore then
        match state.kernel.wait semaphore garbage with
        | (kernel, .returned) => some (state.settle kernel none)
        | (kernel, .yieldedInLock) =>
            (state.settle kernel (some (.inLockOfWait semaphore))).dispatch next
        | (kernel, .yielded) => (state.settle kernel (some .inWait)).dispatch next
      else none
  | .signal semaphore =>
      if state.pending state.current = none ∧ 0 ≤ semaphore then
        some (state.settle (state.kernel.signal semaphore) none)
      else none
  | .resume next =>
      match state.pending state.current with
      | some (.inLockOfWait semaphore) =>
          match state.kernel.waitLocked semaphore with
          | (kernel, .returned) => some (state.settle kernel none)
          | (kernel, .yielded) => (state.settle kernel (some .inWait)).dispatch next
      | some _ => some (state.settle state.kernel none)
      | none => none
  | .timerTick next => state.dispatch next

/-- A run starts with nobody in a call. Those who stand in a queue came in the order of
their slots. -/
structure Start (state : QueueRun) : Prop where
  outside : ∀ pid, state.pending pid = none
  mutexes : ∀ m, state.mutexArrivals m = (state.kernel.mutexes m).entries
  semaphores : ∀ s, state.semaphoreArrivals s = (state.kernel.semaphores s).entries
  pids : ∀ pid, state.kernel.processes.state pid ≠ none → 0 ≤ pid
  present : state.kernel.processes.state state.current ≠ none

/-- `lockMutex` puts its caller into the queue. -/
def Enqueues (kernel : MutexState) (mutex : Int) : Prop :=
  kernel.isValidMutex mutex = true ∧ Busy (kernel.mutexes mutex) ∧
    kernel.isQueueFull mutex = false

instance (kernel : MutexState) (mutex : Int) : Decidable (Enqueues kernel mutex) :=
  inferInstanceAs (Decidable (_ ∧ _))

/-- Behind its `lockMutex`, `wait` puts its caller into the queue. -/
def EnqueuesInWait (kernel : SemaphoreState) (semaphore : Int) : Prop :=
  toInt32 ((kernel.semaphores semaphore).semaphore - 1) < 0

instance (kernel : SemaphoreState) (semaphore : Int) :
    Decidable (EnqueuesInWait kernel semaphore) :=
  inferInstanceAs (Decidable (_ < _))

/-- The condition on the rest of a `wait`. -/
def RestGoesBehind (kernel : SemaphoreState) : Option QueueWait → Prop
  | some (.inLockOfWait semaphore) =>
      EnqueuesInWait kernel semaphore → (kernel.semaphores semaphore).Packed
  | _ => True

/-- The condition on a step: a process that is put into a queue gets a slot behind the
used ones. -/
def GoesBehind (state : QueueRun) : QueueAction → Prop
  | .lockMutex mutex _ _ =>
      Enqueues state.kernel.toMutexState mutex → (state.kernel.mutexes mutex).Packed
  | .wait semaphore _ _ =>
      state.kernel.isValidSemaphore semaphore = true →
        (Enqueues state.kernel.toMutexState (state.kernel.semaphores semaphore).mutex →
          (state.kernel.mutexes (state.kernel.semaphores semaphore).mutex).Packed) ∧
        (state.kernel.Uncontended (state.kernel.semaphores semaphore).mutex →
          EnqueuesInWait state.kernel semaphore → (state.kernel.semaphores semaphore).Packed)
  | .resume _ => RestGoesBehind state.kernel (state.pending state.current)
  | _ => True

instance (kernel : SemaphoreState) (wait : Option QueueWait) :
    Decidable (RestGoesBehind kernel wait) :=
  match wait with
  | some (.inLockOfWait _) | some .inLock | some .inWait | none => by
      unfold RestGoesBehind
      infer_instance

instance (state : QueueRun) (action : QueueAction) : Decidable (state.GoesBehind action) :=
  match action with
  | .lockMutex _ _ _ | .freeMutex _ | .wait _ _ _ | .signal _ | .resume _ | .timerTick _ => by
      unfold GoesBehind
      infer_instance

/-! ## What the calls do to the queues -/

/-- Every queue of a mutex changes in order. -/
def MutexesOrderly (before after : MutexState) : Prop :=
  ∀ m, Orderly (before.mutexes m).entries (after.mutexes m).entries

/-- Every queue of a semaphore changes in order. -/
def SemaphoresOrderly (before after : SemaphoreState) : Prop :=
  ∀ s, Orderly (before.semaphores s).entries (after.semaphores s).entries

section Calls

/-- The queues of the semaphores do not depend on the mutexes. -/
theorem semaphores_same (kernel : SemaphoreState) (mutexes : MutexState) :
    SemaphoresOrderly kernel { kernel with toMutexState := mutexes } :=
  fun _ => .same

/-- A pid that is put into a packed array comes to the end. -/
theorem addToBlocked_orderly {waiters : WaitQueue} {pid : Int}
    (entry : pid ≠ NO_BLOCKED_QUEUE_VALUE) (packed : waiters.Packed) :
    Orderly waiters.entries (waiters.addToBlocked pid).entries := by
  rcases packed.addToBlocked entry with same | added
  · exact .of_eq same
  · rw [added]
    exact .came pid

/-- `lockMutex` changes the queues in order, if the slots are packed where it records its
caller. -/
theorem lockMutex_orderly {kernel : MutexState} {mutex : Int} (garbage : Int)
    (entry : kernel.processes.current ≠ NO_BLOCKED_QUEUE_VALUE)
    (behind : Enqueues kernel mutex → (kernel.mutexes mutex).Packed) :
    MutexesOrderly kernel (kernel.lockMutex mutex garbage).1 := by
  intro m
  cases valid : kernel.isValidMutex mutex with
  | false => exact .of_eq (by simp [MutexState.lockMutex, valid])
  | true =>
      by_cases busy : Busy (kernel.mutexes mutex)
      · cases full : kernel.isQueueFull mutex with
        | false =>
            rw [MutexState.lockMutex_queues valid busy full]
            by_cases here : m = mutex
            · subst here
              simpa [MutexState.addToBlocked] using
                addToBlocked_orderly entry (behind ⟨valid, busy, full⟩)
            · exact .of_eq (by simp [MutexState.addToBlocked, MutexState.setMutex_ne here])
        | true =>
            rw [MutexState.lockMutex_full valid busy full]
            exact .same
      · simp only [Busy, not_or, not_not] at busy
        rw [MutexState.lockMutex_acquires valid busy.1 busy.2]
        by_cases here : m = mutex
        · subst here
          exact .of_eq (by simp [WaitQueue.entries])
        · exact .of_eq (by rw [MutexState.setMutex_ne here])

/-- `freeMutex` takes the first one out of its queue. -/
theorem freeMutex_orderly (kernel : MutexState) (mutex : Int) :
    MutexesOrderly kernel (kernel.freeMutex mutex) := by
  intro m
  rcases kernel.freeMutex_cases mutex with ⟨-, same, -⟩ | ⟨pid, rest, queue, left, -⟩
  · exact .of_eq (same m)
  · by_cases here : m = mutex
    · subst here
      rw [queue, left]
      exact .left
    · exact .of_eq (by rw [MutexState.freeMutex_ne here])

/-- `signal` takes the first one out of its queue. -/
theorem signal_orderly (kernel : SemaphoreState) (semaphore : Int) :
    SemaphoresOrderly kernel (kernel.signal semaphore) := by
  intro s
  rcases kernel.signal_cases semaphore with ⟨-, same⟩ | ⟨pid, rest, queue, left, -⟩
  · exact .of_eq (same s)
  · by_cases here : s = semaphore
    · subst here
      rw [queue, left]
      exact .left
    · exact .of_eq (by rw [SemaphoreState.signal_ne here])

/-- `wait` behind its lock changes the queues in order, if the slots are packed where it records
its caller. -/
theorem waitLocked_orderly {kernel : SemaphoreState} {semaphore : Int}
    (entry : kernel.processes.current ≠ NO_BLOCKED_QUEUE_VALUE)
    (behind : EnqueuesInWait kernel semaphore → (kernel.semaphores semaphore).Packed) :
    MutexesOrderly kernel.toMutexState (kernel.waitLocked semaphore).1.toMutexState ∧
      SemaphoresOrderly kernel (kernel.waitLocked semaphore).1 := by
  simp only [SemaphoreState.waitLocked, SemaphoreState.setSemaphore_same]
  split
  · refine ⟨freeMutex_orderly _ _, fun s => ?_⟩
    by_cases here : s = semaphore
    · subst here
      exact .of_eq (by simp)
    · exact .of_eq (by simp [SemaphoreState.setSemaphore_ne here])
  · rename_i negative
    refine ⟨freeMutex_orderly (kernel.changeProcessState _ _) _, fun s => ?_⟩
    by_cases here : s = semaphore
    · subst here
      simpa [SemaphoreState.addToSemBlocked, ProcessTable.getCurrentPid] using
        addToBlocked_orderly entry (behind (not_le.mp negative))
    · exact .of_eq (by simp [SemaphoreState.addToSemBlocked, SemaphoreState.setSemaphore_ne here])

/-- A lock that was taken leaves the queues of the mutexes. -/
theorem taken_entries {kernel after : MutexState} {mutex garbage : Int}
    (taken : kernel.lockMutex mutex garbage = (after, .returned)) (m : Int) :
    (after.mutexes m).entries = (kernel.mutexes m).entries := by
  have uncontended := MutexState.lockMutex_returned.mp (congrArg Prod.snd taken)
  cases valid : kernel.isValidMutex mutex with
  | false =>
      obtain rfl : kernel = after := by simpa [MutexState.lockMutex, valid] using taken
      rfl
  | true =>
      have idle := uncontended valid
      simp only [Busy, not_or, not_not] at idle
      rw [MutexState.lockMutex_acquires valid idle.1 idle.2] at taken
      obtain ⟨rfl, -⟩ := Prod.mk.inj taken
      by_cases here : m = mutex
      · subst here
        simp [WaitQueue.entries]
      · rw [MutexState.setMutex_ne here]

/-- `wait` changes the queues in order under the same condition, its `lockMutex` included. -/
theorem wait_orderly {kernel : SemaphoreState} {semaphore : Int} (garbage : Int)
    (entry : kernel.processes.current ≠ NO_BLOCKED_QUEUE_VALUE)
    (lock : kernel.isValidSemaphore semaphore = true →
      Enqueues kernel.toMutexState (kernel.semaphores semaphore).mutex →
        (kernel.mutexes (kernel.semaphores semaphore).mutex).Packed)
    (behind : kernel.isValidSemaphore semaphore = true →
      kernel.Uncontended (kernel.semaphores semaphore).mutex →
        EnqueuesInWait kernel semaphore → (kernel.semaphores semaphore).Packed) :
    MutexesOrderly kernel.toMutexState (kernel.wait semaphore garbage).1.toMutexState ∧
      SemaphoresOrderly kernel (kernel.wait semaphore garbage).1 := by
  simp only [SemaphoreState.wait]
  split
  · exact ⟨fun _ => .same, fun _ => .same⟩
  · rename_i valid
    have valid : kernel.isValidSemaphore semaphore = true := by simpa using valid
    split <;> rename_i mutexes locked
    · have locks := lockMutex_orderly garbage entry (lock valid)
      rw [locked] at locks
      exact ⟨locks, fun _ => .same⟩
    · obtain ⟨uncontended, processes, -⟩ := MutexState.lockMutex_taken locked
      have entries := taken_entries locked
      have rest := @waitLocked_orderly { kernel with toMutexState := mutexes } semaphore
        (by rw [processes]; exact entry) (behind valid uncontended)
      have queues : MutexesOrderly kernel.toMutexState mutexes := fun m => .of_eq (entries m)
      have whole : ∀ after : SemaphoreState,
          MutexesOrderly mutexes after.toMutexState →
          MutexesOrderly kernel.toMutexState after.toMutexState := by
        intro after orderly m
        rw [← entries m]
        exact orderly m
      split <;> rename_i done <;> rw [done] at rest <;> exact ⟨whole _ rest.1, rest.2⟩

end Calls

/-! ## Every run -/

/-- The invariant of the runs: the slots of every queue are in the order of arrival. -/
structure InOrder (state : QueueRun) : Prop where
  mutexes : ∀ m, state.mutexArrivals m = (state.kernel.mutexes m).entries
  semaphores : ∀ s, state.semaphoreArrivals s = (state.kernel.semaphores s).entries
  pids : ∀ pid, state.kernel.processes.state pid ≠ none → 0 ≤ pid
  present : state.kernel.processes.state state.current ≠ none

/-- The invariant holds at the start. -/
theorem Start.inOrder {state : QueueRun} (start : Start state) : InOrder state :=
  ⟨start.mutexes, start.semaphores, start.pids, start.present⟩

/-- The pid of the process that runs is not the mark of an unused slot. -/
theorem InOrder.entry {state : QueueRun} (inOrder : InOrder state) :
    state.kernel.processes.current ≠ NO_BLOCKED_QUEUE_VALUE := by
  have pid : 0 ≤ state.current := inOrder.pids _ inOrder.present
  change 0 ≤ state.kernel.processes.current at pid
  simp only [NO_BLOCKED_QUEUE_VALUE]
  omega

/-- A call whose queues change in order keeps the invariant. -/
theorem InOrder.settle {state : QueueRun} (inOrder : InOrder state) {kernel : SemaphoreState}
    {blocks : Int → Prop} (assigns : Assigns blocks state.kernel.processes kernel.processes)
    (mutexes : MutexesOrderly state.kernel.toMutexState kernel.toMutexState)
    (semaphores : SemaphoresOrderly state.kernel kernel) (wait : Option QueueWait) :
    InOrder (state.settle kernel wait) where
  mutexes m := by
    simp only [QueueRun.settle, inOrder.mutexes]
    exact (mutexes m).arrivals
  semaphores s := by
    simp only [QueueRun.settle, inOrder.semaphores]
    exact (semaphores s).arrivals
  pids pid here := inOrder.pids pid fun gone => here ((assigns.eq_none pid).mpr gone)
  present gone := by
    change kernel.processes.state kernel.processes.current = none at gone
    rw [assigns.current, assigns.eq_none] at gone
    exact inOrder.present gone

/-- A switch keeps the invariant. -/
theorem InOrder.dispatch {state after : QueueRun} (inOrder : InOrder state) {next : Int}
    (switched : state.dispatch next = some after) : InOrder after := by
  obtain ⟨processes, picked, rfl⟩ := Option.map_eq_some_iff.mp switched
  have dispatched := ProcessTable.schedule_dispatched picked
  refine ⟨inOrder.mutexes, inOrder.semaphores, fun pid here => ?_, fun gone => ?_⟩
  · exact inOrder.pids pid fun none => here ((dispatched.present pid).mpr none)
  · change processes.state processes.current = none at gone
    rw [dispatched.current, dispatched.present] at gone
    exact dispatched.next_present gone

/-- A step that puts nobody in front of others keeps the order. -/
theorem inOrder_step (state : QueueRun) (action : QueueAction) (next : QueueRun)
    (inOrder : InOrder state) (behind : state.GoesBehind action)
    (stepped : state.step action = some next) : InOrder next := by
  have entry := inOrder.entry
  cases action with
  | lockMutex mutex garbage picked =>
      have queues := lockMutex_orderly garbage entry behind
      have assigns := state.kernel.lockMutex_assigns mutex garbage
      simp only [step] at stepped
      split at stepped
      case isFalse => cases stepped
      split at stepped <;> rename_i locked <;> rw [locked] at queues assigns
      · obtain rfl := Option.some.inj stepped
        exact inOrder.settle assigns queues (semaphores_same _ _) _
      · exact InOrder.dispatch (inOrder.settle assigns queues (semaphores_same _ _) _) stepped
  | freeMutex mutex =>
      simp only [step] at stepped
      split at stepped
      case isFalse => cases stepped
      obtain rfl := Option.some.inj stepped
      exact inOrder.settle (MutexState.freeMutex_assigns (fun _ => False) _ mutex)
        (freeMutex_orderly _ mutex) (semaphores_same _ _) _
  | wait semaphore garbage picked =>
      obtain ⟨mutexes, semaphores⟩ := wait_orderly garbage entry
        (fun valid => (behind valid).1) fun valid => (behind valid).2
      have assigns := state.kernel.wait_assigns semaphore garbage
      simp only [step] at stepped
      split at stepped
      case isFalse => cases stepped
      split at stepped <;> rename_i waited <;> rw [waited] at mutexes semaphores assigns
      · obtain rfl := Option.some.inj stepped
        exact inOrder.settle assigns mutexes semaphores _
      · exact InOrder.dispatch (inOrder.settle assigns mutexes semaphores _) stepped
      · exact InOrder.dispatch (inOrder.settle assigns mutexes semaphores _) stepped
  | signal semaphore =>
      have mutexes : MutexesOrderly state.kernel.toMutexState
          (state.kernel.signal semaphore).toMutexState :=
        fun m => .of_eq (by rw [SemaphoreState.signal_mutexes])
      simp only [step] at stepped
      split at stepped
      case isFalse => cases stepped
      obtain rfl := Option.some.inj stepped
      exact inOrder.settle (SemaphoreState.signal_assigns (fun _ => False) _ semaphore) mutexes
        (signal_orderly _ semaphore) _
  | resume picked =>
      simp only [step] at stepped
      split at stepped
      · rename_i semaphore stands
        simp only [GoesBehind, stands, RestGoesBehind] at behind
        obtain ⟨mutexes, semaphores⟩ := waitLocked_orderly entry behind
        have assigns := state.kernel.waitLocked_assigns semaphore
        split at stepped <;> rename_i waited <;> rw [waited] at mutexes semaphores assigns
        · obtain rfl := Option.some.inj stepped
          exact inOrder.settle assigns mutexes semaphores _
        · exact InOrder.dispatch (inOrder.settle assigns mutexes semaphores _) stepped
      · obtain rfl := Option.some.inj stepped
        exact inOrder.settle (@Assigns.refl (fun _ => False) _) (fun _ => .same)
          (fun _ => .same) _
      · cases stepped
  | timerTick picked => exact inOrder.dispatch stepped

/-- In every run in which a process that is put into a queue gets a slot behind the used
ones, a process is not woken before one that came earlier. -/
theorem woken_in_order {start final : QueueRun} {actions : List QueueAction}
    (begins : Start start) (behind : Along step GoesBehind start actions)
    (ran : run step start actions = some final) {earlier later : List Int} {a b : Int}
    (other : b ≠ a) (notBefore : b ∉ earlier) :
    (∀ m, final.mutexArrivals m = earlier ++ a :: later →
        (final.kernel.freeMutex m).processes.state b = final.kernel.processes.state b) ∧
      ∀ s, final.semaphoreArrivals s = earlier ++ a :: later →
        (final.kernel.signal s).processes.state b = final.kernel.processes.state b := by
  have inOrder : InOrder final := Along.invariant inOrder_step begins.inOrder behind ran
  have notFirst : ∀ {pid : Int} {rest : List Int}, earlier ++ a :: later = pid :: rest →
      b ≠ pid := by
    rintro pid rest split rfl
    cases earlier with
    | nil => exact other (List.cons.inj split).1.symm
    | cons first earlier => exact notBefore (by simp [(List.cons.inj split).1])
  refine ⟨fun m arrived => ?_, fun s arrived => ?_⟩
  · rw [inOrder.mutexes] at arrived
    rcases final.kernel.freeMutex_cases m with ⟨same, -, -⟩ | ⟨pid, rest, queue, -, woken⟩
    · rw [same]
    · rw [woken, ProcessTable.changeProcessState_ne (notFirst (arrived.symm.trans queue))]
  · rw [inOrder.semaphores] at arrived
    rcases final.kernel.signal_cases s with ⟨same, -⟩ | ⟨pid, rest, queue, -, woken⟩
    · rw [same]
    · rw [woken, ProcessTable.changeProcessState_ne (notFirst (arrived.symm.trans queue))]

/-- `init` and four processes, of which `1` runs. -/
def fourProcesses : QueueRun where
  kernel :=
    { processes :=
        { state := fun pid =>
            if pid = 1 then some .running else if 0 ≤ pid ∧ pid ≤ 4 then some .ready else none
          current := 1 }
      mutexes := fun _ =>
        { WaitQueue.empty with used := true, name := none, mutex := 0, pidCreator := 0 }
      semaphores := fun _ =>
        { WaitQueue.empty with
          used := true, name := none, semaphore := 0, mutex := 0, pidCreator := 0 } }
  pending := fun _ => none
  mutexArrivals := fun _ => []
  semaphoreArrivals := fun _ => []

/-- Four processes with empty queues are a start. -/
theorem fourProcesses_start : Start fourProcesses where
  outside _ := rfl
  mutexes _ := WaitQueue.entries_empty.symm
  semaphores _ := WaitQueue.entries_empty.symm
  pids pid here := by
    simp only [fourProcesses, ne_eq] at here
    by_contra negative
    rw [if_neg (by omega), if_neg (by omega)] at here
    exact here rfl
  present := by decide

/-- Three processes come one after the other, and the first one is woken. -/
def oneAfterTheOther : List QueueAction :=
  [.lockMutex 5 0 0, .timerTick 2, .lockMutex 5 0 3, .lockMutex 5 0 4, .lockMutex 5 0 1,
    .freeMutex 5]

theorem oneAfterTheOther_in_order : ∃ final,
    run step fourProcesses oneAfterTheOther = some final ∧ final.mutexArrivals 5 = [3, 4] ∧
      (final.kernel.freeMutex 5).processes.state 4 = final.kernel.processes.state 4 := by
  have result : (run step fourProcesses oneAfterTheOther).map
      (fun final => final.mutexArrivals 5) = some [3, 4] := by
    decide +kernel
  obtain ⟨final, ran, arrived⟩ := Option.map_eq_some_iff.mp result
  have inOrder := @woken_in_order fourProcesses final oneAfterTheOther fourProcesses_start
    (by decide +kernel) ran [] [4] 3 4 (by decide) (by decide)
  exact ⟨final, ran, arrived, inOrder.1 5 arrived⟩

/-- Process `2` is woken, and its slot in front of process `3` goes to process `4`. -/
def takesSlotInFront : List QueueAction :=
  [.lockMutex 5 0 0, .timerTick 2, .lockMutex 5 0 3, .lockMutex 5 0 1, .freeMutex 5,
    .timerTick 4, .lockMutex 5 0 2, .resume 0]

/-- Process `3` came before process `4`, and `freeMutex` wakes process `4`. -/
theorem newcomer_overtakes : ∃ final, Start fourProcesses ∧
    run step fourProcesses takesSlotInFront = some final ∧ final.mutexArrivals 5 = [3, 4] ∧
      final.kernel.processes.state 4 = some .blocked ∧
      (final.kernel.freeMutex 5).processes.state 4 = some .ready ∧
      (final.kernel.freeMutex 5).processes.state 3 = some .blocked := by
  have result : (run step fourProcesses takesSlotInFront).map (fun final =>
      (final.mutexArrivals 5, final.kernel.processes.state 4,
        (final.kernel.freeMutex 5).processes.state 4,
        (final.kernel.freeMutex 5).processes.state 3)) =
      some ([3, 4], some .blocked, some .ready, some .blocked) := by
    decide +kernel
  obtain ⟨final, ran, outcome⟩ := Option.map_eq_some_iff.mp result
  simp only [Prod.mk.injEq] at outcome
  exact ⟨final, fourProcesses_start, ran, outcome⟩

end QueueRun

end SistemasOperativos.Kernel
