import SistemasOperativos.Kernel.Semaphore
import SistemasOperativos.Semantics.Run
import Mathlib.Data.Set.Card

/-!
# The three counts of a semaphore

A semaphore shows how many processes wait for it in three places: the count
below zero, `cardinalBlocked`, and the used slots of its array. `SemaphoreRun`
adds where each process stands in `wait`, and how many calls of `wait` returned
and of `signal` were made. `Accounted` ties them together; the processes that
`signal` woke and that have not run since are its list `woken`.

`wait` drops the caller when the array is full and blocks it all the same
(`addToBlocked_full`, `wait_blocks`), so the runs of the main result are those
in which a caller that has to wait finds a slot. `createSemaphore` does not
clear the fields of its slot, so the semaphore has to start clean.
-/

namespace SistemasOperativos.Kernel

open SistemasOperativos.Semantics

/-- Where a process stands with respect to the semaphore: in no call, at the
`_yield` in `lockMutex`, or at the last `_yield` of `wait`. -/
inductive SemaphorePhase where
  | outside
  | atLock
  | waiting
  deriving DecidableEq, Repr

/-- The kernel, the processes that use the semaphore, and the calls made. -/
structure SemaphoreRun where
  kernel : SemaphoreState
  phase : Int → SemaphorePhase
  completed : Nat
  signals : Nat

/-- What the current process, or the timer, does. `next` is the process that
`schedule` picks if there is a switch. -/
inductive SemaphoreAction where
  | wait (garbage next : Int)
  | resume (next : Int)
  | signal
  | timerTick (next : Int)
  deriving DecidableEq, Repr

namespace SemaphoreRun

/-- The process that runs. -/
def current (state : SemaphoreRun) : Int := state.kernel.processes.current

/-- Let the current process stand at a `_yield`. -/
def suspend (state : SemaphoreRun) (kernel : SemaphoreState) (phase : SemaphorePhase) :
    SemaphoreRun :=
  { state with kernel, phase := Function.update state.phase state.current phase }

/-- Switch to `next`; a process that stood at the end of `wait` returns from it. -/
def dispatch (state : SemaphoreRun) (next : Int) : Option SemaphoreRun :=
  (state.kernel.processes.schedule next).map fun processes =>
    if state.phase next = .waiting then
      { state with
        kernel := { state.kernel with processes }
        phase := Function.update state.phase next .outside
        completed := state.completed + 1 }
    else { state with kernel := { state.kernel with processes } }

/-- One call on the semaphore `s`, the rest of a `wait` that stood in
`lockMutex`, or a tick of the timer, which comes outside of the kernel only. -/
def step (s : Int) (state : SemaphoreRun) : SemaphoreAction → Option SemaphoreRun
  | .wait garbage next =>
      if state.phase state.current = .outside then
        match state.kernel.wait s garbage with
        | (kernel, .returned) => some { state with kernel, completed := state.completed + 1 }
        | (kernel, .yieldedInLock) => (state.suspend kernel .atLock).dispatch next
        | (kernel, .yielded) => (state.suspend kernel .waiting).dispatch next
      else none
  | .resume next =>
      if state.phase state.current = .atLock then
        match state.kernel.waitLocked s with
        | (kernel, .returned) =>
            some { state.suspend kernel .outside with completed := state.completed + 1 }
        | (kernel, .yielded) => (state.suspend kernel .waiting).dispatch next
      else none
  | .signal =>
      if state.phase state.current = .outside then
        some { state with kernel := state.kernel.signal s, signals := state.signals + 1 }
      else none
  | .timerTick next =>
      if state.phase state.current = .outside then state.dispatch next else none

/-- A run starts when `createSemaphore` has returned the handle `s`. -/
structure Start (s start : Int) (state : SemaphoreRun) : Prop where
  created : ∃ before name garbage,
    SemaphoreState.createSemaphore before name start garbage = (state.kernel, some s)
  handle : 0 ≤ s
  value : 0 ≤ start
  bounded : start < 2 ^ 31
  outside : ∀ pid, state.phase pid = .outside
  completed : state.completed = 0
  signals : state.signals = 0
  pids : ∀ pid, state.kernel.processes.state pid ≠ none → 0 ≤ pid
  present : state.kernel.processes.state state.current ≠ none

/-- The slot of the semaphore held no waiting processes when it was taken, and
its mutex is free. -/
structure Clean (s : Int) (state : SemaphoreRun) : Prop where
  count : (state.kernel.semaphores s).cardinalBlocked = 0
  entries : (state.kernel.semaphores s).entries = []
  mutex : state.kernel.Uncontended (state.kernel.semaphores s).mutex

/-- The condition on a call: a process that has to wait finds a free slot, and
the count is not at the largest `int` when it is raised. -/
def WithinLimits (s : Int) (state : SemaphoreRun) : SemaphoreAction → Prop
  | .wait _ _ | .resume _ =>
      (state.kernel.semaphores s).semaphore ≤ 0 →
        (state.kernel.semaphores s).isQueueFull = false
  | .signal => (state.kernel.semaphores s).semaphore ≠ 2 ^ 31 - 1
  | .timerTick _ => True

instance (s : Int) (state : SemaphoreRun) (action : SemaphoreAction) :
    Decidable (state.WithinLimits s action) := by
  cases action <;> unfold WithinLimits <;> infer_instance

/-- The processes that are BLOCKED in a `wait`. -/
def blocked (state : SemaphoreRun) : Set Int :=
  {pid | state.phase pid ≠ .outside ∧ state.kernel.processes.state pid = some .blocked}

/-- The counts of the semaphore `s`, created with the value `start`, agree. -/
structure Agrees (s start : Int) (state : SemaphoreRun) : Prop where
  entries : (state.kernel.semaphores s).cardinalBlocked =
    (state.kernel.semaphores s).entries.length
  negative : (state.kernel.semaphores s).cardinalBlocked =
    max 0 (-(state.kernel.semaphores s).semaphore)
  finite : state.blocked.Finite
  processes : (state.kernel.semaphores s).cardinalBlocked = state.blocked.ncard
  completed : state.completed ≤ start + state.signals
  awake : 0 ≤ (state.kernel.semaphores s).semaphore → state.blocked = ∅

/-! ## The invariant -/

/-- What the counts mean: the entries of the array are the processes that
`wait` blocked and `signal` has not woken. -/
structure Accounted (s start : Int) (woken : List Int) (state : SemaphoreRun) : Prop where
  valid : state.kernel.isValidSemaphore s = true
  mutex : state.kernel.Uncontended (state.kernel.semaphores s).mutex
  pids : ∀ pid, state.kernel.processes.state pid ≠ none → 0 ≤ pid
  present : state.kernel.processes.state state.current ≠ none
  upper : (state.kernel.semaphores s).semaphore < 2 ^ 31
  counted : (state.kernel.semaphores s).Counted
  negative : (state.kernel.semaphores s).cardinalBlocked =
    max 0 (-(state.kernel.semaphores s).semaphore)
  unlocked : ∀ pid, state.phase pid ≠ .atLock
  waiting : ∀ pid, state.phase pid = .waiting ↔
    pid ∈ woken ∨ pid ∈ (state.kernel.semaphores s).entries
  asleep : ∀ pid ∈ (state.kernel.semaphores s).entries,
    state.kernel.processes.state pid = some .blocked
  awake : ∀ pid ∈ woken, state.kernel.processes.state pid ≠ some .blocked
  distinct : (woken ++ (state.kernel.semaphores s).entries).Nodup
  balance : (state.completed + woken.length + (state.kernel.semaphores s).entries.length : Int) =
    start + state.signals - (state.kernel.semaphores s).semaphore

/-- The invariant of the runs. -/
def Balanced (s start : Int) (state : SemaphoreRun) : Prop :=
  state.phase state.current ≠ .waiting ∧ ∃ woken, Accounted s start woken state

namespace Accounted

variable {s start : Int} {woken : List Int} {state : SemaphoreRun}

/-- The count is never below minus the number of slots. -/
theorem lower (accounted : Accounted s start woken state) :
    -20 ≤ (state.kernel.semaphores s).semaphore := by
  have slots : (state.kernel.semaphores s).entries.length ≤ 20 :=
    WaitQueue.entries_length_le _
  have counted := accounted.counted
  have negative := accounted.negative
  rw [WaitQueue.Counted] at counted
  omega

/-- The processes BLOCKED in a `wait` are the entries of the array. -/
theorem blocked_eq (accounted : Accounted s start woken state) :
    state.blocked = {pid | pid ∈ (state.kernel.semaphores s).entries} := by
  ext pid
  simp only [blocked, Set.mem_ofPred_eq]
  constructor
  · rintro ⟨inCall, blocked⟩
    have stands : state.phase pid = .waiting := by
      cases here : state.phase pid with
      | outside => exact absurd here inCall
      | atLock => exact absurd here (accounted.unlocked pid)
      | waiting => rfl
    refine ((accounted.waiting pid).mp stands).resolve_left fun member => ?_
    exact accounted.awake pid member blocked
  · intro member
    have stands := (accounted.waiting pid).mpr (.inr member)
    exact ⟨by simp [stands], accounted.asleep pid member⟩

theorem agrees (accounted : Accounted s start woken state) : Agrees s start state := by
  have counted := accounted.counted
  have negative := accounted.negative
  have balance := accounted.balance
  have set : state.blocked = ((state.kernel.semaphores s).entries.toFinset : Set Int) := by
    rw [accounted.blocked_eq]
    ext pid
    simp
  have distinct := (List.nodup_append.mp accounted.distinct).2.1
  rw [WaitQueue.Counted] at counted
  refine ⟨counted, negative, ?_, ?_, ?_, ?_⟩
  · rw [set]
    exact Finset.finite_toSet _
  · rw [set, Set.ncard_coe_finset, List.toFinset_card_of_nodup distinct, counted]
  · omega
  · intro permits
    have none : (state.kernel.semaphores s).entries = [] := by
      apply List.eq_nil_of_length_eq_zero
      omega
    rw [accounted.blocked_eq, none]
    simp

end Accounted

theorem Start.balanced {s start : Int} {state : SemaphoreRun} (begins : Start s start state)
    (clean : Clean s state) : Balanced s start state := by
  obtain ⟨before, name, garbage, created⟩ := begins.created
  obtain ⟨valid, value⟩ := SemaphoreState.createSemaphore_spec created begins.handle
  have counted : (state.kernel.semaphores s).Counted := by
    simp [WaitQueue.Counted, clean.count, clean.entries]
  refine ⟨by simp [begins.outside], [], valid, clean.mutex, begins.pids, begins.present, ?_,
    counted, ?_, ?_, ?_, ?_, ?_, ?_, ?_⟩
  · rw [value]
    exact begins.bounded
  · have positive := begins.value
    rw [clean.count, value]
    omega
  · simp [begins.outside]
  · simp [begins.outside, clean.entries]
  · simp [clean.entries]
  · simp
  · simp [clean.entries]
  · simp [begins.completed, begins.signals, clean.entries, value]

/-! ## A switch -/

/-- The state after a switch: only the process picked may move, from the end of
its `wait` out of it. -/
theorem dispatch_eq_some {state after : SemaphoreRun} {next : Int}
    (switched : state.dispatch next = some after) :
    ∃ processes, ProcessTable.Dispatched state.kernel.processes processes next ∧
      after.kernel = { state.kernel with processes } ∧ after.signals = state.signals ∧
      (state.phase next = .waiting → after.phase = Function.update state.phase next .outside ∧
        after.completed = state.completed + 1) ∧
      (state.phase next ≠ .waiting → after.phase = state.phase ∧
        after.completed = state.completed) := by
  obtain ⟨processes, picked, rfl⟩ := Option.map_eq_some_iff.mp switched
  refine ⟨processes, ProcessTable.schedule_dispatched picked, ?_⟩
  split <;> simp_all

namespace Accounted

variable {s start : Int} {woken : List Int} {state : SemaphoreRun}

/-- A switch goes to a woken process, which returns, or to one in no call. -/
theorem dispatch {after : SemaphoreRun} {next : Int} (accounted : Accounted s start woken state)
    (switched : state.dispatch next = some after) : Balanced s start after := by
  obtain ⟨processes, dispatched, kernel, signals, returns, stays⟩ := dispatch_eq_some switched
  have notQueued : next ∉ (state.kernel.semaphores s).entries := fun queued =>
    dispatched.not_blocked (accounted.asleep next queued)
  have pids : ∀ pid, after.kernel.processes.state pid ≠ none → 0 ≤ pid := by
    intro pid here
    rw [kernel] at here
    exact accounted.pids pid (mt (dispatched.present pid).mpr here)
  have current : after.current = next := by
    simp only [SemaphoreRun.current, kernel, dispatched.current]
  have present : after.kernel.processes.state after.current ≠ none := by
    rw [current, kernel]
    exact mt (dispatched.present next).mp dispatched.next_present
  have state_iff : ∀ pid, after.kernel.processes.state pid = some .blocked ↔
      state.kernel.processes.state pid = some .blocked := by
    intro pid
    rw [kernel]
    exact dispatched.blocked pid
  have semaphores : after.kernel.semaphores = state.kernel.semaphores := by rw [kernel]
  have valid : after.kernel.isValidSemaphore s = true := by
    rw [kernel]
    exact accounted.valid
  have mutex : after.kernel.Uncontended (after.kernel.semaphores s).mutex := by
    rw [kernel]
    exact accounted.mutex
  by_cases stood : state.phase next = .waiting
  · obtain ⟨phase, completed⟩ := returns stood
    have member : next ∈ woken := ((accounted.waiting next).mp stood).resolve_right notQueued
    obtain ⟨unique, queuedUnique, apart⟩ := List.nodup_append.mp accounted.distinct
    refine ⟨by simp [current, phase], woken.erase next, valid, mutex, pids, present, ?_, ?_, ?_,
      ?_, ?_, ?_, ?_, ?_, ?_⟩
    · rw [semaphores]
      exact accounted.upper
    · rw [semaphores]
      exact accounted.counted
    · rw [semaphores]
      exact accounted.negative
    · intro pid
      by_cases same : pid = next
      · simp [phase, same]
      · simpa [phase, same] using accounted.unlocked pid
    · intro pid
      rw [semaphores, phase, unique.mem_erase_iff]
      by_cases same : pid = next
      · subst same
        simp [notQueued]
      · simpa [same] using accounted.waiting pid
    · intro pid queued
      rw [semaphores] at queued
      exact (state_iff pid).mpr (accounted.asleep pid queued)
    · intro pid left
      exact mt (state_iff pid).mp (accounted.awake pid (List.mem_of_mem_erase left))
    · rw [semaphores]
      refine List.nodup_append.mpr ⟨unique.erase next, queuedUnique, fun a left => ?_⟩
      exact apart a (List.mem_of_mem_erase left)
    · have balance := accounted.balance
      have length := List.length_erase_of_mem member
      have positive := List.length_pos_of_mem member
      rw [semaphores, signals, completed, length]
      omega
  · obtain ⟨phase, completed⟩ := stays stood
    refine ⟨by rwa [current, phase], woken, valid, mutex, pids, present, ?_, ?_, ?_,
      ?_, ?_, ?_, ?_, ?_, ?_⟩
    · rw [semaphores]
      exact accounted.upper
    · rw [semaphores]
      exact accounted.counted
    · rw [semaphores]
      exact accounted.negative
    · rw [phase]
      exact accounted.unlocked
    · rw [phase, semaphores]
      exact accounted.waiting
    · intro pid queued
      rw [semaphores] at queued
      exact (state_iff pid).mpr (accounted.asleep pid queued)
    · intro pid left
      exact mt (state_iff pid).mp (accounted.awake pid left)
    · rw [semaphores]
      exact accounted.distinct
    · rw [semaphores, signals, completed]
      exact accounted.balance

/-! ## The calls -/

/-- A `wait` that finds a permit takes it. -/
theorem proceed (accounted : Accounted s start woken state)
    (permits : 0 < (state.kernel.semaphores s).semaphore) :
    Accounted s start woken
      { state with
        kernel := state.kernel.setSemaphore s { state.kernel.semaphores s with
          semaphore := (state.kernel.semaphores s).semaphore - 1 }
        completed := state.completed + 1 } := by
  have valid := accounted.valid
  have upper := accounted.upper
  have negative := accounted.negative
  have balance := accounted.balance
  refine ⟨?_, ?_, accounted.pids, accounted.present, ?_, ?_, ?_, accounted.unlocked, ?_, ?_,
    accounted.awake, ?_, ?_⟩
  · rw [← valid]
    exact SemaphoreState.isValidSemaphore_congr (by simp)
  · simpa using accounted.mutex
  · simp only [SemaphoreState.setSemaphore_same]
    omega
  · simpa using accounted.counted
  · simp only [SemaphoreState.setSemaphore_same]
    omega
  · simpa using accounted.waiting
  · simpa using accounted.asleep
  · simpa using accounted.distinct
  · simp only [SemaphoreState.setSemaphore_same]
    omega

/-- A `wait` that finds no permit but a free slot becomes an entry. -/
theorem queue (accounted : Accounted s start woken state)
    (outside : state.phase state.current = .outside)
    (taken : (state.kernel.semaphores s).semaphore ≤ 0)
    (notFull : (state.kernel.semaphores s).isQueueFull = false) :
    Accounted s start woken
      (state.suspend
        { state.kernel.setSemaphore s { state.kernel.semaphores s with
            toWaitQueue := (state.kernel.semaphores s).toWaitQueue.addToBlocked state.current
            semaphore := (state.kernel.semaphores s).semaphore - 1 } with
          processes := state.kernel.processes.changeProcessState state.current .blocked }
        .waiting) := by
  have pid := accounted.pids _ accounted.present
  have entry : state.current ≠ NO_BLOCKED_QUEUE_VALUE := by
    simp only [NO_BLOCKED_QUEUE_VALUE]
    omega
  have nowhere : state.current ∉ woken ∧
      state.current ∉ (state.kernel.semaphores s).entries := by
    have notWaiting := mt (accounted.waiting state.current).mpr (by simp [outside])
    exact not_or.mp notWaiting
  obtain ⟨added, count⟩ :=
    WaitQueue.addToBlocked_entries entry (accounted.counted.room notFull)
  have valid := accounted.valid
  have upper := accounted.upper
  have negative := accounted.negative
  have balance := accounted.balance
  refine ⟨?_, ?_, ?_, ?_, ?_, ?_, ?_, ?_, ?_, ?_, ?_, ?_, ?_⟩
  · rw [← valid]
    exact SemaphoreState.isValidSemaphore_congr (by simp [suspend])
  · simp only [suspend, SemaphoreState.setSemaphore_same]
    exact accounted.mutex
  · simpa [suspend] using accounted.pids
  · simpa [suspend, SemaphoreRun.current] using accounted.present
  · simp only [suspend, SemaphoreState.setSemaphore_same]
    omega
  · simpa [suspend] using accounted.counted.addToBlocked entry
  · simp only [suspend, SemaphoreState.setSemaphore_same, count]
    omega
  · intro p
    by_cases same : p = state.current
    · simp [suspend, same]
    · simpa [suspend, same] using accounted.unlocked p
  · intro p
    simp only [suspend, SemaphoreState.setSemaphore_same, added.mem_iff, List.mem_cons]
    by_cases same : p = state.current
    · simp [same]
    · simpa [same] using accounted.waiting p
  · intro p member
    simp only [suspend, SemaphoreState.setSemaphore_same, added.mem_iff, List.mem_cons] at member
    by_cases same : p = state.current
    · obtain ⟨found, present⟩ := Option.ne_none_iff_exists'.mp accounted.present
      simp [suspend, same, ProcessTable.changeProcessState_state, present]
    · simpa [suspend, same] using accounted.asleep p (member.resolve_left same)
  · intro p member
    have other : p ≠ state.current := fun same => nowhere.1 (same ▸ member)
    simpa [suspend, other] using accounted.awake p member
  · simp only [suspend, SemaphoreState.setSemaphore_same]
    refine ((added.append_left woken).trans List.perm_middle).nodup_iff.mpr ?_
    refine List.nodup_cons.mpr ⟨?_, accounted.distinct⟩
    simpa using nowhere
  · simp only [suspend, SemaphoreState.setSemaphore_same, added.length_eq, List.length_cons]
    push_cast
    omega

/-- A `signal` that finds nobody waiting leaves a permit. -/
theorem raise (accounted : Accounted s start woken state)
    (nobody : (state.kernel.semaphores s).entries = [])
    (limit : (state.kernel.semaphores s).semaphore ≠ 2 ^ 31 - 1) :
    Accounted s start woken
      { state with
        kernel := state.kernel.setSemaphore s { state.kernel.semaphores s with
          semaphore := (state.kernel.semaphores s).semaphore + 1 }
        signals := state.signals + 1 } := by
  have valid := accounted.valid
  have upper := accounted.upper
  have negative := accounted.negative
  have balance := accounted.balance
  have counted := accounted.counted
  rw [WaitQueue.Counted, nobody, List.length_nil] at counted
  refine ⟨?_, ?_, accounted.pids, accounted.present, ?_, ?_, ?_, accounted.unlocked, ?_, ?_,
    accounted.awake, ?_, ?_⟩
  · rw [← valid]
    exact SemaphoreState.isValidSemaphore_congr (by simp)
  · simpa using accounted.mutex
  · simp only [SemaphoreState.setSemaphore_same]
    omega
  · simpa using accounted.counted
  · simp only [SemaphoreState.setSemaphore_same]
    omega
  · simpa using accounted.waiting
  · simpa using accounted.asleep
  · simpa using accounted.distinct
  · simp only [SemaphoreState.setSemaphore_same]
    omega

/-- A `signal` that finds a waiting process moves it from the array to the woken. -/
theorem wake (accounted : Accounted s start woken state) {pid : Int} {rest : List Int}
    (entries : (state.kernel.semaphores s).entries = pid :: rest) {waiters : WaitQueue}
    (left : waiters.entries = rest)
    (count : waiters.cardinalBlocked = (state.kernel.semaphores s).cardinalBlocked - 1) :
    Accounted s start (pid :: woken)
      { state with
        kernel := { state.kernel.setSemaphore s { state.kernel.semaphores s with
            toWaitQueue := waiters
            semaphore := (state.kernel.semaphores s).semaphore + 1 } with
          processes := state.kernel.processes.changeProcessState pid .ready }
        signals := state.signals + 1 } := by
  have valid := accounted.valid
  have upper := accounted.upper
  have negative := accounted.negative
  have balance := accounted.balance
  have counted := accounted.counted
  have distinct := accounted.distinct
  rw [entries] at distinct balance
  rw [WaitQueue.Counted, entries, List.length_cons] at counted
  rw [List.length_cons] at balance
  have moved : (pid :: (woken ++ rest)).Nodup := List.perm_middle.nodup_iff.mp distinct
  have once : pid ∉ woken ∧ pid ∉ rest := by simpa using (List.nodup_cons.mp moved).1
  refine ⟨?_, ?_, ?_, ?_, ?_, ?_, ?_, accounted.unlocked, ?_, ?_, ?_, ?_, ?_⟩
  · rw [← valid]
    exact SemaphoreState.isValidSemaphore_congr (by simp)
  · simp only [SemaphoreState.setSemaphore_same]
    exact accounted.mutex
  · simpa using accounted.pids
  · simpa [SemaphoreRun.current] using accounted.present
  · simp only [SemaphoreState.setSemaphore_same]
    omega
  · simp only [SemaphoreState.setSemaphore_same, WaitQueue.Counted, left, count]
    omega
  · simp only [SemaphoreState.setSemaphore_same, count]
    omega
  · intro p
    have stands := accounted.waiting p
    simp only [entries, List.mem_cons] at stands
    simp only [SemaphoreState.setSemaphore_same, left, List.mem_cons, stands]
    exact or_left_comm.trans or_assoc.symm
  · intro p member
    simp only [SemaphoreState.setSemaphore_same, left] at member
    have other : p ≠ pid := fun same => once.2 (same ▸ member)
    simpa [other] using accounted.asleep p (entries ▸ List.mem_cons_of_mem _ member)
  · intro p member
    by_cases same : p = pid
    · cases here : state.kernel.processes.state pid <;>
        simp [same, ProcessTable.changeProcessState_state, here]
    · have member := (List.mem_cons.mp member).resolve_left same
      simpa [same] using accounted.awake p member
  · simpa only [SemaphoreState.setSemaphore_same, left, List.cons_append] using moved
  · simp only [SemaphoreState.setSemaphore_same, left, List.length_cons]
    push_cast at balance ⊢
    omega

/-- `wait` keeps the counts together if its caller finds a slot when it needs one. -/
theorem wait {garbage next : Int} {after : SemaphoreRun}
    (accounted : Accounted s start woken state)
    (limits : state.WithinLimits s (.wait garbage next))
    (stepped : state.step s (.wait garbage next) = some after) : Balanced s start after := by
  have lower := accounted.lower
  have upper := accounted.upper
  have value : toInt32 ((state.kernel.semaphores s).semaphore - 1) =
      (state.kernel.semaphores s).semaphore - 1 :=
    toInt32_of_range (by omega) (by omega)
  simp only [step] at stepped
  split at stepped
  · rename_i outside
    by_cases permits : 0 < (state.kernel.semaphores s).semaphore
    · rw [SemaphoreState.wait_proceeds accounted.valid accounted.mutex (by omega), value]
        at stepped
      obtain rfl := Option.some.inj stepped
      have awake : state.phase state.current ≠ .waiting := by simp [outside]
      exact ⟨awake, woken, accounted.proceed permits⟩
    · rw [SemaphoreState.wait_blocks accounted.valid accounted.mutex (by omega), value]
        at stepped
      exact (accounted.queue outside (by omega) (limits (by omega))).dispatch stepped
  · cases stepped

/-- `signal` keeps the counts together below the largest `int`. -/
theorem signal {after : SemaphoreRun} (accounted : Accounted s start woken state)
    (limit : (state.kernel.semaphores s).semaphore ≠ 2 ^ 31 - 1)
    (stepped : state.step s .signal = some after) : Balanced s start after := by
  have lower := accounted.lower
  have upper := accounted.upper
  have counted := accounted.counted
  have value : toInt32 ((state.kernel.semaphores s).semaphore + 1) =
      (state.kernel.semaphores s).semaphore + 1 :=
    toInt32_of_range (by omega) (by omega)
  simp only [step] at stepped
  split at stepped
  · rename_i outside
    obtain rfl := Option.some.inj stepped
    have awake : state.phase state.current ≠ .waiting := by simp [outside]
    rw [WaitQueue.Counted] at counted
    cases entries : (state.kernel.semaphores s).entries with
    | nil =>
        rw [entries, List.length_nil] at counted
        rw [SemaphoreState.signal_counts accounted.valid (by omega), value]
        exact ⟨awake, woken, accounted.raise entries limit⟩
    | cons pid rest =>
        rw [entries, List.length_cons] at counted
        obtain ⟨waiters, woke, left, count⟩ :=
          SemaphoreState.signal_wakes accounted.valid (by omega) entries
        rw [woke, value]
        refine ⟨?_, _, accounted.wake entries left count⟩
        simpa [SemaphoreRun.current] using awake
  · cases stepped

end Accounted

/-- Every call within the limits keeps the invariant. -/
theorem balanced_step (s start : Int) (state : SemaphoreRun) (action : SemaphoreAction)
    (next : SemaphoreRun) (balanced : Balanced s start state)
    (limits : state.WithinLimits s action) (stepped : state.step s action = some next) :
    Balanced s start next := by
  obtain ⟨awake, woken, accounted⟩ := balanced
  cases action with
  | wait garbage picked => exact accounted.wait limits stepped
  | resume picked =>
      simp only [step, accounted.unlocked, if_false] at stepped
      cases stepped
  | signal => exact accounted.signal limits stepped
  | timerTick picked =>
      simp only [step] at stepped
      split at stepped
      · exact accounted.dispatch stepped
      · cases stepped

/-- In a run of a semaphore that starts clean, in which every caller of `wait`
that has to wait finds a free slot and no `signal` passes the largest `int`, the
counts agree. -/
theorem counts_agree (s start : Int) (created : SemaphoreRun) (begins : Start s start created)
    (clean : Clean s created) (actions : List SemaphoreAction) (final : SemaphoreRun)
    (limits : Along (step s) (WithinLimits s) created actions)
    (ran : run (step s) created actions = some final) : Agrees s start final := by
  obtain ⟨-, woken, accounted⟩ :=
    limits.invariant (balanced_step s start) (begins.balanced clean) ran
  exact accounted.agrees

/-- Processes `0` to `count - 1`, of which `0` runs, before any semaphore is created. -/
def idleKernel (count : Nat) : SemaphoreState where
  processes :=
    { state := fun pid =>
        if 0 ≤ pid ∧ pid < count then some (if pid = 0 then .running else .ready) else none
      current := 0 }
  mutexes := fun index =>
    { WaitQueue.empty with used := decide (index = 0), name := none, mutex := 0, pidCreator := 0 }
  semaphores := fun _ =>
    { WaitQueue.empty with
      used := false, name := none, semaphore := 0, mutex := 0, pidCreator := 0 }

/-- The same processes after `createSemaphore("s", start)`. -/
def fresh (count : Nat) (start : Int) : SemaphoreRun where
  kernel := ((idleKernel count).createSemaphore (some "s") start 0).1
  phase := fun _ => .outside
  completed := 0
  signals := 0

theorem fresh_start {count : Nat} {start : Int} (positive : 0 < count) (value : 0 ≤ start)
    (bounded : start < 2 ^ 31) : Start 0 start (fresh count start) where
  created := ⟨idleKernel count, some "s", 0, by rfl⟩
  handle := le_refl 0
  value := value
  bounded := bounded
  outside _ := rfl
  completed := rfl
  signals := rfl
  pids pid present := by
    change (idleKernel count).processes.state pid ≠ none at present
    simp only [idleKernel, ne_eq, ite_eq_right_iff, reduceCtorEq, imp_false, not_not] at present
    exact present.1
  present := by
    change (idleKernel count).processes.state 0 ≠ none
    simp [idleKernel]
    omega

theorem fresh_clean (count : Nat) (start : Int) : Clean 0 (fresh count start) where
  count := by rfl
  entries := by rfl
  mutex _ := by
    rintro (locked | waiting)
    · exact locked (by rfl)
    · exact waiting (by rfl)

/-- A process waits, another one signals, and the first one returns. -/
theorem counts_agree_woken : ∃ final,
    run (step 0) (fresh 2 0) [.wait 0 1, .signal, .timerTick 0] = some final ∧
      final.completed = 1 ∧ Agrees 0 0 final := by
  have finishes : (run (step 0) (fresh 2 0) [.wait 0 1, .signal, .timerTick 0]).map
      SemaphoreRun.completed = some 1 := by
    decide +kernel
  have limits : Along (step 0) (WithinLimits 0) (fresh 2 0) [.wait 0 1, .signal, .timerTick 0] := by
    decide +kernel
  have begins : Start 0 0 (fresh 2 0) := fresh_start (by omega) le_rfl (by omega)
  obtain ⟨final, ran, completed⟩ := Option.map_eq_some_iff.mp finishes
  exact ⟨final, ran, completed,
    counts_agree 0 0 _ begins (fresh_clean 2 0) _ final limits ran⟩

/-- Twenty-one processes wait one after another. -/
def tooManyWaits : List SemaphoreAction :=
  (List.range 21).map fun i => .wait 0 (i + 1 : Nat)

/-- The twenty-first process is BLOCKED but not recorded: the count is -21, the
counter and the array say 20. -/
theorem counts_differ_when_full : Start 0 0 (fresh 22 0) ∧ Clean 0 (fresh 22 0) ∧ ∃ final,
    run (step 0) (fresh 22 0) tooManyWaits = some final ∧
      (final.kernel.semaphores 0).semaphore = -21 ∧
      (final.kernel.semaphores 0).cardinalBlocked = 20 ∧
      final.kernel.processes.state 20 = some .blocked ∧
      20 ∉ (final.kernel.semaphores 0).entries ∧ ¬ Agrees 0 0 final := by
  have result : (run (step 0) (fresh 22 0) tooManyWaits).map
      (fun final => ((final.kernel.semaphores 0).semaphore,
        (final.kernel.semaphores 0).cardinalBlocked, final.kernel.processes.state 20,
        decide (20 ∈ (final.kernel.semaphores 0).entries))) =
      some (-21, 20, some .blocked, false) := by
    decide +kernel
  obtain ⟨final, ran, values⟩ := Option.map_eq_some_iff.mp result
  simp only [Prod.mk.injEq, decide_eq_false_iff_not] at values
  obtain ⟨count, counter, state, missing⟩ := values
  refine ⟨fresh_start (by omega) le_rfl (by omega), fresh_clean 22 0, final, ran, count, counter,
    state, missing, fun agrees => ?_⟩
  have negative := agrees.negative
  rw [count, counter] at negative
  omega

end SemaphoreRun

end SistemasOperativos.Kernel
