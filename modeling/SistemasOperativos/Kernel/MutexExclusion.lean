import SistemasOperativos.Kernel.Mutex
import SistemasOperativos.Semantics.Run

/-!
# Mutual exclusion

`MutexRun` is the kernel state together with where each process stands with
respect to one mutex: outside, at the `_yield` in `lockMutex`, or between the
return of `lockMutex` and the call of `freeMutex`. A call runs to its end or to
its `_yield`; a process at a `_yield` goes on when `schedule` picks it.

The mutex is handed over: `freeMutex` leaves it locked and makes the first
waiting process READY. So the owner is the process that took the flag or the
last one that was woken, and `Owned` says that nobody else can leave
`lockMutex`: all other waiting processes are recorded in the array and BLOCKED.
The one way out of `lockMutex` that breaks this is the full array, where the
caller is neither recorded nor blocked (`lockMutex_full`).
-/

namespace SistemasOperativos.Kernel

open SistemasOperativos.Semantics

/-- Where a process stands with respect to the mutex. -/
inductive MutexPhase where
  | outside
  | locking
  | inside
  deriving DecidableEq, Repr

/-- The kernel and the processes that use the mutex. -/
structure MutexRun where
  kernel : MutexState
  phase : Int → MutexPhase

/-- What the current process, or the timer, does. `next` is the process that
`schedule` picks if there is a switch. -/
inductive MutexAction where
  | lockMutex (garbage next : Int)
  | freeMutex
  | timerTick (next : Int)
  deriving DecidableEq, Repr

namespace MutexRun

/-- The process that runs. -/
def current (state : MutexRun) : Int := state.kernel.processes.current

/-- Switch to `next`; a process that stood at the `_yield` returns from `lockMutex`. -/
def dispatch (state : MutexRun) (next : Int) : Option MutexRun :=
  (state.kernel.processes.schedule next).map fun processes =>
    { kernel := { state.kernel with processes }
      phase :=
        if state.phase next = .locking then Function.update state.phase next .inside
        else state.phase }

/-- One call on the mutex `m`, or a tick of the timer. -/
def step (m : Int) (state : MutexRun) : MutexAction → Option MutexRun
  | .lockMutex garbage next =>
      if state.phase state.current = .outside then
        match state.kernel.lockMutex m garbage with
        | (kernel, .returned) =>
            some ⟨kernel, Function.update state.phase state.current .inside⟩
        | (kernel, .yielded) =>
            dispatch ⟨kernel, Function.update state.phase state.current .locking⟩ next
      else none
  | .freeMutex =>
      if state.phase state.current = .inside then
        some ⟨state.kernel.freeMutex m, Function.update state.phase state.current .outside⟩
      else none
  | .timerTick next => state.dispatch next

/-- A run starts with a valid mutex that nobody uses. A slot that a closed
mutex left locked may be valid too; nobody waits in an open one. -/
structure Start (m : Int) (state : MutexRun) : Prop where
  valid : state.kernel.isValidMutex m = true
  clean : (state.kernel.mutexes m).mutex = 0 →
    (state.kernel.mutexes m).cardinalBlocked = 0 ∧ (state.kernel.mutexes m).entries = []
  outside : ∀ pid, state.phase pid = .outside
  pids : ∀ pid, state.kernel.processes.state pid ≠ none → 0 ≤ pid
  present : state.kernel.processes.state state.current ≠ none

/-- The condition on a call: a process that has to wait finds a free slot. -/
def FindsSlot (m : Int) (state : MutexRun) : MutexAction → Prop
  | .lockMutex _ _ =>
      Busy (state.kernel.mutexes m) → state.kernel.isQueueFull m = false
  | _ => True

instance (m : Int) (state : MutexRun) (action : MutexAction) :
    Decidable (state.FindsSlot m action) := by
  cases action <;> unfold FindsSlot <;> infer_instance

/-! ## Ownership -/

/-- What does not depend on the owner: the mutex is valid, the processes have
pids and the current one is on the ring. -/
structure Scheduled (m : Int) (state : MutexRun) : Prop where
  valid : state.kernel.isValidMutex m = true
  pids : ∀ pid, state.kernel.processes.state pid ≠ none → 0 ≤ pid
  present : state.kernel.processes.state state.current ≠ none

/-- The waiting processes are recorded and BLOCKED, and besides them only the
owner has called `lockMutex` and not yet `freeMutex`. -/
structure Owned (m : Int) (owner : Option Int) (state : MutexRun) : Prop
    extends Scheduled m state where
  locked : (state.kernel.mutexes m).mutex = 0 ↔ owner = none
  holds : ∀ pid, owner = some pid → state.phase pid ≠ .outside
  inside : ∀ pid, state.phase pid = .inside → owner = some pid
  waiting : ∀ pid, state.phase pid = .locking →
    owner = some pid ∨ pid ∈ (state.kernel.mutexes m).entries
  queued : ∀ pid ∈ (state.kernel.mutexes m).entries,
    state.phase pid = .locking ∧ owner ≠ some pid ∧
      state.kernel.processes.state pid = some .blocked
  nodup : (state.kernel.mutexes m).entries.Nodup
  counted : (state.kernel.mutexes m).Counted
  alone : owner = none → (state.kernel.mutexes m).entries = []

/-- A mutex that is locked although nobody is inside: nobody gets in. -/
structure Stuck (m : Int) (state : MutexRun) : Prop extends Scheduled m state where
  locked : (state.kernel.mutexes m).mutex ≠ 0
  nobody : ∀ pid, state.phase pid ≠ .inside
  waiting : ∀ pid, state.phase pid = .locking →
    state.kernel.processes.state pid = some .blocked

/-- The invariant of the runs. -/
def Exclusive (m : Int) (state : MutexRun) : Prop :=
  state.phase state.current ≠ .locking ∧ (Stuck m state ∨ ∃ owner, Owned m owner state)

/-- The invariant holds at the start. -/
theorem Start.exclusive {m : Int} {state : MutexRun} (start : Start m state) :
    Exclusive m state := by
  have scheduled : Scheduled m state := ⟨start.valid, start.pids, start.present⟩
  have nowhere : ∀ pid phase, state.phase pid = phase → phase = .outside := by
    intro pid phase here
    rw [← here, start.outside]
  refine ⟨by simp [start.outside], ?_⟩
  by_cases unlocked : (state.kernel.mutexes m).mutex = 0
  · obtain ⟨count, entries⟩ := start.clean unlocked
    refine .inr ⟨none, scheduled, ?_, ?_, ?_, ?_, ?_, ?_, ?_, ?_⟩
    · simp [unlocked]
    · simp
    · intro pid here
      cases nowhere pid _ here
    · intro pid here
      cases nowhere pid _ here
    · simp [entries]
    · simp [entries]
    · simp [WaitQueue.Counted, count, entries]
    · simp [entries]
  · refine .inl ⟨scheduled, unlocked, ?_, ?_⟩
    · intro pid here
      cases nowhere pid _ here
    · intro pid here
      cases nowhere pid _ here

/-! ## A switch -/

/-- The state after a switch: only the process picked may move, from its
`_yield` to the critical section. -/
theorem dispatch_eq_some {state after : MutexRun} {next : Int}
    (switched : state.dispatch next = some after) :
    ∃ processes, ProcessTable.Dispatched state.kernel.processes processes next ∧
      after.kernel = { state.kernel with processes } ∧
      after.phase next ≠ .locking ∧
      (state.phase next = .locking → after.phase next = .inside) ∧
      (state.phase next ≠ .locking → after.phase next = state.phase next) ∧
      ∀ pid, pid ≠ next → after.phase pid = state.phase pid := by
  obtain ⟨processes, picked, rfl⟩ := Option.map_eq_some_iff.mp switched
  refine ⟨processes, ProcessTable.schedule_dispatched picked, rfl, ?_⟩
  by_cases stood : state.phase next = .locking
  · simp only [stood, if_true]
    refine ⟨by simp, by simp, by simp, fun pid other => by simp [other]⟩
  · simp [stood]

/-- A switch keeps what does not depend on the owner. -/
theorem Scheduled.dispatch {m : Int} {state after : MutexRun} {next : Int}
    (scheduled : Scheduled m state) (switched : state.dispatch next = some after) :
    Scheduled m after := by
  obtain ⟨processes, dispatched, kernel, -⟩ := dispatch_eq_some switched
  refine ⟨?_, ?_, ?_⟩
  · rw [kernel]
    exact scheduled.valid
  · intro pid here
    rw [kernel] at here
    exact scheduled.pids pid (mt (dispatched.present pid).mpr here)
  · simp only [current, kernel, dispatched.current]
    exact mt (dispatched.present next).mp dispatched.next_present

/-- A switch goes to the owner or to a process outside: the recorded processes
are BLOCKED. -/
theorem Owned.dispatch {m : Int} {owner : Option Int} {state after : MutexRun} {next : Int}
    (owned : Owned m owner state) (switched : state.dispatch next = some after) :
    Owned m owner after ∧ after.phase after.current ≠ .locking := by
  have scheduled := owned.toScheduled.dispatch switched
  obtain ⟨processes, dispatched, kernel, awake, enters, stays, others⟩ :=
    dispatch_eq_some switched
  have notQueued : next ∉ (state.kernel.mutexes m).entries := fun queued =>
    dispatched.not_blocked (owned.queued next queued).2.2
  have owner_of_locking : state.phase next = .locking → owner = some next := fun stood =>
    (owned.waiting next stood).resolve_right notQueued
  have mutexes : after.kernel.mutexes = state.kernel.mutexes := by rw [kernel]
  refine ⟨⟨scheduled, ?_, ?_, ?_, ?_, ?_, ?_, ?_, ?_⟩, ?_⟩
  · rw [mutexes]
    exact owned.locked
  · intro pid holder
    by_cases same : pid = next
    · subst same
      by_cases stood : state.phase pid = .locking
      · simp [enters stood]
      · rw [stays stood]
        exact owned.holds pid holder
    · rw [others pid same]
      exact owned.holds pid holder
  · intro pid here
    by_cases same : pid = next
    · subst same
      by_cases stood : state.phase pid = .locking
      · exact owner_of_locking stood
      · exact owned.inside pid (stays stood ▸ here)
    · exact owned.inside pid (others pid same ▸ here)
  · intro pid here
    have other : pid ≠ next := fun same => awake (same ▸ here)
    rw [mutexes]
    exact owned.waiting pid (others pid other ▸ here)
  · intro pid member
    rw [mutexes] at member
    have other : pid ≠ next := fun same => notQueued (same ▸ member)
    obtain ⟨stands, notOwner, blocked⟩ := owned.queued pid member
    rw [others pid other, kernel]
    exact ⟨stands, notOwner, (dispatched.blocked pid).mpr blocked⟩
  · rw [mutexes]
    exact owned.nodup
  · rw [mutexes]
    exact owned.counted
  · rw [mutexes]
    exact owned.alone
  · simpa only [current, kernel, dispatched.current] using awake

/-- A switch leaves a process stuck that is. -/
theorem Stuck.dispatch {m : Int} {state after : MutexRun} {next : Int}
    (stuck : Stuck m state) (switched : state.dispatch next = some after) :
    Stuck m after ∧ after.phase after.current ≠ .locking := by
  have scheduled := stuck.toScheduled.dispatch switched
  obtain ⟨processes, dispatched, kernel, awake, -, stays, others⟩ :=
    dispatch_eq_some switched
  have outside : state.phase next ≠ .locking := fun stood =>
    dispatched.not_blocked (stuck.waiting next stood)
  have phases : ∀ pid, after.phase pid = state.phase pid := by
    intro pid
    by_cases same : pid = next
    · rw [same, stays outside]
    · exact others pid same
  refine ⟨⟨scheduled, ?_, ?_, ?_⟩, ?_⟩
  · rw [kernel]
    exact stuck.locked
  · intro pid
    rw [phases]
    exact stuck.nobody pid
  · intro pid here
    rw [phases] at here
    rw [kernel]
    exact (dispatched.blocked pid).mpr (stuck.waiting pid here)
  · simpa only [current, kernel, dispatched.current] using awake

/-! ## The calls -/

/-- The flag of an owned mutex is set, or nobody owns it and nobody waits. -/
theorem Owned.busy_iff {m : Int} {owner : Option Int} {state : MutexRun}
    (owned : Owned m owner state) : Busy (state.kernel.mutexes m) ↔ owner ≠ none := by
  constructor
  · rintro busy rfl
    have unlocked := owned.locked.mpr rfl
    have count := owned.counted
    rw [WaitQueue.Counted, owned.alone rfl] at count
    rcases busy with locked | waiting
    · exact locked unlocked
    · exact waiting count
  · intro held
    exact .inl (mt owned.locked.mp held)

/-- The process that takes the flag is the owner. -/
theorem Owned.acquire {m : Int} {state : MutexRun} (owned : Owned m none state) :
    Owned m (some state.current)
      ⟨state.kernel.setMutex m
        { state.kernel.mutexes m with mutex := 1, cardinalBlocked := 0 },
        Function.update state.phase state.current .inside⟩ := by
  have nobody := owned.alone rfl
  have entries : (WaitQueue.mk (state.kernel.mutexes m).queue 0).entries = [] := nobody
  refine ⟨⟨?_, owned.pids, owned.present⟩, ?_, ?_, ?_, ?_, ?_, ?_, ?_, ?_⟩
  · rw [← owned.valid]
    exact MutexState.isValidMutex_congr (by simp)
  · simp
  · intro pid holder
    obtain rfl := Option.some.inj holder
    simp
  · intro pid here
    by_cases same : pid = state.current
    · rw [same]
    · simp only [Function.update_of_ne same] at here
      cases owned.inside pid here
  · intro pid here
    by_cases same : pid = state.current
    · simp [same] at here
    · simp only [Function.update_of_ne same] at here
      rcases owned.waiting pid here with holder | queued
      · cases holder
      · simp [nobody] at queued
  · simp [entries]
  · simp [entries]
  · simp [WaitQueue.Counted, entries]
  · simp

/-- A process that finds the mutex owned and a free slot is recorded and BLOCKED. -/
theorem Owned.queue {m owner : Int} {state : MutexRun} (owned : Owned m (some owner) state)
    (outside : state.phase state.current = .outside)
    (notFull : state.kernel.isQueueFull m = false) :
    Owned m (some owner)
      ⟨(state.kernel.addToBlocked m state.current).changeProcessState state.current .blocked,
        Function.update state.phase state.current .locking⟩ := by
  have pid := owned.pids _ owned.present
  have entry : state.current ≠ NO_BLOCKED_QUEUE_VALUE := by
    simp only [NO_BLOCKED_QUEUE_VALUE]
    omega
  have notOwner : owner ≠ state.current := fun same =>
    owned.holds owner rfl (same ▸ outside)
  have notQueued : state.current ∉ (state.kernel.mutexes m).entries := fun queued => by
    rw [(owned.queued _ queued).1] at outside
    cases outside
  have added := (WaitQueue.addToBlocked_entries entry (owned.counted.room notFull)).1
  have entries : (((state.kernel.addToBlocked m state.current).changeProcessState
      state.current .blocked).mutexes m).toWaitQueue =
        (state.kernel.mutexes m).toWaitQueue.addToBlocked state.current := by
    simp [MutexState.addToBlocked]
  refine ⟨⟨?_, ?_, ?_⟩, ?_, ?_, ?_, ?_, ?_, ?_, ?_, ?_⟩
  · rw [← owned.valid]
    exact MutexState.isValidMutex_congr (by simp [MutexState.addToBlocked])
  · intro p here
    simp only [MutexState.changeProcessState_processes,
      ne_eq, ProcessTable.changeProcessState_eq_none] at here
    exact owned.pids p here
  · simp only [current, MutexState.changeProcessState_processes,
      ProcessTable.changeProcessState_current, ne_eq,
      ProcessTable.changeProcessState_eq_none]
    exact owned.present
  · have locked := owned.locked
    simp only [MutexState.changeProcessState_mutexes, MutexState.addToBlocked,
      MutexState.setMutex_same]
    exact locked
  · intro p holder
    by_cases same : p = state.current
    · simp [same]
    · simp only [Function.update_of_ne same]
      exact owned.holds p holder
  · intro p here
    by_cases same : p = state.current
    · simp [same] at here
    · simp only [Function.update_of_ne same] at here
      exact owned.inside p here
  · intro p here
    rw [WaitQueue.entries, entries, ← WaitQueue.entries, added.mem_iff]
    by_cases same : p = state.current
    · exact .inr (by simp [same])
    · simp only [Function.update_of_ne same] at here
      exact (owned.waiting p here).imp_right (List.mem_cons_of_mem _)
  · intro p member
    rw [WaitQueue.entries, entries, ← WaitQueue.entries, added.mem_iff] at member
    rcases List.mem_cons.mp member with rfl | member
    · refine ⟨by simp, fun same => notOwner (Option.some.inj same), ?_⟩
      obtain ⟨found, present⟩ := Option.ne_none_iff_exists'.mp owned.present
      simp only [MutexState.changeProcessState_processes,
        ProcessTable.changeProcessState_state, if_true]
      exact Option.map_eq_some_iff.mpr ⟨found, present, rfl⟩
    · have other : p ≠ state.current := fun same => notQueued (same ▸ member)
      obtain ⟨stands, notOwner, blocked⟩ := owned.queued p member
      refine ⟨by simpa [other] using stands, notOwner, ?_⟩
      simpa [other] using blocked
  · rw [WaitQueue.entries, entries, ← WaitQueue.entries, added.nodup_iff]
    exact List.nodup_cons.mpr ⟨notQueued, owned.nodup⟩
  · rw [WaitQueue.Counted, WaitQueue.entries, entries, ← WaitQueue.entries]
    exact owned.counted.addToBlocked entry
  · simp

/-- The owner gives the mutex to the first recorded process, or opens it. -/
theorem Owned.release {m : Int} {state : MutexRun} (owned : Owned m (some state.current) state) :
    ∃ owner, Owned m owner
      ⟨state.kernel.freeMutex m, Function.update state.phase state.current .outside⟩ := by
  have elsewhere : ∀ pid, pid ≠ state.current →
      Function.update state.phase state.current .outside pid = state.phase pid :=
    fun pid other => Function.update_of_ne other _ _
  have nobody : ∀ pid, Function.update state.phase state.current .outside pid ≠ .inside := by
    intro pid here
    by_cases same : pid = state.current
    · simp [same] at here
    · rw [elsewhere pid same] at here
      exact same (Option.some.inj (owned.inside pid here)).symm
  have queued : ∀ pid, Function.update state.phase state.current .outside pid = .locking →
      pid ∈ (state.kernel.mutexes m).entries := by
    intro pid here
    by_cases same : pid = state.current
    · simp [same] at here
    · rw [elsewhere pid same] at here
      refine (owned.waiting pid here).resolve_left fun holder => ?_
      exact same (Option.some.inj holder).symm
  have count := owned.counted
  cases waiting : (state.kernel.mutexes m).entries with
  | nil =>
      simp only [WaitQueue.Counted, waiting, List.length_nil] at count
      have opened := MutexState.freeMutex_opens owned.valid (by omega)
      refine ⟨none, ⟨?_, ?_, ?_⟩, ?_, ?_, ?_, ?_, ?_, ?_, ?_, ?_⟩
      · rw [← owned.valid]
        exact MutexState.isValidMutex_congr (by simp [opened])
      · simpa [opened] using owned.pids
      · simpa [opened, current] using owned.present
      · simp [opened]
      · simp
      · intro pid here
        exact absurd here (nobody pid)
      · intro pid here
        have member := queued pid here
        simp [waiting] at member
      · simp [opened, waiting]
      · simp [opened, waiting]
      · simp [opened, WaitQueue.Counted, waiting, count]
      · simp [opened, waiting]
  | cons head rest =>
      simp only [WaitQueue.Counted, waiting, List.length_cons] at count
      obtain ⟨entry, handed, left, flag, used, remaining⟩ :=
        MutexState.freeMutex_hands_over owned.valid (by omega) waiting
      have unique := owned.nodup
      rw [waiting, List.nodup_cons] at unique
      have locking := owned.queued
      rw [waiting] at locking
      obtain ⟨stands, notOwner, -⟩ := locking head (by simp)
      have headOther : head ≠ state.current := fun same => notOwner (by rw [same])
      refine ⟨some head, ⟨?_, ?_, ?_⟩, ?_, ?_, ?_, ?_, ?_, ?_, ?_, ?_⟩
      · rw [← owned.valid]
        exact MutexState.isValidMutex_congr (by simp [handed, used])
      · simpa [handed] using owned.pids
      · simpa [handed, current] using owned.present
      · simpa [handed, flag] using owned.locked
      · intro pid holder
        obtain rfl := Option.some.inj holder
        simp only [elsewhere head headOther, stands]
        simp
      · intro pid here
        exact absurd here (nobody pid)
      · intro pid here
        have member := queued pid here
        rw [waiting] at member
        simp only [handed, MutexState.setMutex_same, left]
        rcases List.mem_cons.mp member with rfl | behind
        · exact .inl rfl
        · exact .inr behind
      · intro pid member
        simp only [handed, MutexState.setMutex_same, left] at member
        obtain ⟨stands, notOwner, blocked⟩ := locking pid (List.mem_cons_of_mem _ member)
        have other : pid ≠ state.current := fun same => notOwner (by rw [same])
        have notHead : pid ≠ head := fun same => unique.1 (same ▸ member)
        refine ⟨by simpa only [elsewhere pid other] using stands,
          fun same => notHead (Option.some.inj same).symm, ?_⟩
        simpa [handed, notHead] using blocked
      · simpa [handed, left] using unique.2
      · simp only [handed, MutexState.setMutex_same, WaitQueue.Counted, left, remaining, count]
        simp
      · simp

/-- A process that calls `lockMutex` on a stuck mutex is BLOCKED for good. -/
theorem Stuck.queue {m : Int} {state : MutexRun} (stuck : Stuck m state) :
    Stuck m
      ⟨(state.kernel.addToBlocked m state.current).changeProcessState state.current .blocked,
        Function.update state.phase state.current .locking⟩ := by
  refine ⟨⟨?_, ?_, ?_⟩, ?_, ?_, ?_⟩
  · rw [← stuck.valid]
    exact MutexState.isValidMutex_congr (by simp [MutexState.addToBlocked])
  · simpa using stuck.pids
  · simpa [current] using stuck.present
  · simpa [MutexState.addToBlocked] using stuck.locked
  · intro pid
    by_cases same : pid = state.current
    · simp [same]
    · simpa [same] using stuck.nobody pid
  · intro pid here
    by_cases same : pid = state.current
    · obtain ⟨found, present⟩ := Option.ne_none_iff_exists'.mp stuck.present
      rw [same, MutexState.changeProcessState_processes, ProcessTable.changeProcessState_state,
        if_pos rfl]
      exact Option.map_eq_some_iff.mpr ⟨found, present, rfl⟩
    · simp only [Function.update_of_ne same] at here
      simpa [same] using stuck.waiting pid here

/-- Every call in which a process that has to wait finds a slot keeps the invariant. -/
theorem exclusive_step (m : Int) (state : MutexRun) (action : MutexAction) (next : MutexRun)
    (exclusive : Exclusive m state) (finds : state.FindsSlot m action)
    (stepped : state.step m action = some next) : Exclusive m next := by
  obtain ⟨awake, stuck | ⟨owner, owned⟩⟩ := exclusive
  · cases action with
    | lockMutex garbage picked =>
        simp only [step] at stepped
        split at stepped
        · have busy : Busy (state.kernel.mutexes m) := .inl stuck.locked
          rw [MutexState.lockMutex_queues stuck.valid busy (finds busy)] at stepped
          obtain ⟨kept, awake⟩ := stuck.queue.dispatch stepped
          exact ⟨awake, .inl kept⟩
        · cases stepped
    | freeMutex =>
        simp only [step, stuck.nobody, if_false] at stepped
        cases stepped
    | timerTick picked =>
        obtain ⟨kept, awake⟩ := stuck.dispatch stepped
        exact ⟨awake, .inl kept⟩
  · cases action with
    | lockMutex garbage picked =>
        simp only [step] at stepped
        split at stepped
        · rename_i outside
          cases owner with
          | none =>
              have notBusy := mt owned.busy_iff.mp (by simp)
              simp only [Busy, not_or, not_not] at notBusy
              rw [MutexState.lockMutex_acquires owned.valid notBusy.1 notBusy.2] at stepped
              obtain rfl := Option.some.inj stepped
              exact ⟨by simp [current], .inr ⟨_, owned.acquire⟩⟩
          | some holder =>
              have busy := owned.busy_iff.mpr (by simp)
              rw [MutexState.lockMutex_queues owned.valid busy (finds busy)] at stepped
              obtain ⟨kept, awake⟩ := (owned.queue outside (finds busy)).dispatch stepped
              exact ⟨awake, .inr ⟨_, kept⟩⟩
        · cases stepped
    | freeMutex =>
        simp only [step] at stepped
        split at stepped
        · rename_i inside
          obtain rfl := owned.inside _ inside
          obtain rfl := Option.some.inj stepped
          exact ⟨by simp [current], .inr owned.release⟩
        · cases stepped
    | timerTick picked =>
        obtain ⟨kept, awake⟩ := owned.dispatch stepped
        exact ⟨awake, .inr ⟨_, kept⟩⟩

/-- At most one process is inside. -/
theorem Exclusive.at_most_one {m : Int} {state : MutexRun} (exclusive : Exclusive m state)
    {p q : Int} (inP : state.phase p = .inside) (inQ : state.phase q = .inside) : p = q := by
  obtain ⟨-, stuck | ⟨owner, owned⟩⟩ := exclusive
  · exact absurd inP (stuck.nobody p)
  · have holdsP := owned.inside p inP
    rw [owned.inside q inQ] at holdsP
    exact (Option.some.inj holdsP).symm

/-- In a run in which every process that has to wait for the mutex finds a free
slot, at most one process is between `lockMutex` and `freeMutex`. -/
theorem mutual_exclusion (m : Int) (start : MutexRun) (begins : Start m start)
    (actions : List MutexAction) (final : MutexRun)
    (finds : Along (step m) (FindsSlot m) start actions)
    (ran : run (step m) start actions = some final) (p q : Int)
    (inP : final.phase p = .inside) (inQ : final.phase q = .inside) : p = q :=
  (finds.invariant (exclusive_step m) begins.exclusive ran).at_most_one inP inQ

/-- Processes `0` to `count - 1` contend for the open mutex `0`; process `0` runs. -/
def contention (count : Nat) : MutexRun where
  kernel :=
    { processes :=
        { state := fun pid =>
            if 0 ≤ pid ∧ pid < count then some (if pid = 0 then .running else .ready) else none
          current := 0 }
      mutexes := fun _ =>
        { WaitQueue.empty with used := true, name := none, mutex := 0, pidCreator := 0 } }
  phase := fun _ => .outside

theorem contention_start {count : Nat} (positive : 0 < count) : Start 0 (contention count) where
  valid := rfl
  clean _ := ⟨rfl, WaitQueue.entries_empty⟩
  outside _ := rfl
  pids pid present := by
    simp only [contention, ne_eq, ite_eq_right_iff, reduceCtorEq, imp_false, not_not] at present
    exact present.1
  present := by
    simp [contention, current]
    omega

/-- Two processes: the second one waits until the first hands the mutex over. -/
theorem mutual_exclusion_handed_over : ∃ final,
    run (step 0) (contention 2) [.lockMutex 0 0, .timerTick 1, .lockMutex 0 0, .freeMutex,
      .timerTick 1] = some final ∧ final.phase 1 = .inside ∧
      ∀ p, final.phase p = .inside → p = 1 := by
  have finishes : (run (step 0) (contention 2) [.lockMutex 0 0, .timerTick 1, .lockMutex 0 0,
      .freeMutex, .timerTick 1]).map (fun final => final.phase 1) = some .inside := by
    decide +kernel
  have finds : Along (step 0) (FindsSlot 0) (contention 2) [.lockMutex 0 0, .timerTick 1,
      .lockMutex 0 0, .freeMutex, .timerTick 1] := by
    decide +kernel
  obtain ⟨final, ran, inside⟩ := Option.map_eq_some_iff.mp finishes
  refine ⟨final, ran, inside, fun p here => ?_⟩
  exact mutual_exclusion 0 _ (contention_start (by omega)) _ final finds ran p 1 here inside

/-- An owner, twenty recorded processes, and one more that calls `lockMutex`. -/
def fullQueue : List MutexAction :=
  .lockMutex 0 0 :: .timerTick 1 ::
    (List.range 21).map fun i => .lockMutex (-1) (min (i + 2 : Nat) 21 : Nat)

/-- The process that finds the array full is neither recorded nor BLOCKED; it
returns from its `_yield` while the owner is inside. -/
theorem exclusion_fails_when_full : Start 0 (contention 22) ∧ ∃ final,
    run (step 0) (contention 22) fullQueue = some final ∧
      final.phase 0 = .inside ∧ final.phase 21 = .inside := by
  have result : (run (step 0) (contention 22) fullQueue).map
      (fun final => (final.phase 0, final.phase 21)) = some (.inside, .inside) := by
    decide +kernel
  obtain ⟨final, ran, phases⟩ := Option.map_eq_some_iff.mp result
  exact ⟨contention_start (by omega), final, ran, Prod.mk.inj phases⟩

end MutexRun

end SistemasOperativos.Kernel
