import SistemasOperativos.Kernel.MutexTable

/-!
# Removing processes that use mutexes and semaphores

`removeProcess` does not look at the two tables. What a process held or waited
for stays there under its pid: `freeMutex` and `signal` hand over to a process
that is no longer on the ring, and a mutex that it held stays locked. As long as
only processes are removed that hold no mutex and are recorded in no array, every
owner and every recorded process is on the ring (`Attended`).
-/

namespace SistemasOperativos.Kernel

open SistemasOperativos.Semantics

namespace SyncRun

/-- The process is on the ring. -/
def Live (state : SyncRun) (pid : Int) : Prop := state.kernel.processes.state pid ≠ none

/-- A run starts with the tables as `initializeTables` leaves them, and with no
process in a call. -/
structure Start (state : SyncRun) : Prop where
  initialized : ∃ before : SyncState,
    state.kernel.mutexes = before.initializeTables.mutexes ∧
    state.kernel.semaphores = before.initializeTables.semaphores ∧
    state.kernel.semaphoreMutex = before.initializeTables.semaphoreMutex
  pending : ∀ pid, state.pending pid = none
  owner : ∀ m, state.owner m = none
  pids : ∀ pid, state.kernel.processes.state pid ≠ none → 0 ≤ pid
  present : state.kernel.processes.state state.current ≠ none

/-- The condition on a step: a process that is removed holds no mutex and is
recorded in no array. -/
def LeavesNothing (state : SyncRun) : SyncAction → Prop
  | .removeProcess pid _ =>
      pid ≠ 0 →
        (∀ m < MAX_MUTEXES,
          ((state.kernel.mutexes (m : Nat)).mutex ≠ 0 → state.owner (m : Nat) ≠ some pid) ∧
            pid ∉ (state.kernel.mutexes (m : Nat)).entries) ∧
        ∀ s < MAX_SEMAPHORES, pid ∉ (state.kernel.semaphores (s : Nat)).entries
  | _ => True

instance (state : SyncRun) (action : SyncAction) : Decidable (state.LeavesNothing action) := by
  cases action <;> unfold LeavesNothing <;> infer_instance

/-- What holds when no ownership and no wake-up got lost: a locked mutex has an
owner on the ring, `freeMutex` and `signal` hand over to a process on the ring
when one waits, and a semaphore for which only removed processes wait lets the
next `wait` through once it is signalled. -/
structure NothingLost (state : SyncRun) : Prop where
  owned : ∀ m : Int, 0 ≤ m → state.kernel.isValidMutex m = true →
    (state.kernel.mutexes m).mutex ≠ 0 → ∃ pid, state.owner m = some pid ∧ state.Live pid
  freed : ∀ m : Int, 0 ≤ m → state.kernel.isValidMutex m = true →
    (state.kernel.mutexes m).entries ≠ [] →
    ∃ pid ∈ (state.kernel.mutexes m).entries, state.Live pid ∧
      (state.kernel.freeMutex m).processes =
        state.kernel.processes.changeProcessState pid .ready ∧
      ownerAfter (state.kernel.mutexes m) ((state.kernel.freeMutex m).mutexes m) state.current
        (state.owner m) = some pid
  signalled : ∀ s : Int, 0 ≤ s → state.kernel.isValidSemaphore s = true →
    (state.kernel.semaphores s).entries ≠ [] →
    ∃ pid ∈ (state.kernel.semaphores s).entries, state.Live pid ∧
      (state.kernel.signal s).processes = state.kernel.processes.changeProcessState pid .ready
  proceeds : ∀ s : Int, 0 ≤ s → state.kernel.isValidSemaphore s = true →
    (state.kernel.semaphores s).entries ≠ [] →
    (∀ pid ∈ (state.kernel.semaphores s).entries, ¬ state.Live pid) →
    ∀ garbage, ((state.kernel.signal s).wait s garbage).2 = .returned

/-- The invariant of the runs: owners and recorded processes are on the ring. -/
structure Attended (state : SyncRun) : Prop extends MutexesGuarded state where
  owners : ∀ m : Int, 0 ≤ m → m < MAX_MUTEXES → (state.kernel.mutexes m).mutex ≠ 0 →
    ∃ pid, state.owner m = some pid ∧ state.Live pid
  recorded : ∀ m : Int, 0 ≤ m → m < MAX_MUTEXES → ∀ pid ∈ (state.kernel.mutexes m).entries,
    state.Live pid
  semaphores : ∀ s : Int, 0 ≤ s → s < MAX_SEMAPHORES → (state.kernel.semaphores s).Counted ∧
    ∀ pid ∈ (state.kernel.semaphores s).entries, state.Live pid

/-- The invariant holds at the start. -/
theorem Start.attended {state : SyncRun} (start : Start state) : Attended state := by
  obtain ⟨before, mutexes, semaphores, guard⟩ := start.initialized
  have initialized := before.initializeTables_initialized
  refine ⟨⟨fun m low high => ?_, ?_, start.pids, start.present⟩, fun m low high locked => ?_,
    fun m low high pid member => ?_, fun s low high => ?_⟩
  · rw [mutexes]
    exact (initialized.mutexes m low high).guarded
  · rw [guard]
    exact initialized.guard
  · rw [mutexes] at locked
    exact absurd (initialized.mutexes m low high).unlocked locked
  · rw [mutexes, (initialized.mutexes m low high).entries] at member
    cases member
  · obtain ⟨count, nobody⟩ := initialized.semaphores s low high
    rw [semaphores, WaitQueue.Counted, count, nobody]
    simp

/-! ## Who gets recorded -/

/-- The recorded processes of every mutex are on the ring, as the one that runs is. -/
def Recorded (state : MutexState) : Prop :=
  state.processes.state state.processes.current ≠ none ∧
    ∀ m : Int, 0 ≤ m → m < MAX_MUTEXES → ∀ pid ∈ (state.mutexes m).entries,
      state.processes.state pid ≠ none

theorem Recorded.setMutex {state : MutexState} (recorded : Recorded state) {m : Int}
    {entry : Mutex} (within : ∀ pid ∈ entry.entries,
      pid = state.processes.current ∨ pid ∈ (state.mutexes m).entries) :
    Recorded (state.setMutex m entry) := by
  refine ⟨recorded.1, fun other low high pid member => ?_⟩
  by_cases same : other = m
  · subst same
    rw [MutexState.setMutex_same] at member
    rcases within pid member with rfl | waiting
    · exact recorded.1
    · exact recorded.2 other low high pid waiting
  · rw [MutexState.setMutex_ne same] at member
    exact recorded.2 other low high pid member

theorem Recorded.changeProcessState {state : MutexState} (recorded : Recorded state) (pid : Int)
    (processState : ProcessState) : Recorded (state.changeProcessState pid processState) := by
  refine ⟨by simpa using recorded.1, fun m low high other member => ?_⟩
  simpa using recorded.2 m low high other member

/-- Taking the first entry out of an array records nobody. -/
theorem Recorded.unblockProcess {state : MutexState} (recorded : Recorded state) (m : Int) :
    Recorded (state.unblockProcess m) := by
  have woken : Recorded { state with
      processes := ((state.mutexes m).toWaitQueue.unblockProcess state.processes).1 } := by
    refine ⟨by simpa using recorded.1, fun other low high pid member => ?_⟩
    simpa using recorded.2 other low high pid member
  refine @Recorded.setMutex _ woken _ { state.mutexes m with
    toWaitQueue := ((state.mutexes m).toWaitQueue.unblockProcess state.processes).2 }
    fun pid member => .inr ?_
  have left := (state.mutexes m).toWaitQueue.unblockProcess_entries state.processes
  rw [left] at member
  exact List.mem_of_mem_tail member

/-- `_testAndSet` records nobody. -/
theorem testAndSet_entries (m : Mutex) : (testAndSet m).1.entries = m.entries := by
  unfold testAndSet
  split <;> rfl

/-- Only its caller is recorded in a call, and only on the mutex it waits for. -/
theorem recorded_phased : SyncState.Phased Recorded Recorded where
  locked := id
  lockMutex m garbage _ recorded := by
    have tested := recorded.setMutex (m := m) fun pid member =>
      .inr (by rwa [testAndSet_entries] at member)
    simp only [MutexState.lockMutex]
    split
    · exact recorded
    · split
      · exact tested
      · split
        · exact tested.changeProcessState _ _
        · refine (tested.setMutex fun pid member => ?_).changeProcessState _ _
          exact WaitQueue.mem_addToBlocked member
  freeMutex m _ recorded := by
    simp only [MutexState.freeMutex]
    split
    · exact recorded
    · split
      · exact (recorded.unblockProcess m).setMutex fun pid member => .inr member
      · exact recorded.setMutex fun pid member => .inr member
  createMutex mutexName recorded := by
    simp only [MutexState.createMutex]
    split
    · exact recorded
    · exact recorded.setMutex fun pid member => .inr member
  changeProcessState pid processState recorded := recorded.changeProcessState pid processState

/-- The same for a semaphore, whose counter stays right. -/
theorem counted_kept {caller : Int} (entry : caller ≠ NO_BLOCKED_QUEUE_VALUE)
    {live : Int → Prop} (runs : live caller) :
    SyncState.QueueKept caller fun waiters =>
      waiters.Counted ∧ ∀ pid ∈ waiters.entries, live pid where
  addToBlocked := by
    rintro waiters ⟨counted, recorded⟩
    refine ⟨counted.addToBlocked entry, fun pid member => ?_⟩
    rcases WaitQueue.mem_addToBlocked member with rfl | waiting
    · exact runs
    · exact recorded pid waiting
  unblockProcess := by
    rintro waiters processes positive ⟨counted, recorded⟩
    have left := waiters.unblockProcess_entries processes
    constructor
    · simp only [WaitQueue.Counted] at counted ⊢
      change _ = (((waiters.unblockProcess processes).2.entries.length : Nat) : Int)
      rw [left, List.length_tail]
      have same : (waiters.unblockProcess processes).2.cardinalBlocked =
          waiters.cardinalBlocked := by
        unfold WaitQueue.unblockProcess
        split <;> rfl
      rw [same]
      omega
    · intro pid member
      change pid ∈ (waiters.unblockProcess processes).2.entries at member
      rw [left] at member
      exact recorded pid (List.mem_of_mem_tail member)

/-- A mutex that is locked after a part of a call has an owner on the ring, if it
had one before. -/
theorem ownerAfter_live {before after : Mutex} {caller : Int} {owner : Option Int}
    {live : Int → Prop} (runs : live caller) (recorded : ∀ pid ∈ before.entries, live pid)
    (owned : before.mutex ≠ 0 → ∃ pid, owner = some pid ∧ live pid) (locked : after.mutex ≠ 0) :
    ∃ pid, ownerAfter before after caller owner = some pid ∧ live pid := by
  unfold ownerAfter
  rw [if_neg locked]
  split
  · exact ⟨caller, rfl, runs⟩
  · rename_i heldBefore
    split
    · rename_i pid found
      exact ⟨pid, rfl, recorded pid (List.mem_of_find?_eq_some found)⟩
    · exact owned heldBefore

/-- `freeMutex` makes the process that it wakes the owner. -/
theorem ownerAfter_handed {before after : Mutex} {caller pid : Int} {rest : List Int}
    (owner : Option Int) (waiting : before.entries = pid :: rest) (left : after.entries = rest)
    (heldBefore : before.mutex ≠ 0) (locked : after.mutex ≠ 0) :
    ownerAfter before after caller owner = some pid := by
  simp [ownerAfter, locked, heldBefore, waiting, left]

/-! ## The steps -/

/-- A step that leaves nothing behind keeps the invariant. -/
theorem attended_step (state : SyncRun) (action : SyncAction) (next : SyncRun)
    (attended : Attended state) (leaves : state.LeavesNothing action)
    (stepped : state.step action = some next) : Attended next := by
  have guarded := mutexesGuarded_step state action next attended.toMutexesGuarded stepped
  rcases step_eq_some stepped with
    ⟨kernel, outcome, pending, processes, performed, same, rfl, -⟩ |
    ⟨processes, rfl, -, presence⟩
  · have ring := (perform_processes attended.guard performed).2
    have live : ∀ pid, state.Live pid ↔ processes.state pid ≠ none := by
      intro pid
      rw [Live, ne_eq, ne_eq, same.present, ring]
    have recorded : Recorded kernel.toMutexState :=
      perform_phased recorded_phased attended.guard (fun index garbage next _ _ => by
        simp only [MutexState.closeMutex]
        split
        · exact ⟨attended.present, attended.recorded⟩
        · split
          · exact Recorded.setMutex ⟨attended.present, attended.recorded⟩ fun _ member =>
              .inr member
          · exact ⟨attended.present, attended.recorded⟩)
        ⟨attended.present, attended.recorded⟩ performed
    refine ⟨guarded, fun m low high locked => ?_, fun m low high pid member => ?_,
      fun s low high => ?_⟩
    · obtain ⟨pid, owner, here⟩ := @ownerAfter_live _ _ _ _ state.Live attended.present
        (attended.recorded m low high) (attended.owners m low high) locked
      exact ⟨pid, owner, (live pid).mp here⟩
    · exact (live pid).mp (mt (ring pid).mpr (recorded.2 m low high pid member))
    · obtain ⟨counted, within⟩ := perform_queueKept
        (@counted_kept _ attended.kernel.pid state.Live attended.present)
        (attended.semaphores s low high) performed
      exact ⟨counted, fun pid member => (live pid).mp (within pid member)⟩
  · have stays : ∀ pid, state.Live pid →
        (∀ next, action = .removeProcess pid next → pid = 0) → processes.state pid ≠ none :=
      fun pid here kept => (presence pid).mpr (.inl ⟨here, kept⟩)
    refine ⟨guarded, fun m low high locked => ?_, fun m low high pid member => ?_,
      fun s low high => ⟨(attended.semaphores s low high).1, fun pid member => ?_⟩⟩
    · obtain ⟨pid, owner, here⟩ := attended.owners m low high locked
      refine ⟨pid, owner, stays pid here fun next removed => ?_⟩
      subst removed
      by_contra notInit
      have notOwner := ((leaves notInit).1 m.toNat (by omega)).1
      rw [Int.toNat_of_nonneg low] at notOwner
      exact notOwner locked owner
    · refine stays pid (attended.recorded m low high pid member) fun next removed => ?_
      subst removed
      by_contra notInit
      have notRecorded := ((leaves notInit).1 m.toNat (by omega)).2
      rw [Int.toNat_of_nonneg low] at notRecorded
      exact notRecorded member
    · refine stays pid ((attended.semaphores s low high).2 pid member) fun next removed => ?_
      subst removed
      by_contra notInit
      have notRecorded := (leaves notInit).2 s.toNat (by omega)
      rw [Int.toNat_of_nonneg low] at notRecorded
      exact notRecorded member

/-- With every owner and every recorded process on the ring nothing is lost. -/
theorem Attended.nothingLost {state : SyncRun} (attended : Attended state) :
    NothingLost state where
  owned m low valid :=
    attended.owners m low (MutexState.lt_of_isValidMutex valid)
  freed m low valid waits := by
    have high := MutexState.lt_of_isValidMutex valid
    rcases MutexState.freeMutex_guarded (attended.mutexes m low high) valid with
      ⟨nobody, -⟩ | ⟨pid, rest, entry, waiting, handed, left, flag, locked, -⟩
    · exact absurd nobody waits
    · have member : pid ∈ (state.kernel.mutexes m).entries := by simp [waiting]
      refine ⟨pid, member, attended.recorded m low high pid member, by simp [handed], ?_⟩
      rw [handed, MutexState.setMutex_same]
      exact ownerAfter_handed _ waiting left (flag ▸ locked) locked
  signalled s low valid waits := by
    have high := SemaphoreState.lt_of_isValidSemaphore valid
    obtain ⟨counted, recorded⟩ := attended.semaphores s low high
    obtain ⟨pid, rest, waiting⟩ := List.exists_cons_of_ne_nil waits
    have positive : 0 < (state.kernel.semaphores s).cardinalBlocked := by
      rw [counted, waiting, List.length_cons]
      omega
    obtain ⟨waiters, woken, -, -⟩ := SemaphoreState.signal_wakes valid positive waiting
    have member : pid ∈ (state.kernel.semaphores s).entries := by simp [waiting]
    exact ⟨pid, member, recorded pid member, by rw [woken]⟩
  proceeds s low valid waits removed garbage := by
    have high := SemaphoreState.lt_of_isValidSemaphore valid
    obtain ⟨pid, rest, waiting⟩ := List.exists_cons_of_ne_nil waits
    have member : pid ∈ (state.kernel.semaphores s).entries := by simp [waiting]
    exact absurd ((attended.semaphores s low high).2 pid member) (removed pid member)

/-- In every run that removes only processes that hold no mutex and are recorded
in no array, no ownership and no wake-up gets lost. -/
theorem nothing_lost (start : SyncRun) (begins : Start start) (actions : List SyncAction)
    (final : SyncRun) (leaves : Along step LeavesNothing start actions)
    (ran : run step start actions = some final) : NothingLost final := by
  have attended : Attended final := leaves.invariant attended_step begins.attended ran
  exact attended.nothingLost

theorem booted_start {count : Nat} (positive : 0 < count) : Start (booted count) where
  initialized := ⟨zeroed, rfl, rfl, rfl⟩
  pending _ := rfl
  owner _ := rfl
  pids _ present := booted_pids present
  present := booted_present positive

/-- Process `0` has a mutex that process `1` waits for, and process `2`, which has locked another
one and opened it again, is removed. -/
def orderlyRemoval : List SyncAction :=
  [.call (.getMutex (some "m")) 0 0, .call (.getMutex (some "n")) 0 0, .call (.lockMutex 2) 0 0,
    .timerTick 1, .call (.lockMutex 2) 0 2, .call (.lockMutex 3) 0 0, .call (.freeMutex 3) 0 0,
    .removeProcess 2 0]

/-- The one that waits is still in the array, and the owner hands the mutex over to it. -/
theorem nothing_lost_orderly : ∃ final, run step (booted 3) orderlyRemoval = some final ∧
    ¬ final.Live 2 ∧ (final.kernel.mutexes 2).entries = [1] ∧
    ∃ pid ∈ (final.kernel.mutexes 2).entries, final.Live pid ∧
      (final.kernel.freeMutex 2).processes =
        final.kernel.processes.changeProcessState pid .ready := by
  have finishes : (run step (booted 3) orderlyRemoval).map (fun final =>
      (final.kernel.processes.state 2, (final.kernel.mutexes 2).entries,
        final.kernel.isValidMutex 2)) = some (none, [1], true) := by
    decide +kernel
  have leaves : Along step LeavesNothing (booted 3) orderlyRemoval := by
    decide +kernel
  obtain ⟨final, ran, result⟩ := Option.map_eq_some_iff.mp finishes
  simp only [Prod.mk.injEq] at result
  obtain ⟨gone, waiting, valid⟩ := result
  have kept := nothing_lost _ (booted_start (by omega)) _ final leaves ran
  obtain ⟨pid, member, live, handed, -⟩ := kept.freed 2 (by omega) valid (by simp [waiting])
  exact ⟨final, ran, fun stays => stays gone, waiting, pid, member, live, handed⟩

/-- Process `1` is removed while it holds a mutex. -/
def holderRemoved : List SyncAction :=
  [.call (.getMutex (some "m")) 0 0, .timerTick 1, .call (.lockMutex 2) 0 0,
    .removeProcess 1 0]

/-- Process `1` is removed while it waits for a mutex in front of process `2`. -/
def waiterRemoved : List SyncAction :=
  [.call (.getMutex (some "m")) 0 0, .call (.lockMutex 2) 0 0, .timerTick 1,
    .call (.lockMutex 2) 0 2, .call (.lockMutex 2) 0 0, .removeProcess 1 0]

/-- Process `1` is removed while it waits for a semaphore that has no permits. -/
def semaphoreWaiterRemoved : List SyncAction :=
  [.call (.semCreate (some "s") 0) 0 0, .timerTick 1, .call (.wait 0) 0 0, .removeProcess 1 0]

/-- The mutex of a removed holder stays locked; `freeMutex` hands a mutex over to a
removed process while another one waits; and the `signal` of a semaphore for which
only a removed process waits does not let the next `wait` through. -/
theorem removal_loses : Start (booted 3) ∧
    (∃ final, run step (booted 3) holderRemoved = some final ∧
      final.kernel.isValidMutex 2 = true ∧ (final.kernel.mutexes 2).mutex ≠ 0 ∧
      final.owner 2 = some 1 ∧ ¬ final.Live 1) ∧
    (∃ final, run step (booted 3) waiterRemoved = some final ∧
      (final.kernel.mutexes 2).entries = [1, 2] ∧ ¬ final.Live 1 ∧
      final.kernel.processes.state 2 = some .blocked ∧
      (final.kernel.freeMutex 2).processes.state 2 = some .blocked ∧
      ((final.kernel.freeMutex 2).mutexes 2).mutex ≠ 0) ∧
    ∃ final, run step (booted 3) semaphoreWaiterRemoved = some final ∧
      (final.kernel.semaphores 0).entries = [1] ∧ ¬ final.Live 1 ∧
      ((final.kernel.signal 0).wait 0 0).2 = .yielded := by
  have holder : (run step (booted 3) holderRemoved).map (fun final =>
      (final.kernel.isValidMutex 2, (final.kernel.mutexes 2).mutex, final.owner 2,
        final.kernel.processes.state 1)) = some (true, 1, some 1, none) := by
    decide +kernel
  have waiter : (run step (booted 3) waiterRemoved).map (fun final =>
      ((final.kernel.mutexes 2).entries, final.kernel.processes.state 1,
        final.kernel.processes.state 2, (final.kernel.freeMutex 2).processes.state 2,
        ((final.kernel.freeMutex 2).mutexes 2).mutex)) =
      some ([1, 2], none, some .blocked, some .blocked, 1) := by
    decide +kernel
  have semaphore : (run step (booted 3) semaphoreWaiterRemoved).map (fun final =>
      ((final.kernel.semaphores 0).entries, final.kernel.processes.state 1,
        ((final.kernel.signal 0).wait 0 0).2)) = some ([1], none, .yielded) := by
    decide +kernel
  refine ⟨booted_start (by omega), ?_, ?_, ?_⟩
  · obtain ⟨final, ran, result⟩ := Option.map_eq_some_iff.mp holder
    simp only [Prod.mk.injEq] at result
    obtain ⟨valid, locked, owner, gone⟩ := result
    exact ⟨final, ran, valid, by omega, owner, by simp [Live, gone]⟩
  · obtain ⟨final, ran, result⟩ := Option.map_eq_some_iff.mp waiter
    simp only [Prod.mk.injEq] at result
    obtain ⟨entries, gone, before, after, locked⟩ := result
    exact ⟨final, ran, entries, by simp [Live, gone], before, after, by omega⟩
  · obtain ⟨final, ran, result⟩ := Option.map_eq_some_iff.mp semaphore
    simp only [Prod.mk.injEq] at result
    obtain ⟨entries, gone, blocked⟩ := result
    exact ⟨final, ran, entries, by simp [Live, gone], blocked⟩

end SyncRun

end SistemasOperativos.Kernel
