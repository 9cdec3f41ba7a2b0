import SistemasOperativos.Kernel.TurnQueue

/-!
# How long a READY process waits

A READY process is passed over only by processes that stand in front of it. Every switch that
does not choose it lets at least one of them pass for good, and only `createProcess` puts a new
one in front. So the switches it waits for are no more than the processes in front of it and
those created meanwhile (`switches_le`). Each process created takes pages that are never given
back, so there is a bound for every wait of every run.
-/

namespace SistemasOperativos.Kernel

open SistemasOperativos.Foundation SistemasOperativos.Semantics

/-- The call switches, when `current` is the process that runs. -/
def SchedulerAction.Switches (current : Int) : SchedulerAction → Prop
  | .next_process _ | .switchKernelToUser => True
  | .removeProcess pid _ => pid = 0 ∨ pid = current
  | .createProcess _ | .switchUserToKernel _ | .changeProcessState _ _ => False

instance (current : Int) : DecidablePred (SchedulerAction.Switches current)
  | .next_process _ | .switchKernelToUser => .isTrue trivial
  | .removeProcess pid _ => inferInstanceAs (Decidable (pid = 0 ∨ pid = current))
  | .createProcess _ | .switchUserToKernel _ | .changeProcessState _ _ => .isFalse not_false

/-- The call creates a process. -/
def SchedulerAction.Creates : SchedulerAction → Prop
  | .createProcess _ => True
  | .removeProcess _ _ | .next_process _ | .switchKernelToUser | .switchUserToKernel _
  | .changeProcessState _ _ => False

instance : DecidablePred SchedulerAction.Creates
  | .createProcess _ => .isTrue trivial
  | .removeProcess _ _ | .next_process _ | .switchKernelToUser | .switchUserToKernel _
  | .changeProcessState _ _ => .isFalse not_false

/-! ## On the queue -/

namespace TurnQueue

section Waits

variable {queue after : TurnQueue} {pid : Int}

/-- The process waits for its turn. -/
structure Waits (queue : TurnQueue) (pid : Int) : Prop where
  member : pid ∈ queue.order
  ready : queue.processes.state pid = some .ready

/-- The turn goes to another process in front, or the process no longer waits. -/
theorem Waits.schedule (waits : queue.Waits pid) (nodup : queue.order.Nodup)
    (switched : queue.schedule = some after) (still : after.Waits pid) :
    after.order.idxOf pid + 1 ≤ queue.order.idxOf pid := by
  obtain ⟨next, found, rest⟩ := Option.bind_eq_some_iff.mp switched
  obtain ⟨processes, turned, result⟩ := Option.bind_eq_some_iff.mp rest
  obtain rfl := Option.some.inj result
  obtain ⟨-, x, y, order, passed⟩ := List.find?_eq_some_iff_append.mp found
  have ready : queue.processes.preempt.state pid = some .ready := by
    rw [ProcessTable.preempt_state, if_neg, waits.ready]
    rintro ⟨-, running⟩
    exact absurd (waits.ready.symm.trans running) (by decide)
  have notPassed : pid ∉ x := by
    intro early
    have skipped := passed pid early
    rw [ready] at skipped
    exact absurd skipped (by decide)
  have notChosen : pid ≠ next := by
    rintro rfl
    have runs := ProcessTable.schedule_running turned
    rw [(ProcessTable.schedule_dispatched turned).current, still.ready] at runs
    exact absurd runs (by decide)
  have behind : pid ∈ y := by
    have member := waits.member
    rw [order] at member
    rcases List.mem_append.mp member with early | late
    · exact absurd early notPassed
    · exact (List.mem_cons.mp late).resolve_left notChosen
  change (afterTurn next queue.order).idxOf pid + 1 ≤ _
  rw [order] at nodup ⊢
  have nearer := idxOf_afterTurn nodup behind
  omega

/-- Who waits still does when another process is removed. -/
theorem Waits.remove (waits : queue.Waits pid) {other : Int} (different : pid ≠ other) :
    (queue.remove other).Waits pid where
  member := (List.mem_erase_of_ne different).mpr waits.member
  ready := (Function.update_of_ne different ..).trans waits.ready

/-- A process that does not exist does not wait after a switch. -/
theorem schedule_absent (switched : queue.schedule = some after)
    (absent : queue.processes.state pid = none) : ¬ after.Waits pid := by
  intro still
  obtain ⟨next, -, rest⟩ := Option.bind_eq_some_iff.mp switched
  obtain ⟨processes, turned, result⟩ := Option.bind_eq_some_iff.mp rest
  obtain rfl := Option.some.inj result
  have gone := ((ProcessTable.schedule_dispatched turned).present pid).mpr absent
  exact absurd (gone.symm.trans still.ready) (by simp)

/-- Only `createProcess` counts the pids. -/
theorem step_pid {action : SchedulerAction} (stepped : queue.step action = some after) :
    after.pid = queue.pid + (if action.Creates then 1 else 0) := by
  have schedule : ∀ {before next : TurnQueue}, before.schedule = some next →
      next.pid = before.pid := by
    intro before next switched
    obtain ⟨_, -, rest⟩ := Option.bind_eq_some_iff.mp switched
    obtain ⟨_, -, result⟩ := Option.bind_eq_some_iff.mp rest
    rw [← Option.some.inj result]
  cases action with
  | createProcess entryPoint => rw [← Option.some.inj stepped]; rfl
  | next_process rsp => exact (schedule stepped).trans (Int.add_zero _).symm
  | switchKernelToUser => exact (schedule stepped).trans (Int.add_zero _).symm
  | switchUserToKernel esp => rw [← Option.some.inj stepped]; exact (Int.add_zero _).symm
  | changeProcessState other state =>
      rw [← Option.some.inj stepped]
      exact (Int.add_zero _).symm
  | removeProcess other rsp =>
      change queue.removeProcess other = some after at stepped
      refine Eq.trans ?_ (Int.add_zero _).symm
      unfold removeProcess at stepped
      split at stepped
      · exact schedule stepped
      · split at stepped
        · split at stepped
          · exact (schedule stepped).trans rfl
          · rw [← Option.some.inj stepped]
            rfl
        · rw [← Option.some.inj stepped]

/-- Where the process still waits after a call, a switch let one in front of it pass, and only
`createProcess` put one there. -/
theorem Waits.step (waits : queue.Waits pid) (nodup : queue.order.Nodup)
    (current : queue.processes.current ∈ queue.order) (fresh : queue.pid ∉ queue.order)
    {action : SchedulerAction} (stepped : queue.step action = some after)
    (still : after.Waits pid) :
    after.order.idxOf pid + (if action.Switches queue.processes.current then 1 else 0) ≤
      queue.order.idxOf pid + (if action.Creates then 1 else 0) := by
  cases action with
  | createProcess entryPoint =>
      obtain rfl := Option.some.inj stepped
      have other : queue.pid ≠ pid := by
        rintro rfl
        exact fresh waits.member
      change (queue.pid :: queue.order).idxOf pid + 0 ≤ queue.order.idxOf pid + 1
      rw [List.idxOf_cons_ne _ other]
  | next_process rsp => exact waits.schedule nodup stepped still
  | switchKernelToUser => exact waits.schedule nodup stepped still
  | switchUserToKernel esp =>
      obtain rfl := Option.some.inj stepped
      exact Nat.le_refl _
  | changeProcessState other state =>
      obtain rfl := Option.some.inj stepped
      exact Nat.le_refl _
  | removeProcess other rsp =>
      change queue.removeProcess other = some after at stepped
      change _ + (if other = 0 ∨ other = queue.processes.current then 1 else 0) ≤ _ + 0
      unfold removeProcess at stepped
      split at stepped
      · rename_i init
        rw [if_pos (.inl init)]
        exact waits.schedule nodup stepped still
      · rename_i notInit
        split at stepped
        · have gone : (queue.remove other).processes.state other = none := Function.update_self ..
          split at stepped
          · rename_i isCurrent
            have different : pid ≠ other := by
              rintro rfl
              exact schedule_absent stepped gone still
            have passed := (waits.remove different).schedule (nodup.erase other) stepped still
            have shorter : (queue.order.erase other).idxOf pid ≤ queue.order.idxOf pid :=
              idxOf_erase_le different.symm
            change _ ≤ (queue.order.erase other).idxOf pid at passed
            rw [if_pos (.inr isCurrent)]
            omega
          · rename_i notCurrent
            obtain rfl := Option.some.inj stepped
            have different : other ≠ pid := by
              rintro rfl
              exact absurd (gone.symm.trans still.ready) (by simp)
            rw [if_neg (not_or.mpr ⟨notInit, notCurrent⟩)]
            exact idxOf_erase_le different
        · rename_i absent
          obtain rfl := Option.some.inj stepped
          rw [if_neg]
          rintro (init | isCurrent)
          · exact notInit init
          · exact absent (isCurrent ▸ current)

end Waits

end TurnQueue

/-! ## On the ring -/

namespace Scheduler

/-- How many processes `schedule` looks at before it comes to the one of the pid. -/
def passes (s : Scheduler) (pid : Int) : Nat := s.turnOrder.idxOf pid

/-- The process is on the ring and READY. -/
def Waiting (s : Scheduler) (pid : Int) : Prop :=
  ∃ a ∈ s.upcoming, s.pidOf a = pid ∧ (s.processOf a).state = .ready

instance (s : Scheduler) (pid : Int) : Decidable (s.Waiting pid) :=
  inferInstanceAs (Decidable (∃ a ∈ s.upcoming, _))

/-- Who waits in the queue is who waits on the ring. -/
theorem Represents.waits_iff {s : Scheduler} {queue : TurnQueue} (represents : s.Represents queue)
    {pid : Int} : queue.Waits pid ↔ s.Waiting pid := by
  have state := represents.holds.state pid .ready
  constructor
  · exact fun waits => state.mp waits.ready
  · rintro ⟨a, member, isPid, ready⟩
    refine ⟨?_, state.mpr ⟨a, member, isPid, ready⟩⟩
    rw [← represents.order, turnOrder, ← isPid]
    exact List.mem_map_of_mem member

end Scheduler

namespace SchedulerRun

open Scheduler

/-- The call switches to another process. -/
def Switches (state : SchedulerRun) (action : SchedulerAction) : Prop :=
  action.Switches state.scheduler.getCurrentPid

instance (state : SchedulerRun) : DecidablePred state.Switches := fun action =>
  inferInstanceAs (Decidable (action.Switches _))

/-- The call creates a process. -/
def Creates (_ : SchedulerRun) (action : SchedulerAction) : Prop := action.Creates

instance (state : SchedulerRun) : DecidablePred state.Creates := fun action =>
  inferInstanceAs (Decidable action.Creates)

/-- The call leaves the process waiting. -/
def StillWaiting (fuel : Nat) (pid : Int) (state : SchedulerRun) (action : SchedulerAction) :
    Prop :=
  ∀ next ∈ state.step fuel action, next.scheduler.Waiting pid

instance (fuel : Nat) (pid : Int) (state : SchedulerRun) (action : SchedulerAction) :
    Decidable (StillWaiting fuel pid state action) :=
  inferInstanceAs (Decidable (∀ next ∈ state.step fuel action, _))

/-- What holds in every state of a run. -/
structure Followed (state : SchedulerRun) : Prop where
  sound : ∃ slots, state.Sound slots
  queue : ∃ queue, state.scheduler.Represents queue

section Bound

variable {fuel : Nat} {state next final : SchedulerRun} {action : SchedulerAction}
  {actions : List SchedulerAction} {pid : Int}

/-- A step of the ring is followed by the queue. -/
theorem Followed.step (followed : state.Followed) (stepped : state.step fuel action = some next) :
    next.Followed := by
  obtain ⟨⟨slots, sound⟩, queue, represents⟩ := followed
  obtain ⟨slots', sound', -⟩ := sound.step stepped
  obtain ⟨after, -, represents'⟩ := sound.represents_step represents stepped
  exact ⟨⟨slots', sound'⟩, after, represents'⟩

/-- Every run of the ring is followed by the queue. -/
theorem Start.followed_run {start : SchedulerRun} (begins : Start start)
    (ran : run (SchedulerRun.step fuel) start actions = some state) : state.Followed :=
  run_invariant (fun _ _ _ followed stepped => followed.step stepped)
    ⟨begins.sound, _, begins.represents⟩ ran

/-- The pids in use are below the counter, and the pages there are bound the counter. -/
theorem Followed.counter_le (followed : state.Followed) :
    state.scheduler.turnOrder.length ≤ state.scheduler.pid ∧ state.scheduler.pid ≤ 409 := by
  obtain ⟨⟨slots, ring, blocks, linked, stored, within⟩, -⟩ := followed
  have pages : blocks.length ≤ 2048 := stored.consistent.length_le
  obtain ⟨low, high⟩ := stored.counter
  refine ⟨?_, by omega⟩
  have length : state.scheduler.turnOrder.length = state.live.length := by
    rw [turnOrder, List.length_map, upcoming, List.length_iterate, linked.cardinal,
      ← linked.pids.length_eq, List.length_map]
  have below : state.live ⊆ (List.range state.scheduler.pid.toNat).map Int.ofNat := by
    intro pid member
    obtain ⟨a, inside, rfl⟩ := linked.mem_live.mp member
    obtain ⟨least, less⟩ := stored.pid a (within inside)
    exact List.mem_map.mpr ⟨_, List.mem_range.mpr (by omega), Int.toNat_of_nonneg least⟩
  have shorter := (linked.distinct.subperm below).length_le
  rw [List.length_map, List.length_range] at shorter
  omega

/-- Only `createProcess` counts the pids. -/
theorem Followed.step_pid (followed : state.Followed)
    (stepped : state.step fuel action = some next) :
    next.scheduler.pid = state.scheduler.pid + (if Creates state action then 1 else 0) := by
  obtain ⟨⟨slots, sound⟩, queue, represents⟩ := followed
  obtain ⟨after, moved, represents'⟩ := sound.represents_step represents stepped
  rw [represents.pid, represents'.pid]
  exact TurnQueue.step_pid moved

/-- A switch lets one process in front of a waiting one pass, and only `createProcess` puts one
there. -/
theorem Followed.step_passes (followed : state.Followed) (waiting : state.scheduler.Waiting pid)
    (stepped : state.step fuel action = some next) (still : next.scheduler.Waiting pid) :
    next.scheduler.passes pid + (if Switches state action then 1 else 0) ≤
      state.scheduler.passes pid + (if Creates state action then 1 else 0) := by
  obtain ⟨⟨slots, sound⟩, queue, represents⟩ := followed
  obtain ⟨after, moved, represents'⟩ := sound.represents_step represents stepped
  have present := Scheduler.Sound.present sound
  have current : queue.processes.current = state.scheduler.getCurrentPid := by
    rw [getCurrentPid, if_neg present, represents.holds.current]
  have nodup : queue.order.Nodup := represents.order ▸ represents.holds.nodup
  have member : queue.processes.current ∈ queue.order := by
    rw [represents.holds.current, ← represents.order]
    exact List.mem_map_of_mem represents.current
  have fresh : queue.pid ∉ queue.order := by
    obtain ⟨ring, blocks, linked, stored, within⟩ := sound
    rw [← represents.order, ← represents.pid]
    intro used
    obtain ⟨a, inside, isPid⟩ := List.mem_map.mp used
    have below := (stored.pid a (within (linked.mem_upcoming.mpr inside))).2
    omega
  have moves := (represents.waits_iff.mpr waiting).step nodup member fresh moved
    (represents'.waits_iff.mpr still)
  rw [current] at moves
  rw [passes, passes, represents.order, represents'.order]
  exact moves

/-- The processes that can still be created. -/
theorem Followed.creates_le (followed : state.Followed)
    (ran : run (SchedulerRun.step fuel) state actions = some final) :
    state.scheduler.pid + count (SchedulerRun.step fuel) Creates state actions ≤ 409 := by
  induction actions generalizing state with
  | nil =>
      have counter := followed.counter_le.2
      rw [count]
      omega
  | cons action actions ih =>
      obtain ⟨next, stepped, rest⟩ := run_cons_eq_some.mp ran
      have later := ih (followed.step stepped) rest
      rw [followed.step_pid stepped] at later
      rw [count_cons stepped]
      push_cast
      omega

end Bound

/-- A process that is READY all along a run waits for no more switches than there are processes
in front of it and processes created meanwhile, and never for more than 408. -/
theorem switches_le (fuel : Nat) (start : SchedulerRun) (begins : Start start)
    (before : List SchedulerAction) (state : SchedulerRun)
    (reached : run (step fuel) start before = some state) (pid : Int)
    (waiting : state.scheduler.Waiting pid) (actions : List SchedulerAction)
    (still : Along (step fuel) (StillWaiting fuel pid) state actions) (final : SchedulerRun)
    (ran : run (step fuel) state actions = some final) :
    final.scheduler.passes pid + count (step fuel) Switches state actions ≤
      state.scheduler.passes pid + count (step fuel) Creates state actions ∧
    count (step fuel) Switches state actions ≤ 408 := by
  have accounted : ∀ state action next,
      state.Followed ∧ state.scheduler.Waiting pid → StillWaiting fuel pid state action →
      step fuel state action = some next →
      (next.Followed ∧ next.scheduler.Waiting pid) ∧
        next.scheduler.passes pid + (if Switches state action then 1 else 0) ≤
          state.scheduler.passes pid + (if Creates state action then 1 else 0) := by
    rintro state action next ⟨followed, waiting⟩ still stepped
    have waits := still next stepped
    exact ⟨⟨followed.step stepped, waits⟩, followed.step_passes waiting stepped waits⟩
  have followed := begins.followed_run reached
  have passed := (still.account accounted ⟨followed, waiting⟩ ran).2
  refine ⟨passed, ?_⟩
  have created := followed.creates_le ran
  have counter := followed.counter_le.1
  have front : state.scheduler.passes pid < state.scheduler.turnOrder.length := by
    obtain ⟨a, member, isPid, -⟩ := waiting
    exact List.idxOf_lt_length_of_mem (isPid ▸ List.mem_map_of_mem member)
  omega

/-- While the first process waits the second one creates a third one, which runs before it. -/
theorem switches_le_third : ∃ start state final, Start start ∧
    run (step 4) start [.createProcess 0x800000, .next_process 0] = some state ∧
    run (step 4) state [.createProcess 0x900000, .next_process 0] = some final ∧
    final.scheduler.passes 0 +
        count (step 4) Switches state [.createProcess 0x900000, .next_process 0] ≤
      state.scheduler.passes 0 +
        count (step 4) Creates state [.createProcess 0x900000, .next_process 0] := by
  have result : ((emptyMemory.createProcess 0x400000).bind fun made =>
      (run (step 4) ⟨made.1, [made.2]⟩ [.createProcess 0x800000, .next_process 0]).bind fun state =>
        (run (step 4) state [.createProcess 0x900000, .next_process 0]).map fun _ =>
          decide (state.scheduler.Waiting 0 ∧ Along (step 4) (StillWaiting 4 0) state
            [.createProcess 0x900000, .next_process 0])) = some true := by
    rw [emptyMemory, createHeap_eq]
    decide +kernel
  obtain ⟨⟨s, pid⟩, made, rest⟩ := Option.bind_eq_some_iff.mp result
  obtain ⟨state, reached, rest⟩ := Option.bind_eq_some_iff.mp rest
  obtain ⟨final, ran, checked⟩ := Option.map_eq_some_iff.mp rest
  obtain ⟨waiting, still⟩ := of_decide_eq_true checked
  have begins : Start ⟨s, [pid]⟩ := ⟨emptyMemory, 0x400000, pid, emptyMemory_boot, made, rfl⟩
  exact ⟨_, state, final, begins, reached, ran,
    (switches_le 4 _ begins _ state reached 0 waiting _ still final ran).1⟩

end SchedulerRun

end SistemasOperativos.Kernel
