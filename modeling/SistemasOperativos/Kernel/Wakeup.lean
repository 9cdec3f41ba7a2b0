import SistemasOperativos.Kernel.SleepTable
import SistemasOperativos.Semantics.Run

/-!
# Waking up on time

Runs of `sleep` calls and timer ticks. Beside the kernel a run carries the last
`sleep` of every process as a `Nap`: the time it asked for, the ticks since, and
the tick at which the handler made it READY. In a run where every call asks for at
least one tick and finds room in the table, each sleeping process has one entry,
whose counter is the number of ticks since the call, and is woken by the tick it
asked for (`wakes_on_time`). A `sleep(0)` is never woken at its tick, and a call
that finds the table full goes to sleep without an entry (`oversleeps`).
-/

namespace SistemasOperativos.Kernel

open SistemasOperativos.Semantics

/-- The last `sleep` of a process: the time asked for, the ticks since the call, and
the number of the tick that made the process READY. -/
structure Nap where
  time : Int
  ticks : Nat
  woken : Option Nat
  deriving DecidableEq, Repr

/-- A nap that has just begun. -/
def Nap.begin (time : Int) : Nap := ⟨time, 0, none⟩

/-- A tick passes; it wakes the process when the handler takes it from SLEEPING to READY. -/
def Nap.tick (before after : Option ProcessState) (nap : Nap) : Nap where
  time := nap.time
  ticks := nap.ticks + 1
  woken :=
    if nap.woken = none ∧ before = some .sleeping ∧ after = some .ready then some (nap.ticks + 1)
    else nap.woken

/-- The kernel with the naps of the processes. -/
structure SleepRun where
  kernel : SleepKernel
  naps : Int → Option Nap

/-- What happens: the current process sleeps, or the timer ticks. Both end with a
switch to `next`. -/
inductive SleepAction where
  | sleep (time next : Int)
  | timerTick (next : Int)
  deriving DecidableEq, Repr

namespace SleepRun

/-- One action. The argument of `sleep` is an `int` of at least zero. -/
def step (state : SleepRun) : SleepAction → Option SleepRun
  | .sleep time next =>
      if 0 ≤ time ∧ time < 2 ^ 31 then
        (state.kernel.sleep time next).map fun kernel =>
          { kernel
            naps := Function.update state.naps state.kernel.processes.current
              (some (Nap.begin time)) }
      else none
  | .timerTick next =>
      (state.kernel.timerTick next).map fun kernel =>
        { kernel
          naps := fun pid => (state.naps pid).map (Nap.tick (state.kernel.processes.state pid)
            (state.kernel.timerTickHandlerC.processes.state pid)) }

/-- Any processes, none of them asleep, and an empty table. -/
structure Start (state : SleepRun) : Prop where
  empty : state.kernel.sleepers.sleepListeners = 0
  present : state.kernel.processes.state state.kernel.processes.current ≠ none
  awake : ∀ pid, state.kernel.processes.state pid ≠ some .sleeping
  fresh : ∀ pid, state.naps pid = none

/-- The number of entries of a process. -/
def entriesOf (state : SleepRun) (pid : Int) : Nat :=
  (state.kernel.sleepers.entries.map Sleeper.pid).count pid

/-- Every SLEEPING process has one entry, and the process of a nap is made READY by
the tick number `max 1 time` after its call and by no earlier one. -/
structure OnTime (state : SleepRun) : Prop where
  recorded : ∀ pid, state.kernel.processes.state pid = some .sleeping → state.entriesOf pid = 1
  woken : ∀ pid nap, state.naps pid = some nap →
    nap.woken = if (nap.ticks : Int) < max 1 nap.time then none else some (max 1 nap.time).toNat

/-- The condition on a step: a `sleep` asks for a tick at least and finds room. -/
def HasRoom (state : SleepRun) : SleepAction → Prop
  | .sleep time _ => 1 ≤ time ∧ state.kernel.sleepers.sleepListeners < MAX_LISTENERS
  | .timerTick _ => True

instance (state : SleepRun) (action : SleepAction) : Decidable (state.HasRoom action) :=
  match action with
  | .sleep _ _ => inferInstanceAs (Decidable (_ ∧ _))
  | .timerTick _ => inferInstanceAs (Decidable True)

/-- The entry belongs to a nap that is not over. -/
structure Counts (nap : Nap) (entry : Sleeper) : Prop where
  counter : entry.counter = nap.ticks
  alarm : entry.alarm = nap.time
  early : (nap.ticks : Int) < nap.time
  asleep : nap.woken = none

/-- The invariant of the runs: the entries are the naps that are not over. -/
structure Scheduled (state : SleepRun) : Prop where
  distinct : (state.kernel.sleepers.entries.map Sleeper.pid).Nodup
  sleeping : ∀ pid, state.kernel.processes.state pid = some .sleeping ↔
    ∃ entry ∈ state.kernel.sleepers.entries, entry.pid = pid
  counted : ∀ entry ∈ state.kernel.sleepers.entries,
    ∃ nap, state.naps entry.pid = some nap ∧ Counts nap entry
  asked : ∀ pid nap, state.naps pid = some nap → 1 ≤ nap.time ∧ nap.time < 2 ^ 31
  finished : ∀ pid nap, state.naps pid = some nap →
    state.kernel.processes.state pid ≠ some .sleeping →
    nap.time ≤ nap.ticks ∧ nap.woken = some nap.time.toNat
  awake : state.kernel.processes.state state.kernel.processes.current ≠ some .sleeping
  present : state.kernel.processes.state state.kernel.processes.current ≠ none

theorem Start.scheduled {state : SleepRun} (start : Start state) : Scheduled state := by
  have none_yet : state.kernel.sleepers.entries = [] := by
    rw [SleepTable.entries, start.empty, SleepTable.segment_zero]
  refine ⟨by simp [none_yet], ?_, by simp [none_yet], ?_, ?_, start.awake _, start.present⟩
  · intro pid
    simp [none_yet, start.awake pid]
  · intro pid nap napping
    rw [start.fresh pid] at napping
    cases napping
  · intro pid nap napping
    rw [start.fresh pid] at napping
    cases napping

theorem Scheduled.onTime {state : SleepRun} (scheduled : Scheduled state) : OnTime state := by
  refine ⟨?_, ?_⟩
  · intro pid asleep
    obtain ⟨entry, inside, same⟩ := (scheduled.sleeping pid).mp asleep
    exact List.count_eq_one_of_mem scheduled.distinct (List.mem_map.mpr ⟨entry, inside, same⟩)
  · intro pid nap napping
    have atLeastOne : max 1 nap.time = nap.time :=
      Int.max_eq_right (scheduled.asked pid nap napping).1
    rw [atLeastOne]
    by_cases asleep : state.kernel.processes.state pid = some .sleeping
    · obtain ⟨entry, inside, rfl⟩ := (scheduled.sleeping pid).mp asleep
      obtain ⟨other, here, counts⟩ := scheduled.counted entry inside
      obtain rfl := Option.some.inj (here.symm.trans napping)
      rw [if_pos counts.early, counts.asleep]
    · obtain ⟨late, woken⟩ := scheduled.finished pid nap napping asleep
      rw [if_neg (by omega), woken]

/-! ## `sleep` -/

/-- A `sleep` that asks for a tick and finds room adds the entry of its nap. -/
theorem Scheduled.sleep {state : SleepRun} (scheduled : Scheduled state) {time next : Int}
    {kernel : SleepKernel} (positive : 1 ≤ time) (ranged : time < 2 ^ 31)
    (room : state.kernel.sleepers.sleepListeners < MAX_LISTENERS)
    (slept : state.kernel.sleep time next = some kernel) :
    Scheduled ⟨kernel, Function.update state.naps state.kernel.processes.current
      (some (Nap.begin time))⟩ := by
  obtain ⟨processes, switched, rfl⟩ := Option.map_eq_some_iff.mp slept
  have entries := SleepTable.addSleep_entries room state.kernel.processes.current time
  have asleep (pid : Int) : processes.state pid = some .sleeping ↔
      pid = state.kernel.processes.current ∨
        state.kernel.processes.state pid = some .sleeping := by
    rw [ProcessTable.schedule_sleeping switched, ProcessTable.changeProcessState_state]
    split
    · rename_i same
      subst same
      obtain ⟨current, here⟩ := Option.ne_none_iff_exists'.mp scheduled.present
      simp [ProcessTable.getCurrentPid, here]
    · rename_i other
      simp [show pid ≠ state.kernel.processes.current from other]
  have others {entry : Sleeper} (inside : entry ∈ state.kernel.sleepers.entries) :
      entry.pid ≠ state.kernel.processes.current := by
    intro same
    exact scheduled.awake ((scheduled.sleeping _).mpr ⟨entry, inside, same⟩)
  refine ⟨?_, ?_, ?_, ?_, ?_, ?_, ?_⟩
  · simp only [ProcessTable.getCurrentPid, entries, List.map_append, List.map_singleton]
    rw [List.nodup_append]
    refine ⟨scheduled.distinct, List.nodup_singleton _, ?_⟩
    intro pid listed other rest same
    obtain ⟨entry, inside, rfl⟩ := List.mem_map.mp listed
    rw [List.mem_singleton] at rest
    exact others inside (same.trans rest)
  · intro pid
    simp only [ProcessTable.getCurrentPid, entries, asleep, List.mem_append,
      List.mem_singleton]
    constructor
    · rintro (rfl | before)
      · exact ⟨_, .inr rfl, rfl⟩
      · obtain ⟨entry, inside, same⟩ := (scheduled.sleeping pid).mp before
        exact ⟨entry, .inl inside, same⟩
    · rintro ⟨entry, inside | rfl, same⟩
      · exact .inr ((scheduled.sleeping pid).mpr ⟨entry, inside, same⟩)
      · exact .inl same.symm
  · intro entry inside
    simp only [ProcessTable.getCurrentPid, entries, List.mem_append, List.mem_singleton] at inside
    rcases inside with inside | rfl
    · dsimp only
      rw [Function.update_of_ne (others inside)]
      exact scheduled.counted entry inside
    · refine ⟨Nap.begin time, Function.update_self _ _ _, rfl, rfl, ?_, rfl⟩
      simp only [Nap.begin]
      omega
  · intro pid nap napping
    dsimp only at napping
    by_cases same : pid = state.kernel.processes.current
    · subst same
      rw [Function.update_self] at napping
      obtain rfl := Option.some.inj napping
      exact ⟨positive, ranged⟩
    · rw [Function.update_of_ne same] at napping
      exact scheduled.asked pid nap napping
  · intro pid nap napping up
    dsimp only at napping
    by_cases same : pid = state.kernel.processes.current
    · exact absurd ((asleep pid).mpr (.inl same)) up
    · rw [Function.update_of_ne same] at napping
      exact scheduled.finished pid nap napping fun before => up ((asleep pid).mpr (.inr before))
  · rw [ProcessTable.schedule_running switched]
    simp
  · rw [ProcessTable.schedule_running switched]
    simp

/-! ## Timer ticks -/

/-- The counter of a nap that is not over goes up without overflow. -/
theorem Counts.bump {nap : Nap} {entry : Sleeper} (counts : Counts nap entry)
    (ranged : nap.time < 2 ^ 31) : entry.bump.counter = nap.ticks + 1 := by
  have early := counts.early
  rw [Sleeper.bump, counts.counter, toInt32_of_range (by omega) (by omega)]

/-- A nap is done at the tick it asked for. -/
theorem Counts.due {nap : Nap} {entry : Sleeper} (counts : Counts nap entry)
    (ranged : nap.time < 2 ^ 31) : SleepKernel.Due entry ↔ (nap.ticks + 1 : Int) = nap.time := by
  rw [SleepKernel.Due, Sleeper.Done, counts.bump ranged, Sleeper.bump_alarm, counts.alarm]

/-- In a scheduled state the entry of a sleeping process decides whether it wakes up. -/
theorem Scheduled.wakes_iff {state : SleepRun} (scheduled : Scheduled state) {entry : Sleeper}
    (inside : entry ∈ state.kernel.sleepers.entries) :
    SleepKernel.Wakes state.kernel.sleepers.entries entry.pid ↔ SleepKernel.Due entry := by
  constructor
  · rintro ⟨other, listed, same, due⟩
    rwa [List.inj_on_of_nodup_map scheduled.distinct listed inside same] at due
  · intro due
    exact ⟨entry, inside, rfl, due⟩

theorem mem_ticked {entries : List Sleeper} {entry : Sleeper} :
    entry ∈ SleepKernel.ticked entries ↔
      ∃ before ∈ entries, before.bump = entry ∧ ¬ SleepKernel.Due before := by
  simp only [SleepKernel.ticked, List.mem_filter, List.mem_map, decide_eq_true_eq]
  constructor
  · rintro ⟨⟨before, inside, rfl⟩, waits⟩
    exact ⟨before, inside, rfl, waits⟩
  · rintro ⟨before, inside, rfl, waits⟩
    exact ⟨⟨before, inside, rfl⟩, waits⟩

/-- A tick counts every nap up and ends those that are due. -/
theorem Scheduled.timerTick {state : SleepRun} (scheduled : Scheduled state) {next : Int}
    {kernel : SleepKernel} (ticked : state.kernel.timerTick next = some kernel) :
    Scheduled ⟨kernel, fun pid => (state.naps pid).map (Nap.tick
      (state.kernel.processes.state pid)
      (state.kernel.timerTickHandlerC.processes.state pid))⟩ := by
  obtain ⟨processes, switched, rfl⟩ := Option.map_eq_some_iff.mp ticked
  have entries := state.kernel.timerTickHandlerC_entries
  have states := state.kernel.timerTickHandlerC_state
  have member (entry : Sleeper) : entry ∈ state.kernel.timerTickHandlerC.sleepers.entries ↔
      ∃ before ∈ state.kernel.sleepers.entries, before.bump = entry ∧
        ¬ SleepKernel.Due before :=
    entries.mem_iff.trans mem_ticked
  -- A process sleeps on exactly when its entry is not due.
  have asleep (pid : Int) : processes.state pid = some .sleeping ↔
      state.kernel.processes.state pid = some .sleeping ∧
        ¬ SleepKernel.Wakes state.kernel.sleepers.entries pid := by
    rw [ProcessTable.schedule_sleeping switched, states]
    split
    · rename_i wakes
      cases state.kernel.processes.state pid <;> simp [wakes]
    · rename_i waits
      simp [waits]
  refine ⟨?_, ?_, ?_, ?_, ?_, ?_, ?_⟩
  · have same := (entries.map Sleeper.pid).nodup_iff
    refine same.mpr ?_
    have kept : ((SleepKernel.ticked state.kernel.sleepers.entries).map Sleeper.pid).Sublist
        (state.kernel.sleepers.entries.map Sleeper.pid) := by
      have filtered := (List.filter_sublist (p := fun entry : Sleeper => ¬ entry.Done)
        (l := state.kernel.sleepers.entries.map Sleeper.bump)).map Sleeper.pid
      rwa [List.map_map] at filtered
    exact kept.nodup scheduled.distinct
  · intro pid
    rw [asleep, scheduled.sleeping]
    constructor
    · rintro ⟨⟨entry, inside, rfl⟩, waits⟩
      refine ⟨entry.bump, (member _).mpr ⟨entry, inside, rfl, ?_⟩, rfl⟩
      rwa [scheduled.wakes_iff inside] at waits
    · rintro ⟨entry, inside, rfl⟩
      obtain ⟨before, listed, rfl, waits⟩ := (member _).mp inside
      refine ⟨⟨before, listed, rfl⟩, ?_⟩
      rw [Sleeper.bump_pid, scheduled.wakes_iff listed]
      exact waits
  · intro entry inside
    obtain ⟨before, listed, rfl, waits⟩ := (member entry).mp inside
    obtain ⟨nap, napping, counts⟩ := scheduled.counted before listed
    have ranged := (scheduled.asked _ nap napping).2
    have sleeps := (scheduled.sleeping before.pid).mpr ⟨before, listed, rfl⟩
    have still : state.kernel.timerTickHandlerC.processes.state before.pid = some .sleeping := by
      rw [states, if_neg (by rwa [scheduled.wakes_iff listed]), sleeps]
    refine ⟨_, congrArg (Option.map _) napping, ?_, ?_, ?_, ?_⟩
    · rw [counts.bump ranged]
      simp [Nap.tick]
    · exact counts.alarm
    · have later : (nap.ticks + 1 : Int) ≠ nap.time := fun due =>
        waits ((counts.due ranged).mpr due)
      have early := counts.early
      simp only [Nap.tick]
      omega
    · simp [Nap.tick, sleeps, still, counts.asleep]
  · intro pid nap napping
    obtain ⟨before, here, rfl⟩ := Option.map_eq_some_iff.mp napping
    exact scheduled.asked pid before here
  · intro pid nap napping up
    obtain ⟨before, here, rfl⟩ := Option.map_eq_some_iff.mp napping
    rw [Ne, asleep] at up
    by_cases sleeps : state.kernel.processes.state pid = some .sleeping
    · -- The process slept until this tick.
      have wakes : SleepKernel.Wakes state.kernel.sleepers.entries pid := by
        by_contra waits
        exact up ⟨sleeps, waits⟩
      obtain ⟨entry, inside, rfl⟩ := (scheduled.sleeping pid).mp sleeps
      obtain ⟨other, napping, counts⟩ := scheduled.counted entry inside
      obtain rfl := Option.some.inj (napping.symm.trans here)
      have due := (counts.due (scheduled.asked _ _ here).2).mp
        ((scheduled.wakes_iff inside).mp wakes)
      have ready : state.kernel.timerTickHandlerC.processes.state entry.pid = some .ready := by
        rw [states, if_pos wakes, sleeps]
        rfl
      refine ⟨?_, ?_⟩
      · simp only [Nap.tick]
        omega
      · simp only [Nap.tick, counts.asleep, sleeps, ready, and_self, if_true, ← due]
        rfl
    · obtain ⟨late, woken⟩ := scheduled.finished pid before here sleeps
      refine ⟨?_, ?_⟩
      · simp only [Nap.tick]
        omega
      · simp [Nap.tick, sleeps, woken]
  · rw [ProcessTable.schedule_running switched]
    simp
  · rw [ProcessTable.schedule_running switched]
    simp

/-! ## Runs -/

theorem scheduled_step (state : SleepRun) (action : SleepAction) (next : SleepRun)
    (scheduled : Scheduled state) (room : state.HasRoom action)
    (stepped : state.step action = some next) : Scheduled next := by
  cases action with
  | sleep time target =>
      simp only [step] at stepped
      split at stepped
      · rename_i ranged
        obtain ⟨kernel, slept, rfl⟩ := Option.map_eq_some_iff.mp stepped
        exact scheduled.sleep room.1 ranged.2 room.2 slept
      · cases stepped
  | timerTick target =>
      obtain ⟨kernel, ticked, rfl⟩ := Option.map_eq_some_iff.mp stepped
      exact scheduled.timerTick ticked

/-- In every run where each `sleep` asks for a tick at least and finds room, the
sleeping processes have one entry each and wake up at the tick they asked for. -/
theorem wakes_on_time {state final : SleepRun} {actions : List SleepAction}
    (start : Start state) (room : Along step HasRoom state actions)
    (ran : run step state actions = some final) : OnTime final := by
  have scheduled : Scheduled final :=
    Along.invariant scheduled_step start.scheduled room ran
  exact scheduled.onTime

/-- `count` READY processes, the first of which is current. -/
def crowd (count : Nat) : SleepRun where
  kernel :=
    { sleepers := .empty
      processes :=
        { state := fun pid => if 0 ≤ pid ∧ pid < count then some .ready else none
          current := 0 } }
  naps := fun _ => none

theorem crowd_start {count : Nat} (some_process : 0 < count) : Start (crowd count) := by
  refine ⟨rfl, ?_, ?_, fun _ => rfl⟩
  · simp [crowd, some_process]
  · intro pid
    simp only [crowd]
    split <;> simp

/-- Two processes sleep, and the timer ticks until both are up again. -/
def bothWake : List SleepAction :=
  [.sleep 2 1, .timerTick 2, .sleep 1 1, .timerTick 0, .timerTick 2]

theorem bothWake_wakes_on_time : ∃ final, run step (crowd 3) bothWake = some final ∧
    final.naps 0 = some ⟨2, 3, some 2⟩ ∧ final.naps 2 = some ⟨1, 2, some 1⟩ ∧
    OnTime final := by
  have ends : (run step (crowd 3) bothWake).map (fun final => (final.naps 0, final.naps 2)) =
      some (some ⟨2, 3, some 2⟩, some ⟨1, 2, some 1⟩) := by
    decide +kernel
  obtain ⟨final, ran, result⟩ := Option.map_eq_some_iff.mp ends
  simp only [Prod.mk.injEq] at result
  exact ⟨final, ran, result.1, result.2,
    wakes_on_time (crowd_start (by omega)) (by decide +kernel) ran⟩

/-- Fifty-one processes call `sleep` one after another. -/
def overcrowded : List SleepAction :=
  (List.range 51).map fun pid => .sleep 5 (pid + 1)

/-- A `sleep(0)` is not over after a tick, and the fifty-first sleeping process has
no entry. -/
theorem oversleeps : Start (crowd 2) ∧ Start (crowd 52) ∧
    (∃ final, run step (crowd 2) [.sleep 0 1, .timerTick 1] = some final ∧
      final.naps 0 = some ⟨0, 1, none⟩ ∧ ¬ OnTime final) ∧
    ∃ final, run step (crowd 52) overcrowded = some final ∧
      final.kernel.processes.state 50 = some .sleeping ∧ final.entriesOf 50 = 0 ∧
      ¬ OnTime final := by
  have unwoken : (run step (crowd 2) [.sleep 0 1, .timerTick 1]).map (fun final =>
      final.naps 0) = some (some ⟨0, 1, none⟩) := by
    decide +kernel
  have unrecorded : (run step (crowd 52) overcrowded).map (fun final =>
      (final.kernel.processes.state 50, final.entriesOf 50)) = some (some .sleeping, 0) := by
    decide +kernel
  refine ⟨crowd_start (by omega), crowd_start (by omega), ?_, ?_⟩
  · obtain ⟨final, ran, napping⟩ := Option.map_eq_some_iff.mp unwoken
    refine ⟨final, ran, napping, ?_⟩
    intro onTime
    have woken := onTime.woken 0 _ napping
    revert woken
    decide
  · obtain ⟨final, ran, result⟩ := Option.map_eq_some_iff.mp unrecorded
    simp only [Prod.mk.injEq] at result
    obtain ⟨asleep, missing⟩ := result
    refine ⟨final, ran, asleep, missing, ?_⟩
    intro onTime
    have recorded := onTime.recorded 50 asleep
    omega

end SleepRun

end SistemasOperativos.Kernel
