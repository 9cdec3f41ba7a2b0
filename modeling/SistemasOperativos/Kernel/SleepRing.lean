import SistemasOperativos.Kernel.KillingOthers
import SistemasOperativos.Kernel.ProcessLookup
import SistemasOperativos.Kernel.SleepTable

/-!
# The timer tick on the ring

`timerTickHandlerC` with the processes where they are, in the slots of the ring: an entry that is
done makes its process READY with the walk of `changeProcessState`. The table goes through the
same steps as beside a `ProcessTable` (`scan_sleepers`), and of the processes nothing changes but
the states of those it wakes (`scan_processOf`).
-/

namespace SistemasOperativos.Kernel

open SistemasOperativos.Foundation

/-- The sleep table beside the ring of processes. -/
structure TimerKernel where
  sleepers : SleepTable
  scheduler : Scheduler

/-- The entry with its counter one higher. -/
def Sleeper.counted (entry : Sleeper) : Sleeper := { entry with counter := entry.counter + 1 }

/-- Below the largest `int` a counter goes up by one. -/
theorem Sleeper.bump_eq_counted {entry : Sleeper}
    (bound : -2 ^ 31 ≤ entry.counter ∧ entry.counter < 2 ^ 31 - 1) :
    entry.bump = entry.counted := by
  rw [Sleeper.bump, Sleeper.counted, toInt32_of_range (by omega) (by omega)]

namespace Scheduler

variable {s s' : Scheduler} {ring : List Nat} {a : Nat}

theorem WellFormed.same (wellFormed : s.WellFormed ring) (same : SameLinks s s')
    (current : s'.current = s.current) : s'.WellFormed ring := by
  refine ⟨?_, same.cardinal.trans wellFormed.cardinal, ?_, wellFormed.present⟩
  · rw [same.next, current]
    exact wellFormed.closed
  · rw [same.pidOf]
    exact wellFormed.distinct

/-- On the ring `changeProcessState` changes the process with the pid and no other one. -/
theorem WellFormed.changeProcessState_processOf (wellFormed : s.WellFormed ring) (pid : Int)
    (state : ProcessState) (member : a ∈ ring) :
    (s.changeProcessState pid state).processOf a =
      if s.pidOf a = pid then { s.processOf a with state := state } else s.processOf a := by
  have path := wellFormed.closed.path
  rw [changeProcessState, wellFormed.cardinal]
  by_cases here : ∃ b ∈ ring, s.pidOf b = pid
  · obtain ⟨b, onRing, rfl⟩ := here
    rw [changeProcessStateLoop_present path onRing fun c inside =>
      ⟨wellFormed.eq_of_pidOf inside onRing, congrArg s.pidOf⟩]
    by_cases same : s.pidOf a = s.pidOf b
    · obtain rfl := wellFormed.eq_of_pidOf member onRing same
      simp [processOf]
    · have apart : (s.slot a).process ≠ (s.slot b).process := by
        intro sameProcess
        rw [pidOf, pidOf, processOf, processOf, sameProcess] at same
        exact same rfl
      rw [if_neg same, processOf, setProcess_slot, setProcess_ne apart, processOf]
  · have absent : ∀ b ∈ ring, s.pidOf b ≠ pid := fun b inside isPid => here ⟨b, inside, isPid⟩
    rw [changeProcessStateLoop_absent path absent, if_neg (absent a member)]

end Scheduler

namespace TimerKernel

/-- `doneSleeping`. -/
def doneSleeping (kernel : TimerKernel) (index : Nat) : TimerKernel where
  sleepers := kernel.sleepers.deleteSleep index
  scheduler := kernel.scheduler.changeProcessState (kernel.sleepers.sleepPIDS index) .ready

/-- The loop of `timerTickHandlerC` from `auxj` on. Every iteration either moves on
or takes an entry away, so `left`, the entries from `auxj` on, counts them. -/
def scan : Nat → Nat → TimerKernel → TimerKernel
  | 0, _, kernel => kernel
  | left + 1, auxj, kernel =>
      if auxj < kernel.sleepers.sleepListeners then
        let bumped := { kernel with sleepers := kernel.sleepers.bump auxj }
        if bumped.sleepers.sleepCounter auxj = bumped.sleepers.alarmSleep auxj then
          -- `auxj--` and the `auxj++` of the loop leave the index where it is.
          scan left auxj (bumped.doneSleeping auxj)
        else scan left (auxj + 1) bumped
      else kernel

/-- `timerTickHandlerC`, without the clock it prints. -/
def timerTickHandlerC (kernel : TimerKernel) : TimerKernel :=
  scan kernel.sleepers.sleepListeners 0 kernel

/-- The table does not depend on the processes. -/
theorem scan_sleepers (left auxj : Nat) (kernel : TimerKernel) (processes : ProcessTable) :
    (scan left auxj kernel).sleepers =
      (SleepKernel.scan left auxj ⟨kernel.sleepers, processes⟩).sleepers := by
  induction left generalizing auxj kernel processes with
  | zero => rfl
  | succ left ih =>
      rw [scan, SleepKernel.scan]
      dsimp only
      split
      · split
        · exact ih auxj _ _
        · exact ih (auxj + 1) _ _
      · rfl

/-- Entries that are done make their process READY, and the other processes stay as they are. -/
theorem scan_processOf (left auxj : Nat) (kernel : TimerKernel) (ring : List Nat)
    (wellFormed : kernel.scheduler.WellFormed ring)
    (whole : kernel.sleepers.sleepListeners = auxj + left) :
    (scan left auxj kernel).scheduler.WellFormed ring ∧
      (scan left auxj kernel).scheduler.slot = kernel.scheduler.slot ∧
      (scan left auxj kernel).scheduler.current = kernel.scheduler.current ∧
      ∀ a ∈ ring, (scan left auxj kernel).scheduler.processOf a =
        if SleepKernel.Wakes (kernel.sleepers.segment auxj left) (kernel.scheduler.pidOf a)
        then { kernel.scheduler.processOf a with state := .ready }
        else kernel.scheduler.processOf a := by
  induction left generalizing auxj kernel with
  | zero =>
      refine ⟨wellFormed, rfl, rfl, fun a _ => ?_⟩
      rw [scan, if_neg (by simp [SleepKernel.Wakes])]
  | succ left ih =>
      rw [scan, if_pos (by omega), SleepTable.segment_succ]
      have rest := SleepTable.bump_segment_after kernel.sleepers auxj left
      have test := SleepKernel.due_iff kernel.sleepers auxj
      dsimp only
      by_cases due : SleepKernel.Due (kernel.sleepers.entry auxj)
      · rw [if_pos (test.mpr due)]
        have deleted := @SleepTable.deleteSleep_segment
          (kernel.sleepers.bump auxj) auxj left whole
        have shorter := @SleepTable.deleteSleep_sleepListeners
          (kernel.sleepers.bump auxj) auxj
          (by rw [SleepTable.bump_sleepListeners]; omega)
        obtain ⟨same, stays⟩ := kernel.scheduler.changeProcessState_sameRing
          (kernel.sleepers.entry auxj).pid .ready
        obtain ⟨further, slot, current, process⟩ :=
          ih auxj (doneSleeping ⟨kernel.sleepers.bump auxj, kernel.scheduler⟩ auxj)
            (wellFormed.same same.toSameLinks stays)
            (by simp only [doneSleeping, shorter, SleepTable.bump_sleepListeners]; omega)
        refine ⟨further, slot.trans same.slot, current.trans stays, fun a member => ?_⟩
        have woken : (doneSleeping ⟨kernel.sleepers.bump auxj, kernel.scheduler⟩ auxj).scheduler =
            kernel.scheduler.changeProcessState (kernel.sleepers.entry auxj).pid .ready := rfl
        rw [process a member, woken, same.pidOf,
          wellFormed.changeProcessState_processOf _ _ member]
        simp only [doneSleeping, SleepKernel.wakes_perm deleted.2, rest, SleepKernel.wakes_cons]
        by_cases isPid : kernel.scheduler.pidOf a = (kernel.sleepers.entry auxj).pid
        · simp [isPid, due]
        · simp [isPid, Ne.symm isPid]
      · rw [if_neg (fun done => due (test.mp done))]
        obtain ⟨further, slot, current, process⟩ :=
          ih (auxj + 1) ⟨kernel.sleepers.bump auxj, kernel.scheduler⟩ wellFormed
            (by rw [SleepTable.bump_sleepListeners]; omega)
        refine ⟨further, slot, current, fun a member => ?_⟩
        rw [process a member]
        simp only [rest, SleepKernel.wakes_cons, due, and_false, false_or]

/-- One tick counts every entry of the table up once. Exactly the processes of the entries that
reach their alarm by that get READY, and exactly these entries are taken away; the others stay,
each once. -/
theorem timerTickHandlerC_ticks (kernel : TimerKernel) (ring : List Nat)
    (wellFormed : kernel.scheduler.WellFormed ring)
    (counters : ∀ entry ∈ kernel.sleepers.entries,
      -2 ^ 31 ≤ entry.counter ∧ entry.counter < 2 ^ 31 - 1) :
    kernel.timerTickHandlerC.sleepers.entries.Perm
        ((kernel.sleepers.entries.map Sleeper.counted).filter fun entry => ¬ entry.Done) ∧
      kernel.timerTickHandlerC.scheduler.WellFormed ring ∧
      kernel.timerTickHandlerC.scheduler.slot = kernel.scheduler.slot ∧
      kernel.timerTickHandlerC.scheduler.current = kernel.scheduler.current ∧
      ∀ a ∈ ring, kernel.timerTickHandlerC.scheduler.processOf a =
        if ∃ entry ∈ kernel.sleepers.entries,
          entry.pid = kernel.scheduler.pidOf a ∧ entry.counted.Done
        then { kernel.scheduler.processOf a with state := .ready }
        else kernel.scheduler.processOf a := by
  obtain ⟨further, slot, current, process⟩ :=
    scan_processOf kernel.sleepers.sleepListeners 0 kernel ring wellFormed (by omega)
  refine ⟨?_, further, slot, current, fun a member => ?_⟩
  · have table := SleepKernel.timerTickHandlerC_entries ⟨kernel.sleepers, ⟨fun _ => none, 0⟩⟩
    rw [SleepKernel.timerTickHandlerC, ← scan_sleepers _ _ kernel] at table
    have counted : kernel.sleepers.entries.map Sleeper.bump =
        kernel.sleepers.entries.map Sleeper.counted :=
      List.map_congr_left fun entry inside => Sleeper.bump_eq_counted (counters entry inside)
    rw [← counted]
    exact table
  · have wakes : SleepKernel.Wakes kernel.sleepers.entries (kernel.scheduler.pidOf a) ↔
        ∃ entry ∈ kernel.sleepers.entries,
          entry.pid = kernel.scheduler.pidOf a ∧ entry.counted.Done := by
      constructor
      · rintro ⟨entry, inside, isPid, due⟩
        exact ⟨entry, inside, isPid, Sleeper.bump_eq_counted (counters entry inside) ▸ due⟩
      · rintro ⟨entry, inside, isPid, due⟩
        refine ⟨entry, inside, isPid, ?_⟩
        rwa [SleepKernel.Due, Sleeper.bump_eq_counted (counters entry inside)]
    rw [timerTickHandlerC, process a member]
    simp only [← wakes]
    rfl

/-- The first and the third of three processes sleep, for five ticks and for one. -/
def twoAsleep : TimerKernel where
  sleepers := (SleepTable.empty.addSleep 2 1).addSleep 0 5
  scheduler := { Scheduler.threeProcesses with
    process := fun p => { Scheduler.threeProcesses.process p with
      state := if p = 0x2000 then .running else .sleeping } }

/-- The third process wakes up at the first tick. -/
theorem timerTickHandlerC_ticks_two :
    twoAsleep.timerTickHandlerC.sleepers.entries.Perm [⟨0, 1, 5⟩] ∧
      (twoAsleep.timerTickHandlerC.scheduler.processOf 0x3000).state = .ready ∧
      (twoAsleep.timerTickHandlerC.scheduler.processOf 0x1000).state = .sleeping := by
  have wellFormed : twoAsleep.scheduler.WellFormed [0x2000, 0x3000, 0x1000] := by
    refine ⟨⟨⟨rfl, rfl, rfl, rfl⟩, by decide, by decide⟩, rfl, by decide, by decide⟩
  have entries : twoAsleep.sleepers.entries = [⟨2, 0, 1⟩, ⟨0, 0, 5⟩] := by decide
  obtain ⟨table, -, -, -, process⟩ :=
    timerTickHandlerC_ticks twoAsleep _ wellFormed (by rw [entries]; decide)
  rw [entries] at table process
  refine ⟨table, ?_, ?_⟩
  · rw [process 0x3000 (by decide)]
    decide
  · rw [process 0x1000 (by decide)]
    decide

end TimerKernel

end SistemasOperativos.Kernel
