import SistemasOperativos.Kernel.ProcessRing
import SistemasOperativos.Kernel.SleepTable
import SistemasOperativos.Kernel.StateAssignments

/-!
# The process that always runs

Runs of all the calls that assign process states: those on mutexes, semaphores and
pipes, `sleep`, the timer tick with its handler, and processes that come and go. A
step is what happens up to the call of `schedule` (`advance`), and then the switch.
The loop of `schedule` only ends when it meets a READY process, which `init`,
process 0, is there for. Nothing takes it from READY or RUNNING but a `lockMutex` that
finds the queue full and has 0 in its unassigned variable
(`init_keeps_schedule_going`, `init_gets_blocked`).
-/

namespace SistemasOperativos.Kernel

open SistemasOperativos.Semantics

/-- The kernel with the sleep table. -/
structure KernelRun where
  ipc : IpcRun
  sleepers : SleepTable

/-- What the current process, or the timer, does. `next` is the process that
`schedule` picks if it is called. -/
inductive KernelAction where
  | call (call : IpcCall) (garbage next : Int)
  | resume (garbage next : Int)
  | sleep (time next : Int)
  | timerTick (next : Int)
  | createProcess (pid : Int) (owner : PipeOwner)
  | removeProcess (pid next : Int)

namespace KernelAction

/-- The process to switch to. `createProcess` does not switch. -/
def next : KernelAction → Int
  | .call _ _ next | .resume _ next | .sleep _ next | .timerTick next
  | .removeProcess _ next => next
  | .createProcess _ _ => 0

end KernelAction

namespace KernelRun

/-- The processes. -/
def processes (state : KernelRun) : ProcessTable := state.ipc.kernel.processes

/-- The process that runs. -/
def current (state : KernelRun) : Int := state.processes.current

/-- Replace the processes. -/
def setProcesses (state : KernelRun) (processes : ProcessTable) : KernelRun :=
  { state with ipc := state.ipc.setProcesses processes }

/-- Take over what a part of a call did, and whether it ends with `_yield`. -/
def settle (state : KernelRun) : IpcState × IpcOutcome → KernelRun × Bool
  | (kernel, outcome) =>
      ({ state with ipc := state.ipc.settle kernel outcome }, IpcRun.yields outcome)

/-- A step up to the call of `schedule`, and whether there is one. The argument of
`sleep` is an `int` of at least zero. -/
def advance (state : KernelRun) : KernelAction → Option (KernelRun × Bool)
  | .call call garbage next => (state.ipc.perform (.call call garbage next)).map state.settle
  | .resume garbage next => (state.ipc.perform (.resume garbage next)).map state.settle
  | .sleep time _ =>
      if (state.ipc.Calls ∧ state.ipc.pending state.current = none) ∧
          0 ≤ time ∧ time < 2 ^ 31 then
        let slept := state.setProcesses
          (state.processes.changeProcessState state.current .sleeping)
        some ({ slept with sleepers := state.sleepers.addSleep state.current time }, true)
      else none
  | .timerTick _ =>
      let handled := SleepKernel.timerTickHandlerC ⟨state.sleepers, state.processes⟩
      some ({ state.setProcesses handled.processes with sleepers := handled.sleepers }, true)
  | .createProcess pid owner =>
      if 0 ≤ pid ∧ pid < 2 ^ 31 ∧ state.processes.state pid = none then
        some ({ state with ipc := state.ipc.createProcess pid owner }, false)
      else none
  | .removeProcess pid _ =>
      if pid = 0 then some (state, true)
      else if state.processes.state pid = none then some (state, false)
      else
        some (state.setProcesses
          { state.processes with state := Function.update state.processes.state pid none },
          decide (pid = state.current))

/-- Switch to `next`. -/
def dispatch (state : KernelRun) (next : Int) : Option KernelRun :=
  (state.processes.schedule next).map state.setProcesses

/-- One step, with the switch. -/
def step (state : KernelRun) (action : KernelAction) : Option KernelRun :=
  (state.advance action).bind fun (after, switches) =>
    if switches then after.dispatch action.next else some after

/-- The system after `main`, with nobody asleep. -/
def boot (init shell : PipeOwner) : KernelRun where
  ipc := IpcRun.boot init shell
  sleepers := SleepTable.empty

@[simp] theorem setProcesses_processes (state : KernelRun) (processes : ProcessTable) :
    (state.setProcesses processes).processes = processes := rfl

/-! ## What a switch needs -/

/-- `init` can run, and only the current process is RUNNING. -/
structure InitRuns (processes : ProcessTable) : Prop where
  init : processes.state 0 = some .ready ∨ processes.state 0 = some .running
  alone : ∀ pid, processes.state pid = some .running → pid = processes.current

/-- What is to hold when `schedule` is called: `init` can run, the loop ends on every ring
that holds the processes, and the process it picks was READY and is the only RUNNING one. -/
structure Schedules (processes : ProcessTable) : Prop extends InitRuns processes where
  ends : ∀ (s : Scheduler) (ring : List Nat) (fuel : Nat), s.Holds processes ring →
    ring.length ≤ fuel → ∃ s' next after ring', s.schedule fuel = some s' ∧
      processes.schedule next = some after ∧ s'.Holds after ring'
  picks : ∀ next after, processes.schedule next = some after →
    after.current = next ∧ processes.preempt.state next = some .ready ∧
      after.state next = some .running ∧ ∀ pid, after.state pid = some .running → pid = next

section Invariant

variable {a b : ProcessTable}

/-- `init` is READY once the current process gave up its turn. -/
theorem InitRuns.preempt (runs : InitRuns a) : a.preempt.state 0 = some .ready := by
  rw [ProcessTable.preempt_state]
  split
  · rfl
  · rename_i stays
    rcases runs.init with ready | running
    · exact ready
    · exact absurd ⟨runs.alone 0 running, running⟩ stays

/-- Nobody is RUNNING between the two assignments of `schedule`. -/
theorem InitRuns.preempt_ne (runs : InitRuns a) (pid : Int) :
    a.preempt.state pid ≠ some .running := by
  rw [ProcessTable.preempt_state]
  split
  · simp
  · rename_i stays
    exact fun running => stays ⟨runs.alone pid running, running⟩

/-- The process that a switch picks is RUNNING, was READY, and nobody else is RUNNING. -/
theorem InitRuns.picked (runs : InitRuns a) {next : Int} (switched : a.schedule next = some b) :
    b.current = next ∧ a.preempt.state next = some .ready ∧ b.state next = some .running ∧
      ∀ pid, b.state pid = some .running → pid = next := by
  unfold ProcessTable.schedule at switched
  split at switched
  · rename_i ready
    obtain rfl := Option.some.inj switched
    refine ⟨rfl, ready, ?_, fun pid running => ?_⟩
    · rw [ProcessTable.changeProcessState_state, if_pos rfl, ready]
      rfl
    · by_contra other
      rw [ProcessTable.changeProcessState_ne other] at running
      exact runs.preempt_ne pid running
  · cases switched

/-- While the first process can run, `schedule` ends. -/
theorem InitRuns.schedules (runs : InitRuns a) : Schedules a where
  toInitRuns := runs
  ends s ring fuel holds enough := by
    obtain ⟨s', next, after, ring', scheduled, switched, held, -, -⟩ :=
      holds.schedule runs.preempt enough
    exact ⟨s', next, after, ring', scheduled, switched, held⟩
  picks _ _ switched := runs.picked switched

/-- A switch leaves `init` READY, or RUNNING when it picks it. -/
theorem InitRuns.switch (runs : InitRuns a) {next : Int} (switched : a.schedule next = some b) :
    InitRuns b := by
  obtain ⟨current, -, running, only⟩ := runs.picked switched
  refine ⟨?_, fun pid here => (only pid here).trans current.symm⟩
  by_cases picked : 0 = next
  · exact .inr (picked ▸ running)
  · have ready := runs.preempt
    unfold ProcessTable.schedule at switched
    split at switched
    · obtain rfl := Option.some.inj switched
      rw [← ProcessTable.changeProcessState_ne picked] at ready
      exact .inl ready
    · cases switched

/-- Calls that do not block `init` keep it READY or RUNNING. -/
theorem InitRuns.assigns {blocks : Int → Prop} (runs : InitRuns a) (assigns : Assigns blocks a b)
    (spared : ¬ blocks 0) : InitRuns b := by
  refine ⟨?_, fun pid running => ?_⟩
  · rcases assigns.kept spared with same | ⟨-, ready⟩
    · rw [same]
      exact runs.init
    · exact .inl ready
  · rw [assigns.current]
    exact runs.alone pid (assigns.of_running running)

/-- A process other than `init` goes to sleep. -/
theorem InitRuns.sleep (runs : InitRuns a) {pid : Int} (other : 0 ≠ pid) :
    InitRuns (a.changeProcessState pid .sleeping) := by
  refine ⟨?_, fun q running => ?_⟩
  · rw [ProcessTable.changeProcessState_ne other]
    exact runs.init
  · rw [ProcessTable.changeProcessState_state] at running
    rw [ProcessTable.changeProcessState_current]
    split at running
    · obtain ⟨_, -, sleeps⟩ := Option.map_eq_some_iff.mp running
      cases sleeps
    · exact runs.alone q running

/-- A process comes or goes. -/
theorem InitRuns.update (runs : InitRuns a) {pid : Int} (other : 0 ≠ pid)
    {processState : Option ProcessState} (idle : processState ≠ some .running) :
    InitRuns { a with state := Function.update a.state pid processState } := by
  refine ⟨?_, fun q running => ?_⟩
  · simp only [Function.update_of_ne other]
    exact runs.init
  · by_cases same : q = pid
    · subst same
      simp only [Function.update_self] at running
      exact absurd running idle
    · simp only [Function.update_of_ne same] at running
      exact runs.alone q running

end Invariant

/-- The handler of the timer tick only makes processes READY. -/
theorem scan_assigns (blocks : Int → Prop) (left auxj : Nat) (kernel : SleepKernel) :
    Assigns blocks kernel.processes (SleepKernel.scan left auxj kernel).processes := by
  induction left generalizing auxj kernel with
  | zero => exact .refl _
  | succ left ih =>
      rw [SleepKernel.scan]
      split
      · dsimp only
        split
        · have rest := ih auxj
            (SleepKernel.doneSleeping ⟨kernel.sleepers.bump auxj, kernel.processes⟩ auxj)
          exact .trans (.ready _ (.refl _)) rest
        · exact ih (auxj + 1) ⟨kernel.sleepers.bump auxj, kernel.processes⟩
      · exact .refl _

/-! ## The ring of a run -/

theorem boot_processes (init shell : PipeOwner) : (boot init shell).processes =
    { state := Function.update (Function.update (fun _ => none) 0 (some .ready)) 1 (some .ready)
      current := 0 } := rfl

/-- The ring after the two calls of `createProcess` in `main` holds the processes at boot. -/
theorem boot_holds (init shell : PipeOwner) {empty first second : Scheduler}
    {entry entry' : Nat} {pid pid' : Int} (unused : SchedulerRun.Boot empty)
    (made : empty.createProcess entry = some (first, pid))
    (made' : first.createProcess entry' = some (second, pid')) :
    ∃ ring, second.Holds (boot init shell).processes ring ∧ second.current ∈ ring := by
  rw [boot_processes]
  exact Scheduler.Boot.holds unused made made'

/-! ## Every run -/

/-- The condition on a step: when a lock in the call finds its queue full, the variable
that it leaves unassigned does not hold 0. -/
def SparesInit (state : KernelRun) : KernelAction → Prop
  | .call call garbage _ => state.ipc.kernel.FindsFull call → garbage ≠ 0
  | .resume garbage _ =>
      match state.ipc.pending state.current with
      | some pending => state.ipc.kernel.RestFindsFull pending → garbage ≠ 0
      | none => True
  | _ => True

instance (state : KernelRun) (action : KernelAction) : Decidable (state.SparesInit action) :=
  match action with
  | .call _ _ _ | .sleep _ _ | .timerTick _ | .createProcess _ _ | .removeProcess _ _ => by
      unfold SparesInit
      infer_instance
  | .resume garbage _ =>
      match stands : state.ipc.pending state.current with
      | some pending =>
          decidable_of_iff (state.ipc.kernel.RestFindsFull pending → garbage ≠ 0)
            (by simp only [SparesInit, stands])
      | none => .isTrue (by simp only [SparesInit, stands])

/-- A caller is not `init`, so a call blocks `init` only through the unassigned variable. -/
theorem not_mayBlock {state : KernelRun} (calls : state.ipc.Calls) {garbage : Int} {reads : Prop}
    (spares : reads → garbage ≠ 0) : ¬ MayBlock state.current garbage reads 0 := by
  rintro (caller | ⟨here, same⟩)
  · exact absurd calls.1 (by rw [IpcRun.current]; exact caller ▸ lt_irrefl _)
  · exact spares here same.symm

/-- What happens before `schedule` leaves `init` READY or RUNNING. -/
theorem advance_initRuns {state after : KernelRun} {action : KernelAction} {switches : Bool}
    (runs : InitRuns state.processes) (spares : state.SparesInit action)
    (advanced : state.advance action = some (after, switches)) : InitRuns after.processes := by
  cases action with
  | call call garbage next =>
      obtain ⟨⟨kernel, outcome⟩, performed, pair⟩ := Option.map_eq_some_iff.mp advanced
      obtain ⟨rfl, -⟩ := Prod.mk.inj pair
      simp only [IpcRun.perform] at performed
      split at performed
      · rename_i calls
        exact runs.assigns (IpcState.enter_assigns performed) (not_mayBlock calls.1 spares)
      · cases performed
  | resume garbage next =>
      obtain ⟨⟨kernel, outcome⟩, performed, pair⟩ := Option.map_eq_some_iff.mp advanced
      obtain ⟨rfl, -⟩ := Prod.mk.inj pair
      simp only [IpcRun.perform] at performed
      split at performed
      · rename_i calls
        obtain ⟨pending, stands, resumed⟩ := Option.bind_eq_some_iff.mp performed
        change state.ipc.pending state.current = some pending at stands
        simp only [SparesInit, stands] at spares
        exact runs.assigns (IpcState.resume_assigns resumed) (not_mayBlock calls spares)
      · cases performed
  | sleep time next =>
      simp only [advance] at advanced
      split at advanced
      · rename_i calls
        obtain ⟨rfl, -⟩ := Prod.mk.inj (Option.some.inj advanced)
        have caller : 0 < state.current := calls.1.1.1
        exact runs.sleep (by omega)
      · cases advanced
  | timerTick next =>
      obtain ⟨rfl, -⟩ := Prod.mk.inj (Option.some.inj advanced)
      have ticks := scan_assigns (fun _ => False) state.sleepers.sleepListeners 0
        ⟨state.sleepers, state.processes⟩
      exact runs.assigns ticks not_false
  | createProcess pid owner =>
      simp only [advance] at advanced
      split at advanced
      · rename_i fresh
        obtain ⟨rfl, -⟩ := Prod.mk.inj (Option.some.inj advanced)
        have other : 0 ≠ pid := by
          rintro rfl
          rcases runs.init with here | here <;> rw [fresh.2.2] at here <;> cases here
        exact runs.update other (by simp)
      · cases advanced
  | removeProcess pid next =>
      simp only [advance] at advanced
      split at advanced
      · obtain ⟨rfl, -⟩ := Prod.mk.inj (Option.some.inj advanced)
        exact runs
      · rename_i other
        split at advanced <;> obtain ⟨rfl, -⟩ := Prod.mk.inj (Option.some.inj advanced)
        · exact runs
        · exact runs.update (Ne.symm other) (by simp)

/-- A step leaves `init` READY or RUNNING. -/
theorem initRuns_step (state : KernelRun) (action : KernelAction) (next : KernelRun)
    (runs : InitRuns state.processes) (spares : state.SparesInit action)
    (stepped : state.step action = some next) : InitRuns next.processes := by
  obtain ⟨⟨after, switches⟩, advanced, rest⟩ := Option.bind_eq_some_iff.mp stepped
  have kept := advance_initRuns runs spares advanced
  dsimp only at rest
  split at rest
  · obtain ⟨processes, switched, rfl⟩ := Option.map_eq_some_iff.mp rest
    exact kept.switch switched
  · obtain rfl := Option.some.inj rest
    exact kept

/-- The first process can run after boot. -/
theorem boot_initRuns (init shell : PipeOwner) : InitRuns (boot init shell).processes := by
  rw [boot_processes]
  refine ⟨.inl rfl, fun pid running => ?_⟩
  simp only [Function.update_apply] at running
  split at running
  · cases running
  · split at running <;> cases running

/-- In every run from boot in which no lock with a full queue finds 0 in its unassigned
variable, `init` is READY or RUNNING; every call of `schedule` ends, and the process it
picks was READY and is the only RUNNING one. -/
theorem init_keeps_schedule_going {init shell : PipeOwner} {final : KernelRun}
    {actions : List KernelAction} (spares : Along step SparesInit (boot init shell) actions)
    (ran : run step (boot init shell) actions = some final) :
    InitRuns final.processes ∧ ∀ action after, final.SparesInit action →
      final.advance action = some (after, true) → Schedules after.processes := by
  have runs : InitRuns final.processes :=
    Along.invariant initRuns_step (boot_initRuns init shell) spares ran
  refine ⟨runs, fun action after here advanced => ?_⟩
  exact (advance_initRuns runs here advanced).schedules

/-- `SHELL` waits for a mutex of process `2`, which sleeps for a tick and frees it. -/
def waitsAndSleeps : List KernelAction :=
  [.createProcess 2 (IpcRun.ownerAt 2 12), .timerTick 2, .call (.sync (.lockMutex 0)) 0 0,
    .timerTick 1, .call (.sync (.lockMutex 0)) 0 2, .sleep 1 0, .timerTick 2,
    .call (.sync (.freeMutex 0)) 0 0]

theorem waitsAndSleeps_keeps_schedule_going : ∃ final,
    run step (boot (IpcRun.ownerAt 0 10) (IpcRun.ownerAt 1 11)) waitsAndSleeps = some final ∧
      final.processes.state 2 = some .running ∧ InitRuns final.processes ∧
      ∀ action after, final.SparesInit action →
        final.advance action = some (after, true) → Schedules after.processes := by
  have result : (run step (boot (IpcRun.ownerAt 0 10) (IpcRun.ownerAt 1 11)) waitsAndSleeps).map
      (fun final => final.processes.state 2) = some (some .running) := by
    decide +kernel
  obtain ⟨final, ran, running⟩ := Option.map_eq_some_iff.mp result
  exact ⟨final, ran, running, init_keeps_schedule_going (by decide +kernel) ran⟩

/-- Process `2` holds a mutex for which `3` to `22` wait. `SHELL` wants it too, finds the
queue full, and 0 in the unassigned variable. Then both go to sleep. -/
def fillsQueue : List KernelAction :=
  (List.range' 2 21).map (fun (pid : Nat) => .createProcess pid (IpcRun.ownerAt pid (10 + pid))) ++
    [.timerTick 2, .call (.sync (.lockMutex 0)) 0 0, .timerTick 3] ++
    (List.range' 4 19).map (fun (next : Nat) => .call (.sync (.lockMutex 0)) 0 next) ++
    [.call (.sync (.lockMutex 0)) 0 1, .call (.sync (.lockMutex 0)) 0 2, .sleep 5 1, .resume 0 0]

/-- `init` is BLOCKED, and `schedule` finds nobody. -/
theorem init_gets_blocked : ∃ final after,
    run step (boot (IpcRun.ownerAt 0 10) (IpcRun.ownerAt 1 11)) fillsQueue = some final ∧
      final.processes.state 0 = some .blocked ∧
      final.advance (.sleep 5 0) = some (after, true) ∧
      ∀ pid ∈ List.range 23, after.processes.schedule pid = none := by
  have result : (run step (boot (IpcRun.ownerAt 0 10) (IpcRun.ownerAt 1 11)) fillsQueue).map
      (fun final => (final.processes.state 0, (final.advance (.sleep 5 0)).map fun advanced =>
        (advanced.2, decide (∀ pid ∈ List.range 23,
          (advanced.1.processes.schedule pid).isNone)))) =
      some (some .blocked, some (true, true)) := by
    decide +kernel
  obtain ⟨final, ran, outcome⟩ := Option.map_eq_some_iff.mp result
  obtain ⟨blocked, advances⟩ := Prod.mk.inj outcome
  obtain ⟨⟨after, switches⟩, advanced, pair⟩ := Option.map_eq_some_iff.mp advances
  obtain ⟨rfl, nobody⟩ := Prod.mk.inj pair
  refine ⟨final, after, ran, blocked, advanced, fun pid inside => ?_⟩
  exact Option.isNone_iff_eq_none.mp (of_decide_eq_true nobody pid inside)

end KernelRun

end SistemasOperativos.Kernel
