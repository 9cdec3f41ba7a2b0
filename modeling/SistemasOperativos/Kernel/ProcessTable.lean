import Mathlib.Logic.Function.Basic
import Mathlib.Tactic.Ring

/-!
# Process states and dispatching

`ProcessTable` is what the synchronisation code sees of the process ring of
scheduler.c: the state of each pid on the ring and the pid of the current
process. `schedule` takes as a parameter which READY process the walk along
the ring stops at, so a statement for every parameter holds for every order of
the ring.
-/

namespace SistemasOperativos.Kernel

/-- The value of a 32-bit `int` after an arithmetic operation. -/
def toInt32 (value : Int) : Int := Int.bmod value (2 ^ 32)

theorem toInt32_of_range {value : Int} (low : -2 ^ 31 ≤ value) (high : value < 2 ^ 31) :
    toInt32 value = value := by
  rw [toInt32, Int.bmod_def]
  omega

/-- `processState` of structs.h. -/
inductive ProcessState where
  | running
  | ready
  | blocked
  | dead
  | sleeping
  deriving DecidableEq, Repr

/-- The processes on the ring by pid, and the process that runs. -/
structure ProcessTable where
  state : Int → Option ProcessState
  current : Int

namespace ProcessTable

/-- The pid of the current process. -/
def getCurrentPid (table : ProcessTable) : Int := table.current

/-- `changeProcessState`: nothing happens when no process has the pid. -/
def changeProcessState (table : ProcessTable) (pid : Int) (state : ProcessState) :
    ProcessTable :=
  if table.state pid = none then table
  else { table with state := Function.update table.state pid (some state) }

/-- The first statement of `schedule`: a current process that is RUNNING gets READY. -/
def preempt (table : ProcessTable) : ProcessTable :=
  if table.state table.current = some .running then
    table.changeProcessState table.current .ready
  else table

/-- `schedule`, when the walk along the ring stops at the READY process `next`. -/
def schedule (table : ProcessTable) (next : Int) : Option ProcessTable :=
  if table.preempt.state next = some .ready then
    some { table.preempt.changeProcessState next .running with current := next }
  else none

@[simp] theorem changeProcessState_current (table : ProcessTable) (pid : Int)
    (state : ProcessState) : (table.changeProcessState pid state).current = table.current := by
  unfold changeProcessState
  split <;> rfl

/-- The process of the pid gets the state, the others keep theirs. -/
theorem changeProcessState_state (table : ProcessTable) (pid q : Int) (state : ProcessState) :
    (table.changeProcessState pid state).state q =
      if q = pid then (table.state pid).map fun _ => state else table.state q := by
  unfold changeProcessState
  by_cases same : q = pid
  · subst same
    cases here : table.state q <;> simp [here]
  · split <;> simp [Function.update_of_ne, same]

@[simp] theorem changeProcessState_ne {pid q : Int} (other : q ≠ pid) (table : ProcessTable)
    (state : ProcessState) : (table.changeProcessState pid state).state q = table.state q := by
  rw [changeProcessState_state, if_neg other]

/-- The pids on the ring do not change with the states. -/
@[simp] theorem changeProcessState_eq_none (table : ProcessTable) (pid q : Int)
    (state : ProcessState) :
    (table.changeProcessState pid state).state q = none ↔ table.state q = none := by
  rw [changeProcessState_state]
  split
  · rename_i same
    rw [same, Option.map_eq_none_iff]
  · rfl

/-- `preempt` makes the running process READY. -/
theorem preempt_state (table : ProcessTable) (pid : Int) :
    table.preempt.state pid =
      if pid = table.current ∧ table.state pid = some .running then some .ready
      else table.state pid := by
  unfold preempt
  split
  · rename_i runs
    rw [changeProcessState_state]
    by_cases same : pid = table.current
    · simp [same, runs]
    · simp [same]
  · rename_i runs
    by_cases same : pid = table.current
    · simp [same, runs]
    · simp [same]

/-- `preempt` blocks nobody and wakes nobody. -/
theorem preempt_blocked (table : ProcessTable) (pid : Int) :
    table.preempt.state pid = some .blocked ↔ table.state pid = some .blocked := by
  rw [preempt_state]
  split
  · rename_i runs
    simp [runs.2]
  · rfl

/-- `preempt` leaves who sleeps. -/
theorem preempt_sleeping (table : ProcessTable) (pid : Int) :
    table.preempt.state pid = some .sleeping ↔ table.state pid = some .sleeping := by
  rw [preempt_state]
  split
  · rename_i runs
    simp [runs.2]
  · rfl

/-- What a switch does: it picks a process that was READY, or the running one
again, and neither blocks nor wakes anybody. -/
structure Dispatched (before after : ProcessTable) (next : Int) : Prop where
  picked : before.state next = some .ready ∨
    next = before.current ∧ before.state next = some .running
  current : after.current = next
  present : ∀ pid, after.state pid = none ↔ before.state pid = none
  blocked : ∀ pid, after.state pid = some .blocked ↔ before.state pid = some .blocked

/-- `schedule` picks a process that can run and changes nothing else. -/
theorem schedule_dispatched {table after : ProcessTable} {next : Int}
    (switched : table.schedule next = some after) : Dispatched table after next := by
  unfold schedule at switched
  split at switched
  · rename_i ready
    obtain rfl := Option.some.inj switched
    have settled := preempt_state table
    refine ⟨?_, rfl, ?_, ?_⟩
    · rw [settled] at ready
      split at ready
      · rename_i runs
        exact .inr runs
      · exact .inl ready
    · intro pid
      rw [changeProcessState_eq_none, settled]
      split
      · rename_i runs
        simp [runs.2]
      · rfl
    · intro pid
      rw [← preempt_blocked table, changeProcessState_state]
      split
      · rename_i same
        rw [same, ready]
        simp
      · rfl
  · cases switched

/-- A switch puts nobody to sleep and wakes nobody. -/
theorem schedule_sleeping {table after : ProcessTable} {next : Int}
    (switched : table.schedule next = some after) (pid : Int) :
    after.state pid = some .sleeping ↔ table.state pid = some .sleeping := by
  unfold schedule at switched
  split at switched
  · rename_i ready
    obtain rfl := Option.some.inj switched
    rw [← preempt_sleeping table, changeProcessState_state]
    split
    · rename_i same
      rw [same, ready]
      simp
    · rfl
  · cases switched

/-- The process a switch picks is RUNNING. -/
theorem schedule_running {table after : ProcessTable} {next : Int}
    (switched : table.schedule next = some after) :
    after.state after.current = some .running := by
  unfold schedule at switched
  split at switched
  · rename_i ready
    obtain rfl := Option.some.inj switched
    rw [changeProcessState_state, if_pos rfl, ready]
    rfl
  · cases switched

/-- The process picked is not BLOCKED. -/
theorem Dispatched.not_blocked {before after : ProcessTable} {next : Int}
    (dispatched : Dispatched before after next) : before.state next ≠ some .blocked := by
  rcases dispatched.picked with ready | ⟨-, running⟩
  · simp [ready]
  · simp [running]

/-- The process picked is on the ring. -/
theorem Dispatched.next_present {before after : ProcessTable} {next : Int}
    (dispatched : Dispatched before after next) : before.state next ≠ none := by
  rcases dispatched.picked with ready | ⟨-, running⟩
  · simp [ready]
  · simp [running]

end ProcessTable

end SistemasOperativos.Kernel
