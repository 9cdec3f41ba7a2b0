import SistemasOperativos.Kernel.PipeCreation
import SistemasOperativos.Kernel.PipeWaiting

/-!
# Closing pipes

`closePipe` clears the entry of `pipes` that the name of the pipe leads to and the slot of
the process, and leaves the name in `pipeNames`. `createPipe` takes only entries without a
name, so the entry is lost, and `openPipe` of the name goes through its NULL pointer before
it returns it. When the caller is not the creator, the search for the creator runs past the
slot of the current process. `closes_iff` says that a close never does what it is for.
-/

namespace SistemasOperativos.Kernel

open SistemasOperativos.Semantics

namespace PipeTable

/-- The pipe stands in the table under its name. -/
def Listed (table : PipeTable) (p : Nat) : Prop :=
  (table.pipe p).name ≠ none ∧
    ∃ i < MAX_PIPES, table.pipes i = some p ∧ table.pipeNames i = (table.pipe p).name

/-- The pipe is gone: `openPipe` returns NULL for its name unless another pipe has it, its
entry and its slot are free again, and nothing else is changed. `createPipe` takes an entry
whose name is NULL and a slot that is 0. -/
structure Closed (table : PipeTable) (p : Nat) (after : PipeTable) : Prop where
  opens : (∀ i < MAX_PIPES, after.pipeNames i = (table.pipe p).name → after.pipes i = none) →
    (after.openPipeLocked (table.pipe p).name).2 = none
  entry : ∀ i < MAX_PIPES, table.pipes i = some p →
    after.pipeNames i = none ∧ after.pipes i = none
  slot : ∀ k < MAX_PROCESS_PIPES,
    after.entry (table.owner table.processes.current).occupiedPosition k =
      if (table.owner table.processes.current).pipesStruct k = p then 0
      else table.entry (table.owner table.processes.current).occupiedPosition k
  others : ∀ i < MAX_PIPES, table.pipes i ≠ some p →
    after.pipeNames i = table.pipeNames i ∧ after.pipes i = table.pipes i
  pipe : ∀ q, q ≠ p → after.pipe q = table.pipe q

/-- What `closePipe` is for: the creator closes the pipe, and nobody else changes anything. -/
def ClosesAsMeant (table : PipeTable) (p : Nat) : Prop :=
  if (table.pipe p).creator = table.processes.current then
    ∃ after, table.closePipe p = some after ∧ table.Closed p after
  else table.closePipe p = some table

/-- A process other than the creator gets through exactly with a pipe whose name is not in
the table. -/
theorem closePipe_other_iff {table : PipeTable} {p : Nat}
    (other : (table.pipe p).creator ≠ table.processes.current) :
    table.closePipe p = some table ↔ table.getPipeNameIndex (table.pipe p).name = none := by
  have notCurrent : (table.pipe p).creator ≠ table.processes.getCurrentPid := other
  simp only [closePipe]
  split
  · rename_i missing
    simp [missing]
  · rename_i i found
    rw [if_pos notCurrent]
    simp [found]

/-- `closePipe` does what it is for in no table that has the pipe, and for a process that did
not create the pipe only if its name is not in the table. -/
theorem closes_iff {table : PipeTable} {p : Nat}
    (listed : (table.pipe p).creator = table.processes.current → table.Listed p) :
    table.ClosesAsMeant p ↔ (table.pipe p).creator ≠ table.processes.current ∧
      table.getPipeNameIndex (table.pipe p).name = none := by
  by_cases creator : (table.pipe p).creator = table.processes.current
  · rw [ClosesAsMeant, if_pos creator]
    refine iff_of_false ?_ fun both => both.1 creator
    rintro ⟨after, closed, clean⟩
    obtain ⟨named, i, inside, here, name⟩ := listed creator
    -- The name stays in the entry.
    have kept := (closePipe_eq_some closed).1
    have gone := (clean.entry i inside here).1
    rw [kept, name] at gone
    exact named gone
  · rw [ClosesAsMeant, if_neg creator, closePipe_other_iff creator]
    simp [creator]

end PipeTable

namespace IpcRun

/-- `SHELL` has created a pipe. -/
def hasPipe : List IpcAction := .createProcess 2 (ownerAt 2 12) :: createsPipe "x"

theorem hasPipe_listed : ∃ state,
    run step (boot (ownerAt 0 10) (ownerAt 1 11)) hasPipe = some state ∧
      (state.kernel.pipe 33).creator = state.kernel.processes.current ∧
      state.kernel.Listed 33 ∧ ¬ state.kernel.ClosesAsMeant 33 := by
  have result : (run step (boot (ownerAt 0 10) (ownerAt 1 11)) hasPipe).map (fun state =>
      ((state.kernel.pipe 33).creator, state.kernel.processes.current,
        (state.kernel.pipe 33).name, state.kernel.pipes 0, state.kernel.pipeNames 0)) =
      some (1, 1, some "x", some 33, some "x") := by
    decide +kernel
  obtain ⟨state, ran, facts⟩ := Option.map_eq_some_iff.mp result
  simp only [Prod.mk.injEq] at facts
  obtain ⟨creator, current, name, entry, entryName⟩ := facts
  have own : (state.kernel.pipe 33).creator = state.kernel.processes.current := by
    rw [creator, current]
  have listed : state.kernel.Listed 33 := by
    refine ⟨?_, 0, by decide, entry, ?_⟩
    · rw [name]
      simp
    · rw [name, entryName]
  refine ⟨state, ran, own, listed, fun closes => ?_⟩
  exact ((PipeTable.closes_iff fun _ => listed).mp closes).1 own

/-- It closes the pipe: the name stays, the next pipe does not get the entry, and `openPipe`
of the name connects to what lies at NULL. The other process cannot close it either. -/
theorem closed_name_stays : ∃ state after,
    run step (boot (ownerAt 0 10) (ownerAt 1 11)) hasPipe = some state ∧
      state.kernel.closePipe 33 = some after ∧
      (∀ i < MAX_PIPES, after.pipeNames i = some "x" → after.pipes i = none) ∧
      after.pipeNames 0 = some "x" ∧ after.nextEntry = 1 ∧
      ((after.openPipeLocked (some "x")).1.pipe NULL).connected = 1 ∧
      (after.openPipeLocked (some "x")).2 = none ∧
      ¬ state.kernel.ClosesAsMeant 33 ∧
      run step (boot (ownerAt 0 10) (ownerAt 1 11))
        (hasPipe ++ [.timerTick 2, .call (.closePipe 33) 0 0]) = none := by
  have result : (run step (boot (ownerAt 0 10) (ownerAt 1 11)) hasPipe).bind (fun state =>
      (state.kernel.closePipe 33).map fun after =>
        ((state.kernel.pipe 33).creator, state.kernel.processes.current, state.kernel.pipes 0,
          decide ((∀ i < MAX_PIPES, after.pipeNames i = some "x" → after.pipes i = none) ∧
            after.pipeNames 0 = some "x" ∧ after.nextEntry = 1 ∧
            ((after.openPipeLocked (some "x")).1.pipe NULL).connected = 1 ∧
            (after.openPipeLocked (some "x")).2 = none))) =
      some (1, 1, some 33, true) := by
    decide +kernel
  obtain ⟨state, ran, rest⟩ := Option.bind_eq_some_iff.mp result
  obtain ⟨after, closed, facts⟩ := Option.map_eq_some_iff.mp rest
  simp only [Prod.mk.injEq, decide_eq_true_eq] at facts
  obtain ⟨creator, current, entry, gone, kept, next, connects, null⟩ := facts
  refine ⟨state, after, ran, closed, gone, kept, next, connects, null, ?_, by decide +kernel⟩
  intro closes
  rw [PipeTable.ClosesAsMeant, if_pos (creator.trans current.symm)] at closes
  obtain ⟨other, again, clean⟩ := closes
  obtain rfl := Option.some.inj (closed.symm.trans again)
  -- The name would have to be gone from the entry.
  have vacant := (clean.entry 0 (by decide) entry).1
  rw [kept] at vacant
  cases vacant

end IpcRun

end SistemasOperativos.Kernel
