import Mathlib.Data.List.Basic
import Mathlib.Data.List.Nodup
import SistemasOperativos.Kernel.ProcessTable

/-!
# The sleep table

The sleeping processes of interrupts.c stand in three parallel arrays: the pid,
the ticks counted so far and the tick to wake up at. `timerTickHandlerC` scans
them, and an entry that is done is overwritten by the last one, which the loop
then visits at the same index. As a list of entries the scan counts every entry
up once and takes away those that reach their alarm (`timerTickHandlerC_entries`);
on the processes it makes exactly these READY (`timerTickHandlerC_state`).
-/

namespace SistemasOperativos.Kernel

/-- `MAX_LISTENERS` of interrupts.c. -/
def MAX_LISTENERS : Nat := 50

/-- The static arrays of interrupts.c, with the number of slots in use. -/
structure SleepTable where
  sleepListeners : Nat
  sleepPIDS : Nat → Int
  sleepCounter : Nat → Int
  alarmSleep : Nat → Int

/-- The sleep table beside the processes. -/
structure SleepKernel where
  sleepers : SleepTable
  processes : ProcessTable

/-- What the three arrays say of one slot. -/
structure Sleeper where
  pid : Int
  counter : Int
  alarm : Int
  deriving DecidableEq, Repr

namespace Sleeper

/-- The entry after `sleepCounter[auxj]+=1`. -/
def bump (entry : Sleeper) : Sleeper := { entry with counter := toInt32 (entry.counter + 1) }

/-- The entry has reached its alarm. -/
def Done (entry : Sleeper) : Prop := entry.counter = entry.alarm

instance (entry : Sleeper) : Decidable entry.Done := inferInstanceAs (Decidable (_ = _))

@[simp] theorem bump_pid (entry : Sleeper) : entry.bump.pid = entry.pid := rfl

@[simp] theorem bump_alarm (entry : Sleeper) : entry.bump.alarm = entry.alarm := rfl

end Sleeper

namespace SleepTable

/-- The table at boot. -/
def empty : SleepTable where
  sleepListeners := 0
  sleepPIDS := fun _ => 0
  sleepCounter := fun _ => 0
  alarmSleep := fun _ => 0

/-- The content of a slot. -/
def entry (table : SleepTable) (index : Nat) : Sleeper :=
  ⟨table.sleepPIDS index, table.sleepCounter index, table.alarmSleep index⟩

/-- Store all three values of a slot. -/
def setEntry (table : SleepTable) (index : Nat) (entry : Sleeper) : SleepTable where
  sleepListeners := table.sleepListeners
  sleepPIDS := Function.update table.sleepPIDS index entry.pid
  sleepCounter := Function.update table.sleepCounter index entry.counter
  alarmSleep := Function.update table.alarmSleep index entry.alarm

/-- `deleteSleep`: the last entry takes the place of the deleted one. -/
def deleteSleep (table : SleepTable) (index : Nat) : SleepTable :=
  if table.sleepListeners ≤ index then table
  else
    { table.setEntry index (table.entry (table.sleepListeners - 1)) with
      sleepListeners := table.sleepListeners - 1 }

/-- `addSleep`: with all slots taken the call is dropped. -/
def addSleep (table : SleepTable) (pid interval : Int) : SleepTable :=
  if MAX_LISTENERS ≤ table.sleepListeners then table
  else
    { table.setEntry table.sleepListeners ⟨pid, 0, interval⟩ with
      sleepListeners := table.sleepListeners + 1 }

/-- `sleepCounter[index]+=1`. -/
def bump (table : SleepTable) (index : Nat) : SleepTable :=
  { table with
    sleepCounter := Function.update table.sleepCounter index
      (toInt32 (table.sleepCounter index + 1)) }

/-- The `count` entries from slot `start` on. -/
def segment (table : SleepTable) (start count : Nat) : List Sleeper :=
  (List.range' start count).map table.entry

/-- The entries in use. -/
def entries (table : SleepTable) : List Sleeper := table.segment 0 table.sleepListeners

/-! ## Slots -/

/-- Storing an entry leaves the others. -/
theorem setEntry_entry (table : SleepTable) (index k : Nat) (entry : Sleeper) :
    (table.setEntry index entry).entry k = if k = index then entry else table.entry k := by
  by_cases same : k = index
  · subst same
    simp [setEntry, SleepTable.entry]
  · simp [setEntry, SleepTable.entry, same]

/-- Counting a tick for an entry leaves the others. -/
theorem bump_entry (table : SleepTable) (index k : Nat) :
    (table.bump index).entry k = if k = index then (table.entry k).bump else table.entry k := by
  by_cases same : k = index
  · subst same
    simp [bump, SleepTable.entry, Sleeper.bump]
  · simp [bump, SleepTable.entry, same]

@[simp] theorem bump_sleepListeners (table : SleepTable) (index : Nat) :
    (table.bump index).sleepListeners = table.sleepListeners := rfl

/-- Deleting an entry leaves one less in use. -/
theorem deleteSleep_sleepListeners {table : SleepTable} {index : Nat}
    (used : index < table.sleepListeners) :
    (table.deleteSleep index).sleepListeners = table.sleepListeners - 1 := by
  rw [deleteSleep, if_neg (by omega)]

/-- The last entry takes the place of the deleted one. -/
theorem deleteSleep_entry {table : SleepTable} {index : Nat}
    (used : index < table.sleepListeners) (k : Nat) :
    (table.deleteSleep index).entry k =
      if k = index then table.entry (table.sleepListeners - 1) else table.entry k := by
  rw [deleteSleep, if_neg (by omega)]
  exact setEntry_entry table index k _

/-! ## Segments -/

@[simp] theorem segment_zero (table : SleepTable) (start : Nat) : table.segment start 0 = [] := rfl

/-- A stretch is its first entry and the rest. -/
theorem segment_succ (table : SleepTable) (start count : Nat) :
    table.segment start (count + 1) = table.entry start :: table.segment (start + 1) count := by
  simp [segment, List.range'_succ]

/-- A stretch is its front and its last entry. -/
theorem segment_concat (table : SleepTable) (start count : Nat) :
    table.segment start (count + 1) =
      table.segment start count ++ [table.entry (start + count)] := by
  simp [segment, List.range'_concat]

/-- Tables that agree on the slots of a segment agree on the segment. -/
theorem segment_congr {table other : SleepTable} {start count : Nat}
    (agree : ∀ k, start ≤ k → k < start + count → table.entry k = other.entry k) :
    table.segment start count = other.segment start count := by
  apply List.map_congr_left
  intro k inside
  rw [List.mem_range'_1] at inside
  exact agree k inside.1 inside.2

/-- With a slot left, the call gets the next one. -/
theorem addSleep_entries {table : SleepTable} (room : table.sleepListeners < MAX_LISTENERS)
    (pid interval : Int) :
    (table.addSleep pid interval).entries = table.entries ++ [⟨pid, 0, interval⟩] := by
  rw [addSleep, if_neg (by omega), entries, segment_concat, Nat.zero_add]
  have last : (table.setEntry table.sleepListeners ⟨pid, 0, interval⟩).entry
      table.sleepListeners = ⟨pid, 0, interval⟩ := by
    rw [setEntry_entry, if_pos rfl]
  have before : (table.setEntry table.sleepListeners ⟨pid, 0, interval⟩).segment 0
      table.sleepListeners = table.entries := by
    apply segment_congr
    intro k _ inside
    rw [setEntry_entry, if_neg (by omega)]
  exact congrArg₂ (fun front back => front ++ [back]) before last

/-- Counting a tick for an entry leaves those in front of it. -/
theorem bump_segment_before (table : SleepTable) (index : Nat) :
    (table.bump index).segment 0 index = table.segment 0 index := by
  apply segment_congr
  intro k _ inside
  rw [bump_entry, if_neg (by omega)]

/-- Counting a tick for an entry leaves those behind it. -/
theorem bump_segment_after (table : SleepTable) (index count : Nat) :
    (table.bump index).segment (index + 1) count = table.segment (index + 1) count := by
  apply segment_congr
  intro k inside _
  rw [bump_entry, if_neg (by omega)]

/-- Deletion takes one entry away and moves another one. -/
theorem deleteSleep_segment {table : SleepTable} {index count : Nat}
    (whole : table.sleepListeners = index + (count + 1)) :
    (table.deleteSleep index).segment 0 index = table.segment 0 index ∧
      ((table.deleteSleep index).segment index count).Perm (table.segment (index + 1) count) := by
  have used : index < table.sleepListeners := by omega
  refine ⟨?_, ?_⟩
  · apply segment_congr
    intro k _ inside
    rw [deleteSleep_entry used, if_neg (by omega)]
  · cases count with
    | zero => exact .refl _
    | succ count =>
        have rest : (table.deleteSleep index).segment (index + 1) count =
            table.segment (index + 1) count := by
          apply segment_congr
          intro k inside _
          rw [deleteSleep_entry used, if_neg (by omega)]
        have moved : (table.deleteSleep index).entry index =
            table.entry (index + 1 + count) := by
          rw [deleteSleep_entry used, if_pos rfl]
          congr 1
          omega
        rw [segment_succ, rest, moved, segment_concat]
        exact (List.perm_append_singleton _ _).symm

end SleepTable

namespace SleepKernel

/-- `doneSleeping`. -/
def doneSleeping (kernel : SleepKernel) (index : Nat) : SleepKernel where
  sleepers := kernel.sleepers.deleteSleep index
  processes := kernel.processes.changeProcessState (kernel.sleepers.sleepPIDS index) .ready

/-- The loop of `timerTickHandlerC` from `auxj` on. Every iteration either moves on
or takes an entry away, so `left`, the entries from `auxj` on, counts them. -/
def scan : Nat → Nat → SleepKernel → SleepKernel
  | 0, _, kernel => kernel
  | left + 1, auxj, kernel =>
      if auxj < kernel.sleepers.sleepListeners then
        let bumped := { kernel with sleepers := kernel.sleepers.bump auxj }
        if bumped.sleepers.sleepCounter auxj = bumped.sleepers.alarmSleep auxj then
          -- `auxj--` and the `auxj++` of the loop leave the index where it is.
          scan left auxj (bumped.doneSleeping auxj)
        else scan left (auxj + 1) bumped
      else kernel

/-- `timerTickHandlerC`, without the clock it prints. -/
def timerTickHandlerC (kernel : SleepKernel) : SleepKernel :=
  scan kernel.sleepers.sleepListeners 0 kernel

/-- `sleep` of the current process, when the `_yield` at its end switches to `next`. -/
def sleep (kernel : SleepKernel) (time next : Int) : Option SleepKernel :=
  let myPid := kernel.processes.getCurrentPid
  let slept := kernel.processes.changeProcessState myPid .sleeping
  (slept.schedule next).map fun processes =>
    { sleepers := kernel.sleepers.addSleep myPid time, processes }

/-- A timer tick: the handler, then the switch to `next` in `switchKernelToUser`. -/
def timerTick (kernel : SleepKernel) (next : Int) : Option SleepKernel :=
  let handled := kernel.timerTickHandlerC
  (handled.processes.schedule next).map fun processes => { handled with processes }

/-! ## The scan -/

/-- An entry that is done at this tick. -/
def Due (entry : Sleeper) : Prop := entry.bump.Done

instance (entry : Sleeper) : Decidable (Due entry) := inferInstanceAs (Decidable (_ = _))

/-- The test of the loop, after the counter has gone up. -/
theorem due_iff (table : SleepTable) (index : Nat) :
    ((table.bump index).sleepCounter index = (table.bump index).alarmSleep index) ↔
      Due (table.entry index) := by
  have here := table.bump_entry index index
  rw [if_pos rfl] at here
  rw [Due, ← here]
  rfl

/-- What a tick leaves of a list of entries. -/
def ticked (entries : List Sleeper) : List Sleeper :=
  (entries.map Sleeper.bump).filter fun entry => ¬ entry.Done

/-- An entry that is due leaves, and another one counts the tick. -/
theorem ticked_cons (entry : Sleeper) (entries : List Sleeper) :
    ticked (entry :: entries) =
      if Due entry then ticked entries else entry.bump :: ticked entries := by
  by_cases due : Due entry
  · have done : entry.bump.Done := due
    simp [ticked, due, done]
  · have waits : ¬ entry.bump.Done := due
    simp [ticked, due, waits]

/-- The order of the entries does not matter for what a tick leaves. -/
theorem ticked_perm {entries others : List Sleeper} (same : entries.Perm others) :
    (ticked entries).Perm (ticked others) :=
  (same.map _).filter _

/-- The entries before `auxj` stay, those from `auxj` on are counted up and, when they
are done, taken away. -/
theorem scan_entries (left auxj : Nat) (kernel : SleepKernel)
    (whole : kernel.sleepers.sleepListeners = auxj + left) :
    (scan left auxj kernel).sleepers.entries.Perm
      (kernel.sleepers.segment 0 auxj ++ ticked (kernel.sleepers.segment auxj left)) := by
  induction left generalizing auxj kernel with
  | zero =>
      rw [scan, SleepTable.entries, whole]
      simp [ticked]
  | succ left ih =>
      rw [scan, if_pos (by omega), SleepTable.segment_succ, ticked_cons]
      have rest := SleepTable.bump_segment_after kernel.sleepers auxj left
      have here : (kernel.sleepers.bump auxj).entry auxj = (kernel.sleepers.entry auxj).bump := by
        rw [SleepTable.bump_entry, if_pos rfl]
      have test := due_iff kernel.sleepers auxj
      dsimp only
      by_cases due : Due (kernel.sleepers.entry auxj)
      · rw [if_pos (test.mpr due), if_pos due]
        have deleted := @SleepTable.deleteSleep_segment
          (kernel.sleepers.bump auxj) auxj left whole
        have shorter := @SleepTable.deleteSleep_sleepListeners
          (kernel.sleepers.bump auxj) auxj
          (by rw [SleepTable.bump_sleepListeners]; omega)
        have scanned := ih auxj (doneSleeping ⟨kernel.sleepers.bump auxj, kernel.processes⟩ auxj)
          (by simp only [doneSleeping, shorter, SleepTable.bump_sleepListeners]; omega)
        refine scanned.trans ?_
        simp only [doneSleeping]
        rw [deleted.1, SleepTable.bump_segment_before, ← rest]
        exact (ticked_perm deleted.2).append_left _
      · rw [if_neg (fun done => due (test.mp done)), if_neg due]
        have scanned := ih (auxj + 1) ⟨kernel.sleepers.bump auxj, kernel.processes⟩
          (by rw [SleepTable.bump_sleepListeners]; omega)
        refine scanned.trans ?_
        dsimp only
        rw [SleepTable.segment_concat, Nat.zero_add, SleepTable.bump_segment_before, here, rest,
          List.append_assoc]
        exact .refl _

/-- The pids that a tick makes READY. -/
def Wakes (entries : List Sleeper) (pid : Int) : Prop :=
  ∃ entry ∈ entries, entry.pid = pid ∧ Due entry

instance (entries : List Sleeper) (pid : Int) : Decidable (Wakes entries pid) :=
  inferInstanceAs (Decidable (∃ _, _))

/-- A tick wakes the process of the first entry, or one of the rest. -/
theorem wakes_cons {entry : Sleeper} {entries : List Sleeper} {pid : Int} :
    Wakes (entry :: entries) pid ↔ entry.pid = pid ∧ Due entry ∨ Wakes entries pid := by
  simp [Wakes]

/-- The order of the entries does not matter for whom a tick wakes. -/
theorem wakes_perm {entries others : List Sleeper} (same : entries.Perm others) {pid : Int} :
    Wakes entries pid ↔ Wakes others pid := by
  simp only [Wakes, same.mem_iff]

/-- The processes of the entries that are done get READY, the others stay as they are. -/
theorem scan_state (left auxj : Nat) (kernel : SleepKernel) (pid : Int)
    (whole : kernel.sleepers.sleepListeners = auxj + left) :
    (scan left auxj kernel).processes.state pid =
      if Wakes (kernel.sleepers.segment auxj left) pid
      then (kernel.processes.state pid).map fun _ => .ready
      else kernel.processes.state pid := by
  induction left generalizing auxj kernel with
  | zero =>
      rw [scan, if_neg (by simp [Wakes])]
  | succ left ih =>
      rw [scan, if_pos (by omega), SleepTable.segment_succ]
      have rest := SleepTable.bump_segment_after kernel.sleepers auxj left
      have test := due_iff kernel.sleepers auxj
      dsimp only
      by_cases due : Due (kernel.sleepers.entry auxj)
      · rw [if_pos (test.mpr due)]
        have deleted := @SleepTable.deleteSleep_segment
          (kernel.sleepers.bump auxj) auxj left whole
        have shorter := @SleepTable.deleteSleep_sleepListeners
          (kernel.sleepers.bump auxj) auxj
          (by rw [SleepTable.bump_sleepListeners]; omega)
        rw [ih auxj (doneSleeping ⟨kernel.sleepers.bump auxj, kernel.processes⟩ auxj)
          (by simp only [doneSleeping, shorter, SleepTable.bump_sleepListeners]; omega)]
        simp only [doneSleeping, wakes_perm deleted.2, rest, wakes_cons]
        have woken : (kernel.sleepers.bump auxj).sleepPIDS auxj =
            (kernel.sleepers.entry auxj).pid := rfl
        rw [ProcessTable.changeProcessState_state, woken]
        by_cases same : pid = (kernel.sleepers.entry auxj).pid
        · subst same
          cases kernel.processes.state (kernel.sleepers.entry auxj).pid <;> simp [due]
        · simp [same, Ne.symm same]
      · rw [if_neg (fun done => due (test.mp done))]
        rw [ih (auxj + 1) ⟨kernel.sleepers.bump auxj, kernel.processes⟩
          (by rw [SleepTable.bump_sleepListeners]; omega)]
        simp only [rest, wakes_cons, due, and_false, false_or]

/-- The entries after a tick, up to their order. -/
theorem timerTickHandlerC_entries (kernel : SleepKernel) :
    kernel.timerTickHandlerC.sleepers.entries.Perm (ticked kernel.sleepers.entries) := by
  have scanned := scan_entries kernel.sleepers.sleepListeners 0 kernel (by omega)
  rwa [SleepTable.segment_zero, List.nil_append] at scanned

/-- The processes after a tick. -/
theorem timerTickHandlerC_state (kernel : SleepKernel) (pid : Int) :
    kernel.timerTickHandlerC.processes.state pid =
      if Wakes kernel.sleepers.entries pid
      then (kernel.processes.state pid).map fun _ => .ready
      else kernel.processes.state pid :=
  scan_state kernel.sleepers.sleepListeners 0 kernel pid (by omega)

end SleepKernel

end SistemasOperativos.Kernel
