import SistemasOperativos.Kernel.PipeTable

/-!
# Processes that wait on a pipe

A `read` of an empty pipe records its caller in `blocked` before it blocks it, and a
`write` wakes the pids it finds there, after it looked the pipe up by its name below
`lastPipeName`. A `write` into a full pipe blocks its caller and records it nowhere, and no
`read` wakes anybody. So readers are woken as long as they stay recorded and their
pipe stays in the table (`waiting_readers_are_woken`), and writers are not
(`blocked_writer_stays_blocked`).
-/

namespace SistemasOperativos.Kernel

open SistemasOperativos.Foundation SistemasOperativos.Semantics

namespace PipeState

/-- The pipe whose readers `unlockProcesses` wakes for a name. -/
def unlockedPipe (state : PipeState) (name : Option String) : Option Nat :=
  ((List.range state.lastPipeName.toNat).find? fun (i : Nat) =>
    MutexState.sameName (state.pipeNames i) name).map state.pointee

/-- The process is recorded on an empty pipe, which its name leads to. -/
structure Attended (state : PipeState) (p : Nat) (pid : Int) : Prop where
  listed : state.unlockedPipe (state.pipe p).name = some p
  drained : (state.pipe p).Drained
  recorded : ∃ k < (state.pipe p).cardinalBlocked, state.entry (state.pipe p).blocked k = pid

/-- The fields that `Attended` looks at are the same. -/
structure SameQueue (before after : Pipe) : Prop where
  name : after.name = before.name
  drained : before.Drained → after.Drained
  blocked : after.blocked = before.blocked
  count : before.cardinalBlocked ≤ after.cardinalBlocked

variable {state after : PipeState} {p : Nat} {pid : Int}

/-- A pipe has its own queue. -/
theorem SameQueue.refl (pipe : Pipe) : SameQueue pipe pipe := ⟨rfl, id, rfl, Nat.le_refl _⟩

/-- A name leads to the same pipe when the entries before `lastPipeName` that have the name
are the same and `lastPipeName` does not fall. -/
theorem unlockedPipe_mono {name : Option String}
    (names : ∀ i < state.lastPipeName.toNat, after.pipeNames i = state.pipeNames i)
    (pipes : ∀ i < state.lastPipeName.toNat, state.pipeNames i = name →
      after.pipes i = state.pipes i)
    (last : state.lastPipeName ≤ after.lastPipeName) (found : state.unlockedPipe name = some p) :
    after.unlockedPipe name = some p := by
  obtain ⟨i, first, entry⟩ := Option.map_eq_some_iff.mp found
  obtain ⟨same, inside, before⟩ := List.find?_range_eq_some.mp first
  have below := List.mem_range.mp inside
  refine Option.map_eq_some_iff.mpr ⟨i, ?_, ?_⟩
  · rw [List.find?_range_eq_some]
    refine ⟨?_, List.mem_range.mpr (by omega), ?_⟩
    · rw [names i below]
      exact same
    · intro j earlier
      rw [names j (by omega)]
      exact before j earlier
  · rw [pointee, pipes i below (MutexState.eq_of_sameName same)]
    exact entry

/-- A process stays recorded if its pipe stays in the table and its entry is kept. -/
theorem Attended.transfer (attended : state.Attended p pid)
    (names : ∀ i < state.lastPipeName.toNat, after.pipeNames i = state.pipeNames i)
    (pipes : ∀ i < state.lastPipeName.toNat, state.pipeNames i = (state.pipe p).name →
      after.pipes i = state.pipes i)
    (last : state.lastPipeName ≤ after.lastPipeName)
    (queue : SameQueue (state.pipe p) (after.pipe p))
    (kept : ∀ k < (state.pipe p).cardinalBlocked, state.entry (state.pipe p).blocked k = pid →
      after.entry (state.pipe p).blocked k = pid) : after.Attended p pid := by
  obtain ⟨k, inside, here⟩ := attended.recorded
  refine ⟨?_, queue.drained attended.drained, k, ?_, ?_⟩
  · rw [queue.name]
    exact unlockedPipe_mono names pipes last attended.listed
  · exact Nat.lt_of_lt_of_le inside queue.count
  · rw [queue.blocked]
    exact kept k inside here

/-- Entries of the table that are the same. -/
theorem Attended.store (attended : state.Attended p pid) (names : after.pipeNames = state.pipeNames)
    (pipes : after.pipes = state.pipes) (last : after.lastPipeName = state.lastPipeName)
    (queue : SameQueue (state.pipe p) (after.pipe p))
    (kept : ∀ k < (state.pipe p).cardinalBlocked, state.entry (state.pipe p).blocked k = pid →
      after.entry (state.pipe p).blocked k = pid) : after.Attended p pid :=
  attended.transfer (fun _ _ => by rw [names]) (fun _ _ _ => by rw [pipes])
    (Int.le_of_eq last.symm) queue kept

/-- Nothing but processes and mutexes changed. -/
theorem Attended.congr (attended : state.Attended p pid) (names : after.pipeNames = state.pipeNames)
    (pipes : after.pipes = state.pipes) (last : after.lastPipeName = state.lastPipeName)
    (queue : SameQueue (state.pipe p) (after.pipe p)) (memory : after.memory = state.memory) :
    after.Attended p pid := by
  refine attended.store names pipes last queue ?_
  intro k _ here
  rw [entry, memory]
  exact here

/-- A stored entry leaves an entry alone that it does not overlap. -/
theorem entry_setEntry_disjoint {array k other j : Nat} (value : Int)
    (disjoint : Disjoint4 (array + 4 * k) (other + 4 * j)) :
    (state.setEntry array k value).entry other j = state.entry other j :=
  loadInt_storeInt_disjoint value disjoint

/-- An entry that is an `int` is read as it was stored. -/
theorem entry_setEntry {array k : Nat} {value : Int} (low : 0 ≤ value) (high : value < 2 ^ 31) :
    (state.setEntry array k value).entry array k = value := by
  rw [setEntry, entry, loadInt_storeInt]
  exact Int.bmod_eq_of_le_mul_two (by omega) (by omega)

/-! ## Waking -/

/-- `unlockProcesses` wakes the pids of the array. -/
theorem wakeAll_state (state : PipeState) (blocked count : Nat) (pid : Int) :
    (state.wakeAll blocked count).state pid =
      if pid ∈ (List.range count).map (state.entry blocked) then
        (state.processes.state pid).map fun _ => .ready
      else state.processes.state pid := by
  induction count with
  | zero => rfl
  | succ count ih =>
      rw [wakeAll, ProcessTable.changeProcessState_state, ih, List.range_succ, List.map_append,
        List.map_singleton]
      by_cases earlier : pid ∈ (List.range count).map (state.entry blocked)
      · rw [if_pos (List.mem_append_left _ earlier), if_pos earlier]
        split
        · rename_i same
          rw [← same, ih, if_pos earlier, Option.map_map]
          rfl
        · rfl
      · by_cases last : pid = state.entry blocked count
        · rw [if_pos last, ← last, ih, if_neg earlier,
            if_pos (List.mem_append_right _ (List.mem_singleton.mpr rfl))]
        · rw [if_neg last, if_neg earlier, if_neg]
          intro listed
          rcases List.mem_append.mp listed with before | here
          · exact earlier before
          · exact last (List.mem_singleton.mp here)

/-- A process that is recorded is READY then. -/
theorem wakeAll_ready {blocked count : Nat} (recorded : ∃ k < count, state.entry blocked k = pid)
    (here : state.processes.state pid = some .blocked) :
    (state.wakeAll blocked count).state pid = some .ready := by
  obtain ⟨k, inside, same⟩ := recorded
  rw [wakeAll_state, if_pos, here]
  · rfl
  · exact List.mem_map.mpr ⟨k, List.mem_range.mpr inside, same⟩

/-- `unlockProcesses` goes through the array of the pipe that the name leads to. -/
theorem unlockProcesses_of_unlockedPipe {name : Option String}
    (found : state.unlockedPipe name = some p) :
    let processes := state.wakeAll (state.pipe p).blocked (state.pipe p).cardinalBlocked
    state.unlockProcesses name =
      { state with processes }.setPipe p { state.pipe p with cardinalBlocked := 0 } := by
  obtain ⟨i, first, rfl⟩ := Option.map_eq_some_iff.mp found
  simp only [unlockProcesses, first]

/-- `unlockProcesses` does nothing for a name without an entry. -/
theorem unlockProcesses_of_missing {name : Option String}
    (missing : state.unlockedPipe name = none) : state.unlockProcesses name = state := by
  simp only [unlockProcesses, Option.map_eq_none_iff.mp missing]

/-- Any `write` into its pipe makes a recorded process READY. -/
theorem Attended.woken (attended : state.Attended p pid)
    (here : state.processes.state pid = some .blocked) (message : List UInt8) (aux : Nat) :
    (state.writeLocked p message aux).1.processes.state pid = some .ready := by
  have notFull : ¬ ((state.pipe p).position = (state.pipe p).endPosition ∧
      (state.pipe p).readFlag = 1) := by
    rintro ⟨-, full⟩
    rw [attended.drained.2] at full
    cases full
  simp only [writeLocked, if_neg notFull]
  generalize appended : (state.pipe p).append message aux = result
  obtain ⟨written, bytes⟩ := result
  have fields : written.blocked = (state.pipe p).blocked ∧
      written.cardinalBlocked = (state.pipe p).cardinalBlocked := by
    obtain ⟨rfl, -⟩ := Prod.mk.inj appended
    exact ⟨rfl, rfl⟩
  have listed : (state.setPipe p written).unlockedPipe (state.pipe p).name = some p :=
    attended.listed
  rw [unlockProcesses_of_unlockedPipe listed]
  refine MutexState.freeMutex_ready ?_
  have self : (state.setPipe p written).pipe p = written := Function.update_self ..
  simp only [self, fields]
  exact wakeAll_ready attended.recorded here

/-- Who still waits after `unlockProcesses` waits on another pipe. -/
theorem Attended.unlockProcesses (attended : state.Attended p pid)
    (here : state.processes.state pid = some .blocked) {name : Option String}
    (still : (state.unlockProcesses name).processes.state pid = some .blocked) :
    (state.unlockProcesses name).Attended p pid := by
  cases found : state.unlockedPipe name with
  | none =>
      rw [unlockProcesses_of_missing found]
      exact attended
  | some q =>
      rw [unlockProcesses_of_unlockedPipe found] at still ⊢
      have other : p ≠ q := by
        rintro rfl
        have ready := wakeAll_ready attended.recorded here
        have both : some ProcessState.ready = some ProcessState.blocked := ready.symm.trans still
        cases both
      refine attended.congr rfl rfl rfl ?_ rfl
      simp only [setPipe, Function.update_of_ne other]
      exact .refl _

/-- Who still waits after a `write` that was not into a full pipe is still recorded. -/
theorem Attended.writeLocked (attended : state.Attended p pid)
    (here : state.processes.state pid = some .blocked) {q aux : Nat}
    {message : List UInt8} (notFull : ¬ (state.pipe q).Full)
    (still : (state.writeLocked q message aux).1.processes.state pid = some .blocked) :
    (state.writeLocked q message aux).1.Attended p pid := by
  by_cases own : p = q
  · subst own
    have both := (attended.woken here message aux).symm.trans still
    cases both
  · simp only [Pipe.Full] at notFull
    simp only [PipeState.writeLocked, if_neg notFull] at still ⊢
    have stored : (state.setPipe q ((state.pipe q).append message aux).1).Attended p pid := by
      refine attended.congr rfl rfl rfl ?_ rfl
      simp only [setPipe, Function.update_of_ne own]
      exact .refl _
    have rest := stored.unlockProcesses here (MutexState.blocked_of_freeMutex still)
    exact rest.congr rfl rfl rfl (.refl _) rfl

/-- The store of an entry leaves alone what records a process on a pipe. -/
def Spares (state : PipeState) (p : Nat) (pid : Int) (array k : Nat) : Prop :=
  ∀ j < (state.pipe p).cardinalBlocked, state.entry (state.pipe p).blocked j = pid →
    Disjoint4 (array + 4 * k) ((state.pipe p).blocked + 4 * j)

instance (state : PipeState) (p : Nat) (pid : Int) (array k : Nat) :
    Decidable (state.Spares p pid array k) :=
  inferInstanceAs (Decidable (∀ j < _, _ → _))

/-- A `read` that finds its pipe empty only stores its own pid. -/
theorem Attended.readLocked (attended : state.Attended p pid) {q aux : Nat} {bytes : Int}
    (spared : (state.pipe q).Drained →
      state.Spares p pid (state.pipe q).blocked (state.pipe q).cardinalBlocked) :
    (state.readLocked q bytes aux).1.Attended p pid := by
  simp only [PipeState.readLocked]
  split
  · rename_i drained
    refine attended.store rfl rfl rfl ?_ ?_
    · by_cases own : p = q
      · subst own
        simp only [setPipe, Function.update_self]
        exact ⟨rfl, id, rfl, Nat.le_succ _⟩
      · simp only [setPipe, Function.update_of_ne own]
        exact .refl _
    · intro k inside stored
      rw [← stored]
      exact entry_setEntry_disjoint _ (spared drained k inside stored)
  · rename_i notDrained
    have other : p ≠ q := fun own => notDrained (own ▸ attended.drained)
    refine attended.congr rfl rfl rfl ?_ rfl
    simp only [setPipe, Function.update_of_ne other]
    exact .refl _

/-- The caller of a `read` that finds its pipe empty is recorded, if the name leads there. -/
theorem attended_of_readLocked {q aux : Nat} {bytes : Int} (drained : (state.pipe q).Drained)
    (listed : state.unlockedPipe (state.pipe q).name = some q)
    (low : 0 ≤ state.processes.current) (high : state.processes.current < 2 ^ 31) :
    (state.readLocked q bytes aux).1.Attended q state.processes.current := by
  have test := drained
  simp only [Pipe.Drained] at test
  simp only [PipeState.readLocked]
  rw [if_pos test]
  refine ⟨?_, ?_, (state.pipe q).cardinalBlocked, ?_, ?_⟩
  · simp only [setPipe, Function.update_self]
    exact listed
  · simp only [setPipe, Function.update_self]
    exact drained
  · simp only [setPipe, Function.update_self]
    exact Nat.lt_succ_self _
  · simp only [setPipe, Function.update_self]
    exact entry_setEntry low high

end PipeState

namespace PipeTable

open PipeState

variable {table after : PipeTable} {p : Nat} {pid : Int} {name : Option String}

/-- The struct and the stores of `createPipeStruct` leave alone what records a process. -/
def StructSpares (table : PipeTable) (p : Nat) (pid : Int) : Prop :=
  let taken := table.toPipeState.getIndexForPipeStructure
    (table.owner table.processes.getCurrentPid)
  taken.2 ≠ NO_SPACE_LEFT →
    taken.1.pipesStruct taken.2.toNat ≠ p ∧
    table.Spares p pid taken.1.occupiedPosition taken.2.toNat ∧
    table.Spares p pid (taken.1.pipePids + taken.2.toNat * MAX_PROCESS_PIPES) 0

instance (table : PipeTable) (p : Nat) (pid : Int) : Decidable (table.StructSpares p pid) :=
  inferInstanceAs (Decidable (_ → _ ∧ _))

/-- The slot is chosen by the bytes in memory. -/
theorem getIndexForPipeStructure_congr {state other : PipeState} (pro : PipeOwner)
    (memory : other.memory = state.memory) :
    other.getIndexForPipeStructure pro = state.getIndexForPipeStructure pro := by
  have entries : other.entry = state.entry := by
    funext array k
    rw [entry, entry, memory]
  unfold getIndexForPipeStructure
  rw [entries]

/-- The struct that `createPipe` takes depends on the current process, its fields and the
bytes in memory. -/
theorem StructSpares.congr {other : PipeTable} (spared : table.StructSpares p pid)
    (current : other.processes.getCurrentPid = table.processes.getCurrentPid)
    (owner : other.owner = table.owner) (pipe : other.pipe = table.pipe)
    (memory : other.memory = table.memory) : other.StructSpares p pid := by
  have slot : other.getIndexForPipeStructure = table.getIndexForPipeStructure :=
    funext fun pro => getIndexForPipeStructure_congr pro memory
  have entries : other.entry = table.entry := by
    funext array k
    rw [entry, entry, memory]
  unfold StructSpares Spares at spared ⊢
  rw [slot, current, owner, pipe, entries]
  exact spared

/-- `createPipeStruct` keeps a process recorded whose record it spares. -/
theorem createStruct_attended (attended : table.Attended p pid)
    (spared : table.StructSpares p pid) : (table.createStruct name).1.Attended p pid := by
  simp only [StructSpares] at spared
  simp only [createStruct, createPipeStruct]
  generalize table.toPipeState.getIndexForPipeStructure
    (table.owner table.processes.getCurrentPid) = taken at spared
  obtain ⟨pro, index⟩ := taken
  by_cases full : index = NO_SPACE_LEFT
  · simp only [full, if_true]
    exact attended.congr rfl rfl rfl (.refl _) rfl
  · simp only [full, if_false]
    obtain ⟨other, first, second⟩ := spared full
    refine attended.store rfl rfl rfl ?_ ?_
    · simp only [setPipe, Function.update_of_ne (Ne.symm other)]
      exact .refl _
    · intro k inside stored
      rw [← stored]
      refine Eq.trans ?_ (entry_setEntry_disjoint 1 (first k inside stored))
      exact entry_setEntry_disjoint _ (second k inside stored)

/-- The return of `createPipe` enters a pipe behind the others. -/
theorem createPipeReturn_attended (attended : table.Attended p pid) {pipe created : Option Nat}
    {mutex : Int} (returned : table.createPipeReturn name pipe mutex = some (after, created)) :
    after.Attended p pid := by
  simp only [createPipeReturn] at returned
  split at returned
  · obtain ⟨rfl, -⟩ := Prod.mk.inj (Option.some.inj returned)
    refine attended.transfer ?_ ?_ (Int.le_of_lt (Int.lt_succ _)) ?_ fun _ _ stored => stored
    · intro i below
      exact Function.update_of_ne (Nat.ne_of_lt below) ..
    · intro i below _
      exact Function.update_of_ne (Nat.ne_of_lt below) ..
    · simp only [setMutexes]
      by_cases own : p = pipe.getD NULL
      · subst own
        rw [Function.update_self]
        exact ⟨rfl, id, rfl, Nat.le_refl _⟩
      · rw [Function.update_of_ne own]
        exact .refl _
  · cases returned

/-- `createPipe` behind its lock keeps it recorded under the same condition. -/
theorem createPipeLocked_attended (attended : table.Attended p pid)
    (next : table.lastPipeName ≤ table.nextEntry)
    (spared : name ≠ none → table.StructSpares p pid) {garbage : Int} {progress : CreateProgress}
    (locked : table.createPipeLocked name garbage = some (after, progress)) :
    after.Attended p pid := by
  have chosen : (table.setLast table.nextEntry).Attended p pid :=
    attended.transfer (fun _ _ => rfl) (fun _ _ _ => rfl) next (.refl _) fun _ _ stored => stored
  simp only [createPipeLocked] at locked
  split at locked
  · cases locked
  · split at locked
    · obtain ⟨rfl, -⟩ := Prod.mk.inj (Option.some.inj locked)
      exact chosen
    · rename_i named
      have made := @createStruct_attended _ _ _ name chosen
        ((spared fun unnamed => named (.inr unnamed)).congr rfl rfl rfl rfl)
      split at locked
      · obtain ⟨⟨entered, pipe⟩, returned, pair⟩ := Option.map_eq_some_iff.mp locked
        obtain ⟨rfl, -⟩ := Prod.mk.inj pair
        refine createPipeReturn_attended ?_ returned
        exact made.congr rfl rfl rfl (.refl _) rfl
      · obtain ⟨rfl, -⟩ := Prod.mk.inj (Option.some.inj locked)
        exact made.congr rfl rfl rfl (.refl _) rfl

/-- `openPipe` only stores its own pid. -/
theorem openPipeLocked_attended (attended : table.Attended p pid)
    (spared : ∀ i ∈ table.getPipeNameIndex name, table.Spares p pid
      (table.pipe (table.pointee i)).pipePids (table.pipe (table.pointee i)).connected) :
    (table.openPipeLocked name).1.Attended p pid := by
  simp only [openPipeLocked]
  split
  · exact attended
  · rename_i i found
    refine attended.store rfl rfl rfl ?_ ?_
    · simp only [setMutexes, setPipe]
      by_cases own : p = table.pointee i
      · subst own
        rw [Function.update_self]
        exact ⟨rfl, id, rfl, Nat.le_refl _⟩
      · rw [Function.update_of_ne own]
        exact .refl _
    · intro k inside stored
      rw [← stored]
      exact entry_setEntry_disjoint _ (spared i found k inside stored)

/-- The slot that `closePipe` marks as free. -/
def closedSlot (table : PipeTable) (p : Nat) : Option Nat :=
  (table.getPipeNameIndex (table.pipe p).name).bind fun i =>
    table.freedSlot (table.owner table.processes.getCurrentPid) (table.pipe (table.pointee i)).name

/-- Closing another pipe keeps it recorded if the slot that is written is not in its record. -/
theorem closePipe_attended (attended : table.Attended p pid) {q : Nat}
    (other : (table.pipe p).name ≠ (table.pipe q).name)
    (spared : ∀ k ∈ table.closedSlot q,
      table.Spares p pid (table.owner table.processes.getCurrentPid).occupiedPosition k)
    (closed : table.closePipe q = some after) : after.Attended p pid := by
  simp only [closePipe] at closed
  split at closed
  · obtain rfl := Option.some.inj closed
    exact attended
  · rename_i i found
    split at closed
    · cases closed
    · obtain ⟨k, slot, rfl⟩ := Option.map_eq_some_iff.mp closed
      refine attended.transfer (fun _ _ => rfl) ?_ (Int.le_refl _) (.refl _) ?_
      · intro j _ named
        refine Function.update_of_ne ?_ ..
        rintro rfl
        exact other (named.symm.trans (name_of_getPipeNameIndex found))
      · intro j inside stored
        rw [← stored]
        have freed : table.closedSlot q = some k := by
          simp only [closedSlot, found, Option.bind_some]
          exact slot
        exact entry_setEntry_disjoint _ (spared k freed j inside stored)

end PipeTable

namespace IpcState

open PipeState PipeTable

/-- What is left of a call neither blocks a process without a record nor touches the
records of those who wait. -/
def KeepsRecords (state : IpcState) (waiting : List (Int × Waiting)) : IpcPending → Prop
  | .createPipe name => ∀ w ∈ waiting, state.lastPipeName ≤ state.nextEntry ∧
      (name ≠ none → state.StructSpares w.2.pipe w.1)
  | .openPipe name => ∀ i ∈ state.getPipeNameIndex name, ∀ w ∈ waiting,
      state.Spares w.2.pipe w.1 (state.pipe (state.pointee i)).pipePids
        (state.pipe (state.pointee i)).connected
  | .write q _ _ => ¬ (state.pipe q).Full
  | .read q _ _ => (state.pipe q).Drained → state.unlockedPipe (state.pipe q).name = some q ∧
      ∀ w ∈ waiting,
        state.Spares w.2.pipe w.1 (state.pipe q).blocked (state.pipe q).cardinalBlocked
  | .sync _ | .createPipeMutex _ _ => True

instance (state : IpcState) (waiting : List (Int × Waiting)) (pending : IpcPending) :
    Decidable (state.KeepsRecords waiting pending) :=
  match pending with
  | .createPipe _ | .openPipe _ | .write _ _ _ | .read _ _ _ | .sync _
  | .createPipeMutex _ _ => by
      unfold KeepsRecords
      infer_instance

variable {state after : IpcState} {waiting : List (Int × Waiting)} {p : Nat} {pid garbage : Int}
  {pending : IpcPending} {outcome : IpcOutcome}

/-- Who still waits after the rest of a call is still recorded. -/
theorem resume_attended (waits : (pid, Waiting.bytes p) ∈ waiting)
    (attended : state.Attended p pid) (here : state.processes.state pid = some .blocked)
    (keeps : state.KeepsRecords waiting pending)
    (resumed : state.resume garbage pending = some (after, outcome))
    (still : after.processes.state pid = some .blocked) : after.Attended p pid := by
  cases pending with
  | sync pending =>
      simp only [resume] at resumed
      split at resumed
      · split at resumed <;>
        · obtain ⟨rfl, -⟩ := Prod.mk.inj (Option.some.inj resumed)
          exact attended.congr rfl rfl rfl (.refl _) rfl
      · cases resumed
  | createPipe name =>
      obtain ⟨⟨table, progress⟩, locked, pair⟩ := Option.map_eq_some_iff.mp resumed
      obtain ⟨rfl, -⟩ := Prod.mk.inj pair
      obtain ⟨next, spared⟩ := keeps _ waits
      exact createPipeLocked_attended attended next spared locked
  | createPipeMutex name pipe =>
      obtain ⟨⟨table, created⟩, returned, pair⟩ := Option.map_eq_some_iff.mp resumed
      obtain ⟨rfl, -⟩ := Prod.mk.inj pair
      refine createPipeReturn_attended ?_ returned
      exact attended.congr rfl rfl rfl (.refl _) rfl
  | openPipe name =>
      obtain ⟨rfl, -⟩ := Prod.mk.inj (Option.some.inj resumed)
      exact openPipeLocked_attended attended fun i found => keeps i found _ waits
  | write q message aux =>
      obtain ⟨rfl, -⟩ := Prod.mk.inj (Option.some.inj resumed)
      exact attended.writeLocked here keeps still
  | read q bytes aux =>
      have kept := @PipeState.Attended.readLocked _ _ _ attended q aux bytes
        fun drained => (keeps drained).2 _ waits
      simp only [resume, readRest] at resumed
      split at resumed
      · rename_i result
        obtain ⟨rfl, -⟩ := Prod.mk.inj (Option.some.inj resumed)
        rw [result] at kept
        exact kept
      · rename_i result
        obtain ⟨rfl, -⟩ := Prod.mk.inj (Option.some.inj resumed)
        rw [result] at kept
        exact kept
      · cases resumed

/-- Whom the rest of a call leaves BLOCKED on a pipe is recorded. -/
theorem resume_blocksOn (low : 0 ≤ state.processes.current)
    (high : state.processes.current < 2 ^ 31) (keeps : state.KeepsRecords waiting pending)
    (resumed : state.resume garbage pending = some (after, outcome)) (w : Int × Waiting)
    (blocks : w ∈ IpcRun.blocksOn state.processes.current outcome) :
    ∃ p, w = (state.processes.current, .bytes p) ∧ after.Attended p state.processes.current := by
  cases pending with
  | sync pending =>
      simp only [resume] at resumed
      split at resumed
      · split at resumed <;>
        · obtain ⟨-, rfl⟩ := Prod.mk.inj (Option.some.inj resumed)
          cases blocks
      · cases resumed
  | createPipe name =>
      obtain ⟨⟨table, progress⟩, -, pair⟩ := Option.map_eq_some_iff.mp resumed
      obtain ⟨-, rfl⟩ := Prod.mk.inj pair
      cases progress <;> cases blocks
  | createPipeMutex name pipe =>
      obtain ⟨⟨table, created⟩, -, pair⟩ := Option.map_eq_some_iff.mp resumed
      obtain ⟨-, rfl⟩ := Prod.mk.inj pair
      cases blocks
  | openPipe name =>
      obtain ⟨-, rfl⟩ := Prod.mk.inj (Option.some.inj resumed)
      cases blocks
  | write q message aux =>
      obtain ⟨-, rfl⟩ := Prod.mk.inj (Option.some.inj resumed)
      simp only [KeepsRecords, Pipe.Full] at keeps
      rw [if_neg keeps] at blocks
      cases blocks
  | read q bytes aux =>
      simp only [resume, readRest] at resumed
      split at resumed
      · obtain ⟨-, rfl⟩ := Prod.mk.inj (Option.some.inj resumed)
        cases blocks
      · rename_i result
        obtain ⟨rfl, rfl⟩ := Prod.mk.inj (Option.some.inj resumed)
        obtain rfl := List.mem_singleton.mp blocks
        have drained : (state.pipe q).Drained := by
          simp only [PipeState.readLocked] at result
          split at result
          · assumption
          · cases (Prod.mk.inj result).2
        have recorded := @attended_of_readLocked _ q aux bytes drained
          (keeps drained).1 low high
        rw [result] at recorded
        exact ⟨q, rfl, recorded⟩
      · cases resumed

/-- Only the pipe table and the current process count. -/
theorem KeepsRecords.setMutexes (keeps : state.KeepsRecords waiting pending)
    {mutexes : MutexState} (current : mutexes.processes.current = state.processes.current) :
    (state.setMutexes mutexes).KeepsRecords waiting pending := by
  cases pending with
  | createPipe name =>
      intro w waits
      obtain ⟨next, spared⟩ := keeps w waits
      exact ⟨next, fun named => (spared named).congr current rfl rfl rfl⟩
  | _ => exact keeps

/-- A call that has to lock its mutex first is like one that does not. -/
theorem lockThen_eq_some {mutex : Int}
    (keeps : state.Uncontended mutex → state.KeepsRecords waiting pending)
    (locked : state.lockThen mutex garbage pending = some (after, outcome)) :
    (∃ mutexes, after = state.setMutexes mutexes ∧ outcome = .yielded pending) ∨
    ∃ mutexes, mutexes.processes = state.processes ∧
      (state.setMutexes mutexes).KeepsRecords waiting pending ∧
      (state.setMutexes mutexes).resume garbage pending = some (after, outcome) := by
  rcases lockThen_cases locked with ⟨mutexes, -, rfl, rfl⟩ | ⟨mutexes, returned, resumed⟩
  · exact .inl ⟨mutexes, rfl, rfl⟩
  · have uncontended := MutexState.lockMutex_returned.mp (congrArg Prod.snd returned)
    obtain ⟨taken, same, -⟩ := MutexState.lockMutex_uncontended uncontended garbage
    rw [returned] at same
    obtain ⟨rfl, -⟩ := Prod.mk.inj same
    exact .inr ⟨⟨state.processes, taken⟩, rfl, (keeps uncontended).setMutexes rfl, resumed⟩

/-- The mutexes are no part of a record. -/
theorem setMutexes_attended (attended : state.Attended p pid) (mutexes : MutexState) :
    (state.setMutexes mutexes).Attended p pid :=
  attended.congr rfl rfl rfl (.refl _) rfl

/-- A call on the pipes that spares the records keeps whoever waits recorded. -/
theorem lockThen_attended {mutex : Int} (waits : (pid, Waiting.bytes p) ∈ waiting)
    (attended : state.Attended p pid) (here : state.processes.state pid = some .blocked)
    (keeps : state.Uncontended mutex → state.KeepsRecords waiting pending)
    (locked : state.lockThen mutex garbage pending = some (after, outcome))
    (still : after.processes.state pid = some .blocked) : after.Attended p pid := by
  rcases lockThen_eq_some keeps locked with ⟨mutexes, rfl, -⟩ | ⟨mutexes, same, kept, resumed⟩
  · exact setMutexes_attended attended mutexes
  · have blocked : (state.setMutexes mutexes).processes.state pid = some .blocked := by
      rw [← here, ← same]
      rfl
    exact resume_attended waits (setMutexes_attended attended mutexes) blocked kept resumed still

/-- Whoever a call on the pipes lets wait is recorded. -/
theorem lockThen_blocksOn {mutex : Int} (low : 0 ≤ state.processes.current)
    (high : state.processes.current < 2 ^ 31)
    (keeps : state.Uncontended mutex → state.KeepsRecords waiting pending)
    (locked : state.lockThen mutex garbage pending = some (after, outcome)) (w : Int × Waiting)
    (blocks : w ∈ IpcRun.blocksOn state.processes.current outcome) :
    ∃ p, w = (state.processes.current, .bytes p) ∧ after.Attended p state.processes.current := by
  rcases lockThen_eq_some keeps locked with ⟨mutexes, -, rfl⟩ | ⟨mutexes, same, kept, resumed⟩
  · cases blocks
  · have current : (state.setMutexes mutexes).processes.current = state.processes.current := by
      rw [← same]
      rfl
    rw [← current] at low high blocks ⊢
    exact resume_blocksOn low high kept resumed w blocks

end IpcState

namespace IpcRun

open PipeState PipeTable

/-- The condition on a step: nobody writes into a full pipe; who reads an empty pipe reads
one that its name leads to; and nothing that `blocked` records of those who wait is
overwritten, nor their pipe closed, reused or moved behind `lastPipeName`. -/
def Recorded (state : IpcRun) : IpcAction → Prop
  | .call (.createPipe name) _ _ => state.kernel.Uncontended state.kernel.ipcAdminMutex →
      state.kernel.KeepsRecords state.waiting (.createPipe name)
  | .call (.openPipe name) _ _ => state.kernel.Uncontended state.kernel.ipcAdminMutex →
      state.kernel.KeepsRecords state.waiting (.openPipe name)
  | .call (.closePipe q) _ _ => ∀ w ∈ state.waiting,
      (state.kernel.pipe w.2.pipe).name ≠ (state.kernel.pipe q).name ∧
      ∀ k ∈ state.kernel.closedSlot q,
        state.kernel.Spares w.2.pipe w.1 (state.kernel.owner state.current).occupiedPosition k
  | .call (.write q message) _ _ => state.kernel.Uncontended (state.kernel.pipe q).mutex →
      state.kernel.KeepsRecords state.waiting
        (.write q message (state.kernel.pipe q).endPosition)
  | .call (.read q bytes) _ _ => state.kernel.Uncontended (state.kernel.pipe q).mutex →
      state.kernel.KeepsRecords state.waiting (.read q bytes (state.kernel.pipe q).position)
  | .resume _ _ => ∀ pending ∈ state.pending state.current,
      state.kernel.KeepsRecords state.waiting pending
  | .createProcess _ owner => ∀ w ∈ state.waiting, ∀ k < MAX_PROCESS_PIPES,
      state.kernel.Spares w.2.pipe w.1 owner.occupiedPosition k
  | .call (.sync _) _ _ | .timerTick _ | .removeProcess _ _ => True

instance (state : IpcRun) (action : IpcAction) : Decidable (state.Recorded action) :=
  match action with
  | .call (.createPipe _) _ _ | .call (.openPipe _) _ _ | .call (.write _ _) _ _
  | .call (.read _ _) _ _ | .call (.closePipe _) _ _ | .call (.sync _) _ _ | .resume _ _
  | .createProcess _ _ | .timerTick _ | .removeProcess _ _ => by
      unfold Recorded MutexState.Uncontended
      infer_instance

/-- The invariant of the runs: who waits is BLOCKED and recorded. -/
def Watched (state : IpcRun) : Prop :=
  ∀ w ∈ state.waiting, state.kernel.processes.state w.1 = some .blocked ∧
    ∃ p, w.2 = .bytes p ∧ state.kernel.Attended p w.1

/-- A part of a call keeps the records of those who still wait. -/
theorem perform_attended {state : IpcRun} {action : IpcAction} (recorded : state.Recorded action)
    {kernel : IpcState} {outcome : IpcOutcome}
    (performed : state.perform action = some (kernel, outcome)) {pid : Int} {p : Nat}
    (waits : (pid, Waiting.bytes p) ∈ state.waiting) (attended : state.kernel.Attended p pid)
    (here : state.kernel.processes.state pid = some .blocked)
    (still : kernel.processes.state pid = some .blocked) : kernel.Attended p pid := by
  cases action with
  | call call garbage next =>
      simp only [perform] at performed
      split at performed
      case isFalse => cases performed
      cases call with
      | sync call =>
          simp only [IpcState.enter] at performed
          split at performed
          · split at performed <;>
            · obtain ⟨rfl, -⟩ := Prod.mk.inj (Option.some.inj performed)
              exact attended.congr rfl rfl rfl (.refl _) rfl
          · cases performed
      | createPipe name =>
          exact IpcState.lockThen_attended waits attended here recorded performed still
      | openPipe name =>
          exact IpcState.lockThen_attended waits attended here recorded performed still
      | closePipe q =>
          obtain ⟨table, closed, pair⟩ := Option.map_eq_some_iff.mp performed
          obtain ⟨rfl, -⟩ := Prod.mk.inj pair
          obtain ⟨other, spared⟩ := recorded _ waits
          exact closePipe_attended attended other spared closed
      | write q message =>
          exact IpcState.lockThen_attended waits attended here recorded performed still
      | read q bytes =>
          exact IpcState.lockThen_attended waits attended here recorded performed still
  | resume garbage next =>
      simp only [perform] at performed
      split at performed
      · obtain ⟨pending, stands, resumed⟩ := Option.bind_eq_some_iff.mp performed
        exact IpcState.resume_attended waits attended here (recorded pending stands) resumed still
      · cases performed
  | timerTick next => cases performed
  | createProcess pid owner => cases performed
  | removeProcess pid next => cases performed

/-- Whom a part of a call leaves BLOCKED on a pipe is recorded. -/
theorem perform_blocksOn {state : IpcRun} {action : IpcAction} (recorded : state.Recorded action)
    {kernel : IpcState} {outcome : IpcOutcome}
    (performed : state.perform action = some (kernel, outcome)) (w : Int × Waiting)
    (blocks : w ∈ blocksOn state.current outcome) :
    ∃ p, w = (state.current, .bytes p) ∧ kernel.Attended p state.current := by
  cases action with
  | call call garbage next =>
      simp only [perform] at performed
      split at performed
      case isFalse => cases performed
      rename_i caller
      obtain ⟨⟨low, high⟩, -⟩ := caller
      have positive : 0 ≤ state.current := Int.le_of_lt low
      cases call with
      | sync call =>
          simp only [IpcState.enter] at performed
          split at performed
          · split at performed <;>
            · obtain ⟨-, rfl⟩ := Prod.mk.inj (Option.some.inj performed)
              cases blocks
          · cases performed
      | closePipe q =>
          obtain ⟨table, -, pair⟩ := Option.map_eq_some_iff.mp performed
          obtain ⟨-, rfl⟩ := Prod.mk.inj pair
          cases blocks
      | createPipe name =>
          exact IpcState.lockThen_blocksOn positive high recorded performed w blocks
      | openPipe name => exact IpcState.lockThen_blocksOn positive high recorded performed w blocks
      | write q message =>
          exact IpcState.lockThen_blocksOn positive high recorded performed w blocks
      | read q bytes => exact IpcState.lockThen_blocksOn positive high recorded performed w blocks
  | resume garbage next =>
      simp only [perform] at performed
      split at performed
      · rename_i caller
        obtain ⟨pending, stands, resumed⟩ := Option.bind_eq_some_iff.mp performed
        exact IpcState.resume_blocksOn (Int.le_of_lt caller.1) caller.2 (recorded pending stands)
          resumed w blocks
      · cases performed
  | timerTick next => cases performed
  | createProcess pid owner => cases performed
  | removeProcess pid next => cases performed

/-- Who still waits is in the list and BLOCKED. -/
theorem mem_stillWaiting {processes : ProcessTable} {waiting : List (Int × Waiting)}
    {w : Int × Waiting} :
    w ∈ stillWaiting processes waiting ↔
      w ∈ waiting ∧ processes.state w.1 = some .blocked := by
  simp [stillWaiting]

/-- A call that keeps the records keeps the invariant. -/
theorem Watched.settle {state : IpcRun} (watched : Watched state) {action : IpcAction}
    (recorded : state.Recorded action) {kernel : IpcState} {outcome : IpcOutcome}
    (performed : state.perform action = some (kernel, outcome)) :
    Watched (state.settle kernel outcome) := by
  intro w waits
  obtain ⟨listed, still⟩ := mem_stillWaiting.mp waits
  refine ⟨still, ?_⟩
  rcases List.mem_append.mp listed with blocks | before
  · obtain ⟨p, rfl, attended⟩ := perform_blocksOn recorded performed w blocks
    exact ⟨p, rfl, attended⟩
  · obtain ⟨pid, waitsFor⟩ := w
    obtain ⟨here, p, rfl, attended⟩ := watched _ before
    exact ⟨p, rfl, perform_attended recorded performed before attended here still⟩

/-- The invariant stays while the states of the processes stay. -/
theorem Watched.setProcesses {state : IpcRun} (watched : Watched state)
    (processes : ProcessTable) : Watched (state.setProcesses processes) := by
  intro w waits
  obtain ⟨listed, still⟩ := mem_stillWaiting.mp waits
  obtain ⟨-, p, bytes, attended⟩ := watched w listed
  exact ⟨still, p, bytes, attended.congr rfl rfl rfl (.refl _) rfl⟩

/-- A switch keeps the invariant. -/
theorem Watched.dispatch {state after : IpcRun} (watched : Watched state) {next : Int}
    (switched : state.dispatch next = some after) : Watched after := by
  obtain ⟨processes, -, rfl⟩ := Option.map_eq_some_iff.mp switched
  exact watched.setProcesses processes

/-- A new process keeps the invariant if its page spares the records. -/
theorem Watched.createProcess {state : IpcRun} (watched : Watched state) {pid : Int}
    {owner : PipeOwner} (recorded : state.Recorded (.createProcess pid owner)) :
    Watched (state.createProcess pid owner) := by
  intro w waits
  obtain ⟨listed, still⟩ := mem_stillWaiting.mp waits
  obtain ⟨-, p, bytes, attended⟩ := watched w listed
  refine ⟨still, p, bytes, attended.store rfl rfl rfl (.refl _) ?_⟩
  intro k inside stored
  have spared := recorded w listed
  rw [bytes] at spared
  have first := spared 0 (by decide) k inside stored
  have second := spared 1 (by decide) k inside stored
  have third := spared 2 (by decide) k inside stored
  refine Eq.trans (entry_setEntry_disjoint 0 third) ?_
  refine Eq.trans (entry_setEntry_disjoint 0 second) ?_
  exact (entry_setEntry_disjoint 0 first).trans stored

/-- A step that keeps the records keeps the invariant. -/
theorem watched_step (state : IpcRun) (action : IpcAction) (next : IpcRun)
    (watched : Watched state) (recorded : state.Recorded action)
    (stepped : state.step action = some next) : Watched next := by
  refine step_rule stepped watched (fun _ => id) (fun mid => mid.dispatch)
    (fun performed => watched.settle recorded performed) (fun created => ?_)
    fun _ => ⟨watched.setProcesses _, fun _ => watched.setProcesses _⟩
  subst created
  exact watched.createProcess recorded

/-- Who waits is woken by the next operation on its pipe: a reader by any `write`, a writer
by any `read` that gets bytes. -/
structure WokenInTime (state : IpcRun) : Prop where
  readers : ∀ pid p, (pid, Waiting.bytes p) ∈ state.waiting → ∀ message aux,
    (state.kernel.writeLocked p message aux).1.processes.state pid = some .ready
  writers : ∀ pid p, (pid, Waiting.room p) ∈ state.waiting → ∀ bytes aux after result,
    state.kernel.readLocked p bytes aux = (after, .returned result) → result ≠ [] →
      after.processes.state pid = some .ready

/-- Whoever is BLOCKED and recorded is woken by the next operation. -/
theorem Watched.wokenInTime {state : IpcRun} (watched : Watched state) : WokenInTime state := by
  refine ⟨?_, ?_⟩
  · intro pid p waits message aux
    obtain ⟨here, q, same, attended⟩ := watched _ waits
    obtain rfl := Waiting.bytes.inj same
    exact attended.woken here message aux
  · intro pid p waits
    obtain ⟨-, q, same, -⟩ := watched _ waits
    cases same

/-- In every run in which nobody writes into a full pipe, the records are kept and the pids stay
among the arrays, whoever waits on a pipe is woken by the next operation on it. -/
theorem waiting_readers_are_woken {state final : IpcRun} {actions : List IpcAction}
    (nobody : state.waiting = [])
    (recorded : Along step (fun state action => state.Recorded action ∧ state.StaysInArrays action)
      state actions)
    (ran : run step state actions = some final) : WokenInTime final := by
  have start : Watched state := by
    intro w waits
    rw [nobody] at waits
    cases waits
  have watched : Watched final :=
    Along.invariant watched_step start (recorded.mono fun _ _ => And.left) ran
  exact watched.wokenInTime

/-- `SHELL` creates a pipe. Process `2` frees `ipcAdminMutex` once more than it has to, so that
`createPipe` gets through. -/
def createsPipe (name : String) : List IpcAction :=
  [.timerTick 2, .call (.sync (.lockMutex 0)) 0 0, .timerTick 1,
    .call (.createPipe (some name)) 0 2, .call (.sync (.freeMutex 0)) 0 0,
    .call (.sync (.freeMutex 0)) 0 0, .timerTick 1, .resume 0 0]

/-- Process `2` reads the new pipe of `SHELL`. -/
def readsEmpty : List IpcAction :=
  .createProcess 2 (ownerAt 2 12) :: createsPipe "x" ++
    [.timerTick 2, .call (.read 33 (-1)) 0 1]

theorem readsEmpty_wokenInTime : ∃ final,
    run step (boot (ownerAt 0 10) (ownerAt 1 11)) readsEmpty = some final ∧
      final.waiting = [(2, .bytes 33)] ∧ WokenInTime final := by
  have result : (run step (boot (ownerAt 0 10) (ownerAt 1 11)) readsEmpty).map
      IpcRun.waiting = some [(2, .bytes 33)] := by
    decide +kernel
  obtain ⟨final, ran, waits⟩ := Option.map_eq_some_iff.mp result
  exact ⟨final, ran, waits,
    @waiting_readers_are_woken (boot (ownerAt 0 10) (ownerAt 1 11)) _ _ rfl
      (by decide +kernel) ran⟩

/-- `SHELL` fills its pipe with ten bytes, and process `2` writes one more. -/
def writesFull : List IpcAction :=
  .createProcess 2 (ownerAt 2 12) :: createsPipe "x" ++
    [.call (.write 33 [1, 2, 3, 4, 5, 6, 7, 8, 9, 10]) 0 0, .timerTick 2,
      .call (.write 33 [11]) 0 0, .timerTick 1]

/-- The writer is BLOCKED, and stays so when `SHELL` reads all ten bytes. -/
theorem blocked_writer_stays_blocked : ∃ final after,
    run step (boot (ownerAt 0 10) (ownerAt 1 11)) writesFull = some final ∧
      final.waiting = [(2, .room 33)] ∧
      final.kernel.readLocked 33 (-1) (final.kernel.pipe 33).position =
        (after, .returned [1, 2, 3, 4, 5, 6, 7, 8, 9, 10]) ∧
      after.processes.state 2 = some .blocked ∧ ¬ WokenInTime final := by
  have result : (run step (boot (ownerAt 0 10) (ownerAt 1 11)) writesFull).map (fun final =>
      (final.waiting, (final.kernel.readLocked 33 (-1) (final.kernel.pipe 33).position).2,
        (final.kernel.readLocked 33 (-1)
          (final.kernel.pipe 33).position).1.processes.state 2)) =
      some ([(2, .room 33)], .returned [1, 2, 3, 4, 5, 6, 7, 8, 9, 10], some .blocked) := by
    decide +kernel
  obtain ⟨final, ran, outcome⟩ := Option.map_eq_some_iff.mp result
  simp only [Prod.mk.injEq] at outcome
  obtain ⟨waits, returned, blocked⟩ := outcome
  have got : final.kernel.readLocked 33 (-1) (final.kernel.pipe 33).position =
      (_, .returned [1, 2, 3, 4, 5, 6, 7, 8, 9, 10]) := Prod.ext rfl returned
  refine ⟨final, _, ran, waits, got, blocked, fun woken => ?_⟩
  have listed : (2, Waiting.room 33) ∈ final.waiting := by
    rw [waits]
    exact List.mem_singleton.mpr rfl
  have ready := woken.writers 2 33 listed _ _ _ _ got (by simp)
  rw [blocked] at ready
  cases ready

/-- `SHELL` creates two pipes. Process `2` reads the second one, then process `3` the first
one, whose record overlaps the other by a byte. -/
def readsBoth : List IpcAction :=
  .createProcess 2 (ownerAt 2 12) :: .createProcess 3 (ownerAt 3 13) ::
    (createsPipe "x" ++ createsPipe "y") ++
    [.timerTick 2, .call (.read 34 (-1)) 0 3, .call (.read 33 (-1)) 0 1]

/-- A `write` into the second pipe wakes nobody then. -/
theorem overwritten_reader_stays_blocked : ∃ final after,
    run step (boot (ownerAt 0 10) (ownerAt 1 11)) readsBoth = some final ∧
      final.waiting = [(3, .bytes 33), (2, .bytes 34)] ∧
      final.kernel.writeLocked 34 [1] (final.kernel.pipe 34).endPosition = (after, 1) ∧
      after.processes.state 2 = some .blocked := by
  have result : (run step (boot (ownerAt 0 10) (ownerAt 1 11)) readsBoth).map (fun final =>
      (final.waiting, (final.kernel.writeLocked 34 [1] (final.kernel.pipe 34).endPosition).2,
        (final.kernel.writeLocked 34 [1]
          (final.kernel.pipe 34).endPosition).1.processes.state 2)) =
      some ([(3, .bytes 33), (2, .bytes 34)], 1, some .blocked) := by
    decide +kernel
  obtain ⟨final, ran, outcome⟩ := Option.map_eq_some_iff.mp result
  simp only [Prod.mk.injEq] at outcome
  obtain ⟨waits, wrote, blocked⟩ := outcome
  exact ⟨final, _, ran, waits, Prod.ext rfl wrote, blocked⟩

end IpcRun

end SistemasOperativos.Kernel
