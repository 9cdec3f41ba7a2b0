import SistemasOperativos.Kernel.PipeTable

/-!
# Creating and opening pipes

`createPipe` locks `ipcAdminMutex` and then calls `getMutex`, which locks the same
mutex, since both handles are 0. Its caller therefore waits for a mutex that it
holds (`createPipe_waits_for_itself`). It gets through only when it waits in its
first `lockMutex` and goes on while the mutex is free again. In runs where that
holds of all calls, `createPipe` returns a pipe and `openPipe` finds it under its
name until it is closed (`pipes_created_and_opened`).
-/

namespace SistemasOperativos.Kernel

open SistemasOperativos.Semantics

namespace PipeState

/-- `write` leaves the table alone. -/
theorem writeLocked_entries (state : PipeState) (p : Nat) (message : List UInt8) (aux : Nat) :
    (state.writeLocked p message aux).1.pipeNames = state.pipeNames ∧
      (state.writeLocked p message aux).1.pipes = state.pipes ∧
      (state.writeLocked p message aux).1.lastPipeName = state.lastPipeName := by
  simp only [writeLocked]
  split
  · exact ⟨rfl, rfl, rfl⟩
  · rcases (state.setPipe p ((state.pipe p).append message aux).1).unlockProcesses_cases
      (state.pipe p).name with same | ⟨q, woken⟩
    · rw [same]
      exact ⟨rfl, rfl, rfl⟩
    · rw [woken]
      exact ⟨rfl, rfl, rfl⟩

/-- `read` leaves the table alone. -/
theorem readLocked_entries (state : PipeState) (p aux : Nat) (bytes : Int) :
    (state.readLocked p bytes aux).1.pipeNames = state.pipeNames ∧
      (state.readLocked p bytes aux).1.pipes = state.pipes ∧
      (state.readLocked p bytes aux).1.lastPipeName = state.lastPipeName := by
  simp only [readLocked]
  split <;> exact ⟨rfl, rfl, rfl⟩

end PipeState

namespace PipeTable

/-- The entries of the table are the same. -/
structure SameTable (before after : PipeTable) : Prop where
  names : after.pipeNames = before.pipeNames
  pipes : after.pipes = before.pipes
  last : after.lastPipeName = before.lastPipeName
  handle : after.ipcAdminMutex = before.ipcAdminMutex

/-- A table has its own entries. -/
theorem SameTable.refl (table : PipeTable) : SameTable table table := ⟨rfl, rfl, rfl, rfl⟩

/-- Entries that stay twice stay. -/
theorem SameTable.trans {a b c : PipeTable} (first : SameTable a b) (second : SameTable b c) :
    SameTable a c :=
  ⟨second.names.trans first.names, second.pipes.trans first.pipes,
    second.last.trans first.last, second.handle.trans first.handle⟩

/-- A name below the last entry, which no entry before it has, is found there. -/
theorem getPipeNameIndex_eq_some {table : PipeTable} {name : Option String} {i : Nat}
    (inside : i < MAX_PIPES) (here : table.pipeNames i = name) (named : name ≠ none)
    (first : ∀ j < i, table.pipeNames j ≠ name) : table.getPipeNameIndex name = some i := by
  obtain ⟨word, rfl⟩ := Option.ne_none_iff_exists'.mp named
  have found : MutexState.sameName (table.pipeNames i) (some word) = true := by
    simp [here, MutexState.sameName]
  rw [getPipeNameIndex, List.find?_range_eq_some]
  refine ⟨found, List.mem_range.mpr inside, ?_⟩
  intro j before
  have different := first j before
  cases other : table.pipeNames j with
  | none => simp [MutexState.sameName]
  | some text =>
      have apart : text ≠ word := fun same => different (by rw [other, same])
      simp [MutexState.sameName, apart]

/-- A name that is not found stands in no entry. -/
theorem ne_of_getPipeNameIndex {table : PipeTable} {name : Option String}
    (missing : table.getPipeNameIndex name = none) {i : Nat} (inside : i < MAX_PIPES)
    (named : name ≠ none) : table.pipeNames i ≠ name := by
  rintro rfl
  have different := List.find?_eq_none.mp missing i (List.mem_range.mpr inside)
  obtain ⟨word, here⟩ := Option.ne_none_iff_exists'.mp named
  simp [here, MutexState.sameName] at different

/-- `createPipeStruct` enters nothing in the table. -/
theorem createStruct_sameTable (table : PipeTable) (name : Option String) :
    SameTable table (table.createStruct name).1 := by
  simp only [createStruct, PipeState.createPipeStruct]
  split <;> exact ⟨rfl, rfl, rfl, rfl⟩

/-- A process with a free slot gets a struct. -/
theorem createStruct_isSome {table : PipeTable} {name : Option String}
    (slot : ∃ k < MAX_PROCESS_PIPES,
      table.entry (table.owner table.processes.current).occupiedPosition k = 0) :
    ∃ p, (table.createStruct name).2 = some p := by
  obtain ⟨k, inside, free⟩ := slot
  have found : ((List.range MAX_PROCESS_PIPES).find? fun i => table.entry
      (table.owner table.processes.current).occupiedPosition i == 0).isSome := by
    rw [List.find?_isSome]
    exact ⟨k, List.mem_range.mpr inside, by simpa using free⟩
  obtain ⟨i, chosen⟩ := Option.isSome_iff_exists.mp found
  have index : (table.toPipeState.getIndexForPipeStructure
      (table.owner table.processes.current)).2 ≠ NO_SPACE_LEFT := by
    simp only [PipeState.getIndexForPipeStructure, chosen]
    split
    · simp only [NO_SPACE_LEFT]
      omega
    · simp only [NO_SPACE_LEFT]
      omega
  simp only [createStruct, PipeState.createPipeStruct, ProcessTable.getCurrentPid, index, if_false]
  exact ⟨_, rfl⟩

/-- What `createPipe` leaves in the table when it returns. -/
theorem createPipeReturn_eq_some {table after : PipeTable} {name : Option String}
    {pipe created : Option Nat} {mutex : Int}
    (returned : table.createPipeReturn name pipe mutex = some (after, created)) :
    created = pipe ∧ 0 ≤ table.lastPipeName ∧ table.lastPipeName < MAX_PIPES ∧
      after.pipeNames = Function.update table.pipeNames table.lastPipeName.toNat name ∧
      after.pipes = Function.update table.pipes table.lastPipeName.toNat pipe ∧
      after.lastPipeName = table.lastPipeName + 1 ∧
      after.ipcAdminMutex = table.ipcAdminMutex := by
  simp only [createPipeReturn] at returned
  split at returned
  · rename_i inside
    obtain ⟨rfl, rfl⟩ := Prod.mk.inj (Option.some.inj returned)
    exact ⟨rfl, inside.1, inside.2, rfl, rfl, rfl, rfl⟩
  · cases returned

/-- An entry that is free is the next one. -/
theorem nextEntry_eq {table : PipeTable} (room : table.lastPipeName < MAX_PIPES)
    (vacant : table.pipeNames table.lastPipeName.toNat = none) :
    table.nextEntry = table.lastPipeName := by
  rw [nextEntry, if_neg]
  rintro (full | named)
  · omega
  · exact named vacant

/-- What `createPipe` does after its `lockMutex`, when the mutex is free and the next
entry is: it returns NULL for a NULL name, and otherwise it enters what it returns. -/
theorem createPipeLocked_eq_some {table after : PipeTable} {name : Option String}
    {garbage : Int} {progress : CreateProgress}
    (handle : table.ipcAdminMutex = MutexState.adminMutex)
    (free : table.Uncontended table.ipcAdminMutex) (low : 0 ≤ table.lastPipeName)
    (room : table.lastPipeName < MAX_PIPES)
    (vacant : table.pipeNames table.lastPipeName.toNat = none)
    (locked : table.createPipeLocked name garbage = some (after, progress)) :
    (name = none ∧ progress = .returned none ∧ SameTable table after) ∨
    (name ≠ none ∧ ∃ pipe, progress = .returned pipe ∧
      after.pipeNames = Function.update table.pipeNames table.lastPipeName.toNat name ∧
      after.pipes = Function.update table.pipes table.lastPipeName.toNat pipe ∧
      after.lastPipeName = table.lastPipeName + 1 ∧
      after.ipcAdminMutex = table.ipcAdminMutex) := by
  have next := nextEntry_eq room vacant
  simp only [createPipeLocked, next, setLast_same] at locked
  rw [if_neg (by omega)] at locked
  have notFull : ¬ table.lastPipeName = NO_SPACE_LEFT := by
    simp only [NO_SPACE_LEFT]
    omega
  by_cases unnamed : name = none
  · rw [if_pos (.inr unnamed)] at locked
    obtain ⟨rfl, rfl⟩ := Prod.mk.inj (Option.some.inj locked)
    exact .inl ⟨unnamed, rfl, rfl, rfl, rfl, rfl⟩
  · rw [if_neg (by rintro (full | none) <;> contradiction)] at locked
    have same := createStruct_sameTable table name
    have mutexes := createStruct_mutexes table name
    have uncontended : (table.createStruct name).1.Uncontended MutexState.adminMutex := by
      rw [mutexes, ← handle]
      exact free
    obtain ⟨taken, lock, -⟩ := MutexState.lockMutex_uncontended uncontended garbage
    have got : ∃ after index, (table.createStruct name).1.getMutex name garbage =
        (after, some index) := by
      rw [MutexState.getMutex, lock]
      exact ⟨_, _, rfl⟩
    obtain ⟨state, index, got⟩ := got
    rw [got] at locked
    obtain ⟨⟨made, created⟩, returned, pair⟩ := Option.map_eq_some_iff.mp locked
    obtain ⟨rfl, rfl⟩ := Prod.mk.inj pair
    obtain ⟨rfl, -, -, names, pipes, last, admin⟩ := createPipeReturn_eq_some returned
    refine .inr ⟨unnamed, _, rfl, ?_, ?_, ?_, ?_⟩
    · rw [names]
      simp only [setMutexes, same.names, same.last]
    · rw [pipes]
      simp only [setMutexes, same.pipes, same.last]
    · rw [last]
      simp only [setMutexes, same.last]
    · rw [admin]
      simp only [setMutexes, same.handle]

/-- With a name, a free slot and a free entry, a `createPipe` that does not hold the mutex
returns a pipe. -/
theorem createPipeLocked_creates {table : PipeTable} {name : Option String} (garbage : Int)
    (handle : table.ipcAdminMutex = MutexState.adminMutex)
    (free : table.Uncontended table.ipcAdminMutex) (low : 0 ≤ table.lastPipeName)
    (room : table.lastPipeName < MAX_PIPES)
    (vacant : table.pipeNames table.lastPipeName.toNat = none) (named : name ≠ none)
    (slot : ∃ k < MAX_PROCESS_PIPES,
      table.entry (table.owner table.processes.current).occupiedPosition k = 0) :
    ∃ after p, table.createPipeLocked name garbage = some (after, .returned (some p)) := by
  have next := nextEntry_eq room vacant
  have same := createStruct_sameTable table name
  obtain ⟨p, made⟩ := @createStruct_isSome _ name slot
  have uncontended : (table.createStruct name).1.Uncontended MutexState.adminMutex := by
    rw [createStruct_mutexes, ← handle]
    exact free
  obtain ⟨taken, lock, -⟩ := MutexState.lockMutex_uncontended uncontended garbage
  obtain ⟨state, index, got⟩ : ∃ after index,
      (table.createStruct name).1.getMutex name garbage = (after, some index) := by
    rw [MutexState.getMutex, lock]
    exact ⟨_, _, rfl⟩
  have last : ((table.createStruct name).1.setMutexes state).lastPipeName =
      table.lastPipeName := same.last
  have notFull : ¬ table.lastPipeName = NO_SPACE_LEFT := by
    simp only [NO_SPACE_LEFT]
    omega
  simp only [createPipeLocked, next, setLast_same]
  rw [if_neg (by omega), if_neg (by rintro (full | none) <;> contradiction), got, made]
  simp only [createPipeReturn, last]
  rw [if_pos ⟨low, room⟩]
  exact ⟨_, _, rfl⟩

/-- While the mutex of the mutex table is locked, `createPipe` waits in its `getMutex`. -/
theorem createPipeLocked_waits {table : PipeTable} {name : Option String} (garbage : Int)
    (valid : table.isValidMutex MutexState.adminMutex = true)
    (busy : Busy (table.mutexes MutexState.adminMutex)) (low : 0 ≤ table.lastPipeName)
    (entry : table.nextEntry ≠ NO_SPACE_LEFT) (named : name ≠ none) :
    ∃ after pipe, table.createPipeLocked name garbage =
      some (after, .yieldedInGetMutex pipe) := by
  obtain ⟨made, pipe, struct⟩ : ∃ made pipe,
      (table.setLast table.nextEntry).createStruct name = (made, pipe) := ⟨_, _, rfl⟩
  have mutexes : made.toMutexState = table.toMutexState := by
    have same := createStruct_mutexes (table.setLast table.nextEntry) name
    rw [struct] at same
    exact same
  have contended : ¬ made.Uncontended MutexState.adminMutex := by
    rw [mutexes]
    exact fun free => free valid busy
  obtain ⟨after, waits⟩ : ∃ after, made.getMutex name garbage = (after, none) := by
    cases locked : made.lockMutex MutexState.adminMutex garbage with
    | mk taken progress =>
        cases progress with
        | returned =>
            exact absurd (MutexState.lockMutex_returned.mp (congrArg Prod.snd locked)) contended
        | yielded =>
            rw [MutexState.getMutex, locked]
            exact ⟨_, rfl⟩
  refine ⟨made.setMutexes after, pipe, ?_⟩
  have chosen : (table.setLast table.nextEntry).lastPipeName = table.nextEntry := rfl
  simp only [createPipeLocked, chosen]
  rw [if_neg (by omega), if_neg (by rintro (full | none) <;> contradiction), struct]
  simp only [waits]

/-- `openPipe` leaves the entries alone. -/
theorem openPipeLocked_sameTable (table : PipeTable) (name : Option String) :
    SameTable table (table.openPipeLocked name).1 := by
  simp only [openPipeLocked]
  split <;> exact ⟨rfl, rfl, rfl, rfl⟩

/-- `closePipe` clears at most the entry of the name. -/
theorem closePipe_eq_some {table after : PipeTable} {p : Nat}
    (closed : table.closePipe p = some after) :
    after.pipeNames = table.pipeNames ∧ after.lastPipeName = table.lastPipeName ∧
      after.ipcAdminMutex = table.ipcAdminMutex ∧
      ∀ i, table.pipeNames i ≠ (table.pipe p).name → after.pipes i = table.pipes i := by
  simp only [closePipe] at closed
  split at closed
  · obtain rfl := Option.some.inj closed
    exact ⟨rfl, rfl, rfl, fun _ _ => rfl⟩
  · rename_i i found
    split at closed
    · cases closed
    · obtain ⟨k, -, rfl⟩ := Option.map_eq_some_iff.mp closed
      refine ⟨rfl, rfl, rfl, ?_⟩
      intro j other
      have apart : j ≠ i := fun same => other (same ▸ name_of_getPipeNameIndex found)
      exact Function.update_of_ne apart _ _

end PipeTable

/-- The outcomes that neither create nor close a pipe nor leave a `createPipe` inside its
`getMutex`. -/
def Plain : IpcOutcome → Prop
  | .created _ _ _ | .closed _ | .yielded (.createPipeMutex _ _) => False
  | _ => True

namespace IpcState

open PipeTable

/-- The rest of a call other than `createPipe` leaves the entries alone. -/
theorem resume_sameTable {state kernel : IpcState} {garbage : Int} {pending : IpcPending}
    {outcome : IpcOutcome} (notCreate : ∀ name, pending ≠ .createPipe name)
    (notInside : ∀ name pipe, pending ≠ .createPipeMutex name pipe)
    (resumed : state.resume garbage pending = some (kernel, outcome)) :
    SameTable state.toPipeTable kernel.toPipeTable ∧ Plain outcome := by
  cases pending with
  | sync pending =>
      simp only [resume] at resumed
      split at resumed
      · split at resumed <;>
        · obtain ⟨rfl, rfl⟩ := Prod.mk.inj (Option.some.inj resumed)
          exact ⟨⟨rfl, rfl, rfl, rfl⟩, trivial⟩
      · cases resumed
  | createPipe name => exact absurd rfl (notCreate name)
  | createPipeMutex name pipe => exact absurd rfl (notInside name pipe)
  | openPipe name =>
      obtain ⟨rfl, rfl⟩ := Prod.mk.inj (Option.some.inj resumed)
      exact ⟨openPipeLocked_sameTable _ name, trivial⟩
  | write p message aux =>
      obtain ⟨rfl, rfl⟩ := Prod.mk.inj (Option.some.inj resumed)
      obtain ⟨names, entries, last⟩ := state.toPipeState.writeLocked_entries p message aux
      refine ⟨⟨names, entries, last, rfl⟩, ?_⟩
      split <;> trivial
  | read p bytes aux =>
      obtain ⟨names, entries, last⟩ := PipeState.readLocked_entries state.toPipeState p aux bytes
      simp only [resume, readRest] at resumed
      split at resumed
      · rename_i result
        obtain ⟨rfl, rfl⟩ := Prod.mk.inj (Option.some.inj resumed)
        rw [result] at names entries last
        exact ⟨⟨names, entries, last, rfl⟩, trivial⟩
      · rename_i result
        obtain ⟨rfl, rfl⟩ := Prod.mk.inj (Option.some.inj resumed)
        rw [result] at names entries last
        exact ⟨⟨names, entries, last, rfl⟩, trivial⟩
      · cases resumed

/-- Locking first changes nothing about that. -/
theorem lockThen_sameTable {state kernel : IpcState} {mutex garbage : Int}
    {pending : IpcPending} {outcome : IpcOutcome} (notCreate : ∀ name, pending ≠ .createPipe name)
    (notInside : ∀ name pipe, pending ≠ .createPipeMutex name pipe)
    (locked : state.lockThen mutex garbage pending = some (kernel, outcome)) :
    SameTable state.toPipeTable kernel.toPipeTable ∧ Plain outcome := by
  rcases lockThen_cases locked with ⟨mutexes, -, rfl, rfl⟩ | ⟨mutexes, -, resumed⟩
  · refine ⟨⟨rfl, rfl, rfl, rfl⟩, ?_⟩
    cases pending with
    | createPipeMutex name pipe => exact absurd rfl (notInside name pipe)
    | _ => trivial
  · obtain ⟨same, plain⟩ := resume_sameTable notCreate notInside resumed
    have taken : SameTable state.toPipeTable (state.setMutexes mutexes).toPipeTable :=
      ⟨rfl, rfl, rfl, rfl⟩
    exact ⟨taken.trans same, plain⟩

end IpcState

namespace IpcRun

open PipeTable

/-- The condition on a step: `createPipe` is called while its mutex is locked, so that its
caller waits, and goes on when the mutex is free, fewer than `MAX_PIPES` pipes were
created, and no entry has the name. -/
def LetThrough (state : IpcRun) : IpcAction → Prop
  | .call (.createPipe _) _ _ => ¬ state.kernel.Uncontended state.kernel.ipcAdminMutex
  | .resume _ _ =>
      match state.pending state.current with
      | some (.createPipe name) =>
          state.kernel.Uncontended state.kernel.ipcAdminMutex ∧
            0 ≤ state.kernel.lastPipeName ∧ state.kernel.lastPipeName < MAX_PIPES ∧
            state.kernel.getPipeNameIndex name = none
      | _ => True
  | _ => True

/-- The invariant of the runs: the entries below `lastPipeName` are those of the pipes
created, and nobody stands inside of the `getMutex` of a `createPipe`. -/
structure Tabled (state : IpcRun) : Prop where
  handle : state.kernel.ipcAdminMutex = MutexState.adminMutex
  low : 0 ≤ state.kernel.lastPipeName
  high : state.kernel.lastPipeName ≤ MAX_PIPES
  vacant : ∀ i, state.kernel.lastPipeName ≤ i → state.kernel.pipeNames i.toNat = none
  distinct : ∀ i j : Nat, i < state.kernel.lastPipeName → j < state.kernel.lastPipeName →
    state.kernel.pipeNames i = state.kernel.pipeNames j → i = j
  entered : ∀ c ∈ state.creations, ∀ p, c.pipe = some p → c.name ≠ none ∧
    ∃ i : Nat, i < state.kernel.lastPipeName ∧ state.kernel.pipeNames i = c.name ∧
      (c.name ∉ state.closings → state.kernel.pipes i = some p)
  free : ∀ c ∈ state.creations, c.blockedOnOwn = false
  outside : ∀ pid name pipe, state.pending pid ≠ some (.createPipeMutex name pipe)

/-- What a step does to the table. -/
inductive TableEffect (state : IpcRun) (kernel : IpcState) : IpcOutcome → Prop where
  | same {outcome : IpcOutcome} : SameTable state.kernel.toPipeTable kernel.toPipeTable →
      Plain outcome → TableEffect state kernel outcome
  | refused {name : Option String} : SameTable state.kernel.toPipeTable kernel.toPipeTable →
      TableEffect state kernel (.created name none false)
  | created {name : Option String} {pipe : Option Nat} : name ≠ none →
      state.kernel.getPipeNameIndex name = none → state.kernel.lastPipeName < MAX_PIPES →
      kernel.pipeNames =
        Function.update state.kernel.pipeNames state.kernel.lastPipeName.toNat name →
      kernel.pipes = Function.update state.kernel.pipes state.kernel.lastPipeName.toNat pipe →
      kernel.lastPipeName = state.kernel.lastPipeName + 1 →
      kernel.ipcAdminMutex = state.kernel.ipcAdminMutex →
      TableEffect state kernel (.created name pipe false)
  | closed {p : Nat} : kernel.pipeNames = state.kernel.pipeNames →
      kernel.lastPipeName = state.kernel.lastPipeName →
      kernel.ipcAdminMutex = state.kernel.ipcAdminMutex →
      (∀ i, state.kernel.pipeNames i ≠ (state.kernel.pipe p).name →
        kernel.pipes i = state.kernel.pipes i) →
      TableEffect state kernel (.closed (state.kernel.pipe p).name)

/-- A part of a call in a run that meets the condition. -/
theorem perform_tableEffect {state : IpcRun} (tabled : Tabled state) {action : IpcAction}
    (through : state.LetThrough action) {kernel : IpcState} {outcome : IpcOutcome}
    (performed : state.perform action = some (kernel, outcome)) :
    TableEffect state kernel outcome := by
  cases action with
  | call call garbage next =>
      simp only [perform] at performed
      split at performed
      · cases call with
        | sync call =>
            simp only [IpcState.enter] at performed
            split at performed
            · split at performed <;>
              · obtain ⟨rfl, rfl⟩ := Prod.mk.inj (Option.some.inj performed)
                exact .same ⟨rfl, rfl, rfl, rfl⟩ trivial
            · cases performed
        | createPipe name =>
            simp only [IpcState.enter, IpcState.lockThen] at performed
            split at performed
            · split at performed
              · rename_i mutexes locked
                exact absurd (MutexState.lockMutex_returned.mp (congrArg Prod.snd locked)) through
              · obtain ⟨rfl, rfl⟩ := Prod.mk.inj (Option.some.inj performed)
                exact .same ⟨rfl, rfl, rfl, rfl⟩ trivial
            · cases performed
        | openPipe name =>
            obtain ⟨same, plain⟩ := IpcState.lockThen_sameTable (by simp) (by simp) performed
            exact .same same plain
        | closePipe p =>
            obtain ⟨table, closed, pair⟩ := Option.map_eq_some_iff.mp performed
            obtain ⟨rfl, rfl⟩ := Prod.mk.inj pair
            obtain ⟨names, last, handle, pipes⟩ := closePipe_eq_some closed
            exact .closed names last handle pipes
        | write p message =>
            obtain ⟨same, plain⟩ := IpcState.lockThen_sameTable (by simp) (by simp) performed
            exact .same same plain
        | read p bytes =>
            obtain ⟨same, plain⟩ := IpcState.lockThen_sameTable (by simp) (by simp) performed
            exact .same same plain
      · cases performed
  | resume garbage next =>
      simp only [perform] at performed
      split at performed
      case isFalse => cases performed
      obtain ⟨pending, stands, resumed⟩ := Option.bind_eq_some_iff.mp performed
      simp only [LetThrough, stands] at through
      cases pending with
      | createPipe name =>
          obtain ⟨free, low, room, fresh⟩ := through
          obtain ⟨⟨table, progress⟩, locked, pair⟩ := Option.map_eq_some_iff.mp resumed
          obtain ⟨rfl, rfl⟩ := Prod.mk.inj pair
          rcases createPipeLocked_eq_some tabled.handle free low room
            (tabled.vacant _ (Int.le_refl _)) locked with
            ⟨-, rfl, same⟩ | ⟨named, pipe, rfl, names, pipes, last, handle⟩
          · exact .refused same
          · exact .created named fresh room names pipes last handle
      | createPipeMutex name pipe => exact absurd stands (tabled.outside _ name pipe)
      | sync pending =>
          obtain ⟨same, plain⟩ := IpcState.resume_sameTable (by simp) (by simp) resumed
          exact .same same plain
      | openPipe name =>
          obtain ⟨same, plain⟩ := IpcState.resume_sameTable (by simp) (by simp) resumed
          exact .same same plain
      | write p message aux =>
          obtain ⟨same, plain⟩ := IpcState.resume_sameTable (by simp) (by simp) resumed
          exact .same same plain
      | read p bytes aux =>
          obtain ⟨same, plain⟩ := IpcState.resume_sameTable (by simp) (by simp) resumed
          exact .same same plain
  | timerTick next => cases performed
  | createProcess pid owner => cases performed
  | removeProcess pid next => cases performed

/-- While the names stay, only what became of the pipes that were created is to be shown. -/
theorem Tabled.of_sameNames {state after : IpcRun} (tabled : Tabled state)
    (names : after.kernel.pipeNames = state.kernel.pipeNames)
    (last : after.kernel.lastPipeName = state.kernel.lastPipeName)
    (handle : after.kernel.ipcAdminMutex = state.kernel.ipcAdminMutex)
    (entered : ∀ c ∈ after.creations, ∀ p, c.pipe = some p → c.name ≠ none ∧
      ∃ i : Nat, i < state.kernel.lastPipeName ∧ state.kernel.pipeNames i = c.name ∧
        (c.name ∉ after.closings → after.kernel.pipes i = some p))
    (free : ∀ c ∈ after.creations, c.blockedOnOwn = false)
    (outside : ∀ pid name pipe, after.pending pid ≠ some (.createPipeMutex name pipe)) :
    Tabled after := by
  refine ⟨handle.trans tabled.handle, ?_, ?_, ?_, ?_, ?_, free, outside⟩
  · rw [last]
    exact tabled.low
  · rw [last]
    exact tabled.high
  · rw [last, names]
    exact tabled.vacant
  · rw [last, names]
    exact tabled.distinct
  · rw [last, names]
    exact entered

/-- A table with the same entries is as good. -/
theorem Tabled.congr {state after : IpcRun} (tabled : Tabled state)
    (same : SameTable state.kernel.toPipeTable after.kernel.toPipeTable)
    (creations : after.creations = state.creations) (closings : after.closings = state.closings)
    (pending : ∀ pid name pipe, after.pending pid ≠ some (.createPipeMutex name pipe)) :
    Tabled after := by
  obtain ⟨names, pipes, last, handle⟩ := same
  refine tabled.of_sameNames names last handle ?_ (creations ▸ tabled.free) pending
  rw [creations, closings, pipes]
  exact tabled.entered

/-- The invariant does not read the states of the processes. -/
theorem Tabled.setProcesses {state : IpcRun} (tabled : Tabled state) (processes : ProcessTable) :
    Tabled (state.setProcesses processes) :=
  tabled.congr ⟨rfl, rfl, rfl, rfl⟩ rfl rfl tabled.outside

/-- A switch keeps the invariant. -/
theorem Tabled.dispatch {state after : IpcRun} (tabled : Tabled state) {next : Int}
    (switched : state.dispatch next = some after) : Tabled after := by
  obtain ⟨processes, -, rfl⟩ := Option.map_eq_some_iff.mp switched
  exact tabled.setProcesses processes

/-- A process that does not yield inside of the `getMutex` of a `createPipe` does not
stand there. -/
theorem settle_outside {state : IpcRun} (tabled : Tabled state) (kernel : IpcState)
    (outcome : IpcOutcome) (left : ∀ name pipe, stands outcome ≠ some (.createPipeMutex name pipe))
    (pid : Int) (name : Option String) (pipe : Option Nat) :
    (state.settle kernel outcome).pending pid ≠ some (.createPipeMutex name pipe) := by
  simp only [settle]
  by_cases same : pid = state.current
  · rw [same, Function.update_self]
    exact left name pipe
  · rw [Function.update_of_ne same]
    exact tabled.outside pid name pipe

/-- A part of a call with one of the effects keeps the invariant. -/
theorem Tabled.settle {state : IpcRun} (tabled : Tabled state) {kernel : IpcState}
    {outcome : IpcOutcome} (effect : TableEffect state kernel outcome) :
    Tabled (state.settle kernel outcome) := by
  have low := tabled.low
  have high := tabled.high
  have free : ∀ c ∈ (state.settle kernel outcome).creations, c.blockedOnOwn = false := by
    intro c listed
    simp only [IpcRun.settle, List.mem_append] at listed
    rcases listed with listed | added
    · exact tabled.free c listed
    · cases effect with
      | same _ plain => cases outcome <;> first | exact plain.elim | cases added
      | refused | created =>
          simp only [creation, List.mem_singleton] at added
          rw [added]
      | closed => cases added
  cases effect with
  | same same plain =>
      have silent : creation state.current outcome = [] ∧ closing outcome = [] := by
        cases outcome <;> first | exact ⟨rfl, rfl⟩ | exact plain.elim
      clear free
      refine tabled.congr same ?_ ?_ (settle_outside tabled kernel outcome ?_)
      · simp [IpcRun.settle, silent.1]
      · simp [IpcRun.settle, silent.2]
      · intro name pipe here
        cases outcome with
        | yielded pending =>
            obtain rfl := Option.some.inj here
            exact plain
        | _ => cases here
  | @refused name same =>
      have outside := settle_outside tabled kernel (.created name none false) (by simp [stands])
      refine tabled.of_sameNames same.names same.last same.handle ?_ free outside
      intro c listed p made
      simp only [IpcRun.settle, creation, closing, List.mem_append, List.mem_singleton,
        List.append_nil, same.pipes] at listed ⊢
      rcases listed with listed | rfl
      · exact tabled.entered c listed p made
      · cases made
  | @created name pipe named fresh room names pipes last handle =>
      have outside := settle_outside tabled kernel (.created name pipe false) (by simp [stands])
      have different : ∀ i : Nat, i < state.kernel.lastPipeName →
          state.kernel.pipeNames i ≠ name := fun i inside =>
        ne_of_getPipeNameIndex fresh (by omega) named
      refine ⟨handle.trans tabled.handle, ?_, ?_, ?_, ?_, ?_, free, outside⟩
      · simp only [IpcRun.settle, last]
        omega
      · simp only [IpcRun.settle, last]
        omega
      · intro i above
        simp only [IpcRun.settle, last, names] at above ⊢
        rw [Function.update_of_ne (by omega)]
        exact tabled.vacant i (by omega)
      · intro i j below under same
        simp only [IpcRun.settle, last, names] at below under same
        by_cases first : i = state.kernel.lastPipeName.toNat
        · by_cases second : j = state.kernel.lastPipeName.toNat
          · rw [first, second]
          · rw [first, Function.update_self, Function.update_of_ne second] at same
            exact absurd same.symm (different j (by omega))
        · by_cases second : j = state.kernel.lastPipeName.toNat
          · rw [second, Function.update_self, Function.update_of_ne first] at same
            exact absurd same (different i (by omega))
          · rw [Function.update_of_ne first, Function.update_of_ne second] at same
            exact tabled.distinct i j (by omega) (by omega) same
      · intro c listed q made
        simp only [IpcRun.settle, creation, closing, List.mem_append, List.mem_singleton,
          List.append_nil, last, names, pipes] at listed ⊢
        rcases listed with listed | rfl
        · obtain ⟨given, i, inside, here, there⟩ := tabled.entered c listed q made
          have apart : i ≠ state.kernel.lastPipeName.toNat := by omega
          refine ⟨given, i, by omega, ?_, ?_⟩
          · rw [Function.update_of_ne apart, here]
          · rw [Function.update_of_ne apart]
            exact there
        · refine ⟨named, state.kernel.lastPipeName.toNat, by omega, ?_, ?_⟩
          · rw [Function.update_self]
          · intro _
            rw [Function.update_self]
            exact made
  | @closed p names last handle pipes =>
      have outside := settle_outside tabled kernel (.closed (state.kernel.pipe p).name)
        (by simp [stands])
      refine tabled.of_sameNames names last handle ?_ free outside
      intro c listed q made
      simp only [IpcRun.settle, creation, closing, List.mem_append, List.mem_singleton,
        List.append_nil] at listed ⊢
      obtain ⟨given, i, inside, here, there⟩ := tabled.entered c listed q made
      refine ⟨given, i, inside, here, ?_⟩
      intro kept
      rw [pipes i (fun same => kept (.inr (here.symm.trans same)))]
      exact there fun closed => kept (.inl closed)

/-- A step that is let through keeps the invariant. -/
theorem tabled_step (state : IpcRun) (action : IpcAction) (next : IpcRun)
    (tabled : Tabled state) (through : state.LetThrough action)
    (stepped : state.step action = some next) : Tabled next := by
  refine step_rule stepped tabled (fun _ => id) (fun mid => mid.dispatch)
    (fun performed => tabled.settle (perform_tableEffect tabled through performed))
    (fun _ => tabled.congr ⟨rfl, rfl, rfl, rfl⟩ rfl rfl tabled.outside)
    fun _ => ⟨tabled.setProcesses _, fun _ => tabled.setProcesses _⟩

/-- Nobody waits in `createPipe` for a mutex that it holds; a `createPipe` that goes on, with
a name and a free slot, returns a pipe; and a pipe that was created and not closed is
what `openPipe` returns for its name. -/
structure PipesWork (state : IpcRun) : Prop where
  unblocked : ∀ pid name pipe, state.pending pid ≠ some (.createPipeMutex name pipe)
  free : ∀ c ∈ state.creations, c.blockedOnOwn = false
  creates : ∀ name garbage next, state.Calls →
    state.pending state.current = some (.createPipe name) →
    state.LetThrough (.resume garbage next) → name ≠ none →
    (∃ k < MAX_PROCESS_PIPES,
      state.kernel.entry (state.kernel.owner state.current).occupiedPosition k = 0) →
    ∃ kernel p, state.perform (.resume garbage next) = some (kernel, .created name (some p) false)
  opens : ∀ c ∈ state.creations, ∀ p, c.pipe = some p → c.name ∉ state.closings →
    (state.kernel.toPipeTable.openPipeLocked c.name).2 = some p

/-- In a state of the invariant pipes can be created and opened. -/
theorem Tabled.pipesWork {state : IpcRun} (tabled : Tabled state) : PipesWork state := by
  refine ⟨tabled.outside, tabled.free, ?_, ?_⟩
  · intro name garbage next caller stands through named slot
    simp only [LetThrough, stands] at through
    obtain ⟨free, low, room, -⟩ := through
    obtain ⟨table, p, created⟩ := createPipeLocked_creates garbage tabled.handle free low room
      (tabled.vacant _ (Int.le_refl _)) named slot
    refine ⟨{ state.kernel with toPipeTable := table }, p, ?_⟩
    simp only [perform, caller, if_true, stands, Option.bind_some, IpcState.resume,
      IpcState.createPipeRest, created, Option.map_some]
  · intro c listed p made kept
    obtain ⟨named, i, inside, here, there⟩ := tabled.entered c listed p made
    have high := tabled.high
    have found := @getPipeNameIndex_eq_some state.kernel.toPipeTable _ _ (by omega) here
      named fun j before same =>
        absurd (tabled.distinct j i (by omega) inside (same.trans here.symm)) (by omega)
    rw [openPipeLocked_snd, found]
    exact there kept

/-- A `createPipe` that is called while its mutex is free takes it and then waits for it. -/
theorem createPipe_waits_when_free {state : IpcRun} {name : Option String} (garbage next : Int)
    (caller : state.Calls) (idle : state.pending state.current = none)
    (handle : state.kernel.ipcAdminMutex = MutexState.adminMutex)
    (valid : state.kernel.isValidMutex MutexState.adminMutex = true)
    (free : ¬ Busy (state.kernel.mutexes MutexState.adminMutex))
    (low : 0 ≤ state.kernel.lastPipeName)
    (entry : state.kernel.nextEntry ≠ NO_SPACE_LEFT) (named : name ≠ none) :
    ∃ kernel pipe, state.perform (.call (.createPipe name) garbage next) =
      some (kernel, .yielded (.createPipeMutex name pipe)) := by
  simp only [Busy, not_or, not_not] at free
  have acquired := MutexState.lockMutex_acquires valid free.1 free.2 garbage
  obtain ⟨taken, locked, used, held⟩ : ∃ taken,
      state.kernel.lockMutex MutexState.adminMutex garbage = (taken, .returned) ∧
      taken.isValidMutex MutexState.adminMutex = true ∧
      (taken.mutexes MutexState.adminMutex).mutex = 1 := by
    refine ⟨_, acquired, ?_, ?_⟩
    · rw [← valid]
      exact MutexState.isValidMutex_congr (by simp)
    · rw [MutexState.setMutex_same]
  have busy : Busy (taken.mutexes MutexState.adminMutex) := by
    rw [Busy, held]
    exact .inl (by decide)
  obtain ⟨after, pipe, waits⟩ := @createPipeLocked_waits
    (state.kernel.toPipeTable.setMutexes taken) _ garbage used busy low entry named
  refine ⟨{ state.kernel with toPipeTable := after }, pipe, ?_⟩
  have admin : (0 : Int) ≤ MutexState.adminMutex := Int.le_refl 0
  simp only [perform, caller, idle, and_self, if_true, IpcState.enter,
    handle, IpcState.lockThen, admin, locked, IpcState.resume, IpcState.createPipeRest]
  have rest : (state.kernel.setMutexes taken).toPipeTable.createPipeLocked name garbage =
      some (after, .yieldedInGetMutex pipe) := waits
  rw [rest]
  rfl

/-- The invariant holds after boot. -/
theorem boot_tabled (init shell : PipeOwner) : Tabled (boot init shell) := by
  have none_yet : (boot init shell).kernel.lastPipeName = 0 := rfl
  refine ⟨rfl, Int.le_refl 0, ?_, fun _ _ => rfl, ?_, ?_, ?_, ?_⟩
  · rw [none_yet]
    exact Int.natCast_nonneg _
  · intro i j below
    omega
  · intro c listed
    cases listed
  · intro c listed
    cases listed
  · intro pid name pipe here
    cases here

/-- In every run after boot in which `createPipe` always waits for its mutex and goes on
while it is free, and is given names that no entry has, and in which the pids stay among the
arrays, pipes are created and opened as they should. -/
theorem pipes_created_and_opened (init shell : PipeOwner) {final : IpcRun}
    {actions : List IpcAction}
    (through : Along step (fun state action => state.LetThrough action ∧ state.StaysInArrays action)
      (boot init shell) actions)
    (ran : run step (boot init shell) actions = some final) : PipesWork final := by
  have tabled : Tabled final := Along.invariant tabled_step (boot_tabled init shell)
    (through.mono fun _ _ => And.left) ran
  exact tabled.pipesWork

/-- `SHELL` waits for the mutex, which process `2` frees once more than it has to. -/
def freedTwice : List IpcAction :=
  [.createProcess 2 (ownerAt 2 12), .timerTick 2, .call (.sync (.lockMutex 0)) 0 0, .timerTick 1,
    .call (.createPipe (some "x")) 0 2, .call (.sync (.freeMutex 0)) 0 0,
    .call (.sync (.freeMutex 0)) 0 0, .timerTick 1, .resume 0 0, .timerTick 2,
    .call (.openPipe (some "x")) 0 0]

instance (state : IpcRun) (action : IpcAction) : Decidable (state.LetThrough action) := by
  cases action with
  | call call garbage next =>
      cases call <;> unfold LetThrough MutexState.Uncontended <;> infer_instance
  | resume garbage next =>
      unfold LetThrough MutexState.Uncontended
      cases state.pending state.current with
      | none => infer_instance
      | some pending => cases pending <;> infer_instance
  | _ =>
      unfold LetThrough
      infer_instance

theorem freedTwice_pipesWork : ∃ final,
    run step (boot (ownerAt 0 10) (ownerAt 1 11)) freedTwice = some final ∧
      final.creations = [⟨1, some "x", some 33, false⟩] ∧ PipesWork final := by
  have result : (run step (boot (ownerAt 0 10) (ownerAt 1 11)) freedTwice).map
      IpcRun.creations = some [⟨1, some "x", some 33, false⟩] := by
    decide +kernel
  obtain ⟨final, ran, creations⟩ := Option.map_eq_some_iff.mp result
  exact ⟨final, ran, creations,
    pipes_created_and_opened (ownerAt 0 10) (ownerAt 1 11) (by decide +kernel) ran⟩

/-- The first `createPipe` of `SHELL`, right after boot: it holds the mutex it waits for,
with nobody else in the system but `init`. -/
theorem createPipe_waits_for_itself : ∃ final,
    run step (boot (ownerAt 0 10) (ownerAt 1 11))
        [.timerTick 1, .call (.createPipe (some "x")) 0 0] = some final ∧
      final.pending 1 = some (.createPipeMutex (some "x") (some 33)) ∧
      final.kernel.processes.state 1 = some .blocked ∧
      (final.kernel.mutexes final.kernel.ipcAdminMutex).mutex = 1 ∧
      (final.kernel.mutexes final.kernel.ipcAdminMutex).entries = [1] ∧ ¬ PipesWork final := by
  have result : (run step (boot (ownerAt 0 10) (ownerAt 1 11))
      [.timerTick 1, .call (.createPipe (some "x")) 0 0]).map (fun final =>
        (final.pending 1, final.kernel.processes.state 1,
          (final.kernel.mutexes final.kernel.ipcAdminMutex).mutex,
          (final.kernel.mutexes final.kernel.ipcAdminMutex).entries)) =
      some (some (.createPipeMutex (some "x") (some 33)), some .blocked, 1, [1]) := by
    decide +kernel
  obtain ⟨final, ran, outcome⟩ := Option.map_eq_some_iff.mp result
  simp only [Prod.mk.injEq] at outcome
  obtain ⟨stands, blocked, locked, queued⟩ := outcome
  exact ⟨final, ran, stands, blocked, locked, queued, fun works => works.unblocked 1 _ _ stands⟩

end IpcRun

end SistemasOperativos.Kernel
