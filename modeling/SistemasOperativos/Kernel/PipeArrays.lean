import SistemasOperativos.Foundation.Interval
import SistemasOperativos.Kernel.PipeWaiting
import SistemasOperativos.Kernel.Process
import SistemasOperativos.Kernel.StateAssignments

/-!
# The arrays of the pipes of a process

`initializePipeFields` carves the page of a process into the buffers, the structs and the
arrays of pids of its pipes, with room for `MAX_LISTENERS_IPC` integers in each array.
`createPipeStruct` puts the arrays of the pipe `index` only `index * MAX_PROCESS_PIPES`
bytes after those of the first one, so the arrays of any two pipes overlap, while their
buffers do not. The counters that index the arrays have no bound. `arrays_inside_iff` says
when the arrays are apart and all the indices inside.
-/

namespace SistemasOperativos.Kernel

open SistemasOperativos.Foundation SistemasOperativos.Semantics

/-- Pids that an array of a pipe has room for. -/
def MAX_LISTENERS_IPC : Nat := 2

/-- `sizeof(Pipe)`. -/
def sizeofPipe : Nat := 64

/-- `sizeof(int)`. -/
def sizeofInt : Nat := 4

/-- The addresses that `initializePipeFields` stores in a process. -/
structure PipeFields where
  pipes : Nat
  pipesStruct : Nat
  pipePids : Nat
  blocked : Nat
  occupiedPosition : Nat
  deriving DecidableEq, Repr

/-- `initializePipeFields`. -/
def initializePipeFields (infoPage : Nat) : PipeFields :=
  let pipes := infoPage
  let pipesStruct := pipes + MAX_PROCESS_PIPES * PIPE_LENGTH
  let pipePids := pipesStruct + MAX_PROCESS_PIPES * sizeofPipe
  let blocked := pipePids + MAX_PROCESS_PIPES * MAX_LISTENERS_IPC * sizeofInt
  let occupiedPosition := blocked + MAX_LISTENERS_IPC * MAX_PROCESS_PIPES * sizeofInt
  { pipes, pipesStruct, pipePids, blocked, occupiedPosition }

/-- The fields of a process in the page of a number. The struct `Process` comes first. -/
def pageFields (page : Nat) : PipeFields :=
  initializePipeFields (PAGE_SIZE * page + sizeofProcess)

/-- The fields of the process are those of the page. -/
def PipeOwner.LaidOut (owner : PipeOwner) (page : Nat) : Prop :=
  owner.pipePids = (pageFields page).pipePids ∧ owner.blocked = (pageFields page).blocked ∧
    owner.occupiedPosition = (pageFields page).occupiedPosition ∧
    ∀ k < MAX_PROCESS_PIPES, owner.pipesStruct k = MAX_PROCESS_PIPES * page + k

instance (owner : PipeOwner) (page : Nat) : Decidable (owner.LaidOut page) :=
  inferInstanceAs (Decidable (_ ∧ _))

/-- The fields of a process that gets a page are laid out in it. -/
theorem ownerAt_laidOut (pid : Int) (page : Nat) : (IpcRun.ownerAt pid page).LaidOut page :=
  ⟨rfl, rfl, rfl, fun _ _ => rfl⟩

namespace Pipe

/-- The counters are at most the room in the arrays, so the index that each was stored
under is inside. -/
structure Bounded (pipe : Pipe) : Prop where
  connected : pipe.connected ≤ MAX_LISTENERS_IPC
  blocked : pipe.cardinalBlocked ≤ MAX_LISTENERS_IPC

/-- The arrays stay where they are, and the counters bounded. -/
structure SameArrays (before after : Pipe) : Prop where
  pipePids : after.pipePids = before.pipePids
  blocked : after.blocked = before.blocked
  bounded : before.Bounded → after.Bounded

/-- A struct has its own arrays. -/
theorem SameArrays.refl (pipe : Pipe) : SameArrays pipe pipe := ⟨rfl, rfl, id⟩

/-- Arrays that stay twice stay. -/
theorem SameArrays.trans {a b c : Pipe} (first : SameArrays a b) (second : SameArrays b c) :
    SameArrays a c :=
  ⟨second.pipePids.trans first.pipePids, second.blocked.trans first.blocked,
    fun bounded => second.bounded (first.bounded bounded)⟩

/-- The struct `p` has its arrays where `createPipeStruct` puts them. The structs of a page
are numbered from `MAX_PROCESS_PIPES * page` on. -/
structure Placed (pipe : Pipe) (p : Nat) : Prop where
  pipePids : pipe.pipePids = (pageFields (p / MAX_PROCESS_PIPES)).pipePids +
    p % MAX_PROCESS_PIPES * MAX_PROCESS_PIPES
  blocked : pipe.blocked = (pageFields (p / MAX_PROCESS_PIPES)).blocked +
    p % MAX_PROCESS_PIPES * MAX_PROCESS_PIPES

/-- Arrays that stay keep their place. -/
theorem SameArrays.placed {before after : Pipe} (same : SameArrays before after) {p : Nat}
    (placed : before.Placed p) : after.Placed p :=
  ⟨same.pipePids.trans placed.pipePids, same.blocked.trans placed.blocked⟩

/-- Only the struct that is replaced counts. -/
theorem SameArrays.update {pipes : Nat → Pipe} {p : Nat} {pipe : Pipe}
    (same : SameArrays (pipes p) pipe) (q : Nat) :
    SameArrays (pipes q) (Function.update pipes p pipe q) := by
  by_cases here : q = p
  · subst here
    rwa [Function.update_self]
  · rw [Function.update_of_ne here]
    exact .refl _

end Pipe

namespace PipeState

open Pipe

/-- `write` leaves the arrays where they are, and clears a counter at most. -/
theorem writeLocked_sameArrays (state : PipeState) (p : Nat) (message : List UInt8) (aux q : Nat) :
    SameArrays (state.pipe q) ((state.writeLocked p message aux).1.pipe q) := by
  simp only [writeLocked]
  split
  · exact .refl _
  · have appended := @SameArrays.update state.pipe p ((state.pipe p).append message aux).1
      ⟨rfl, rfl, fun bounded => ⟨bounded.connected, bounded.blocked⟩⟩ q
    rcases (state.setPipe p ((state.pipe p).append message aux).1).unlockProcesses_cases
      (state.pipe p).name with same | ⟨woken, cleared⟩
    · rw [same]
      exact appended
    · rw [cleared]
      let middle := Function.update state.pipe p ((state.pipe p).append message aux).1
      exact appended.trans (@SameArrays.update middle woken
        { middle woken with cardinalBlocked := 0 }
        ⟨rfl, rfl, fun bounded => ⟨bounded.connected, Nat.zero_le _⟩⟩ q)

/-- `read` keeps the counters bounded if it finds room in the array. -/
theorem readLocked_sameArrays (state : PipeState) {p aux : Nat} {bytes : Int}
    (room : (state.pipe p).Drained → (state.pipe p).cardinalBlocked < MAX_LISTENERS_IPC)
    (q : Nat) : SameArrays (state.pipe q) ((state.readLocked p bytes aux).1.pipe q) := by
  simp only [readLocked]
  split
  · rename_i drained
    exact @SameArrays.update state.pipe p
      { state.pipe p with cardinalBlocked := (state.pipe p).cardinalBlocked + 1 }
      ⟨rfl, rfl, fun bounded => ⟨bounded.connected, room drained⟩⟩ q
  · exact @SameArrays.update state.pipe p ((state.pipe p).take bytes aux).1
      ⟨rfl, rfl, fun bounded => ⟨bounded.connected, bounded.blocked⟩⟩ q

/-- A process that is not inside of `getIndexForPipeStructure` gets an index of its own
structs, or none. -/
theorem getIndexForPipeStructure_inside {state : PipeState} {pro : PipeOwner}
    (opened : pro.pipesOpened = 0) :
    state.getIndexForPipeStructure pro = (pro, NO_SPACE_LEFT) ∨
      ∃ k : Nat, k < MAX_PROCESS_PIPES ∧
        state.getIndexForPipeStructure pro = ({ pro with pipesOpened := k + 1 }, (k : Int)) := by
  simp only [getIndexForPipeStructure, opened]
  split
  · split
    · rename_i i found
      exact .inr ⟨i, List.mem_range.mp (List.mem_of_find?_eq_some found), rfl⟩
    · exact .inl rfl
  · exact .inr ⟨0, by decide, rfl⟩

end PipeState

namespace PipeTable

open Pipe

/-- What a part of a call does to the structs and the pipe fields of the processes. -/
structure Rearranged (before after : PipeTable) : Prop where
  owner : ∀ pid, after.owner pid = before.owner pid
  bounded : (∀ p, (before.pipe p).Bounded) → ∀ p, (after.pipe p).Bounded
  placed : ∀ p, (before.pipe p).Placed p → (after.pipe p).Placed p

/-- Two parts of calls one after the other. -/
theorem Rearranged.trans {a b c : PipeTable} (first : Rearranged a b) (second : Rearranged b c) :
    Rearranged a c :=
  ⟨fun pid => (second.owner pid).trans (first.owner pid),
    fun bounded => second.bounded (first.bounded bounded),
    fun p placed => second.placed p (first.placed p placed)⟩

/-- A part that leaves the arrays of every struct. -/
theorem Rearranged.of_same {before after : PipeTable} (owner : after.owner = before.owner)
    (same : ∀ q, SameArrays (before.pipe q) (after.pipe q)) : Rearranged before after :=
  ⟨fun pid => congrFun owner pid, fun bounded q => (same q).bounded (bounded q),
    fun q placed => (same q).placed placed⟩

/-- A part that does nothing. -/
theorem Rearranged.refl (table : PipeTable) : Rearranged table table :=
  .of_same rfl fun _ => .refl _

/-- The struct is one of the process, and its arrays have their place in its page. -/
structure Owns (table : PipeTable) (pid : Int) (p : Nat) : Prop where
  placed : (table.pipe p).Placed p
  laid : (table.owner pid).LaidOut (p / MAX_PROCESS_PIPES)

/-- A process keeps its structs. -/
theorem Owns.rearranged {before after : PipeTable} {pid : Int} {p : Nat}
    (owns : before.Owns pid p) (moved : Rearranged before after) : after.Owns pid p := by
  refine ⟨moved.placed p owns.placed, ?_⟩
  rw [moved.owner]
  exact owns.laid

/-- `openPipe` keeps the counters bounded if it finds room in the array. -/
theorem openPipeLocked_sameArrays {table : PipeTable} {name : Option String}
    (room : ∀ i ∈ table.getPipeNameIndex name,
      (table.pipe (table.pointee i)).connected < MAX_LISTENERS_IPC) :
    (table.openPipeLocked name).1.owner = table.owner ∧
      ∀ q, SameArrays (table.pipe q) ((table.openPipeLocked name).1.pipe q) := by
  simp only [openPipeLocked]
  split
  · exact ⟨rfl, fun _ => .refl _⟩
  · rename_i i found
    refine ⟨rfl, fun q => ?_⟩
    exact @SameArrays.update table.pipe (table.pointee i)
      { table.pipe (table.pointee i) with
        connected := (table.pipe (table.pointee i)).connected + 1 }
      ⟨rfl, rfl, fun bounded => ⟨room i found, bounded.blocked⟩⟩ q

/-- `createPipe` behind its `getMutex` stores the mutex of the pipe. -/
theorem createPipeReturn_sameArrays {table after : PipeTable} {name : Option String}
    {pipe created : Option Nat} {mutex : Int}
    (returned : table.createPipeReturn name pipe mutex = some (after, created)) :
    created = pipe ∧ after.owner = table.owner ∧
      ∀ q, SameArrays (table.pipe q) (after.pipe q) := by
  simp only [createPipeReturn] at returned
  split at returned
  · obtain ⟨rfl, rfl⟩ := Prod.mk.inj (Option.some.inj returned)
    refine ⟨rfl, rfl, fun q => ?_⟩
    exact @SameArrays.update table.pipe _ { table.pipe (pipe.getD NULL) with mutex }
      ⟨rfl, rfl, fun bounded => ⟨bounded.connected, bounded.blocked⟩⟩ q
  · cases returned

/-- A struct that `createPipeStruct` fills has its place in the page of the process, and
empty arrays but for the creator. -/
theorem createStruct_rearranged {table : PipeTable} {name : Option String} {page : Nat}
    (opened : (table.owner table.processes.current).pipesOpened = 0)
    (laid : (table.owner table.processes.current).LaidOut page) :
    Rearranged table (table.createStruct name).1 ∧
      ∀ p ∈ (table.createStruct name).2,
        (table.createStruct name).1.Owns table.processes.current p := by
  obtain ⟨pids, blocked, -, structs⟩ := id laid
  rcases @PipeState.getIndexForPipeStructure_inside table.toPipeState _ opened with
    full | ⟨k, inside, index⟩
  · have none_left : table.createStruct name = (table, none) := by
      simp only [createStruct, PipeState.createPipeStruct, ProcessTable.getCurrentPid, full,
        if_true, Function.update_eq_self]
    rw [none_left]
    exact ⟨.refl _, fun p made => by cases made⟩
  · have counts : ¬ (k : Int) = NO_SPACE_LEFT := by
      simp only [NO_SPACE_LEFT]
      omega
    have struct := structs k inside
    have slot : (table.owner table.processes.current).pipesStruct k / MAX_PROCESS_PIPES = page ∧
        (table.owner table.processes.current).pipesStruct k % MAX_PROCESS_PIPES = k := by
      simp only [MAX_PROCESS_PIPES] at struct inside ⊢
      omega
    -- The process gets its fields back, with `pipesOpened` cleared again.
    have owner : Function.update table.owner table.processes.current
        { table.owner table.processes.current with pipesOpened := 0 } = table.owner := by
      rw [← opened]
      exact Function.update_eq_self _ _
    obtain ⟨made, pipe, filled, owners, pipes, placed, bounded⟩ : ∃ made pipe,
        table.createStruct name =
          (made, some ((table.owner table.processes.current).pipesStruct k)) ∧
        made.owner = table.owner ∧
        made.pipe = Function.update table.pipe
          ((table.owner table.processes.current).pipesStruct k) pipe ∧
        pipe.Placed ((table.owner table.processes.current).pipesStruct k) ∧ pipe.Bounded := by
      simp only [createStruct, PipeState.createPipeStruct, ProcessTable.getCurrentPid, index,
        if_neg counts, Int.toNat_natCast]
      refine ⟨_, _, rfl, owner, rfl, ⟨?_, ?_⟩, Nat.le_succ 1, Nat.zero_le _⟩
      · rw [slot.1, slot.2, pids]
      · rw [slot.1, slot.2, blocked]
    rw [filled]
    have here : made.pipe ((table.owner table.processes.current).pipesStruct k) = pipe := by
      rw [pipes, Function.update_self]
    have others : ∀ q, q ≠ (table.owner table.processes.current).pipesStruct k →
        made.pipe q = table.pipe q := fun q other => by
      rw [pipes, Function.update_of_ne other]
    refine ⟨⟨fun pid => congrFun owners pid, fun before q => ?_, fun q before => ?_⟩, ?_⟩
    · by_cases same : q = (table.owner table.processes.current).pipesStruct k
      · rw [same, here]
        exact bounded
      · rw [others q same]
        exact before q
    · by_cases same : q = (table.owner table.processes.current).pipesStruct k
      · rw [same, here]
        exact placed
      · rw [others q same]
        exact before
    · intro p isMade
      obtain rfl := Option.some.inj isMade
      refine ⟨by rw [here]; exact placed, ?_⟩
      rw [owners, slot.1]
      exact laid

/-- So does the part of `createPipe` behind its `lockMutex`. -/
theorem createPipeLocked_rearranged {table after : PipeTable} {name : Option String}
    {garbage : Int} {progress : CreateProgress} {page : Nat}
    (opened : (table.owner table.processes.current).pipesOpened = 0)
    (laid : (table.owner table.processes.current).LaidOut page)
    (locked : table.createPipeLocked name garbage = some (after, progress)) :
    Rearranged table after ∧
      ∀ p, progress = .returned (some p) ∨ progress = .yieldedInGetMutex (some p) →
        after.Owns table.processes.current p := by
  have chosen : Rearranged table (table.setLast table.nextEntry) := .of_same rfl fun _ => .refl _
  obtain ⟨moved, owns⟩ :=
    @createStruct_rearranged (table.setLast table.nextEntry) name page opened laid
  have guarded : ∀ mutexes, Rearranged ((table.setLast table.nextEntry).createStruct name).1
      (((table.setLast table.nextEntry).createStruct name).1.setMutexes mutexes) :=
    fun mutexes => .of_same rfl fun _ => .refl _
  simp only [createPipeLocked] at locked
  split at locked
  · cases locked
  · split at locked
    · obtain ⟨rfl, rfl⟩ := Prod.mk.inj (Option.some.inj locked)
      refine ⟨chosen, fun p made => ?_⟩
      rcases made with made | made <;> cases made
    · split at locked
      · rename_i mutexes mutex got
        obtain ⟨⟨made, created⟩, returned, pair⟩ := Option.map_eq_some_iff.mp locked
        obtain ⟨rfl, rfl⟩ := Prod.mk.inj pair
        obtain ⟨rfl, owner, same⟩ := createPipeReturn_sameArrays returned
        have rest := (guarded mutexes).trans (.of_same owner same)
        refine ⟨(chosen.trans moved).trans rest, fun p made => ?_⟩
        rcases made with made | made
        · exact (owns p (CreateProgress.returned.inj made)).rearranged rest
        · cases made
      · rename_i mutexes got
        obtain ⟨rfl, rfl⟩ := Prod.mk.inj (Option.some.inj locked)
        refine ⟨(chosen.trans moved).trans (guarded mutexes), fun p made => ?_⟩
        rcases made with made | made
        · cases made
        · exact (owns p (CreateProgress.yieldedInGetMutex.inj made)).rearranged (guarded mutexes)

/-- `closePipe` leaves the structs alone. -/
theorem closePipe_rearranged {table after : PipeTable} {p : Nat}
    (closed : table.closePipe p = some after) : Rearranged table after := by
  simp only [closePipe] at closed
  split at closed
  · obtain rfl := Option.some.inj closed
    exact .refl _
  · split at closed
    · cases closed
    · obtain ⟨k, -, rfl⟩ := Option.map_eq_some_iff.mp closed
      exact .of_same rfl fun _ => .refl _

end PipeTable

namespace IpcState

open PipeTable

/-- What is left of a call stores its pid inside of the array it stores it in, if it stores
one in `pipePids` or `blocked`. -/
def StoresInside (state : IpcState) : IpcPending → Prop
  | .openPipe name => ∀ i ∈ state.getPipeNameIndex name,
      (state.pipe (state.pointee i)).connected < MAX_LISTENERS_IPC
  | .read p _ _ => (state.pipe p).Drained → (state.pipe p).cardinalBlocked < MAX_LISTENERS_IPC
  | .sync _ | .createPipe _ | .createPipeMutex _ _ | .write _ _ _ => True

instance (state : IpcState) (pending : IpcPending) : Decidable (state.StoresInside pending) :=
  match pending with
  | .createPipe _ | .openPipe _ | .write _ _ _ | .read _ _ _ | .sync _
  | .createPipeMutex _ _ => by
      unfold StoresInside
      infer_instance

/-- The struct that `createPipe` has filled when it gets there. -/
def madeStruct : IpcOutcome → Option Nat
  | .created _ pipe _ | .yielded (.createPipeMutex _ pipe) => pipe
  | _ => none

variable {state after : IpcState} {garbage : Int} {outcome : IpcOutcome}

/-- The rest of a call keeps the arrays in their places and the counters bounded, and a new
struct is one of its caller. -/
theorem resume_rearranged {pending : IpcPending}
    (opened : ∀ pid, (state.owner pid).pipesOpened = 0)
    (laid : ∃ page, (state.owner state.processes.current).LaidOut page)
    (inside : state.StoresInside pending)
    (waits : ∀ name p, pending = .createPipeMutex name (some p) →
      state.Owns state.processes.current p)
    (resumed : state.resume garbage pending = some (after, outcome)) :
    Rearranged state.toPipeTable after.toPipeTable ∧
      ∀ p ∈ madeStruct outcome, after.Owns state.processes.current p := by
  cases pending with
  | sync pending =>
      simp only [resume] at resumed
      split at resumed
      · split at resumed <;>
        · obtain ⟨rfl, rfl⟩ := Prod.mk.inj (Option.some.inj resumed)
          exact ⟨.of_same rfl fun _ => .refl _, fun p made => by cases made⟩
      · cases resumed
  | createPipe name =>
      obtain ⟨⟨table, progress⟩, locked, pair⟩ := Option.map_eq_some_iff.mp resumed
      obtain ⟨rfl, rfl⟩ := Prod.mk.inj pair
      obtain ⟨page, laid⟩ := laid
      obtain ⟨moved, owns⟩ := createPipeLocked_rearranged (opened _) laid locked
      refine ⟨moved, fun p made => owns p ?_⟩
      cases progress with
      | returned pipe => exact .inl (congrArg _ made)
      | yieldedInGetMutex pipe => exact .inr (congrArg _ made)
  | createPipeMutex name pipe =>
      obtain ⟨⟨table, created⟩, returned, pair⟩ := Option.map_eq_some_iff.mp resumed
      obtain ⟨rfl, rfl⟩ := Prod.mk.inj pair
      obtain ⟨rfl, owner, same⟩ := createPipeReturn_sameArrays returned
      refine ⟨.of_same owner same, fun p made => ?_⟩
      have filled : created = some p := made
      exact (waits name p (by rw [filled])).rearranged (.of_same owner same)
  | openPipe name =>
      obtain ⟨rfl, rfl⟩ := Prod.mk.inj (Option.some.inj resumed)
      obtain ⟨owner, same⟩ := openPipeLocked_sameArrays inside
      exact ⟨.of_same owner same, fun p made => by cases made⟩
  | write p message aux =>
      obtain ⟨rfl, rfl⟩ := Prod.mk.inj (Option.some.inj resumed)
      refine ⟨.of_same rfl (state.toPipeState.writeLocked_sameArrays p message aux),
        fun q made => ?_⟩
      split at made <;> cases made
  | read p bytes aux =>
      have same := @PipeState.readLocked_sameArrays state.toPipeState p aux bytes inside
      simp only [resume, readRest] at resumed
      split at resumed
      · rename_i result
        obtain ⟨rfl, rfl⟩ := Prod.mk.inj (Option.some.inj resumed)
        rw [result] at same
        exact ⟨.of_same rfl same, fun q made => by cases made⟩
      · rename_i result
        obtain ⟨rfl, rfl⟩ := Prod.mk.inj (Option.some.inj resumed)
        rw [result] at same
        exact ⟨.of_same rfl same, fun q made => by cases made⟩
      · cases resumed

/-- So does a call that locks a mutex first. -/
theorem lockThen_rearranged {mutex : Int} {rest : IpcPending}
    (opened : ∀ pid, (state.owner pid).pipesOpened = 0)
    (laid : ∃ page, (state.owner state.processes.current).LaidOut page)
    (inside : state.Uncontended mutex → state.StoresInside rest)
    (enters : ∀ name pipe, rest ≠ .createPipeMutex name pipe)
    (locked : state.lockThen mutex garbage rest = some (after, outcome)) :
    Rearranged state.toPipeTable after.toPipeTable ∧
      ∀ p ∈ madeStruct outcome, after.Owns state.processes.current p := by
  rcases lockThen_cases locked with ⟨mutexes, -, rfl, rfl⟩ | ⟨mutexes, returned, resumed⟩
  · refine ⟨.of_same rfl fun _ => .refl _, fun p made => ?_⟩
    cases rest with
    | createPipeMutex name pipe => exact absurd rfl (enters name pipe)
    | _ => cases made
  · have uncontended := MutexState.lockMutex_returned.mp (congrArg Prod.snd returned)
    have current : mutexes.processes.current = state.processes.current := by
      have same := state.lockMutex_current mutex garbage
      rwa [returned] at same
    have rests : (state.setMutexes mutexes).StoresInside rest := by
      cases rest <;> exact inside uncontended
    obtain ⟨moved, owns⟩ := @resume_rearranged (state.setMutexes mutexes) _ _ _ _ opened
      (by change ∃ page, (state.owner mutexes.processes.current).LaidOut page
          rw [current]
          exact laid)
      rests (fun name p here => absurd here (enters name (some p))) resumed
    have taken : Rearranged state.toPipeTable (state.setMutexes mutexes).toPipeTable :=
      .of_same rfl fun _ => .refl _
    refine ⟨taken.trans moved, fun p made => ?_⟩
    have owned := owns p made
    rwa [show (state.setMutexes mutexes).processes.current = state.processes.current from
      current] at owned

end IpcState

namespace IpcRun

open PipeTable

/-- The condition on a step: a call of `openPipe` that gets behind its lock finds fewer than
`MAX_LISTENERS_IPC` processes connected, and a `read` that finds the pipe empty finds fewer
recorded. -/
def Within (state : IpcRun) : IpcAction → Prop
  | .call (.openPipe name) _ _ => state.kernel.Uncontended state.kernel.ipcAdminMutex →
      state.kernel.StoresInside (.openPipe name)
  | .call (.read p bytes) _ _ => state.kernel.Uncontended (state.kernel.pipe p).mutex →
      state.kernel.StoresInside (.read p bytes (state.kernel.pipe p).position)
  | .resume _ _ => ∀ pending ∈ state.pending state.current, state.kernel.StoresInside pending
  | .call (.sync _) _ _ | .call (.createPipe _) _ _ | .call (.closePipe _) _ _
  | .call (.write _ _) _ _ | .createProcess _ _ | .timerTick _ | .removeProcess _ _ => True

instance (state : IpcRun) (action : IpcAction) : Decidable (state.Within action) :=
  match action with
  | .call (.createPipe _) _ _ | .call (.openPipe _) _ _ | .call (.write _ _) _ _
  | .call (.read _ _) _ _ | .call (.closePipe _) _ _ | .call (.sync _) _ _ | .resume _ _
  | .createProcess _ _ | .timerTick _ | .removeProcess _ _ => by
      unfold Within MutexState.Uncontended
      infer_instance

/-- How `createProcess` of the kernel calls the step: the process gets a new pid and a page
that `initializePipeFields` lays out. -/
def Initialized (state : IpcRun) : IpcAction → Prop
  | .createProcess pid owner => owner.LaidOut (owner.pipesStruct 0 / MAX_PROCESS_PIPES) ∧
      state.pending pid = none ∧ ∀ c ∈ state.creations, c.caller ≠ pid
  | _ => True

instance (state : IpcRun) (action : IpcAction) : Decidable (state.Initialized action) :=
  match action with
  | .createProcess _ _ => inferInstanceAs (Decidable (_ ∧ _))
  | .call _ _ _ | .resume _ _ | .timerTick _ | .removeProcess _ _ =>
      inferInstanceAs (Decidable True)

/-- The current process is on the ring. -/
def Present (state : IpcRun) : Prop := state.kernel.processes.state state.current ≠ none

/-- The invariant of the runs, with `Present`. -/
structure Arranged (state : IpcRun) : Prop where
  opened : ∀ pid, (state.kernel.owner pid).pipesOpened = 0
  bounded : ∀ p, (state.kernel.pipe p).Bounded
  laid : ∀ pid, state.kernel.processes.state pid ≠ none →
    ∃ page, (state.kernel.owner pid).LaidOut page
  created : ∀ c ∈ state.creations, ∀ p, c.pipe = some p → state.kernel.Owns c.caller p
  making : ∀ pid name p, state.pending pid = some (.createPipeMutex name (some p)) →
    state.kernel.Owns pid p

/-- A part of a call keeps the arrays in their places, and leaves the ring alone. -/
theorem perform_rearranged {state : IpcRun} {action : IpcAction} {kernel : IpcState}
    {outcome : IpcOutcome} (arranged : Arranged state) (present : state.Present)
    (within : state.Within action)
    (performed : state.perform action = some (kernel, outcome)) :
    (Rearranged state.kernel.toPipeTable kernel.toPipeTable ∧
      ∀ p ∈ IpcState.madeStruct outcome, kernel.Owns state.current p) ∧
      kernel.processes.current = state.current ∧
      ∀ pid, kernel.processes.state pid = none ↔ state.kernel.processes.state pid = none := by
  have laid := arranged.laid state.current present
  cases action with
  | call call garbage next =>
      simp only [perform] at performed
      split at performed
      case isFalse => cases performed
      have assigns := IpcState.enter_assigns performed
      refine ⟨?_, assigns.current, assigns.eq_none⟩
      cases call with
      | sync call =>
          simp only [IpcState.enter] at performed
          split at performed
          · split at performed <;>
            · obtain ⟨rfl, rfl⟩ := Prod.mk.inj (Option.some.inj performed)
              exact ⟨.of_same rfl fun _ => .refl _, fun p made => by cases made⟩
          · cases performed
      | closePipe p =>
          obtain ⟨table, closed, pair⟩ := Option.map_eq_some_iff.mp performed
          obtain ⟨rfl, rfl⟩ := Prod.mk.inj pair
          exact ⟨closePipe_rearranged closed, fun p made => by cases made⟩
      | createPipe name =>
          exact @IpcState.lockThen_rearranged _ _ _ _ _ (.createPipe name) arranged.opened laid
            (fun _ => trivial) (by simp) performed
      | write p message =>
          exact @IpcState.lockThen_rearranged _ _ _ _ _ (.write p message _) arranged.opened laid
            (fun _ => trivial) (by simp) performed
      | openPipe name | read p bytes =>
          exact IpcState.lockThen_rearranged arranged.opened laid within (by simp) performed
  | resume garbage next =>
      simp only [perform] at performed
      split at performed
      · obtain ⟨pending, stands, resumed⟩ := Option.bind_eq_some_iff.mp performed
        have assigns := IpcState.resume_assigns resumed
        refine ⟨?_, assigns.current, assigns.eq_none⟩
        exact IpcState.resume_rearranged arranged.opened laid (within pending stands)
          (fun name p here => arranged.making _ name p (here ▸ stands)) resumed
      · cases performed
  | timerTick | createProcess | removeProcess => cases performed

/-- A call that stores inside the arrays keeps the invariant. -/
theorem Arranged.settle {state : IpcRun} (arranged : Arranged state) (present : state.Present)
    {action : IpcAction} (within : state.Within action) {kernel : IpcState}
    {outcome : IpcOutcome} (performed : state.perform action = some (kernel, outcome)) :
    Arranged (state.settle kernel outcome) ∧ (state.settle kernel outcome).Present := by
  obtain ⟨⟨moved, owns⟩, current, ring⟩ := perform_rearranged arranged present within performed
  refine ⟨⟨fun pid => ?_, moved.bounded arranged.bounded, ?_, ?_, ?_⟩, ?_⟩
  · change (kernel.owner pid).pipesOpened = 0
    rw [moved.owner]
    exact arranged.opened pid
  · intro pid here
    change ∃ page, (kernel.owner pid).LaidOut page
    rw [moved.owner]
    exact arranged.laid pid (mt (ring pid).mpr here)
  · intro c listed p made
    rcases List.mem_append.mp listed with before | new
    · exact (arranged.created c before p made).rearranged moved
    · cases outcome with
      | created name pipe blockedOnOwn =>
          obtain rfl := List.mem_singleton.mp new
          exact owns p made
      | returned | closed | full | empty | yielded => cases new
  · intro pid name p stands
    by_cases here : pid = state.current
    · subst here
      simp only [IpcRun.settle, Function.update_self] at stands
      cases outcome with
      | yielded pending =>
          obtain rfl := Option.some.inj stands
          exact owns p rfl
      | returned | created | closed | full | empty => cases stands
    · simp only [IpcRun.settle, Function.update_of_ne here] at stands
      exact (arranged.making pid name p stands).rearranged moved
  · change kernel.processes.state kernel.processes.current ≠ none
    rw [current, ne_eq, ring]
    exact present

/-- Processes that leave the ring, or change their states, leave the arrays alone. -/
theorem Arranged.setProcesses {state : IpcRun} (arranged : Arranged state)
    {processes : ProcessTable}
    (fewer : ∀ pid, processes.state pid ≠ none → state.kernel.processes.state pid ≠ none) :
    Arranged (state.setProcesses processes) := by
  have same : Rearranged state.kernel.toPipeTable
      (state.setProcesses processes).kernel.toPipeTable := .of_same rfl fun _ => .refl _
  refine ⟨arranged.opened, arranged.bounded, fun pid here => arranged.laid pid (fewer pid here),
    ?_, ?_⟩
  · intro c listed p made
    exact (arranged.created c listed p made).rearranged same
  · intro pid name p stands
    exact (arranged.making pid name p stands).rearranged same

/-- A switch picks a process that is on the ring. -/
theorem Arranged.dispatch {state after : IpcRun} (arranged : Arranged state) {next : Int}
    (switched : state.dispatch next = some after) : Arranged after ∧ after.Present := by
  obtain ⟨processes, scheduled, rfl⟩ := Option.map_eq_some_iff.mp switched
  have dispatched := ProcessTable.schedule_dispatched scheduled
  refine ⟨arranged.setProcesses fun pid => mt (dispatched.present pid).mpr, ?_⟩
  change processes.state processes.current ≠ none
  rw [dispatched.current, ne_eq, dispatched.present]
  exact dispatched.next_present

/-- A new process has its page laid out, and nobody has used its pid. -/
theorem Arranged.createProcess {state : IpcRun} (arranged : Arranged state)
    (present : state.Present) {pid : Int} {owner : PipeOwner}
    (initialized : state.Initialized (.createProcess pid owner)) :
    Arranged (state.createProcess pid owner) ∧ (state.createProcess pid owner).Present := by
  obtain ⟨laid, idle, unused⟩ := initialized
  have others : ∀ q, q ≠ pid →
      (state.createProcess pid owner).kernel.owner q = state.kernel.owner q :=
    fun q other => Function.update_of_ne other _ _
  have here : (state.createProcess pid owner).kernel.owner pid =
      { owner with pid, pipesOpened := 0 } := Function.update_self _ _ _
  have owned : ∀ {q p}, q ≠ pid → state.kernel.Owns q p →
      (state.createProcess pid owner).kernel.Owns q p := fun other owns =>
    ⟨owns.placed, by rw [others _ other]; exact owns.laid⟩
  refine ⟨⟨fun q => ?_, arranged.bounded, fun q there => ?_, ?_, ?_⟩, ?_⟩
  · by_cases same : q = pid
    · rw [same, here]
    · rw [others q same]
      exact arranged.opened q
  · by_cases same : q = pid
    · rw [same, here]
      exact ⟨_, laid⟩
    · rw [others q same]
      refine arranged.laid q fun gone => there ?_
      exact (Function.update_of_ne same _ _).trans gone
  · intro c listed p made
    exact owned (unused c listed) (arranged.created c listed p made)
  · intro q name p stands
    refine owned ?_ (arranged.making q name p stands)
    rintro rfl
    rw [show (state.createProcess q owner).pending q = state.pending q from rfl, idle] at stands
    cases stands
  · change Function.update state.kernel.processes.state pid (some .ready) state.current ≠ none
    by_cases same : state.current = pid
    · rw [same, Function.update_self]
      simp
    · rw [Function.update_of_ne same]
      exact present

/-- A step keeps the invariant. -/
theorem arranged_step (state : IpcRun) (action : IpcAction) (next : IpcRun)
    (arranged : Arranged state ∧ state.Present)
    (condition : state.Within action ∧ state.Initialized action)
    (stepped : state.step action = some next) : Arranged next ∧ next.Present := by
  obtain ⟨arranged, present⟩ := arranged
  obtain ⟨within, initialized⟩ := condition
  have fewer : ∀ pid q, Function.update state.kernel.processes.state pid none q ≠ none →
      state.kernel.processes.state q ≠ none := by
    intro pid q here
    by_cases same : q = pid
    · rw [same, Function.update_self] at here
      exact absurd rfl here
    · rwa [Function.update_of_ne same] at here
  refine step_rule stepped ⟨arranged, present⟩ (fun _ => And.left) (fun mid => mid.dispatch)
    (fun performed => arranged.settle present within performed) (fun created => ?_)
    fun pid => ⟨arranged.setProcesses (fewer pid), fun other =>
      ⟨arranged.setProcesses (fewer pid), ?_⟩⟩
  · subst created
    exact arranged.createProcess present initialized
  · change Function.update state.kernel.processes.state pid none state.current ≠ none
    rw [Function.update_of_ne (Ne.symm other)]
    exact present

/-- The invariant holds after boot. -/
theorem boot_arranged (a b : Nat) :
    Arranged (boot (ownerAt 0 a) (ownerAt 1 b)) ∧
      (boot (ownerAt 0 a) (ownerAt 1 b)).Present := by
  have owner : (boot (ownerAt 0 a) (ownerAt 1 b)).kernel.owner =
      Function.update (Function.update unset.owner 0 (ownerAt 0 a)) 1 (ownerAt 1 b) := rfl
  have ring : (boot (ownerAt 0 a) (ownerAt 1 b)).kernel.processes.state =
      Function.update (Function.update SyncRun.zeroed.processes.state 0 (some .ready)) 1
        (some .ready) := rfl
  refine ⟨⟨fun pid => ?_, fun p => ⟨Nat.zero_le _, Nat.zero_le _⟩, fun pid here => ?_, ?_, ?_⟩, ?_⟩
  · rw [owner]
    by_cases shell : pid = 1
    · rw [shell, Function.update_self]
      rfl
    · rw [Function.update_of_ne shell]
      by_cases init : pid = 0
      · rw [init, Function.update_self]
        rfl
      · rw [Function.update_of_ne init]
        rfl
  · rw [ring] at here
    rw [owner]
    by_cases shell : pid = 1
    · rw [shell, Function.update_self]
      exact ⟨b, ownerAt_laidOut 1 b⟩
    · rw [Function.update_of_ne shell] at here ⊢
      by_cases init : pid = 0
      · rw [init, Function.update_self]
        exact ⟨a, ownerAt_laidOut 0 a⟩
      · rw [Function.update_of_ne init] at here
        exact absurd rfl here
  · intro c listed
    cases listed
  · intro pid name p stands
    cases stands
  · change Function.update (Function.update SyncRun.zeroed.processes.state 0 (some .ready)) 1
      (some .ready) 0 ≠ none
    simp

/-! ## Where the arrays lie -/

/-- The buffer of the struct `p`, which `createPipeStruct` finds from its index. -/
def bufferOf (p : Nat) : Interval where
  lo := (pageFields (p / MAX_PROCESS_PIPES)).pipes + p % MAX_PROCESS_PIPES * PIPE_LENGTH
  hi := (pageFields (p / MAX_PROCESS_PIPES)).pipes + p % MAX_PROCESS_PIPES * PIPE_LENGTH +
    PIPE_LENGTH

/-- The bytes of an array of pids of a pipe. -/
def arrayAt (array : Nat) : Interval where
  lo := array
  hi := array + MAX_LISTENERS_IPC * sizeofInt

/-- The memory of a pipe: its buffer and its two arrays of pids. -/
def regions (state : IpcRun) (p : Nat) : List Interval :=
  [bufferOf p, arrayAt (state.kernel.pipe p).pipePids, arrayAt (state.kernel.pipe p).blocked]

/-- The struct is a pipe that the process created. -/
def Created (state : IpcRun) (pid : Int) (p : Nat) : Prop :=
  ∃ c ∈ state.creations, c.caller = pid ∧ c.pipe = some p

/-- The memory of different pipes of a process is disjoint and inside of its page, and every
pid that `pipePids` and `blocked` record stands inside of the array of its pipe. -/
structure ArraysInside (state : IpcRun) : Prop where
  disjoint : ∀ pid p q, state.Created pid p → state.Created pid q → p ≠ q →
    ∀ r ∈ state.regions p, ∀ s ∈ state.regions q, r.Disjoint s
  inPage : ∀ pid p, state.Created pid p → ∀ r ∈ state.regions p,
    (⟨PAGE_SIZE * (p / MAX_PROCESS_PIPES), PAGE_SIZE * (p / MAX_PROCESS_PIPES + 1)⟩ :
      Interval).Contains r
  indexes : ∀ pid p, state.Created pid p → (state.kernel.pipe p).Bounded

/-- No process has created two pipes. -/
def OnePipeEach (state : IpcRun) : Prop :=
  ∀ pid p q, state.Created pid p → state.Created pid q → p = q

/-- The arrays of two pipes in one page overlap. -/
theorem arrays_overlap {state : IpcState} {p q : Nat} (first : (state.pipe p).Placed p)
    (second : (state.pipe q).Placed q) (samePage : p / MAX_PROCESS_PIPES = q / MAX_PROCESS_PIPES) :
    ¬ (arrayAt (state.pipe p).pipePids).Disjoint (arrayAt (state.pipe q).pipePids) := by
  have lower := Nat.mod_lt p (show 0 < MAX_PROCESS_PIPES by decide)
  have upper := Nat.mod_lt q (show 0 < MAX_PROCESS_PIPES by decide)
  simp only [Interval.Disjoint, arrayAt, first.pipePids, second.pipePids, samePage]
  simp only [MAX_PROCESS_PIPES, MAX_LISTENERS_IPC, sizeofInt] at lower upper ⊢
  omega

/-- The buffers of two structs are apart. -/
theorem buffers_apart {p q : Nat} (different : p ≠ q) : (bufferOf p).Disjoint (bufferOf q) := by
  have lower := Nat.mod_lt p (show 0 < MAX_PROCESS_PIPES by decide)
  have upper := Nat.mod_lt q (show 0 < MAX_PROCESS_PIPES by decide)
  simp only [Interval.Disjoint, bufferOf, pageFields, initializePipeFields, PAGE_SIZE,
    MAX_PROCESS_PIPES, PIPE_LENGTH] at lower upper ⊢
  rcases Nat.lt_trichotomy (p / 3) (q / 3) with before | same | behind
  · omega
  · have slots : p % 3 < q % 3 ∨ q % 3 < p % 3 := by omega
    omega
  · omega

/-- The two structs of a process lie in its one page. -/
theorem samePage {table : PipeTable} {pid : Int} {p q : Nat} (first : table.Owns pid p)
    (second : table.Owns pid q) : p / MAX_PROCESS_PIPES = q / MAX_PROCESS_PIPES := by
  have here := first.laid.2.2.2 0 (by decide)
  have there := second.laid.2.2.2 0 (by decide)
  rw [here] at there
  simp only [MAX_PROCESS_PIPES] at there ⊢
  omega

/-- In every run whose processes get pages of their own and whose `openPipe` and `read` calls
find room in the arrays, everything is apart and inside exactly as long as no process has
created two pipes. -/
theorem arrays_inside_iff {a b : Nat} {final : IpcRun} {actions : List IpcAction}
    (initialized : Along step Initialized (boot (ownerAt 0 a) (ownerAt 1 b)) actions)
    (within : Along step Within (boot (ownerAt 0 a) (ownerAt 1 b)) actions)
    (ran : run step (boot (ownerAt 0 a) (ownerAt 1 b)) actions = some final) :
    ArraysInside final ↔ OnePipeEach final := by
  obtain ⟨arranged, -⟩ :=
    Along.invariant arranged_step (boot_arranged a b) (within.and initialized) ran
  have owns : ∀ {pid p}, final.Created pid p → final.kernel.Owns pid p := by
    rintro pid p ⟨c, listed, rfl, made⟩
    exact arranged.created c listed p made
  constructor
  · intro inside pid p q first second
    by_contra different
    exact arrays_overlap (owns first).placed (owns second).placed
      (samePage (owns first) (owns second))
      (inside.disjoint pid p q first second different _ (by simp [regions]) _ (by simp [regions]))
  · intro single
    refine ⟨fun pid p q first second different => ?_, fun pid p created r region => ?_,
      fun pid p created => arranged.bounded p⟩
    · exact absurd (single pid p q first second) different
    · have placed := (owns created).placed
      have slot := Nat.mod_lt p (show 0 < MAX_PROCESS_PIPES by decide)
      simp only [regions, List.mem_cons, List.not_mem_nil, or_false] at region
      rcases region with rfl | rfl | rfl
      all_goals
        simp only [Interval.Contains, bufferOf, arrayAt, placed.pipePids, placed.blocked,
          pageFields, initializePipeFields, PAGE_SIZE, sizeofProcess, MAX_PROCESS_PIPES,
          PIPE_LENGTH, sizeofPipe, MAX_LISTENERS_IPC, sizeofInt] at slot ⊢
        omega

/-- `SHELL` creates a pipe, and process `2` opens it. -/
def opensOne : List IpcAction :=
  .createProcess 2 (ownerAt 2 12) :: createsPipe "x" ++
    [.timerTick 2, .call (.openPipe (some "x")) 0 0]

theorem opensOne_inside : ∃ final,
    run step (boot (ownerAt 0 10) (ownerAt 1 11)) opensOne = some final ∧
      final.creations = [⟨1, some "x", some 33, false⟩] ∧
      (final.kernel.pipe 33).connected = 2 ∧ ArraysInside final := by
  have result : (run step (boot (ownerAt 0 10) (ownerAt 1 11)) opensOne).map (fun final =>
      (final.creations, (final.kernel.pipe 33).connected)) =
      some ([⟨1, some "x", some 33, false⟩], 2) := by
    decide +kernel
  obtain ⟨final, ran, facts⟩ := Option.map_eq_some_iff.mp result
  obtain ⟨creations, connected⟩ := Prod.mk.inj facts
  refine ⟨final, ran, creations, connected, ?_⟩
  refine (@arrays_inside_iff 10 11 final opensOne (by decide +kernel)
    (by decide +kernel) ran).mpr ?_
  rintro pid p q ⟨c, first, -, made⟩ ⟨d, second, -, also⟩
  rw [creations] at first second
  obtain rfl := List.mem_singleton.mp first
  obtain rfl := List.mem_singleton.mp second
  exact Option.some.inj (made.symm.trans also)

/-- `SHELL` creates two pipes. -/
def createsTwo : List IpcAction :=
  .createProcess 2 (ownerAt 2 12) :: (createsPipe "x" ++ createsPipe "y")

/-- The array of the second one starts three bytes after that of the first one. -/
theorem arrays_of_two_overlap : ∃ final,
    run step (boot (ownerAt 0 10) (ownerAt 1 11)) createsTwo = some final ∧
      final.creations = [⟨1, some "x", some 33, false⟩, ⟨1, some "y", some 34, false⟩] ∧
      arrayAt (final.kernel.pipe 33).pipePids = ⟨45526, 45534⟩ ∧
      arrayAt (final.kernel.pipe 34).pipePids = ⟨45529, 45537⟩ ∧ ¬ ArraysInside final := by
  have result : (run step (boot (ownerAt 0 10) (ownerAt 1 11)) createsTwo).map (fun final =>
      (final.creations, arrayAt (final.kernel.pipe 33).pipePids,
        arrayAt (final.kernel.pipe 34).pipePids)) =
      some ([⟨1, some "x", some 33, false⟩, ⟨1, some "y", some 34, false⟩], ⟨45526, 45534⟩,
        ⟨45529, 45537⟩) := by
    decide +kernel
  obtain ⟨final, ran, facts⟩ := Option.map_eq_some_iff.mp result
  simp only [Prod.mk.injEq] at facts
  obtain ⟨creations, first, second⟩ := facts
  refine ⟨final, ran, creations, first, second, fun inside => ?_⟩
  have apart := inside.disjoint 1 33 34 ⟨_, by rw [creations]; exact .head _, rfl, rfl⟩
    ⟨_, by rw [creations]; exact .tail _ (.head _), rfl, rfl⟩ (by decide)
    (arrayAt (final.kernel.pipe 33).pipePids) (by simp [regions])
    (arrayAt (final.kernel.pipe 34).pipePids) (by simp [regions])
  rw [first, second] at apart
  exact absurd apart (by decide)

end IpcRun

end SistemasOperativos.Kernel
