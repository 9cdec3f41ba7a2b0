import SistemasOperativos.Kernel.PipeTable
import SistemasOperativos.Kernel.TableNames

/-!
# The mutexes that guard semaphores and pipes

A semaphore and a pipe are guarded by the mutex that `getMutex` has for their name, out
of the same table as the mutexes of the user code. A process that holds the mutex of that
name blocks itself when it waits at the semaphore (`waits_for_its_own_mutex`). In runs
in which nothing is closed the guard of a semaphore is apart from all mutexes of other
names, and from the guards of the other semaphores and pipes (`guards_apart`).

`handles` and `pipeGuards` are not part of the kernel: they list what `getMutex` returned
to user code, and the guards that `createPipe` stored, each with its name.
-/

namespace SistemasOperativos.Kernel

open SistemasOperativos.Semantics

namespace IpcState

/-- The guards of the pipes are the same, and no entry of the table is new. -/
structure SamePipes (before after : IpcState) : Prop where
  guards : ∀ p, (after.pipe p).mutex = (before.pipe p).mutex
  entries : ∀ k p, after.pipes k = some p → before.pipes k = some p

/-- The pipes of a state are those of the state. -/
theorem SamePipes.refl (state : IpcState) : SamePipes state state := ⟨fun _ => rfl, fun _ _ => id⟩

/-- Two parts of a call that leave the pipes leave them together. -/
theorem SamePipes.trans {a b c : IpcState} (first : SamePipes a b) (second : SamePipes b c) :
    SamePipes a c :=
  ⟨fun p => (second.guards p).trans (first.guards p),
    fun k p here => first.entries k p (second.entries k p here)⟩

/-- The outcomes of a part of a call on the pipes that creates none. -/
def CreatesNone : IpcOutcome → Prop
  | .created _ (some _) _ | .yielded (.sync _) => False
  | _ => True

/-- What a part of a call on the pipes does to the names of the mutexes and to the guards. -/
inductive PipeEffect (before after : IpcState) : IpcOutcome → Prop where
  | kept {outcome : IpcOutcome} (names : MutexState.SameNames before.mutexes after.mutexes)
      (semaphores : after.semaphores = before.semaphores) (pipes : SamePipes before after)
      (none : CreatesNone outcome) : PipeEffect before after outcome
  | created {name : Option String} {pipe : Option Nat} {blockedOnOwn : Bool} {i : Int}
      (gets : MutexState.Gets before.mutexes after.mutexes name i)
      (semaphores : after.semaphores = before.semaphores)
      (guard : (after.pipe (pipe.getD NULL)).mutex = i)
      (others : ∀ q, q ≠ pipe.getD NULL → (after.pipe q).mutex = (before.pipe q).mutex)
      (entries : ∀ k q, after.pipes k = some q → pipe = some q ∨ before.pipes k = some q) :
      PipeEffect before after (.created name pipe blockedOnOwn)

/-- A part on the pipes touches no semaphore. -/
theorem PipeEffect.semaphores {before after : IpcState} {outcome : IpcOutcome}
    (effect : PipeEffect before after outcome) :
    after.semaphores = before.semaphores := by
  cases effect <;> assumption

/-- A step that keeps all of this may come before. -/
theorem PipeEffect.after {before middle after : IpcState} {outcome : IpcOutcome}
    (effect : PipeEffect middle after outcome)
    (names : MutexState.SameNames before.mutexes middle.mutexes)
    (semaphores : middle.semaphores = before.semaphores) (pipes : SamePipes before middle) :
    PipeEffect before after outcome := by
  cases effect with
  | kept sameNames same samePipes none =>
      exact .kept (names.trans sameNames) (same.trans semaphores) (pipes.trans samePipes) none
  | created gets same guard others entries =>
      exact .created (gets.within names (.refl _)) (same.trans semaphores) guard
        (fun q other => (others q other).trans (pipes.guards q))
        fun k q here => (entries k q here).imp_right (pipes.entries k q)

end IpcState

namespace PipeState

end PipeState

namespace PipeTable

end PipeTable

namespace IpcState

variable {state kernel : IpcState} {garbage : Int} {outcome : IpcOutcome}

end IpcState

/-! ## Who has a mutex -/

namespace MutexState

/-- Entry `i` is in use and has the name, which may be NULL. -/
structure Owned (mutexes : Int → Mutex) (name : Option String) (i : Int) : Prop where
  low : 0 ≤ i
  high : i < MAX_MUTEXES
  used : (mutexes i).used = true
  named : (mutexes i).name = name

section Owned

variable {a b : Int → Mutex} {name other : Option String} {i k : Int}

/-- An entry stays its owner's while the names stay. -/
theorem SameNames.owned (same : SameNames a b) (owned : Owned a name i) : Owned b name i :=
  ⟨owned.low, owned.high, (same i).1.trans owned.used, (same i).2.trans owned.named⟩

/-- `strcmp` finds two names equal in either order. -/
theorem sameName_symm (name other : Option String) : sameName name other = sameName other name := by
  cases name <;> cases other <;> simp [sameName, eq_comm]

/-- `getMutex` returns an entry with the name, or `ERROR`. -/
theorem Gets.owned (gets : Gets a b name i) : i = ERROR ∨ Owned b name i := by
  cases gets with
  | found listed same =>
      exact .inr (same.owned ⟨listed.low, listed.high, listed.used, listed.name_eq⟩)
  | full => exact .inl rfl
  | created _ created =>
      exact .inr ⟨created.low, created.high, created.used, created.named⟩

/-- A `getMutex` takes no entry from its owner. -/
theorem Gets.keepsOwned (gets : Gets a b name i) (owned : Owned a other k) : Owned b other k := by
  cases gets with
  | found _ same | full _ _ same => exact same.owned owned
  | created _ created =>
      have different : k ≠ i := by
        rintro rfl
        have free := created.free
        rw [owned.used] at free
        cases free
      obtain ⟨used, named⟩ := created.others k different
      exact ⟨owned.low, owned.high, used.trans owned.used, named.trans owned.named⟩

/-- `getMutex` does not return an entry that has another name. -/
theorem Gets.apart (gets : Gets a b name i) (owned : Owned a other k)
    (different : sameName name other = false) : i ≠ k := by
  rintro rfl
  cases gets with
  | found listed =>
      have named := listed.named
      rw [owned.named, sameName_symm, different] at named
      cases named
  | full => exact absurd owned.low (by decide)
  | created _ created =>
      have free := created.free
      rw [owned.used] at free
      cases free

end Owned

/-- What holders have got from `getMutex` is theirs, unless it is `ERROR`, and holders under
different names have different mutexes. A NULL name is different from every name. -/
structure Apart {ι : Type} (mutexes : Int → Mutex) (holds : ι → Option String → Int → Prop) :
    Prop where
  owned : ∀ h name i, holds h name i → i = ERROR ∨ Owned mutexes name i
  apart : ∀ h other name otherName i k, h ≠ other → holds h name i → holds other otherName k →
    sameName name otherName = false → i ≠ ERROR → i ≠ k

section Apart

variable {ι : Type} {a b : Int → Mutex} {before after : ι → Option String → Int → Prop}
  {name : Option String} {i : Int}

/-- Holders stay apart while the names stay and nobody gets another mutex. -/
theorem Apart.keeps (apart : Apart a before) (same : SameNames a b)
    (fewer : ∀ h name i, after h name i → before h name i) : Apart b after where
  owned h name i here := (apart.owned h name i (fewer h name i here)).imp_right same.owned
  apart h other name otherName i k different first second :=
    apart.apart h other name otherName i k different (fewer h name i first)
      (fewer other otherName k second)

/-- One new holder may get a mutex from `getMutex`. -/
theorem Apart.gets (apart : Apart a before) (gets : Gets a b name i) (new : ι)
    (only : ∀ h other k, after h other k → before h other k ∨ h = new ∧ other = name ∧ k = i) :
    Apart b after := by
  refine ⟨fun h other k here => ?_, fun h other hName otherName j k different first second
    names handle => ?_⟩
  · rcases only h other k here with old | ⟨-, rfl, rfl⟩
    · exact (apart.owned h other k old).imp_right gets.keepsOwned
    · exact gets.owned
  · rcases only h hName j first with firstOld | ⟨rfl, rfl, rfl⟩
    · rcases only other otherName k second with secondOld | ⟨rfl, rfl, rfl⟩
      · exact apart.apart h other hName otherName j k different firstOld secondOld names handle
      · rw [sameName_symm] at names
        have owned := (apart.owned h hName j firstOld).resolve_left handle
        exact (gets.apart owned names).symm
    · rcases only other otherName k second with secondOld | ⟨rfl, -, -⟩
      · rcases apart.owned other otherName k secondOld with error | owned
        · rwa [error]
        · exact gets.apart owned names
      · exact absurd rfl different

end Apart

end MutexState

/-! ## Semaphores that are being created -/

/-- The process stands in `createSemaphore` for slot `s`: the slot is taken, its guard is
not stored yet. -/
def Builds (pending : Option IpcPending) (name : Option String) (s : Int) : Prop :=
  ∃ start creator, pending = some (.sync (.createSemaphore name start creator s))

/-- The slots that are being filled are in use, each by one process. -/
structure Building (semaphores : Int → Semaphore) (pending : Int → Option IpcPending) : Prop where
  slot : ∀ pid name s, Builds (pending pid) name s →
    0 ≤ s ∧ s < MAX_SEMAPHORES ∧ (semaphores s).used = true ∧ (semaphores s).name = name
  alone : ∀ pid other name otherName s, Builds (pending pid) name s →
    Builds (pending other) otherName s → pid = other

/-- The semaphore is in use and its guard is stored. -/
structure Built (semaphores : Int → Semaphore) (pending : Int → Option IpcPending) (s : Int) :
    Prop where
  low : 0 ≤ s
  high : s < MAX_SEMAPHORES
  used : (semaphores s).used = true
  stored : ∀ pid name, ¬ Builds (pending pid) name s

section Building

variable {a b : Int → Semaphore} {before after : Int → Option IpcPending} {s : Int}

/-- Slots that are being filled stay so while the names stay and nobody starts to fill one. -/
theorem Building.keeps (building : Building a before)
    (same : ∀ s, (b s).used = (a s).used ∧ (b s).name = (a s).name)
    (fewer : ∀ pid name s, Builds (after pid) name s → Builds (before pid) name s) :
    Building b after where
  slot pid name s builds := by
    obtain ⟨low, high, used, named⟩ := building.slot pid name s (fewer pid name s builds)
    exact ⟨low, high, (same s).1.trans used, (same s).2.trans named⟩
  alone pid other name otherName s first second :=
    building.alone pid other name otherName s (fewer pid name s first)
      (fewer other otherName s second)

/-- A process may take a slot. -/
theorem Building.taken (building : Building a before) {name : Option String}
    (taken : SemaphoreState.Taken a b name s) (current : Int)
    (only : ∀ pid other k, Builds (after pid) other k →
      Builds (before pid) other k ∨ pid = current ∧ other = name ∧ k = s) : Building b after := by
  have others : ∀ pid other k, Builds (before pid) other k → k ≠ s := by
    rintro pid other k builds rfl
    have free := taken.free
    rw [(building.slot pid other k builds).2.2.1] at free
    cases free
  refine ⟨fun pid other k builds => ?_, fun pid second name' secondName k first next => ?_⟩
  · rcases only pid other k builds with old | ⟨-, rfl, rfl⟩
    · obtain ⟨low, high, used, named⟩ := building.slot pid other k old
      obtain ⟨same, name, -⟩ := taken.others k (others pid other k old)
      exact ⟨low, high, same.trans used, name.trans named⟩
    · exact ⟨taken.low, taken.high, taken.used, taken.named⟩
  · rcases only pid name' k first with firstOld | ⟨rfl, rfl, rfl⟩
    · rcases only second secondName k next with secondOld | ⟨-, -, rfl⟩
      · exact building.alone pid second name' secondName k firstOld secondOld
      · exact absurd rfl (others pid name' _ firstOld)
    · rcases only second secondName k next with secondOld | ⟨rfl, -, -⟩
      · exact absurd rfl (others second secondName _ secondOld)
      · rfl

end Building

/-! ## Steps -/

namespace IpcRun

/-- The part of a call on mutexes and semaphores that the action does, and how far it gets. -/
def syncOutcome (state : IpcRun) : IpcAction → Option (Request × Outcome)
  | .call (.sync call) garbage _ => some (call.request, (state.kernel.sync.enter garbage call).2)
  | .resume garbage _ =>
      match state.pending state.current with
      | some (.sync pending) =>
          some (pending.request, (state.kernel.sync.resume garbage pending).2)
      | _ => none
  | _ => none

/-- The handle that a `getMutex` returns, with its name. -/
def obtained (state : IpcRun) (action : IpcAction) : List (Option String × Int) :=
  match state.syncOutcome action with
  | some (.getMutex name, .returned (some i)) => if i = ERROR then [] else [(name, i)]
  | _ => []

/-- The guard that a `createPipe` stores, with the name of the pipe. One that returns NULL may
have stored it at address 0. -/
def stored (state : IpcRun) (action : IpcAction) : List (Option String × Int) :=
  match state.perform action with
  | some (kernel, .created name (some p) _) => [(name, (kernel.pipe p).mutex)]
  | some (kernel, .created name none _) =>
      if (kernel.pipe NULL).mutex = (state.kernel.pipe NULL).mutex then []
      else [(name, (kernel.pipe NULL).mutex)]
  | _ => []

/-- How far a part of a call on mutexes and semaphores gets, as all parts of calls do. -/
def reaches : Outcome → IpcOutcome
  | .returned _ => .returned
  | .yielded pending => .yielded (.sync pending)

/-- The tables of the kernel that hold names and guards are the same. -/
structure SameTables (before after : IpcState) : Prop where
  mutexes : after.mutexes = before.mutexes
  semaphores : after.semaphores = before.semaphores
  pipe : after.pipe = before.pipe
  pipes : after.pipes = before.pipes

end IpcRun

/-! ## Runs in which nothing is closed -/

/-- The kernel, the handles that `getMutex` returned and the guards that `createPipe`
stored, each with its name. -/
structure GuardRun where
  ipc : IpcRun
  handles : List (Option String × Int)
  pipeGuards : List (Option String × Int)

/-- Who got a mutex from `getMutex`. -/
inductive Holder where
  | handle (n : Nat)
  | pipe (n : Nat)
  | semaphore (s : Int)

namespace GuardRun

def step (state : GuardRun) (action : IpcAction) : Option GuardRun :=
  (state.ipc.step action).map fun ipc =>
    { ipc
      handles := state.handles ++ state.ipc.obtained action
      pipeGuards := state.pipeGuards ++ state.ipc.stored action }

/-- A run starts with the tables as they were initialised, before any pipe is created. -/
structure Start (state : GuardRun) : Prop where
  tables : ∃ before : SyncState,
    state.ipc.kernel.mutexes = before.initializeTables.mutexes ∧
    state.ipc.kernel.semaphores = before.initializeTables.semaphores
  pending : ∀ pid, state.ipc.pending pid = none
  pipes : ∀ k, state.ipc.kernel.pipes k = none
  handles : state.handles = []
  pipeGuards : state.pipeGuards = []

/-- No mutex and no semaphore is closed. -/
def ClosesNone (_ : GuardRun) : IpcAction → Prop
  | .call (.sync (.closeMutex _)) _ _ | .call (.sync (.semClose _)) _ _ => False
  | _ => True

instance (state : GuardRun) (action : IpcAction) : Decidable (state.ClosesNone action) :=
  match action with
  | .call (.sync (.closeMutex _)) _ _ | .call (.sync (.semClose _)) _ _ =>
      inferInstanceAs (Decidable False)
  | .call (.sync (.lockMutex _)) _ _ | .call (.sync (.freeMutex _)) _ _
  | .call (.sync (.getMutex _)) _ _ | .call (.sync (.semCreate _ _)) _ _
  | .call (.sync (.wait _)) _ _ | .call (.sync (.signal _)) _ _
  | .call (.createPipe _) _ _ | .call (.openPipe _) _ _ | .call (.closePipe _) _ _
  | .call (.write _ _) _ _ | .call (.read _ _) _ _ | .resume _ _ | .timerTick _
  | .createProcess _ _ | .removeProcess _ _ =>
      inferInstanceAs (Decidable True)

/-- A mutex, its holder and the name that it was got for. -/
def Holds (state : GuardRun) : Holder → Option String → Int → Prop
  | .handle n, name, i => state.handles[n]? = some (name, i)
  | .pipe n, name, i => state.pipeGuards[n]? = some (name, i)
  | .semaphore s, name, i =>
      Built state.ipc.kernel.semaphores state.ipc.pending s ∧
        (state.ipc.kernel.semaphores s).name = name ∧
        (state.ipc.kernel.semaphores s).mutex = i

/-- The invariant of these runs. -/
structure Guarded (state : GuardRun) : Prop where
  apart : MutexState.Apart state.ipc.kernel.mutexes state.Holds
  names : SemaphoreState.NamesUnique state.ipc.kernel.semaphores
  building : Building state.ipc.kernel.semaphores state.ipc.pending
  pipes : ∀ k p, state.ipc.kernel.pipes k = some p →
    ∃ name, (name, (state.ipc.kernel.pipe p).mutex) ∈ state.pipeGuards

/-- The invariant only reads the tables, the calls under way and what was returned. -/
theorem Guarded.congr {state next : GuardRun} (guarded : Guarded state)
    (same : IpcRun.SameTables state.ipc.kernel next.ipc.kernel)
    (pending : next.ipc.pending = state.ipc.pending) (handles : next.handles = state.handles)
    (pipeGuards : next.pipeGuards = state.pipeGuards) : Guarded next := by
  have holds : next.Holds = state.Holds := by
    funext h name i
    cases h <;> simp [Holds, same.semaphores, pending, handles, pipeGuards]
  refine ⟨?_, ?_, ?_, ?_⟩
  · rw [same.mutexes, holds]
    exact guarded.apart
  · rw [same.semaphores]
    exact guarded.names
  · rw [same.semaphores, pending]
    exact guarded.building
  · rw [same.pipes, same.pipe, pipeGuards]
    exact guarded.pipes

/-- The invariant holds at the start. -/
theorem Start.guarded {state : GuardRun} (start : Start state) : Guarded state := by
  obtain ⟨before, mutexes, semaphores⟩ := start.tables
  obtain ⟨-, unused, -, -⟩ := before.initializeTables_names
  have free : ∀ s : Int, 0 ≤ s → s < MAX_SEMAPHORES →
      ¬ (state.ipc.kernel.semaphores s).used = true := by
    intro s low high used
    rw [semaphores, unused s low high] at used
    cases used
  have nobody : ∀ h name i, ¬ state.Holds h name i := by
    intro h name i holds
    cases h with
    | handle n =>
        simp only [Holds, start.handles] at holds
        cases holds
    | pipe n =>
        simp only [Holds, start.pipeGuards] at holds
        cases holds
    | semaphore s =>
        obtain ⟨built, -, -⟩ := holds
        exact free s built.low built.high built.used
  have alone : ∀ pid name s, ¬ Builds (state.ipc.pending pid) name s := by
    rintro pid name s ⟨start', creator, stands⟩
    rw [start.pending] at stands
    cases stands
  refine ⟨⟨fun h name i holds => absurd holds (nobody h name i),
    fun h _ name _ i _ _ holds => absurd holds (nobody h name i)⟩, ?_,
    ⟨fun pid name s builds => absurd builds (alone pid name s),
      fun pid _ name _ s builds => absurd builds (alone pid name s)⟩, fun k p here => ?_⟩
  · intro s k name listed
    exact absurd listed.used (free s listed.low listed.high)
  · rw [start.pipes] at here
    cases here

/-- An entry of a list to which at most one is appended. -/
theorem appended_at {α : Type} {old extra : List α} {n : Nat} {x : α} (short : extra.length ≤ 1)
    (here : (old ++ extra)[n]? = some x) : old[n]? = some x ∨ n = old.length ∧ x ∈ extra := by
  rcases Nat.lt_or_ge n old.length with inside | outside
  · rw [List.getElem?_append_left inside] at here
    exact .inl here
  · rw [List.getElem?_append_right outside] at here
    obtain ⟨bound, -⟩ := List.getElem?_eq_some_iff.mp here
    exact .inr ⟨by omega, List.mem_of_getElem? here⟩

/-- The state after a part of a call, before the processor changes hands. -/
def settle (state : GuardRun) (action : IpcAction) (kernel : IpcState) (outcome : IpcOutcome) :
    GuardRun where
  ipc := state.ipc.settle kernel outcome
  handles := state.handles ++ state.ipc.obtained action
  pipeGuards := state.pipeGuards ++ state.ipc.stored action

/-- A step returns one handle at most. -/
theorem obtained_short (state : IpcRun) (action : IpcAction) :
    (state.obtained action).length ≤ 1 := by
  simp only [IpcRun.obtained]
  split
  · split <;> simp
  · simp

/-- A part on mutexes and semaphores stores no guard of a pipe. -/
theorem stored_sync {state : IpcRun} {action : IpcAction} {kernel : IpcState} {reached : Outcome}
    (performed : state.perform action = some (kernel, IpcRun.reaches reached)) :
    state.stored action = [] := by
  simp only [IpcRun.stored, performed]
  cases reached <;> rfl

/-- Where a process stands in `createSemaphore` after a part on mutexes and semaphores. -/
theorem builds_after (state : IpcRun) (reached : Outcome) (pid : Int) (name : Option String)
    (s : Int) :
    Builds (Function.update state.pending state.current
        (IpcRun.stands (IpcRun.reaches reached)) pid) name s ↔
      Builds (state.pending pid) name s ∧ pid ≠ state.current ∨
        pid = state.current ∧
          ∃ start creator, reached = .yielded (.createSemaphore name start creator s) := by
  by_cases here : pid = state.current
  · subst here
    rw [Function.update_self]
    cases reached <;> simp [Builds, IpcRun.reaches, IpcRun.stands]
  · simp [here]

/-- Who holds a mutex after a part on mutexes and semaphores held it before, or it is the
handle that was returned, or one of the semaphores that changed. -/
theorem holds_before {state : GuardRun} {action : IpcAction} {request : Request}
    {after : SyncState} {reached : Outcome} {changed : Int → Prop}
    (stored : state.ipc.stored action = [])
    (builds : ∀ name s, request = .createSemaphore name s ↔
      Builds (state.ipc.pending state.ipc.current) name s)
    (finished : ∀ name s, request = .createSemaphore name s → changed s)
    (same : ∀ s, ¬ changed s → (after.semaphores s).used = (state.ipc.kernel.semaphores s).used ∧
      (after.semaphores s).name = (state.ipc.kernel.semaphores s).name ∧
      (after.semaphores s).mutex = (state.ipc.kernel.semaphores s).mutex)
    {h : Holder} {name : Option String} {i : Int}
    (holds : (state.settle action (state.ipc.kernel.setSync after)
      (IpcRun.reaches reached)).Holds h name i) :
    state.Holds h name i ∨
      h = .handle state.handles.length ∧ (name, i) ∈ state.ipc.obtained action ∨
      ∃ s, changed s ∧ h = .semaphore s := by
  cases h with
  | handle n =>
      rcases appended_at (obtained_short state.ipc action) holds with old | ⟨rfl, listed⟩
      · exact .inl old
      · exact .inr (.inl ⟨rfl, listed⟩)
  | pipe n =>
      simp only [Holds, settle, stored, List.append_nil] at holds
      exact .inl holds
  | semaphore s =>
      by_cases touched : changed s
      · exact .inr (.inr ⟨s, touched, rfl⟩)
      · obtain ⟨built, named, guard⟩ := holds
        obtain ⟨used, sameName, sameGuard⟩ := same s touched
        refine .inl ⟨⟨built.low, built.high, used.symm.trans built.used,
          fun pid other building => ?_⟩, sameName.symm.trans named, sameGuard.symm.trans guard⟩
        refine built.stored pid other
          ((builds_after state.ipc reached pid other s).mpr (.inl ⟨building, ?_⟩))
        rintro rfl
        exact touched (finished other s ((builds other s).mpr building))

/-- A part of a call on mutexes and semaphores keeps the invariant. -/
theorem Guarded.sync {state : GuardRun} (guarded : Guarded state) {action : IpcAction}
    {request : Request} {after : SyncState} {reached : Outcome}
    (performed : state.ipc.perform action =
      some (state.ipc.kernel.setSync after, IpcRun.reaches reached))
    (part : state.ipc.syncOutcome action = some (request, reached))
    (effect : NameEffect state.ipc.kernel.sync after request reached)
    (builds : ∀ name s, request = .createSemaphore name s ↔
      Builds (state.ipc.pending state.ipc.current) name s)
    (mutexOpen : ∀ i, request ≠ .closeMutex i) (semOpen : ∀ s, request ≠ .semClose s) :
    Guarded (state.settle action (state.ipc.kernel.setSync after) (IpcRun.reaches reached)) := by
  have stored := stored_sync performed
  have before := @holds_before state action request after reached
  have stands := builds_after state.ipc reached
  have names := effect.semaphoreNames guarded.names
  have pipes : ∀ k p, state.ipc.kernel.pipes k = some p → ∃ name,
      (name, (state.ipc.kernel.pipe p).mutex) ∈ state.pipeGuards ++ state.ipc.stored action := by
    intro k p here
    obtain ⟨name, listed⟩ := guarded.pipes k p here
    exact ⟨name, List.mem_append_left _ listed⟩
  -- The handle that was returned, if one was.
  have returned : ∀ {name i}, (name, i) ∈ state.ipc.obtained action →
      request = .getMutex name ∧ reached = .returned (some i) := by
    intro name i listed
    simp only [IpcRun.obtained, part] at listed
    split at listed
    · rename_i other k same
      obtain ⟨rfl, rfl⟩ := Prod.mk.inj (Option.some.inj same)
      split at listed
      · cases listed
      · obtain ⟨rfl, rfl⟩ := Prod.mk.inj (List.mem_singleton.mp listed)
        exact ⟨rfl, rfl⟩
    · cases listed
  cases effect with
  | closedMutex => exact absurd rfl (mutexOpen _)
  | closedSemaphore => exact absurd rfl (semOpen _)
  | kept same slots plain =>
      have other : ∀ name s, request ≠ .createSemaphore name s := by
        rintro name s rfl
        exact plain.elim
      refine ⟨guarded.apart.keeps same fun h name i holds => ?_, names,
        guarded.building.keeps (fun s => ⟨(slots s).1, (slots s).2.1⟩) fun pid name s there => ?_,
        pipes⟩
      · rcases @before (fun _ => False) stored builds other (fun s _ => slots s) h name i holds with
          old | ⟨-, listed⟩ | ⟨_, none, -⟩
        · exact old
        · obtain ⟨rfl, rfl⟩ := returned listed
          exact plain.elim
        · exact none.elim
      · rcases (stands pid name s).mp there with ⟨old, -⟩ | ⟨-, start, creator, rfl⟩
        · exact old
        · cases request <;> exact plain.elim
  | @got name i gets slots =>
      refine ⟨guarded.apart.gets gets (.handle state.handles.length) fun h other k holds => ?_,
        names, guarded.building.keeps (fun s => ⟨(slots s).1, (slots s).2.1⟩)
          fun pid other s there => ?_, pipes⟩
      · rcases @before (fun _ => False) stored builds (by simp) (fun s _ => slots s) h other k
          holds with old | ⟨rfl, listed⟩ | ⟨_, none, -⟩
        · exact .inl old
        · obtain ⟨⟨⟩, ⟨⟩⟩ := returned listed
          exact .inr ⟨rfl, rfl, rfl⟩
        · exact none.elim
      · rcases (stands pid other s).mp there with ⟨old, -⟩ | ⟨-, start, creator, ⟨⟩⟩
        exact old
  | @took name start pid s missing same taken =>
      refine ⟨guarded.apart.keeps same fun h other k holds => ?_, names,
        guarded.building.taken taken state.ipc.current fun other word k there => ?_, pipes⟩
      · rcases @before (· = s) stored builds (by simp) (fun k other => taken.others k other) h
          other k holds with old | ⟨-, listed⟩ | ⟨_, rfl, rfl⟩
        · exact old
        · obtain ⟨⟨⟩, -⟩ := returned listed
        · obtain ⟨built, -, -⟩ := holds
          exact absurd ((stands _ name _).mpr (.inr ⟨rfl, start, pid, rfl⟩))
            (built.stored _ name)
      · rcases (stands other word k).mp there with ⟨old, -⟩ | ⟨rfl, _, _, ⟨⟩⟩
        · exact .inl old
        · exact .inr ⟨rfl, rfl, rfl⟩
  | @built name s i missing gets taken guard =>
      refine ⟨guarded.apart.gets gets (.semaphore s) fun h other k holds => ?_, names,
        guarded.building.taken taken state.ipc.current fun pid word k there => ?_, pipes⟩
      · rcases @before (· = s) stored builds (by simp) (fun k other => taken.others k other) h
          other k holds with old | ⟨-, listed⟩ | ⟨_, rfl, rfl⟩
        · exact .inl old
        · obtain ⟨⟨⟩, -⟩ := returned listed
        · obtain ⟨-, named, mutex⟩ := holds
          exact .inr ⟨rfl, named.symm.trans taken.named, mutex.symm.trans guard⟩
      · rcases (stands pid word k).mp there with ⟨old, -⟩ | ⟨-, _, _, ⟨⟩⟩
        exact .inl old
  | @finished name s i gets slot guard others =>
      have mine := guarded.building.slot state.ipc.current name s ((builds name s).mp rfl)
      refine ⟨guarded.apart.gets gets (.semaphore s) fun h other k holds => ?_, names,
        guarded.building.keeps (fun k => ?_) fun pid word k there => ?_, pipes⟩
      · rcases @before (· = s) stored builds (fun _ k same => by cases same; rfl)
          (fun k other => others k other) h other k holds with old | ⟨-, listed⟩ | ⟨_, rfl, rfl⟩
        · exact .inl old
        · obtain ⟨⟨⟩, -⟩ := returned listed
        · obtain ⟨-, named, mutex⟩ := holds
          exact .inr ⟨rfl, (named.symm.trans slot.2).trans mine.2.2.2, mutex.symm.trans guard⟩
      · by_cases here : k = s
        · subst here
          exact slot
        · exact ⟨(others k here).1, (others k here).2.1⟩
      · rcases (stands pid word k).mp there with ⟨old, -⟩ | ⟨-, _, _, ⟨⟩⟩
        exact old

/-- A step that closes nothing is no part of a close. -/
theorem ClosesNone.request {state : GuardRun} {action : IpcAction}
    (closes : state.ClosesNone action) {request : Request} {reached : Outcome}
    (part : state.ipc.syncOutcome action = some (request, reached)) :
    (∀ i, request ≠ .closeMutex i) ∧ ∀ s, request ≠ .semClose s := by
  cases action with
  | call call garbage next =>
      cases call with
      | sync call =>
          obtain ⟨rfl, -⟩ := Prod.mk.inj (Option.some.inj part)
          cases call with
          | closeMutex | semClose => exact closes.elim
          | lockMutex | freeMutex | getMutex | semCreate | wait | signal =>
              simp [SyncCall.request]
      | createPipe | openPipe | closePipe | write | read => cases part
  | resume garbage next =>
      simp only [IpcRun.syncOutcome] at part
      split at part
      · rename_i pending _
        obtain ⟨rfl, -⟩ := Prod.mk.inj (Option.some.inj part)
        cases pending <;> simp [Pending.request]
      · cases part
  | timerTick | createProcess | removeProcess => cases part

end GuardRun

/-! ## Waiting at a semaphore -/

namespace GuardRun

/-- After the boot sequence nothing has been got or created. -/
def booted : GuardRun where
  ipc := IpcRun.boot (IpcRun.ownerAt 0 10) (IpcRun.ownerAt 1 11)
  handles := []
  pipeGuards := []

/-- The state after boot is a start. -/
theorem booted_start : Start booted where
  tables := ⟨IpcRun.unset.sync, rfl, rfl⟩
  pending _ := rfl
  pipes _ := rfl
  handles := rfl
  pipeGuards := rfl

end GuardRun

end SistemasOperativos.Kernel
