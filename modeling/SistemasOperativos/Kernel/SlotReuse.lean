import SistemasOperativos.Kernel.ProcessRemoval

/-!
# Closing and reusing the slots of the tables

`closeMutex` and `semClose` only clear `used`, and `createMutex` and
`createSemaphore` set a few fields of the slot they take. What a closed object
left in its slot is therefore found by the next one. The slots that are not in
use are clean (`Tidy`) as long as only idle objects are closed, and no process is
recorded in a semaphore that is closed or still being created.
-/

namespace SistemasOperativos.Kernel

open SistemasOperativos.Semantics

namespace SyncRun

/-- A process stands in the `getMutex` of the `createSemaphore` of this slot. -/
def UnderConstruction (state : SyncRun) (s : Int) : Prop :=
  ∃ pid name start creator, state.pending pid = some (.createSemaphore name start creator s)

/-- A process that goes on in a `wait` on the semaphore gets recorded only when
the semaphore is in use and complete. -/
def RecordsInUse (state : SyncRun) (s : Int) : Prop :=
  toInt32 ((state.kernel.semaphores s).semaphore - 1) < 0 →
    (state.kernel.semaphores s).used = true ∧ ¬ state.UnderConstruction s

/-- The condition on a step: a mutex is closed when it is open, a semaphore when
nobody waits for it, and a `wait` records its caller in a complete semaphore. -/
def ClosesIdle (state : SyncRun) : SyncAction → Prop
  | .call (.closeMutex index) _ _ =>
      state.kernel.isValidMutex index = true →
        state.current = (state.kernel.mutexes index).pidCreator →
        (state.kernel.mutexes index).mutex = 0
  | .call (.semClose index) _ _ =>
      state.kernel.isValidSemaphore index = true →
        state.current = (state.kernel.semaphores index).pidCreator →
        (state.kernel.semaphores index).cardinalBlocked = 0 ∧
          (state.kernel.semaphores index).entries = []
  | .call (.wait s) _ _ => state.kernel.isValidSemaphore s = true → state.RecordsInUse s
  | .resume _ _ =>
      ∀ s, state.pending state.current = some (.waitLocked s) → state.RecordsInUse s
  | _ => True

/-- The invariant of the runs: what is not in use is clean. -/
structure Tidy (state : SyncRun) : Prop extends MutexesGuarded state where
  unused : ∀ m : Int, 0 ≤ m → m < MAX_MUTEXES → (state.kernel.mutexes m).used = false →
    (state.kernel.mutexes m).Clean
  semaphores : ∀ s : Int, 0 ≤ s → s < MAX_SEMAPHORES →
    (state.kernel.semaphores s).used = false ∨ state.UnderConstruction s →
    (state.kernel.semaphores s).cardinalBlocked = 0 ∧ (state.kernel.semaphores s).entries = []
  constructed : ∀ s, state.UnderConstruction s → 0 ≤ s ∧ s < MAX_SEMAPHORES

/-! ## The mutex table -/

/-- Every entry that is or was not in use is clean. -/
def CleanUnused (before state : MutexState) : Prop :=
  ∀ m : Int, 0 ≤ m → m < MAX_MUTEXES →
    (state.mutexes m).used = false ∨ (before.mutexes m).used = false → (state.mutexes m).Clean

/-- Until an entry is taken, those that were not in use still are not. -/
def NoneTaken (before state : MutexState) : Prop :=
  ∀ m : Int, 0 ≤ m → m < MAX_MUTEXES →
    (state.mutexes m).used = false ∨ (before.mutexes m).used = false →
      (state.mutexes m).used = false ∧ (state.mutexes m).Clean

/-- While no entry is taken, what was unused is clean. -/
theorem NoneTaken.cleanUnused {before state : MutexState} (none : NoneTaken before state) :
    CleanUnused before state :=
  fun m low high unused => (none m low high unused).2

/-- Writing an entry that is in use. -/
theorem NoneTaken.setMutex {before state : MutexState} (none : NoneTaken before state) {m : Int}
    {entry : Mutex} (valid : state.isValidMutex m = true) (used : entry.used = true) :
    NoneTaken before (state.setMutex m entry) := by
  intro other low high unused
  by_cases same : other = m
  · subst same
    rw [MutexState.setMutex_same, used] at unused
    have here := (none other low high (.inr (unused.resolve_left (by simp)))).1
    rw [MutexState.isValidMutex, here] at valid
    split at valid <;> cases valid
  · rw [MutexState.setMutex_ne same] at unused ⊢
    exact none other low high unused

/-- A valid entry is in use. -/
theorem used_of_isValidMutex {state : MutexState} {m : Int}
    (valid : state.isValidMutex m = true) : (state.mutexes m).used = true := by
  rw [MutexState.isValidMutex] at valid
  split at valid
  · cases valid
  · exact valid

/-- `_testAndSet` does not touch `used`. -/
theorem testAndSet_used (m : Mutex) : (testAndSet m).1.used = m.used := by
  unfold testAndSet
  split <;> rfl

/-- Locking and freeing touch entries in use only, and a new entry is a clean one. -/
theorem noneTaken_phased (before : MutexState) :
    SyncState.Phased (NoneTaken before) (CleanUnused before) where
  locked := NoneTaken.cleanUnused
  changeProcessState _ _ holds := holds
  lockMutex {state} m garbage _ holds := by
    cases valid : state.isValidMutex m with
    | false => simpa [MutexState.lockMutex, valid] using holds
    | true =>
        have used := used_of_isValidMutex valid
        have tested : NoneTaken before
            (state.setMutex m (testAndSet (state.mutexes m)).1) :=
          holds.setMutex valid (by rw [testAndSet_used, used])
        have stillUsed : ((state.setMutex m (testAndSet (state.mutexes m)).1).mutexes m).used =
            true := by
          rw [MutexState.setMutex_same, testAndSet_used, used]
        have stillValid : (state.setMutex m (testAndSet (state.mutexes m)).1).isValidMutex m =
            true := by
          rw [← valid]
          exact MutexState.isValidMutex_congr (by rw [stillUsed, used])
        simp only [MutexState.lockMutex, valid, Bool.true_eq_false, if_false]
        split
        · exact tested
        · split
          · exact tested
          · exact tested.setMutex stillValid stillUsed
  createMutex {state} mutexName holds := by
    intro m low high unused
    obtain ⟨waiters, flag, used⟩ := state.createMutex_entry mutexName m
    have wasUnused : (state.mutexes m).used = false ∨ (before.mutexes m).used = false := by
      rcases unused with after | earlier
      · left
        by_contra inUse
        rw [used (by simpa using inUse)] at after
        cases after
      · exact .inr earlier
    obtain ⟨-, unlocked, count, entries⟩ := holds m low high wasUnused
    refine ⟨by rw [flag, unlocked], by rw [waiters, count], ?_⟩
    rw [WaitQueue.entries, waiters]
    exact entries
  freeMutex {state} m _ holds := by
    intro other low high unused
    rw [MutexState.freeMutex_used] at unused
    have clean := holds other low high unused
    by_cases same : other = m
    · subst same
      cases valid : state.isValidMutex other with
      | false => simpa [MutexState.freeMutex, valid] using clean
      | true =>
          have nobody := clean.count
          rw [MutexState.freeMutex_opens valid (by omega), MutexState.setMutex_same]
          exact ⟨rfl, clean.count, clean.entries⟩
    · rwa [MutexState.freeMutex_ne same]

/-- Closing an open mutex leaves a clean slot. -/
theorem cleanUnused_closeMutex {state : MutexState}
    (guarded : ∀ m : Int, 0 ≤ m → m < MAX_MUTEXES → (state.mutexes m).Guarded)
    (clean : CleanUnused state state) {index : Int}
    (idle : state.isValidMutex index = true →
      state.processes.current = (state.mutexes index).pidCreator →
      (state.mutexes index).mutex = 0) : CleanUnused state (state.closeMutex index) := by
  simp only [MutexState.closeMutex]
  split
  · exact clean
  · rename_i valid
    split
    · rename_i creator
      intro m low high unused
      by_cases same : m = index
      · subst same
        have unlocked := idle (by simpa using valid) creator
        have here := guarded m low high
        rw [MutexState.setMutex_same]
        exact ⟨unlocked, here.nobody unlocked, here.entries_nil unlocked⟩
      · rw [MutexState.setMutex_ne same] at unused ⊢
        exact clean m low high unused
    · exact clean

/-- After a part of a call the slots not in use are clean, and so are those that
were not in use before it. -/
theorem Tidy.perform_clean {state : SyncRun} (tidy : Tidy state) {action : SyncAction}
    (closes : state.ClosesIdle action) {kernel : SyncState} {outcome : Outcome}
    (performed : state.perform action = some (kernel, outcome)) :
    CleanUnused state.kernel.toMutexState kernel.toMutexState := by
  have none : NoneTaken state.kernel.toMutexState state.kernel.toMutexState := by
    intro m low high unused
    have unused := unused.elim id id
    exact ⟨unused, tidy.unused m low high unused⟩
  refine perform_phased (noneTaken_phased _) tidy.guard ?_ none performed
  rintro index garbage next rfl -
  exact cleanUnused_closeMutex tidy.mutexes none.cleanUnused closes

/-! ## The semaphore table -/

/-- `waitLocked` changes the waiting processes only when it records its caller. -/
theorem waitLocked_waiters {state : SemaphoreState} {semaphore s : Int}
    (permits : s = semaphore → 0 ≤ toInt32 ((state.semaphores s).semaphore - 1)) :
    ((state.waitLocked semaphore).1.semaphores s).toWaitQueue =
      (state.semaphores s).toWaitQueue := by
  have counted : ∀ value, ((state.setSemaphore semaphore
      { state.semaphores semaphore with semaphore := value }).semaphores s).toWaitQueue =
        (state.semaphores s).toWaitQueue := fun _ => SyncState.setSemaphore_waiters rfl
  simp only [SemaphoreState.waitLocked, SemaphoreState.setSemaphore_same]
  by_cases same : s = semaphore
  · subst same
    rw [if_pos (permits rfl)]
    exact counted _
  · split
    · exact counted _
    · rw [SemaphoreState.addToSemBlocked, SemaphoreState.setSemaphore_ne same]
      exact counted _

/-- `wait` behind its lock takes no semaphore out of use. -/
theorem waitLocked_used (state : SemaphoreState) (semaphore s : Int) :
    ((state.waitLocked semaphore).1.semaphores s).used = (state.semaphores s).used := by
  simp only [SemaphoreState.waitLocked, SemaphoreState.addToSemBlocked]
  by_cases same : s = semaphore
  · subst same
    split <;> simp
  · split <;> simp [SemaphoreState.setSemaphore_ne same]

/-- What `wait` does to the semaphores is nothing, or what `waitLocked` does. -/
theorem wait_semaphores (state : SemaphoreState) (semaphore garbage : Int) :
    (state.wait semaphore garbage).1.semaphores = state.semaphores ∨
      state.isValidSemaphore semaphore = true ∧
        ∃ mutexes, (state.wait semaphore garbage).1.semaphores =
          (SemaphoreState.waitLocked ⟨mutexes, state.semaphores⟩ semaphore).1.semaphores := by
  simp only [SemaphoreState.wait]
  split
  · exact .inl rfl
  · rename_i valid
    split
    · exact .inl rfl
    · rename_i mutexes _
      refine .inr ⟨by simpa using valid, mutexes, ?_⟩
      split <;> rename_i done <;> rw [done]

/-- `signal` leaves the queues of semaphores that nobody waits for. -/
theorem signal_waiters {state : SemaphoreState} {semaphore s : Int}
    (nobody : s = semaphore → ¬ 0 < (state.semaphores s).cardinalBlocked) :
    ((state.signal semaphore).semaphores s).toWaitQueue = (state.semaphores s).toWaitQueue := by
  have raised : ∀ (woken : SemaphoreState) value, ((woken.setSemaphore semaphore
      { woken.semaphores semaphore with semaphore := value }).semaphores s).toWaitQueue =
        (woken.semaphores s).toWaitQueue := fun _ _ => SyncState.setSemaphore_waiters rfl
  simp only [SemaphoreState.signal]
  split
  · rfl
  · rw [raised]
    by_cases same : s = semaphore
    · subst same
      rw [if_neg (nobody rfl)]
    · split
      · simp [SemaphoreState.unblockProcessSemaphore, SemaphoreState.setSemaphore_ne same]
      · rfl

/-- `signal` takes no semaphore out of use. -/
theorem signal_used (state : SemaphoreState) (semaphore s : Int) :
    ((state.signal semaphore).semaphores s).used = (state.semaphores s).used := by
  simp only [SemaphoreState.signal, SemaphoreState.unblockProcessSemaphore]
  by_cases same : s = semaphore
  · subst same
    split
    · rfl
    · split <;> simp
  · split
    · rfl
    · split <;> simp [SemaphoreState.setSemaphore_ne same]

/-- What `createSemaphore` does to the slots: it takes one that is not in use and
marks it, or it does nothing. -/
theorem createSemaphore_takes (state : SemaphoreState) (semName : Option String)
    (start garbage : Int) :
    (state.createSemaphore semName start garbage = (state, some ERROR)) ∨
    ((state.semaphores state.getFreePositionSemaphores).used = false ∧
      0 ≤ state.getFreePositionSemaphores ∧ state.getFreePositionSemaphores < MAX_SEMAPHORES ∧
      (∀ s, ((state.createSemaphore semName start garbage).1.semaphores s).used = false →
        (state.semaphores s).used = false) ∧
      ∀ s, (state.createSemaphore semName start garbage).2 = some s →
        s = state.getFreePositionSemaphores ∧
          ((state.createSemaphore semName start garbage).1.semaphores s).semaphore = start) := by
  by_cases space : state.getFreePositionSemaphores = NO_SPACE_LEFT_M
  · left
    simp [SemaphoreState.createSemaphore, space]
  · right
    obtain ⟨low, high⟩ := (SemaphoreState.getFreePositionSemaphores_spec state).resolve_left space
    refine ⟨SemaphoreState.getFreePositionSemaphores_unused space, low, high, fun s unused => ?_,
      fun s returned => ?_⟩
    · by_cases same : s = state.getFreePositionSemaphores
      · rw [same]
        exact SemaphoreState.getFreePositionSemaphores_unused space
      · simp only [SemaphoreState.createSemaphore, if_neg space] at unused
        split at unused
        · rwa [SemaphoreState.setSemaphore_ne same] at unused
        · rwa [SemaphoreState.createSemaphoreLocked, SemaphoreState.setSemaphore_ne same,
            SemaphoreState.setSemaphore_ne same] at unused
    · simp only [SemaphoreState.createSemaphore, if_neg space] at returned ⊢
      split at returned
      · cases returned
      · rename_i result
        obtain rfl := Option.some.inj returned
        simp [SemaphoreState.createSemaphoreLocked]

/-- The start value of the `semCreate` that the action enters or goes on with. -/
def semCreateStart (state : SyncRun) : SyncAction → Option Int
  | .call (.semCreate _ start) _ _ => some start
  | .resume _ _ =>
      match state.pending state.current with
      | some (.semCreate _ start) => some start
      | some (.createSemaphore _ start _ _) => some start
      | _ => none
  | _ => none

/-- What `semCreateLocked` does to the slots: it may take one, which is the slot
it stays with when it has to wait and the one it returns otherwise. -/
structure TakesSlot (semaphores : Int → Semaphore) (start : Int)
    (result : SyncState × Outcome) : Prop where
  used : ∀ s, (result.1.semaphores s).used = false → (semaphores s).used = false
  yields : ∀ name value creator s, result.2 = .yielded (.createSemaphore name value creator s) →
    (semaphores s).used = false ∧ 0 ≤ s ∧ s < MAX_SEMAPHORES
  returns : ∀ s, result.2 = .returned (some s) → 0 ≤ s →
    (semaphores s).used = false ∧ s < MAX_SEMAPHORES ∧
      (result.1.semaphores s).semaphore = start

/-- What `semCreate` does to the slots behind its lock. -/
theorem semCreateLocked_takesSlot (state : SyncState) (name : Option String)
    (start garbage : Int) :
    TakesSlot state.semaphores start (state.semCreateLocked name start garbage) := by
  simp only [SyncState.semCreateLocked]
  split
  · refine ⟨fun _ => id, by simp, fun s returned handle => ?_⟩
    obtain rfl := Option.some.inj (Outcome.returned.inj returned)
    simp [ERROR] at handle
  · rcases createSemaphore_takes state.toSemaphoreState name start garbage with
      refused | ⟨unused, low, high, used, created⟩
    · rw [refused]
      refine ⟨fun _ => id, by simp [SyncState.semCreateReturn], fun s returned handle => ?_⟩
      obtain rfl := Option.some.inj (Outcome.returned.inj returned)
      simp [ERROR] at handle
    · split
      · rename_i semaphores index result
        rw [result] at used created
        obtain ⟨same, value⟩ := created index rfl
        refine ⟨used, by simp [SyncState.semCreateReturn], fun s returned _ => ?_⟩
        obtain rfl := Option.some.inj (Outcome.returned.inj returned)
        subst same
        exact ⟨unused, high, value⟩
      · rename_i semaphores result
        rw [result] at used
        refine ⟨used, fun _ _ _ s yielded => ?_, by simp⟩
        obtain ⟨-, -, -, rfl⟩ := Pending.createSemaphore.inj (Outcome.yielded.inj yielded)
        exact ⟨unused, low, high⟩

/-- A part of a call keeps a slot in use, unless its creator closes it. -/
theorem perform_used {state : SyncRun} {action : SyncAction} {kernel : SyncState}
    {outcome : Outcome} (performed : state.perform action = some (kernel, outcome)) {s : Int}
    (unused : (kernel.semaphores s).used = false) :
    (state.kernel.semaphores s).used = false ∨
      ∃ garbage next, action = .call (.semClose s) garbage next ∧
        state.kernel.isValidSemaphore s = true ∧
        state.current = (state.kernel.semaphores s).pidCreator := by
  rcases perform_eq_some.mp performed with
    ⟨call, garbage, next, rfl, -, -, result⟩ | ⟨pending, garbage, next, rfl, -, -, result⟩
  · cases call with
    | lockMutex | getMutex =>
        simp only [SyncState.enter] at result
        split at result <;> obtain ⟨rfl, -⟩ := Prod.mk.inj result <;> exact .inl unused
    | freeMutex | closeMutex =>
        obtain ⟨rfl, -⟩ := Prod.mk.inj result
        exact .inl unused
    | semCreate name start =>
        simp only [SyncState.enter, SyncState.semCreate] at result
        split at result
        · rename_i mutexes _
          have takes := semCreateLocked_takesSlot { state.kernel with toMutexState := mutexes }
            name start garbage
          rw [result] at takes
          exact .inl (takes.used s unused)
        · obtain ⟨rfl, -⟩ := Prod.mk.inj result
          exact .inl unused
    | wait semaphore =>
        left
        have same : kernel.semaphores =
            (state.kernel.wait semaphore garbage).1.semaphores := by
          simp only [SyncState.enter] at result
          split at result <;> rename_i waited <;> obtain ⟨rfl, -⟩ := Prod.mk.inj result <;>
            rw [waited]
        rcases wait_semaphores state.kernel.toSemaphoreState semaphore garbage with
          kept | ⟨-, mutexes, moved⟩
        · rwa [same, kept] at unused
        · rwa [same, moved, waitLocked_used] at unused
    | signal semaphore =>
        obtain ⟨rfl, -⟩ := Prod.mk.inj result
        rw [← signal_used state.kernel.toSemaphoreState semaphore]
        exact .inl unused
    | semClose index =>
        obtain ⟨rfl, -⟩ := Prod.mk.inj result
        simp only [SemaphoreState.semClose] at unused
        split at unused
        · exact .inl unused
        · rename_i valid
          split at unused
          · rename_i creator
            by_cases same : s = index
            · subst same
              exact .inr ⟨garbage, next, rfl, by simpa using valid, creator⟩
            · rw [SemaphoreState.setSemaphore_ne same] at unused
              exact .inl unused
          · exact .inl unused
  · left
    cases pending with
    | lockMutex | getMutex | wait =>
        obtain ⟨rfl, -⟩ := Prod.mk.inj result
        exact unused
    | semCreate name start =>
        have takes := semCreateLocked_takesSlot state.kernel name start garbage
        rw [SyncState.resume] at result
        rw [result] at takes
        exact takes.used s unused
    | createSemaphore name start pid index =>
        obtain ⟨rfl, -⟩ := Prod.mk.inj result
        by_cases same : s = index
        · subst same
          simpa [SemaphoreState.createSemaphoreLocked] using unused
        · simpa [SemaphoreState.createSemaphoreLocked, SemaphoreState.setSemaphore_ne same]
            using unused
    | waitLocked semaphore =>
        have same : kernel.semaphores =
            (state.kernel.toSemaphoreState.waitLocked semaphore).1.semaphores := by
          simp only [SyncState.resume] at result
          split at result <;> rename_i waited <;> obtain ⟨rfl, -⟩ := Prod.mk.inj result <;>
            rw [waited]
        rwa [same, waitLocked_used] at unused

/-- A slot that is not in use, or under construction, and for which nobody waits
keeps its waiting processes in a part of a call. -/
theorem perform_waiters {state : SyncRun} {action : SyncAction} {kernel : SyncState}
    {outcome : Outcome} (performed : state.perform action = some (kernel, outcome))
    (closes : state.ClosesIdle action) {s : Int}
    (free : (state.kernel.semaphores s).used = false ∨ state.UnderConstruction s)
    (nobody : (state.kernel.semaphores s).cardinalBlocked = 0) :
    (kernel.semaphores s).toWaitQueue = (state.kernel.semaphores s).toWaitQueue := by
  have permits : state.RecordsInUse s →
      0 ≤ toInt32 ((state.kernel.semaphores s).semaphore - 1) := by
    intro records
    by_contra negative
    obtain ⟨used, complete⟩ := records (by omega)
    rcases free with unused | construction
    · rw [unused] at used
      cases used
    · exact complete construction
  rcases perform_eq_some.mp performed with
    ⟨call, garbage, next, rfl, -, -, result⟩ | ⟨pending, garbage, next, rfl, stands, -, result⟩
  · cases call with
    | lockMutex | getMutex =>
        simp only [SyncState.enter] at result
        split at result <;> obtain ⟨rfl, -⟩ := Prod.mk.inj result <;> rfl
    | freeMutex | closeMutex =>
        obtain ⟨rfl, -⟩ := Prod.mk.inj result
        rfl
    | semCreate name start =>
        simp only [SyncState.enter, SyncState.semCreate] at result
        split at result
        · rename_i mutexes _
          have kept := SyncState.semCreateLocked_waiters
            { state.kernel with toMutexState := mutexes } name start garbage s
          rwa [result] at kept
        · obtain ⟨rfl, -⟩ := Prod.mk.inj result
          rfl
    | wait semaphore =>
        have same : kernel.semaphores =
            (state.kernel.wait semaphore garbage).1.semaphores := by
          simp only [SyncState.enter] at result
          split at result <;> rename_i waited <;> obtain ⟨rfl, -⟩ := Prod.mk.inj result <;>
            rw [waited]
        rw [same]
        rcases wait_semaphores state.kernel.toSemaphoreState semaphore garbage with
          kept | ⟨valid, mutexes, moved⟩
        · rw [kept]
        · rw [moved]
          refine waitLocked_waiters fun here => ?_
          subst here
          exact permits (closes valid)
    | signal semaphore =>
        obtain ⟨rfl, -⟩ := Prod.mk.inj result
        exact signal_waiters fun _ => by omega
    | semClose index =>
        obtain ⟨rfl, -⟩ := Prod.mk.inj result
        exact SyncState.semClose_waiters _ _ _
  · cases pending with
    | lockMutex | getMutex | wait =>
        obtain ⟨rfl, -⟩ := Prod.mk.inj result
        rfl
    | semCreate name start =>
        have kept := SyncState.semCreateLocked_waiters state.kernel name start garbage s
        rw [SyncState.resume] at result
        rwa [result] at kept
    | createSemaphore name start pid index =>
        obtain ⟨rfl, -⟩ := Prod.mk.inj result
        exact SyncState.createSemaphoreLocked_waiters _ _ _ _ _ _
    | waitLocked semaphore =>
        have same : kernel.semaphores =
            (state.kernel.toSemaphoreState.waitLocked semaphore).1.semaphores := by
          simp only [SyncState.resume] at result
          split at result <;> rename_i waited <;> obtain ⟨rfl, -⟩ := Prod.mk.inj result <;>
            rw [waited]
        rw [same]
        refine waitLocked_waiters fun here => ?_
        subst here
        exact permits (closes s stands)

/-- The slot of a `createSemaphore` that has to wait was not in use. -/
theorem perform_constructs {state : SyncRun} {action : SyncAction} {kernel : SyncState}
    {name : Option String} {start creator s : Int}
    (performed : state.perform action =
      some (kernel, .yielded (.createSemaphore name start creator s))) :
    (state.kernel.semaphores s).used = false ∧ 0 ≤ s ∧ s < MAX_SEMAPHORES := by
  rcases perform_eq_some.mp performed with
    ⟨call, garbage, next, rfl, -, -, result⟩ | ⟨pending, garbage, next, rfl, stands, -, result⟩
  · cases call with
    | lockMutex | getMutex | wait =>
        simp only [SyncState.enter] at result
        split at result <;> simp at result
    | freeMutex | closeMutex | signal | semClose =>
        simp [SyncState.enter] at result
    | semCreate name' value =>
        simp only [SyncState.enter, SyncState.semCreate] at result
        split at result
        · rename_i mutexes _
          have takes := semCreateLocked_takesSlot { state.kernel with toMutexState := mutexes }
            name' value garbage
          rw [result] at takes
          exact takes.yields name start creator s rfl
        · simp at result
  · cases pending with
    | lockMutex | getMutex | wait | createSemaphore =>
        simp [SyncState.resume, SyncState.semCreateReturn] at result
    | semCreate name' value =>
        have takes := semCreateLocked_takesSlot state.kernel name' value garbage
        rw [SyncState.resume] at result
        rw [result] at takes
        exact takes.yields name start creator s rfl
    | waitLocked semaphore =>
        simp only [SyncState.resume] at result
        split at result <;> simp at result

/-- The slot that `semCreate` returns was not in use, or the process that returns
was constructing it, and the semaphore has the start value. -/
theorem perform_creates {state : SyncRun} {action : SyncAction} {kernel : SyncState}
    {start s : Int} (creates : state.semCreateStart action = some start) (handle : 0 ≤ s)
    (performed : state.perform action = some (kernel, .returned (some s))) :
    (kernel.semaphores s).semaphore = start ∧
      (((state.kernel.semaphores s).used = false ∧ s < MAX_SEMAPHORES) ∨
        state.UnderConstruction s) := by
  rcases perform_eq_some.mp performed with
    ⟨call, garbage, next, rfl, -, -, result⟩ | ⟨pending, garbage, next, rfl, stands, -, result⟩
  · cases call with
    | semCreate name value =>
        obtain rfl := Option.some.inj creates
        simp only [SyncState.enter, SyncState.semCreate] at result
        split at result
        · rename_i mutexes _
          have takes := semCreateLocked_takesSlot { state.kernel with toMutexState := mutexes }
            name value garbage
          rw [result] at takes
          obtain ⟨unused, high, value⟩ := takes.returns s rfl handle
          exact ⟨value, .inl ⟨unused, high⟩⟩
        · simp at result
    | lockMutex | getMutex | wait | freeMutex | closeMutex | signal | semClose => cases creates
  · simp only [semCreateStart, stands] at creates
    cases pending with
    | lockMutex | getMutex | wait | waitLocked => cases creates
    | semCreate name value =>
        obtain rfl := Option.some.inj creates
        have takes := semCreateLocked_takesSlot state.kernel name value garbage
        rw [SyncState.resume] at result
        rw [result] at takes
        obtain ⟨unused, high, value⟩ := takes.returns s rfl handle
        exact ⟨value, .inl ⟨unused, high⟩⟩
    | createSemaphore name value creator index =>
        obtain rfl := Option.some.inj creates
        obtain ⟨rfl, returned⟩ := Prod.mk.inj result
        obtain rfl := Option.some.inj (Outcome.returned.inj returned)
        exact ⟨by simp [SemaphoreState.createSemaphoreLocked],
          .inr ⟨state.current, name, value, creator, stands⟩⟩

/-! ## The steps -/

/-- A step that closes idle entries only keeps the invariant. -/
theorem tidy_step (state : SyncRun) (action : SyncAction) (next : SyncRun) (tidy : Tidy state)
    (closes : state.ClosesIdle action) (stepped : state.step action = some next) :
    Tidy next := by
  have guarded := mutexesGuarded_step state action next tidy.toMutexesGuarded stepped
  rcases step_eq_some stepped with
    ⟨kernel, outcome, pending, processes, performed, -, rfl, stands⟩ | ⟨processes, rfl, -, -⟩
  · have clean := tidy.perform_clean closes performed
    have construction : ∀ s, ((state.settle kernel pending).setProcesses
        processes).UnderConstruction s → state.UnderConstruction s ∨
          (state.kernel.semaphores s).used = false ∧ 0 ≤ s ∧ s < MAX_SEMAPHORES := by
      rintro s ⟨pid, name, start, creator, here⟩
      by_cases same : pid = state.current
      · subst same
        simp only [setProcesses_pending, settle, Function.update_self] at here
        rw [(stands _).mp here] at performed
        exact .inr (perform_constructs performed)
      · simp only [setProcesses_pending, settle, Function.update_of_ne same] at here
        exact .inl ⟨pid, name, start, creator, here⟩
    refine ⟨guarded, fun m low high unused => clean m low high (.inl unused),
      fun s low high free => ?_, fun s here => ?_⟩
    · have kept : (kernel.semaphores s).toWaitQueue = (state.kernel.semaphores s).toWaitQueue →
          (state.kernel.semaphores s).cardinalBlocked = 0 ∧
            (state.kernel.semaphores s).entries = [] →
          (kernel.semaphores s).cardinalBlocked = 0 ∧ (kernel.semaphores s).entries = [] := by
        rintro same ⟨count, entries⟩
        rw [WaitQueue.entries, same]
        exact ⟨count, entries⟩
      have before : (state.kernel.semaphores s).used = false ∨ state.UnderConstruction s →
          (kernel.semaphores s).cardinalBlocked = 0 ∧ (kernel.semaphores s).entries = [] := by
        intro free
        have nobody := tidy.semaphores s low high free
        exact kept (perform_waiters performed closes free nobody.1) nobody
      rcases free with unused | here
      · rcases perform_used performed unused with earlier | ⟨garbage, next, rfl, valid, creator⟩
        · exact before (.inl earlier)
        · have nobody := closes valid creator
          rcases perform_eq_some.mp performed with
            ⟨call, _, _, same, -, -, result⟩ | ⟨_, _, _, same, -⟩
          · obtain ⟨rfl, -, -⟩ := SyncAction.call.inj same
            obtain ⟨rfl, -⟩ := Prod.mk.inj result
            exact kept (SyncState.semClose_waiters _ _ _) nobody
          · cases same
      · rcases construction s here with earlier | ⟨unused, -⟩
        · exact before (.inr earlier)
        · exact before (.inl unused)
    · rcases construction s here with earlier | ⟨-, low, high⟩
      · exact tidy.constructed s earlier
      · exact ⟨low, high⟩
  · exact ⟨guarded, tidy.unused, tidy.semaphores, tidy.constructed⟩

/-- The invariant holds at the start. -/
theorem Start.tidy {state : SyncRun} (start : Start state) : Tidy state := by
  have guarded := start.attended.toMutexesGuarded
  obtain ⟨before, mutexes, semaphores, -⟩ := start.initialized
  have initialized := before.initializeTables_initialized
  refine ⟨guarded, fun m low high _ => ?_, fun s low high _ => ?_, ?_⟩
  · rw [mutexes]
    exact initialized.mutexes m low high
  · rw [semaphores]
    exact initialized.semaphores s low high
  · rintro s ⟨pid, name, value, creator, stands⟩
    rw [start.pending] at stands
    cases stands

/-- What holds when closing leaves nothing behind: nobody waits in a mutex slot
that is not in use, and in every part of a call the mutexes that come into use and
the semaphore that `semCreate` returns are as new. -/
structure ReusesClean (state : SyncRun) : Prop where
  unused : ∀ m : Int, 0 ≤ m → m < MAX_MUTEXES → (state.kernel.mutexes m).used = false →
    (state.kernel.mutexes m).entries = []
  mutexes : ∀ action kernel outcome, state.perform action = some (kernel, outcome) →
    state.ClosesIdle action → ∀ m : Int, 0 ≤ m → m < MAX_MUTEXES →
    (state.kernel.mutexes m).used = false → (kernel.mutexes m).used = true →
    (kernel.mutexes m).mutex = 0 ∧ (kernel.mutexes m).cardinalBlocked = 0 ∧
      (kernel.mutexes m).entries = []
  semaphores : ∀ action kernel start s, state.semCreateStart action = some start →
    state.perform action = some (kernel, .returned (some s)) → state.ClosesIdle action → 0 ≤ s →
    (kernel.semaphores s).semaphore = start ∧ (kernel.semaphores s).cardinalBlocked = 0 ∧
      (kernel.semaphores s).entries = []

/-- In a state of the invariant what comes into use is clean. -/
theorem Tidy.reusesClean {state : SyncRun} (tidy : Tidy state) : ReusesClean state where
  unused m low high unused := (tidy.unused m low high unused).entries
  mutexes action kernel outcome performed closes m low high unused _ := by
    obtain ⟨unlocked, count, entries⟩ :=
      tidy.perform_clean closes performed m low high (.inr unused)
    exact ⟨unlocked, count, entries⟩
  semaphores action kernel start s creates performed closes handle := by
    obtain ⟨value, free⟩ := perform_creates creates handle performed
    have high : s < MAX_SEMAPHORES := by
      rcases free with ⟨-, high⟩ | here
      · exact high
      · exact (tidy.constructed s here).2
    have free : (state.kernel.semaphores s).used = false ∨ state.UnderConstruction s :=
      free.imp_left And.left
    obtain ⟨count, entries⟩ := tidy.semaphores s handle high free
    have same := perform_waiters performed closes free count
    refine ⟨value, by rw [same, count], ?_⟩
    rw [WaitQueue.entries, same]
    exact entries

/-- In every run that closes only open mutexes and semaphores nobody waits for,
and records processes only in complete semaphores in use, closing strands nobody
and no slot is reused dirty. -/
theorem slots_reused_clean (start : SyncRun) (begins : Start start) (actions : List SyncAction)
    (final : SyncRun) (closes : Along step ClosesIdle start actions)
    (ran : run step start actions = some final) : ReusesClean final := by
  have tidy : Tidy final := closes.invariant tidy_step begins.tidy ran
  exact tidy.reusesClean

/-- A condition that can be checked and excludes every `wait`. -/
def ClosesIdleWithoutWait (state : SyncRun) : SyncAction → Prop
  | .call (.closeMutex index) _ _ => (state.kernel.mutexes index).mutex = 0
  | .call (.semClose index) _ _ =>
      (state.kernel.semaphores index).cardinalBlocked = 0 ∧
        (state.kernel.semaphores index).entries = []
  | .call (.wait _) _ _ | .resume _ _ => False
  | _ => True

instance (state : SyncRun) (action : SyncAction) :
    Decidable (state.ClosesIdleWithoutWait action) :=
  match action with
  | .call (.closeMutex _) _ _ => inferInstanceAs (Decidable (_ = _))
  | .call (.semClose _) _ _ => inferInstanceAs (Decidable (_ ∧ _))
  | .call (.wait _) _ _ | .resume _ _ => inferInstanceAs (Decidable False)
  | .call (.lockMutex _) _ _ | .call (.freeMutex _) _ _ | .call (.getMutex _) _ _
  | .call (.semCreate _ _) _ _ | .call (.signal _) _ _ | .timerTick _ | .createProcess _
  | .removeProcess _ _ => inferInstanceAs (Decidable True)

/-- The condition is stronger than the one of the runs. -/
theorem ClosesIdleWithoutWait.closesIdle (state : SyncRun) (action : SyncAction)
    (closes : state.ClosesIdleWithoutWait action) : state.ClosesIdle action := by
  cases action with
  | call call garbage next =>
      cases call with
      | closeMutex index => exact fun _ _ => closes
      | semClose index => exact fun _ _ => closes
      | wait semaphore => exact absurd closes id
      | lockMutex | freeMutex | getMutex | semCreate | signal => trivial
  | resume garbage next => exact absurd closes id
  | timerTick | createProcess | removeProcess => trivial

/-- A mutex and a semaphore are used and closed. -/
def closedIdle : List SyncAction :=
  [.call (.getMutex (some "m")) 0 0, .call (.lockMutex 2) 0 0, .call (.freeMutex 2) 0 0,
    .call (.closeMutex 2) 0 0, .call (.semCreate (some "s") 1) 0 0, .call (.semClose 0) 0 0]

/-- The slot of a semaphore that was closed idle is taken again, as new. -/
theorem slots_reused_clean_idle : ∃ final kernel,
    run step (booted 2) closedIdle = some final ∧
      final.perform (.call (.semCreate (some "t") 5) 0 0) = some (kernel, .returned (some 0)) ∧
      (kernel.semaphores 0).semaphore = 5 ∧ (kernel.semaphores 0).cardinalBlocked = 0 ∧
      (kernel.semaphores 0).entries = [] := by
  have finishes : ((run step (booted 2) closedIdle).bind fun final =>
      final.perform (.call (.semCreate (some "t") 5) 0 0)).map Prod.snd =
      some (.returned (some 0)) := by
    decide +kernel
  have along : Along step ClosesIdleWithoutWait (booted 2) closedIdle := by
    decide +kernel
  obtain ⟨⟨kernel, outcome⟩, reached, rfl⟩ := Option.map_eq_some_iff.mp finishes
  obtain ⟨final, ran, performed⟩ := Option.bind_eq_some_iff.mp reached
  have clean := slots_reused_clean _ (booted_start (by omega)) _ final
    (along.mono ClosesIdleWithoutWait.closesIdle) ran
  exact ⟨final, kernel, ran, performed,
    clean.semaphores _ kernel 5 0 rfl performed trivial (by omega)⟩

/-- Process `0` closes a mutex that it holds and process `1` waits for. -/
def closedWithWaiter : List SyncAction :=
  [.call (.getMutex (some "m")) 0 0, .call (.lockMutex 2) 0 0, .timerTick 1,
    .call (.lockMutex 2) 0 0, .call (.closeMutex 2) 0 0]

/-- Process `0` closes a semaphore that process `1` waits for. -/
def semaphoreClosedWithWaiter : List SyncAction :=
  [.call (.semCreate (some "s") 0) 0 0, .timerTick 1, .call (.wait 0) 0 0,
    .call (.semClose 0) 0 0]

/-- The waiting process stays in the closed mutex, and the mutex that takes the
slot is locked with that process recorded in it; the semaphore that takes the slot
of a closed one has its waiting process. -/
theorem closing_strands : Start (booted 2) ∧
    (∃ final, run step (booted 2) closedWithWaiter = some final ∧
      (final.kernel.mutexes 2).used = false ∧ (final.kernel.mutexes 2).entries = [1] ∧
      ∃ kernel, final.perform (.call (.getMutex (some "n")) 0 0) =
          some (kernel, .returned (some 2)) ∧
        (kernel.mutexes 2).mutex = 1 ∧ (kernel.mutexes 2).entries = [1]) ∧
    ∃ final kernel, run step (booted 2) semaphoreClosedWithWaiter = some final ∧
      final.perform (.call (.semCreate (some "t") 5) 0 0) = some (kernel, .returned (some 0)) ∧
      (kernel.semaphores 0).cardinalBlocked = 1 ∧ (kernel.semaphores 0).entries = [1] := by
  have stranded : (run step (booted 2) closedWithWaiter).map (fun final =>
      ((final.kernel.mutexes 2).used, (final.kernel.mutexes 2).entries,
        (final.perform (.call (.getMutex (some "n")) 0 0)).map fun (kernel, outcome) =>
          (outcome, (kernel.mutexes 2).mutex, (kernel.mutexes 2).entries))) =
      some (false, [1], some (.returned (some 2), 1, [1])) := by
    decide +kernel
  have dirty : ((run step (booted 2) semaphoreClosedWithWaiter).bind fun final =>
      final.perform (.call (.semCreate (some "t") 5) 0 0)).map (fun (kernel, outcome) =>
        (outcome, (kernel.semaphores 0).cardinalBlocked, (kernel.semaphores 0).entries)) =
      some (.returned (some 0), 1, [1]) := by
    decide +kernel
  refine ⟨booted_start (by omega), ?_, ?_⟩
  · obtain ⟨final, ran, result⟩ := Option.map_eq_some_iff.mp stranded
    simp only [Prod.mk.injEq] at result
    obtain ⟨unused, entries, taken⟩ := result
    obtain ⟨⟨kernel, outcome⟩, performed, result⟩ := Option.map_eq_some_iff.mp taken
    simp only [Prod.mk.injEq] at result
    obtain ⟨rfl, locked, recorded⟩ := result
    exact ⟨final, ran, unused, entries, kernel, performed, locked, recorded⟩
  · obtain ⟨⟨kernel, outcome⟩, reached, result⟩ := Option.map_eq_some_iff.mp dirty
    obtain ⟨final, ran, performed⟩ := Option.bind_eq_some_iff.mp reached
    simp only [Prod.mk.injEq] at result
    obtain ⟨rfl, count, recorded⟩ := result
    exact ⟨final, kernel, ran, performed, count, recorded⟩

end SyncRun

end SistemasOperativos.Kernel
