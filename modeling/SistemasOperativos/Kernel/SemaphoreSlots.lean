import SistemasOperativos.Kernel.Handles

/-!
# The mutex entries that semaphores use

`semCreate` takes the guard of its semaphore from the table of mutexes, and `semClose`
gives no entry back: a semaphore that is created under a new name and closed leaves one
more mutex in use (`round_leaks_a_mutex`). A name that `getMutex` had already entered is
found again, and then creating and closing conserve the entries (`slots_conserved`).

`own` is not part of the kernel: it keeps the semaphores whose guard was entered by their
own `semCreate`.
-/

namespace SistemasOperativos.Kernel

open SistemasOperativos.Semantics

open SistemasOperativos.Foundation (countP_range_insert)

/-- The number of mutexes in use. -/
def usedMutexes (mutexes : Int → Mutex) : Nat :=
  (List.range MAX_MUTEXES).countP fun (i : Nat) => (mutexes i).used

/-- While the names stay, as many mutexes are in use. -/
theorem usedMutexes_same {before after : Int → Mutex}
    (same : MutexState.SameNames before after) : usedMutexes after = usedMutexes before := by
  apply List.countP_congr
  intro i _
  rw [(same i).1]

/-- A mutex that is created is one more in use. -/
theorem usedMutexes_created {before after : Int → Mutex} {name : Option String} {i : Int}
    (created : MutexState.Created before after name i) :
    usedMutexes after = usedMutexes before + 1 := by
  have low := created.low
  have high := created.high
  have here : ((i.toNat : Nat) : Int) = i := Int.toNat_of_nonneg low
  refine @countP_range_insert _ _ i.toNat _ (by omega) ?_ ?_ fun k other => ?_
  · rw [here]
    exact created.free
  · rw [here]
    exact created.used
  · exact (created.others k (by omega)).1

/-- The kernel, and the semaphores whose guard their `semCreate` entered. -/
structure SlotRun where
  sync : SyncRun
  own : Int → Bool

namespace SlotRun

/-- The number of semaphores in `own`. -/
def ownGuards (own : Int → Bool) : Nat :=
  (List.range MAX_SEMAPHORES).countP fun (s : Nat) => own s

/-- A `semCreate` that returns a semaphore entered the guard if its name was not in use. -/
def ownAfter (state : SlotRun) (action : SyncAction) : Int → Bool :=
  match state.sync.request action, state.sync.returnedHandle action with
  | .semCreate name, some s =>
      Function.update state.own s (decide (state.sync.kernel.getIndex name = MUTEX_NOT_FOUND))
  | _, _ => state.own

def step (state : SlotRun) (action : SyncAction) : Option SlotRun :=
  (state.sync.step action).map fun sync => { sync, own := state.ownAfter action }

/-- The guard of a semaphore in use is a mutex in use, and not the one of the mutex table. -/
def GuardsValid (kernel : SyncState) : Prop :=
  ∀ s : Int, 0 ≤ s → s < MAX_SEMAPHORES → (kernel.semaphores s).used = true →
    0 ≤ (kernel.semaphores s).mutex ∧ (kernel.semaphores s).mutex < MAX_MUTEXES ∧
      (kernel.mutexes (kernel.semaphores s).mutex).used = true ∧
      (kernel.semaphores s).mutex ≠ MutexState.adminMutex

/-- A run starts in any state between calls with valid guards. The mutex of the mutex
table is in use, has no name, and nobody holds it. -/
structure Start (state : SlotRun) : Prop where
  pending : ∀ pid, state.sync.pending pid = none
  idle : ¬ Busy (state.sync.kernel.mutexes MutexState.adminMutex)
  admin : (state.sync.kernel.mutexes MutexState.adminMutex).used = true ∧
    (state.sync.kernel.mutexes MutexState.adminMutex).name = none
  apart : state.sync.kernel.semaphoreMutex ≠ MutexState.adminMutex
  guards : GuardsValid state.sync.kernel
  own : ∀ s, state.own s = false

/-- The calls of the run: those on semaphores, and `lockMutex` and `freeMutex` of all
mutexes but the one of the mutex table. `getMutex` and `closeMutex`, which take and free
entries themselves, are not among them. -/
def SemaphoreCalls (_ : SlotRun) : SyncAction → Prop
  | .call (.getMutex _) _ _ | .call (.closeMutex _) _ _ => False
  | .call (.lockMutex mutex) _ _ | .call (.freeMutex mutex) _ _ => mutex ≠ MutexState.adminMutex
  | _ => True

instance (state : SlotRun) (action : SyncAction) : Decidable (state.SemaphoreCalls action) :=
  match action with
  | .call (.getMutex _) _ _ | .call (.closeMutex _) _ _ => inferInstanceAs (Decidable False)
  | .call (.lockMutex _) _ _ | .call (.freeMutex _) _ _ => inferInstanceAs (Decidable (_ ≠ _))
  | .call (.semCreate _ _) _ _ | .call (.semClose _) _ _ | .call (.wait _) _ _
  | .call (.signal _) _ _ | .resume _ _ | .timerTick _ | .createProcess _
  | .removeProcess _ _ => inferInstanceAs (Decidable True)

/-- If a semaphore is created under the name, the table of mutexes has the name or room. -/
def FindsGuard (kernel : SyncState) (name : Option String) : Prop :=
  kernel.getSemIndex name = MUTEX_NOT_FOUND →
    kernel.getFreePositionSemaphores ≠ NO_SPACE_LEFT_M →
    kernel.getIndex name ≠ MUTEX_NOT_FOUND ∨ kernel.getFreeSpot ≠ NO_SPACE_LEFT_M

instance (kernel : SyncState) (name : Option String) : Decidable (FindsGuard kernel name) :=
  inferInstanceAs (Decidable (_ → _))

/-- So it is for the name of the `semCreate` that the process stands in, if it does. -/
def RestFindsGuard (kernel : SyncState) : Option Pending → Prop
  | some (.semCreate name _) => FindsGuard kernel name
  | _ => True

instance (kernel : SyncState) (pending : Option Pending) :
    Decidable (RestFindsGuard kernel pending) :=
  match pending with
  | some (.semCreate _ _) => inferInstanceAs (Decidable (FindsGuard _ _))
  | none | some .lockMutex | some (.getMutex _) | some (.createSemaphore _ _ _ _)
  | some (.waitLocked _) | some .wait => inferInstanceAs (Decidable True)

/-- The condition on a step: a semaphore that is created gets a guard, and one whose guard
was entered by its own `semCreate` is not closed. -/
def Conserves (state : SlotRun) : SyncAction → Prop
  | .call (.semCreate name _) _ _ =>
      state.sync.kernel.Uncontended state.sync.kernel.semaphoreMutex →
        FindsGuard state.sync.kernel name
  | .call (.semClose s) _ _ =>
      state.sync.current = (state.sync.kernel.semaphores s).pidCreator → state.own s = false
  | .resume _ _ => RestFindsGuard state.sync.kernel (state.sync.pending state.sync.current)
  | _ => True

instance (state : SlotRun) (action : SyncAction) : Decidable (state.Conserves action) :=
  match action with
  | .call (.semCreate _ _) _ _ => inferInstanceAs (Decidable (_ → _))
  | .call (.semClose _) _ _ => inferInstanceAs (Decidable (_ → _))
  | .resume _ _ => inferInstanceAs (Decidable (RestFindsGuard _ _))
  | .call (.lockMutex _) _ _ | .call (.freeMutex _) _ _ | .call (.getMutex _) _ _
  | .call (.closeMutex _) _ _ | .call (.wait _) _ _ | .call (.signal _) _ _
  | .timerTick _ | .createProcess _ | .removeProcess _ _ => inferInstanceAs (Decidable True)

/-- The entries of the mutex table since the start of the run: those in use are as many as
before, apart from the guards of open semaphores that their `semCreate` entered. Where
these are all closed it is as many as before. The guard of a semaphore in use is a mutex
in use. -/
structure Conserved (start state : SlotRun) : Prop where
  slots : usedMutexes state.sync.kernel.mutexes =
    usedMutexes start.sync.kernel.mutexes + ownGuards state.own
  rounds : (∀ s : Int, (state.sync.kernel.semaphores s).used = true → state.own s = false) →
    usedMutexes state.sync.kernel.mutexes = usedMutexes start.sync.kernel.mutexes
  guards : ∀ s : Int, 0 ≤ s → s < MAX_SEMAPHORES →
    (state.sync.kernel.semaphores s).used = true →
    0 ≤ (state.sync.kernel.semaphores s).mutex ∧
      state.sync.kernel.isValidMutex (state.sync.kernel.semaphores s).mutex = true

/-! ## Between the calls -/

/-- Where a process may stand in these runs: not at the mutex of the mutex table. -/
def Stands (semaphores : Int → Semaphore) : Pending → Prop
  | .getMutex _ | .createSemaphore _ _ _ _ => False
  | .waitLocked s => (semaphores s).mutex ≠ MutexState.adminMutex
  | .lockMutex | .semCreate _ _ | .wait => True

/-- `waitLocked` changes no other mutex than the guard. -/
theorem waitLocked_ne {state : SemaphoreState} {s other : Int}
    (different : other ≠ (state.semaphores s).mutex) :
    (state.waitLocked s).1.mutexes other = state.mutexes other := by
  simp only [SemaphoreState.waitLocked]
  split
  · exact MutexState.freeMutex_ne different state.toMutexState
  · exact MutexState.freeMutex_ne different (state.changeProcessState _ _)

/-- Nor does `wait`. -/
theorem wait_ne {state : SemaphoreState} {s other : Int} (garbage : Int)
    (different : other ≠ (state.semaphores s).mutex) :
    (state.wait s garbage).1.mutexes other = state.mutexes other := by
  have locks := MutexState.lockMutex_ne different state.toMutexState garbage
  simp only [SemaphoreState.wait]
  split
  · rfl
  · split <;> rename_i mutexes locked <;> rw [locked] at locks
    · exact locks
    · have rest := @waitLocked_ne { state with toMutexState := mutexes } s other different
      split <;> rename_i done <;> rw [done] at rest <;> exact rest.trans locks

/-- The calls of these runs leave the mutex of the mutex table free. -/
theorem perform_calm {state : SlotRun} {action : SyncAction} {kernel : SyncState}
    {outcome : Outcome} (idle : ¬ Busy (state.sync.kernel.mutexes MutexState.adminMutex))
    (apart : state.sync.kernel.semaphoreMutex ≠ MutexState.adminMutex)
    (guards : GuardsValid state.sync.kernel)
    (stands : ∀ pid pending, state.sync.pending pid = some pending →
      Stands state.sync.kernel.semaphores pending)
    (calls : state.SemaphoreCalls action)
    (performed : state.sync.perform action = some (kernel, outcome)) :
    ¬ Busy (kernel.mutexes MutexState.adminMutex) ∧
      ∀ pending, outcome = .yielded pending → Stands kernel.semaphores pending := by
  rcases SyncRun.perform_eq_some.mp performed with
    ⟨call, garbage, next, rfl, -, inside, result⟩ | ⟨pending, garbage, next, rfl, stood, -, result⟩
  · cases call with
    | getMutex | closeMutex => exact calls.elim
    | lockMutex mutex =>
        have other := MutexState.lockMutex_ne (Ne.symm calls) state.sync.kernel.toMutexState garbage
        simp only [SyncState.enter] at result
        split at result <;> rename_i mutexes locked <;> rw [locked] at other <;>
          obtain ⟨rfl, rfl⟩ := Prod.mk.inj result
        · exact ⟨by rw [other]; exact idle, fun _ yields => by cases yields⟩
        · refine ⟨by rw [other]; exact idle, ?_⟩
          rintro _ ⟨⟩
          trivial
    | freeMutex mutex =>
        obtain ⟨rfl, rfl⟩ := Prod.mk.inj result
        refine ⟨?_, fun _ yields => by cases yields⟩
        change ¬ Busy ((state.sync.kernel.freeMutex mutex).mutexes MutexState.adminMutex)
        rwa [MutexState.freeMutex_ne (Ne.symm calls)]
    | semCreate name start =>
        obtain ⟨free, yields⟩ := SyncState.semCreate_idle idle apart name start garbage
        simp only [SyncState.enter] at result
        rw [result] at free yields
        refine ⟨free, fun pending yielded => ?_⟩
        rw [yields pending yielded]
        trivial
    | semClose index =>
        obtain ⟨rfl, rfl⟩ := Prod.mk.inj result
        refine ⟨?_, fun _ yields => by cases yields⟩
        simp only [SemaphoreState.semClose]
        split
        · exact idle
        · split <;> exact idle
    | signal s =>
        obtain ⟨rfl, rfl⟩ := Prod.mk.inj result
        refine ⟨?_, fun _ yields => by cases yields⟩
        rw [SemaphoreState.signal_mutexes]
        exact idle
    | wait s =>
        cases valid : state.sync.kernel.isValidSemaphore s with
        | false =>
            simp only [SyncState.enter, SemaphoreState.wait, valid, if_true] at result
            obtain ⟨rfl, rfl⟩ := Prod.mk.inj result
            exact ⟨idle, fun _ yields => by cases yields⟩
        | true =>
            simp only [SemaphoreState.isValidSemaphore] at valid
            split at valid
            · cases valid
            · rename_i bound
              have guard := (guards s inside.1 (by omega) valid).2.2.2
              have other := wait_ne garbage (Ne.symm guard)
              have slots := state.sync.kernel.wait_sameSlots s garbage
              simp only [SyncState.enter] at result
              split at result <;> rename_i after waited <;> rw [waited] at other slots <;>
                obtain ⟨rfl, rfl⟩ := Prod.mk.inj result
              · exact ⟨by rw [other]; exact idle, fun _ yields => by cases yields⟩
              · refine ⟨by rw [other]; exact idle, ?_⟩
                rintro _ ⟨⟩
                change (after.semaphores s).mutex ≠ _
                rwa [(slots s).2.2]
              · refine ⟨by rw [other]; exact idle, ?_⟩
                rintro _ ⟨⟩
                trivial
  · have here := stands _ _ stood
    cases pending with
    | getMutex | createSemaphore => exact here.elim
    | lockMutex | wait =>
        obtain ⟨rfl, rfl⟩ := Prod.mk.inj result
        exact ⟨idle, fun _ yields => by cases yields⟩
    | semCreate name start =>
        obtain ⟨free, never⟩ := SyncState.resume_semCreate_idle idle apart result
        exact ⟨free, fun pending yields => absurd yields (never pending)⟩
    | waitLocked s =>
        have other := waitLocked_ne (Ne.symm here)
        simp only [SyncState.resume] at result
        split at result <;> rename_i after waited <;> rw [waited] at other <;>
          obtain ⟨rfl, rfl⟩ := Prod.mk.inj result
        · exact ⟨by rw [other]; exact idle, fun _ yields => by cases yields⟩
        · refine ⟨by rw [other]; exact idle, ?_⟩
          rintro _ ⟨⟩
          trivial

/-- What the parts of a call in these runs are for. -/
theorem request_plain {state : SlotRun} {action : SyncAction}
    (stands : ∀ pid pending, state.sync.pending pid = some pending →
      Stands state.sync.kernel.semaphores pending) (calls : state.SemaphoreCalls action) :
    (∀ name, state.sync.request action ≠ .getMutex name) ∧
      (∀ i, state.sync.request action ≠ .closeMutex i) ∧
      ∀ name s, state.sync.request action ≠ .createSemaphore name s := by
  cases action with
  | call call garbage next =>
      cases call with
      | getMutex | closeMutex => exact calls.elim
      | lockMutex | freeMutex | semCreate | semClose | wait | signal =>
          simp [SyncRun.request, SyncCall.request]
  | resume garbage next =>
      simp only [SyncRun.request]
      split
      · rename_i pending stood
        have here := stands _ _ stood
        cases pending with
        | getMutex | createSemaphore => exact here.elim
        | lockMutex | semCreate | waitLocked | wait => simp [Pending.request]
      · simp
  | timerTick | createProcess | removeProcess => simp [SyncRun.request]

/-- A `semCreate` that returns a semaphore at the end of this part finds a guard. -/
theorem Conserves.findsGuard {state : SlotRun} {action : SyncAction}
    (conserves : state.Conserves action) {kernel : SyncState} {name : Option String}
    {value : Option Int} (asked : state.sync.request action = .semCreate name)
    (performed : state.sync.perform action = some (kernel, .returned value)) :
    FindsGuard state.sync.kernel name := by
  rcases SyncRun.perform_eq_some.mp performed with
    ⟨call, garbage, next, rfl, -, -, result⟩ | ⟨pending, garbage, next, rfl, stood, -, -⟩
  · cases call with
    | semCreate other start =>
        obtain rfl := Request.semCreate.inj asked
        refine conserves ?_
        rw [← @MutexState.lockMutex_returned _ _ garbage]
        simp only [SyncState.enter, SyncState.semCreate] at result
        split at result <;> rename_i locked
        · rw [locked]
        · cases (Prod.mk.inj result).2
    | lockMutex | freeMutex | getMutex | closeMutex | wait | signal | semClose => cases asked
  · simp only [Conserves, stood] at conserves
    simp only [SyncRun.request, stood] at asked
    cases pending with
    | semCreate other start =>
        obtain rfl := Request.semCreate.inj asked
        exact conserves
    | lockMutex | getMutex | createSemaphore | waitLocked | wait => cases asked

/-- `semClose` leaves the guard in the slot. -/
theorem semClose_mutex (state : SemaphoreState) (index s : Int) :
    ((state.semClose index).semaphores s).mutex = (state.semaphores s).mutex := by
  simp only [SemaphoreState.semClose]
  split
  · rfl
  · split
    · by_cases here : s = index
      · subst here
        rw [SemaphoreState.setSemaphore_same]
      · rw [SemaphoreState.setSemaphore_ne here]
    · rfl

/-- A semaphore that is closed is none whose guard was entered by its `semCreate`. -/
theorem Conserves.closes {state : SlotRun} {action : SyncAction}
    (conserves : state.Conserves action) {kernel : SyncState} {outcome : Outcome} {s : Int}
    (asked : state.sync.request action = .semClose s)
    (performed : state.sync.perform action = some (kernel, outcome))
    (valid : state.sync.kernel.isValidSemaphore s = true)
    (closed : (kernel.semaphores s).used = false) :
    state.own s = false ∧
      (kernel.semaphores s).mutex = (state.sync.kernel.semaphores s).mutex := by
  rcases SyncRun.perform_eq_some.mp performed with
    ⟨call, garbage, next, rfl, -, -, result⟩ | ⟨pending, garbage, next, rfl, stood, -, -⟩
  · cases call with
    | semClose index =>
        obtain rfl := Request.semClose.inj asked
        obtain ⟨rfl, -⟩ := Prod.mk.inj result
        refine ⟨?_, semClose_mutex _ _ _⟩
        by_cases creator : state.sync.current = (state.sync.kernel.semaphores index).pidCreator
        · exact conserves creator
        · -- Somebody else's close does nothing.
          have notCreator : ¬ state.sync.kernel.processes.getCurrentPid =
            (state.sync.kernel.semaphores index).pidCreator := creator
          simp only [SemaphoreState.semClose, valid, Bool.true_eq_false, if_false,
            if_neg notCreator] at closed
          simp only [SemaphoreState.isValidSemaphore, closed, ite_self, Bool.false_eq_true] at valid
    | lockMutex | freeMutex | getMutex | closeMutex | semCreate | wait | signal => cases asked
  · simp only [SyncRun.request, stood] at asked
    cases pending <;> cases asked

/-- The invariant of the runs; `count` is the number of mutexes in use at the start. -/
structure Balanced (count : Nat) (state : SlotRun) : Prop where
  idle : ¬ Busy (state.sync.kernel.mutexes MutexState.adminMutex)
  admin : (state.sync.kernel.mutexes MutexState.adminMutex).used = true ∧
    (state.sync.kernel.mutexes MutexState.adminMutex).name = none
  apart : state.sync.kernel.semaphoreMutex ≠ MutexState.adminMutex
  guards : GuardsValid state.sync.kernel
  stands : ∀ pid pending, state.sync.pending pid = some pending →
    Stands state.sync.kernel.semaphores pending
  own : ∀ s, state.own s = true →
    0 ≤ s ∧ s < MAX_SEMAPHORES ∧ (state.sync.kernel.semaphores s).used = true
  slots : usedMutexes state.sync.kernel.mutexes = count + ownGuards state.own

/-- What a part of a call does to the tables and to `own`. -/
structure Effect (count : Nat) (before : SlotRun) (kernel : SyncState) (own : Int → Bool) :
    Prop where
  admin : (kernel.mutexes MutexState.adminMutex).used = true ∧
    (kernel.mutexes MutexState.adminMutex).name = none
  guards : GuardsValid kernel
  apart : ∀ s, (before.sync.kernel.semaphores s).mutex ≠ MutexState.adminMutex →
    (kernel.semaphores s).mutex ≠ MutexState.adminMutex
  inUse : ∀ s, own s = true → 0 ≤ s ∧ s < MAX_SEMAPHORES ∧ (kernel.semaphores s).used = true
  slots : usedMutexes kernel.mutexes = count + ownGuards own

/-- Where nothing is created and no semaphore of `own` is closed, the tables are as good as
they were. -/
theorem Balanced.keeps {count : Nat} {state : SlotRun} (balanced : Balanced count state)
    {kernel : SyncState} (names : MutexState.SameNames state.sync.kernel.mutexes kernel.mutexes)
    (slots : ∀ s, (kernel.semaphores s).mutex = (state.sync.kernel.semaphores s).mutex ∧
      ((kernel.semaphores s).used = true → (state.sync.kernel.semaphores s).used = true) ∧
      (state.own s = true → (kernel.semaphores s).used = (state.sync.kernel.semaphores s).used)) :
    Effect count state kernel state.own where
  admin := by
    rw [(names _).1, (names _).2]
    exact balanced.admin
  guards s low high used := by
    rw [(slots s).1, (names _).1]
    exact balanced.guards s low high ((slots s).2.1 used)
  apart s guard := by rwa [(slots s).1]
  inUse s mine := by
    rw [(slots s).2.2 mine]
    exact balanced.own s mine
  slots := by rw [usedMutexes_same names, balanced.slots]

/-- A semaphore that is created uses a mutex that was in use, or takes one and is in `own`. -/
theorem Balanced.created {count : Nat} {state : SlotRun} (balanced : Balanced count state)
    {kernel : SyncState} {name : Option String} {s i : Int}
    (gets : MutexState.Gets state.sync.kernel.mutexes kernel.mutexes name i)
    (taken : SemaphoreState.Taken state.sync.kernel.semaphores kernel.semaphores name s)
    (missing : ∀ k, ¬ SemaphoreState.Listed state.sync.kernel.semaphores k name)
    (guard : (kernel.semaphores s).mutex = i) (finds : FindsGuard state.sync.kernel name) :
    Effect count state kernel (Function.update state.own s
      (decide (state.sync.kernel.getIndex name = MUTEX_NOT_FOUND))) := by
  have low := taken.low
  have high := taken.high
  have fresh : state.own s = false := by
    rw [← Bool.not_eq_true]
    intro mine
    have used := (balanced.own s mine).2.2
    rw [taken.free] at used
    cases used
  -- Whatever `getMutex` did, what is said of the others stays.
  have assemble : ∀ value : Bool,
      (kernel.mutexes MutexState.adminMutex).used = true ∧
        (kernel.mutexes MutexState.adminMutex).name = none →
      (∀ k, (state.sync.kernel.mutexes k).used = true → (kernel.mutexes k).used = true) →
      0 ≤ i → i < MAX_MUTEXES → (kernel.mutexes i).used = true → i ≠ MutexState.adminMutex →
      usedMutexes kernel.mutexes = count + ownGuards (Function.update state.own s value) →
      Effect count state kernel (Function.update state.own s value) := by
    intro value admin still above below used different slots
    refine ⟨admin, fun k inside bound open_ => ?_, fun k apart => ?_, fun k mine => ?_, slots⟩
    · by_cases here : k = s
      · subst here
        rw [guard]
        exact ⟨above, below, used, different⟩
      · obtain ⟨sameUsed, -, sameGuard⟩ := taken.others k here
        obtain ⟨first, second, third, fourth⟩ :=
          balanced.guards k inside bound (sameUsed.symm.trans open_)
        rw [sameGuard]
        exact ⟨first, second, still _ third, fourth⟩
    · by_cases here : k = s
      · subst here
        rwa [guard]
      · rwa [(taken.others k here).2.2]
    · by_cases here : k = s
      · subst here
        exact ⟨low, high, taken.used⟩
      · rw [Function.update_of_ne here] at mine
        rw [(taken.others k here).1]
        exact balanced.own k mine
  cases gets with
  | found listed same =>
      rw [decide_eq_false listed.getIndex_ne]
      have unchanged : Function.update state.own s false = state.own := by
        rw [← fresh, Function.update_eq_self]
      refine assemble false ?_ (fun k used => (same k).1.trans used) listed.low listed.high
        ((same i).1.trans listed.used) ?_ ?_
      · rw [(same _).1, (same _).2]
        exact balanced.admin
      · rintro rfl
        have named := listed.named
        rw [balanced.admin.2] at named
        simp [MutexState.sameName] at named
      · rw [unchanged, usedMutexes_same same, balanced.slots]
  | full absent noSpace same =>
      have notFound : state.sync.kernel.getIndex name = MUTEX_NOT_FOUND := by
        rcases state.sync.kernel.getIndex_cases name with ⟨here, -⟩ | here
        · exact here
        · exact absurd here (absent _)
      have semNotFound : state.sync.kernel.getSemIndex name = MUTEX_NOT_FOUND := by
        rcases state.sync.kernel.getSemIndex_cases name with ⟨here, -⟩ | here
        · exact here
        · exact absurd here (missing _)
      rcases finds semNotFound
        (SemaphoreState.getFreePositionSemaphores_room low high taken.free) with
        known | space
      · exact absurd notFound known
      · rcases state.sync.kernel.getFreeSpot_spec with ⟨none, -⟩ | ⟨above, below, free⟩
        · exact absurd none space
        · rw [noSpace _ above below] at free
          cases free
  | created absent created =>
      have notFound : state.sync.kernel.getIndex name = MUTEX_NOT_FOUND := by
        rcases state.sync.kernel.getIndex_cases name with ⟨here, -⟩ | here
        · exact here
        · exact absurd here (absent _)
      rw [decide_eq_true notFound]
      have different : i ≠ MutexState.adminMutex := by
        rintro rfl
        have free := created.free
        rw [balanced.admin.1] at free
        cases free
      refine assemble true ?_ (fun k used => ?_) created.low created.high created.used different ?_
      · rw [(created.others _ different.symm).1, (created.others _ different.symm).2]
        exact balanced.admin
      · by_cases here : k = i
        · subst here
          exact created.used
        · rw [(created.others k here).1]
          exact used
      · have one : ownGuards (Function.update state.own s true) = ownGuards state.own + 1 := by
          have here : ((s.toNat : Nat) : Int) = s := Int.toNat_of_nonneg low
          refine @countP_range_insert _ _ s.toNat _ (by omega) ?_ ?_ fun k other => ?_
          · rw [here]
            exact fresh
          · rw [here, Function.update_self]
          · rw [Function.update_of_ne (by omega)]
        rw [usedMutexes_created created, balanced.slots, one]
        omega

/-- A step that conserves the slots keeps the invariant. -/
theorem balanced_step (count : Nat) (state : SlotRun) (action : SyncAction) (next : SlotRun)
    (balanced : Balanced count state)
    (allowed : state.SemaphoreCalls action ∧ state.Conserves action)
    (stepped : state.step action = some next) : Balanced count next := by
  obtain ⟨calls, conserves⟩ := allowed
  obtain ⟨sync, synced, rfl⟩ := Option.map_eq_some_iff.mp stepped
  rcases SyncRun.step_performs synced with
    ⟨kernel, outcome, pending, processes, performed, rfl, yields⟩ | ⟨idles, processes, rfl⟩
  · obtain ⟨idle, stands⟩ := perform_calm balanced.idle balanced.apart balanced.guards
      balanced.stands calls performed
    obtain ⟨noGet, noClose, noRest⟩ := request_plain balanced.stands calls
    have effect := SyncRun.perform_effect performed
    have semaphoreMutex := SyncRun.perform_semaphoreMutex performed
    have returned : ∀ s, state.sync.returnedHandle action = some s →
        outcome = .returned (some s) ∧ s ≠ ERROR := by
      intro s handle
      obtain ⟨good, other, same⟩ := SyncRun.returnedHandle_eq_some.mp handle
      rw [performed] at same
      exact ⟨(Prod.mk.inj (Option.some.inj same)).2, good⟩
    -- A part that returns no semaphore keeps `own`.
    have sameOwn : (∀ name s, state.sync.request action = .semCreate name →
        outcome = .returned (some s) → s = ERROR) → state.ownAfter action = state.own := by
      intro none
      simp only [ownAfter]
      split
      · rename_i name s asked handle
        obtain ⟨result, good⟩ := returned s handle
        exact absurd (none name s asked result) good
      · rfl
    have tables : Effect count state kernel (state.ownAfter action) := by
      generalize asked : state.sync.request action = request at effect sameOwn noGet noClose noRest
      cases effect with
      | got => exact absurd rfl (noGet _)
      | closedMutex => exact absurd rfl (noClose _)
      | finished => exact absurd rfl (noRest _ _)
      | took => exact (stands _ rfl).elim
      | kept names slots plain =>
          rw [sameOwn ?_]
          · exact balanced.keeps names fun s => ⟨(slots s).2.2, fun used => (slots s).1 ▸ used,
              fun _ => (slots s).1⟩
          · rintro name s rfl rfl
            exact plain
      | @closedSemaphore s valid names closed others =>
          obtain ⟨mine, guard⟩ := conserves.closes asked performed valid closed
          rw [sameOwn (by rintro name s ⟨⟩)]
          refine balanced.keeps names fun k => ?_
          by_cases here : k = s
          · subst here
            refine ⟨guard, fun open_ => ?_, fun listed => ?_⟩
            · rw [closed] at open_
              cases open_
            · rw [mine] at listed
              cases listed
          · obtain ⟨used, -, guard⟩ := others k here
            exact ⟨guard, fun open_ => used ▸ open_, fun _ => used⟩
      | @built name s i missing gets taken guard =>
          have good : s ≠ ERROR := by
            have low := taken.low
            simp only [ERROR]
            omega
          have handle : state.sync.returnedHandle action = some s :=
            SyncRun.returnedHandle_eq_some.mpr ⟨good, kernel, performed⟩
          have updated : state.ownAfter action = Function.update state.own s
              (decide (state.sync.kernel.getIndex name = MUTEX_NOT_FOUND)) := by
            simp only [ownAfter, asked, handle]
          rw [updated]
          exact balanced.created gets taken missing guard (conserves.findsGuard asked performed)
    refine ⟨idle, tables.admin, ?_, tables.guards, fun pid stood here => ?_, tables.inUse,
      tables.slots⟩
    · change kernel.semaphoreMutex ≠ MutexState.adminMutex
      rw [semaphoreMutex]
      exact balanced.apart
    · change Function.update state.sync.pending state.sync.current pending pid = some stood at here
      rw [Function.update_apply] at here
      split at here
      · exact stands stood ((yields stood).mp here)
      · have before := balanced.stands pid stood here
        cases stood with
        | waitLocked s => exact tables.apart s before
        | getMutex | createSemaphore => exact before.elim
        | lockMutex | semCreate | wait => trivial
  · have sameOwn : state.ownAfter action = state.own := by
      simp only [ownAfter, SyncRun.returnedHandle, idles]
      split
      · rename_i none
        cases none
      · rfl
    refine ⟨balanced.idle, balanced.admin, balanced.apart, balanced.guards, balanced.stands, ?_, ?_⟩
    · rw [sameOwn]
      exact balanced.own
    · rw [sameOwn]
      exact balanced.slots

/-- Without semaphores there are no guards. -/
theorem ownGuards_none {own : Int → Bool} (none : ∀ s, own s = false) : ownGuards own = 0 := by
  simp [ownGuards, none]

/-- The invariant holds at the start. -/
theorem Start.balanced {state : SlotRun} (start : Start state) :
    Balanced (usedMutexes state.sync.kernel.mutexes) state where
  idle := start.idle
  admin := start.admin
  apart := start.apart
  guards := start.guards
  stands pid pending stood := by
    rw [start.pending] at stood
    cases stood
  own s mine := by
    rw [start.own] at mine
    cases mine
  slots := by rw [ownGuards_none start.own, Nat.add_zero]

/-- The invariant conserves the slots. -/
theorem Balanced.conserved {start state : SlotRun}
    (balanced : Balanced (usedMutexes start.sync.kernel.mutexes) state) :
    Conserved start state where
  slots := balanced.slots
  rounds closed := by
    have none : ∀ s, state.own s = false := by
      intro s
      rw [← Bool.not_eq_true]
      intro mine
      rw [closed s (balanced.own s mine).2.2] at mine
      cases mine
    rw [balanced.slots, ownGuards_none none, Nat.add_zero]
  guards s low high used := by
    obtain ⟨above, below, valid, -⟩ := balanced.guards s low high used
    refine ⟨above, ?_⟩
    rw [MutexState.isValidMutex, if_neg (by omega), valid]

/-- In every run in which each semaphore that is created gets a guard, and none whose guard
was entered by its own `semCreate` is closed, creating and closing conserve the entries of
the mutex table. -/
theorem slots_conserved {start final : SlotRun} {actions : List SyncAction}
    (begins : Start start) (calls : Along step SemaphoreCalls start actions)
    (conserves : Along step Conserves start actions)
    (ran : run step start actions = some final) : Conserved start final :=
  (Along.invariant (balanced_step _) begins.balanced (calls.and conserves) ran).conserved

/-- Two processes after the initialisation. -/
def twoProcesses : SlotRun where
  sync := .booted 2
  own := fun _ => false

/-- The same after `getMutex` of a name. -/
def withMutex : SlotRun where
  sync := { SyncRun.booted 2 with
    kernel := { (SyncRun.booted 2).kernel with
      toMutexState := ((SyncRun.booted 2).kernel.getMutex (some "a") 0).1 } }
  own := fun _ => false

/-- Before the first semaphore is created all guards are valid. -/
theorem no_semaphores {kernel : SyncState}
    (semaphores : kernel.semaphores = SyncRun.zeroed.initializeTables.semaphores) :
    GuardsValid kernel := by
  intro s low high used
  rw [semaphores, SyncRun.zeroed.initializeTables_names.2.1 s low high] at used
  cases used

/-- Two processes without semaphores are a start. -/
theorem twoProcesses_start : Start twoProcesses where
  pending _ := rfl
  idle := SyncRun.zeroed.initializeTables_names.2.2.1
  admin := by decide +kernel
  apart := SyncRun.zeroed.initializeTables_names.2.2.2
  guards := no_semaphores rfl
  own _ := rfl

/-- So are two processes with a mutex. -/
theorem withMutex_start : Start withMutex where
  pending _ := rfl
  idle := (MutexState.getMutex_idle twoProcesses_start.idle (some "a") 0).2
  admin := by decide +kernel
  apart := twoProcesses_start.apart
  guards := no_semaphores rfl
  own _ := rfl

/-- Two processes create and close a semaphore of the name, and one of another name stays
open. -/
def rounds : List SyncAction :=
  [.call (.semCreate (some "a") 1) 0 0, .call (.semClose 0) 0 0, .timerTick 1,
    .call (.semCreate (some "a") 0) 0 0, .call (.semClose 0) 0 0,
    .call (.semCreate (some "b") 1) 0 0]

theorem rounds_conserve : ∃ final, run step withMutex rounds = some final ∧
    usedMutexes withMutex.sync.kernel.mutexes = 3 ∧
    usedMutexes final.sync.kernel.mutexes = 4 ∧ final.own 0 = true ∧
    Conserved withMutex final := by
  have result : (run step withMutex rounds).map (fun final =>
      (usedMutexes withMutex.sync.kernel.mutexes, usedMutexes final.sync.kernel.mutexes,
        final.own 0)) = some (3, 4, true) := by
    decide +kernel
  obtain ⟨final, ran, facts⟩ := Option.map_eq_some_iff.mp result
  simp only [Prod.mk.injEq] at facts
  obtain ⟨before, after, own⟩ := facts
  exact ⟨final, ran, before, after, own, slots_conserved withMutex_start (by decide +kernel)
    (by decide +kernel) ran⟩

/-- A semaphore of a new name is created and closed. -/
def round : List SyncAction :=
  [.call (.semCreate (some "a") 1) 0 0, .call (.semClose 0) 0 0]

/-- One round leaves one more mutex in use. -/
theorem round_leaks_a_mutex : Start twoProcesses ∧
    Along step SemaphoreCalls twoProcesses round ∧
    ∃ final, run step twoProcesses round = some final ∧
      (∀ s : Nat, s < MAX_SEMAPHORES → (final.sync.kernel.semaphores s).used = false) ∧
      usedMutexes final.sync.kernel.mutexes =
        usedMutexes twoProcesses.sync.kernel.mutexes + 1 := by
  refine ⟨twoProcesses_start, by decide +kernel, ?_⟩
  have result : (run step twoProcesses round).map (fun final =>
      ((List.range MAX_SEMAPHORES).all fun (s : Nat) =>
          (final.sync.kernel.semaphores s).used == false,
        usedMutexes final.sync.kernel.mutexes)) =
      some (true, usedMutexes twoProcesses.sync.kernel.mutexes + 1) := by
    decide +kernel
  obtain ⟨final, ran, facts⟩ := Option.map_eq_some_iff.mp result
  simp only [Prod.mk.injEq, List.all_eq_true, List.mem_range, beq_iff_eq] at facts
  exact ⟨final, ran, facts⟩

end SlotRun

end SistemasOperativos.Kernel
