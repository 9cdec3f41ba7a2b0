import SistemasOperativos.Kernel.MutexTable

/-!
# The names in the tables of mutexes and semaphores

`getMutex` and `semCreate` look a name up in their table and take the first free slot
when it is not there. `Gets` and `NameEffect` say what a part of a call does to the
names in both tables. A lookup and the taking of a slot are never apart, so no two slots
in use have one name (`NameEffect.mutexNames`, `NameEffect.semaphoreNames`), and a handle
stays with its name until it is closed (`NameEffect.keepsMutex`,
`NameEffect.keepsSemaphore`).
-/

namespace SistemasOperativos.Kernel

open SistemasOperativos.Semantics

namespace MutexState

/-- Entry `i` of the table is in use under the name. -/
structure Listed (mutexes : Int → Mutex) (i : Int) (name : Option String) : Prop where
  low : 0 ≤ i
  high : i < MAX_MUTEXES
  used : (mutexes i).used = true
  named : sameName (mutexes i).name name = true

/-- The same entries are in use under the same names. -/
def SameNames (before after : Int → Mutex) : Prop :=
  ∀ i, (after i).used = (before i).used ∧
    (after i).name = (before i).name

/-- A free entry was given the name, and the others are the same. -/
structure Created (before after : Int → Mutex) (name : Option String) (i : Int) : Prop where
  low : 0 ≤ i
  high : i < MAX_MUTEXES
  free : (before i).used = false
  used : (after i).used = true
  named : (after i).name = name
  others : ∀ k, k ≠ i → (after k).used = (before k).used ∧
    (after k).name = (before k).name

/-- What `getMutex` does to the names, and what it returns. -/
inductive Gets (before after : Int → Mutex) (name : Option String) : Int → Prop where
  | found {i : Int} (listed : Listed before i name) (same : SameNames before after) :
      Gets before after name i
  | full (missing : ∀ i, ¬ Listed before i name)
      (noSpace : ∀ i : Int, 0 ≤ i → i < MAX_MUTEXES → (before i).used = true)
      (same : SameNames before after) : Gets before after name ERROR
  | created {i : Int} (missing : ∀ i, ¬ Listed before i name)
      (created : Created before after name i) : Gets before after name i

section Names

variable {a b c : Int → Mutex} {name : Option String}

/-- A table has its own names. -/
theorem SameNames.refl (mutexes : Int → Mutex) : SameNames mutexes mutexes := fun _ => ⟨rfl, rfl⟩

/-- Names that stay twice stay. -/
theorem SameNames.trans (first : SameNames a b) (second : SameNames b c) : SameNames a c :=
  fun i => ⟨(second i).1.trans (first i).1, (second i).2.trans (first i).2⟩

/-- It does not matter which of two tables is named first. -/
theorem SameNames.symm (same : SameNames a b) : SameNames b a :=
  fun i => ⟨(same i).1.symm, (same i).2.symm⟩

/-- An entry in use under a name stays so while the names stay. -/
theorem SameNames.listed (same : SameNames a b) {i : Int} (listed : Listed a i name) :
    Listed b i name :=
  ⟨listed.low, listed.high, (same i).1.trans listed.used, by rw [(same i).2]; exact listed.named⟩

/-- An entry created while the names stayed before is created. -/
theorem SameNames.created (same : SameNames a b) {i : Int} (created : Created b c name i) :
    Created a c name i :=
  ⟨created.low, created.high, (same i).1.symm.trans created.free, created.used, created.named,
    fun k other => ⟨((created.others k other).1).trans (same k).1,
      ((created.others k other).2).trans (same k).2⟩⟩

/-- An entry created while the names stay afterwards is created. -/
theorem Created.trans {i : Int} (created : Created a b name i) (same : SameNames b c) :
    Created a c name i :=
  ⟨created.low, created.high, created.free, (same i).1.trans created.used,
    (same i).2.trans created.named, fun k other =>
      ⟨((same k).1).trans (created.others k other).1,
        ((same k).2).trans (created.others k other).2⟩⟩

/-- Steps that keep the names may come before and after. -/
theorem Gets.within {d : Int → Mutex} {i : Int} (before : SameNames a b) (gets : Gets b c name i)
    (after : SameNames c d) : Gets a d name i := by
  cases gets with
  | found listed same =>
      exact .found (before.symm.listed listed) ((before.trans same).trans after)
  | full missing noSpace same =>
      exact .full (fun i listed => missing i (before.listed listed))
        (fun i low high => (before i).1.symm.trans (noSpace i low high))
        ((before.trans same).trans after)
  | created missing created =>
      exact .created (fun i listed => missing i (before.listed listed))
        ((before.created created).trans after)

/-- A write to an entry that leaves its name and whether it is in use. -/
theorem setMutex_sameNames {state : MutexState} {index : Int} {m : Mutex}
    (used : m.used = (state.mutexes index).used) (named : m.name = (state.mutexes index).name) :
    SameNames state.mutexes (state.setMutex index m).mutexes := by
  intro i
  by_cases here : i = index
  · subst here
    rw [setMutex_same]
    exact ⟨used, named⟩
  · rw [setMutex_ne here]
    exact ⟨rfl, rfl⟩

/-- `lockMutex` gives no entry a name. -/
theorem lockMutex_sameNames (state : MutexState) (mutex garbage : Int) :
    SameNames state.mutexes (state.lockMutex mutex garbage).1.mutexes := by
  have tested : SameNames state.mutexes
      (state.setMutex mutex (testAndSet (state.mutexes mutex)).1).mutexes := by
    apply setMutex_sameNames <;> (unfold testAndSet; split <;> rfl)
  simp only [lockMutex]
  split
  · exact .refl _
  · split
    · exact tested
    · split
      · exact tested
      · refine tested.trans (setMutex_sameNames ?_ ?_) <;> rfl

/-- `freeMutex` gives no entry a name. -/
theorem freeMutex_sameNames (state : MutexState) (mutex : Int) :
    SameNames state.mutexes (state.freeMutex mutex).mutexes := by
  simp only [freeMutex]
  split
  · exact .refl _
  · split
    · intro i
      by_cases here : i = mutex
      · subst here
        simp [unblockProcess]
      · simp [unblockProcess, setMutex_ne here]
    · exact setMutex_sameNames rfl rfl

/-- A search finds an entry that is in use under the name, or there is none. -/
theorem getIndex_cases (state : MutexState) (name : Option String) :
    (state.getIndex name = MUTEX_NOT_FOUND ∧ ∀ i, ¬ Listed state.mutexes i name) ∨
      Listed state.mutexes (state.getIndex name) name := by
  simp only [getIndex]
  split
  · rename_i i found
    have bound := List.mem_range.mp (List.mem_of_find?_eq_some found)
    have holds := List.find?_some found
    rw [Bool.and_eq_true] at holds
    exact .inr ⟨by omega, by omega, holds.2, holds.1⟩
  · rename_i missing
    refine .inl ⟨rfl, fun i listed => ?_⟩
    have high := listed.high
    have here := List.find?_eq_none.mp missing i.toNat
      (List.mem_range.mpr (by have low := listed.low; omega))
    rw [Int.toNat_of_nonneg listed.low, listed.used, listed.named] at here
    exact here rfl

/-- A name that is in use is found. -/
theorem Listed.getIndex_ne {state : MutexState} {i : Int} (listed : Listed state.mutexes i name) :
    state.getIndex name ≠ MUTEX_NOT_FOUND := by
  rcases state.getIndex_cases name with ⟨-, missing⟩ | found
  · exact absurd listed (missing i)
  · intro notFound
    have low := found.low
    rw [notFound] at low
    exact absurd low (by decide)

/-- `createMutex` is the case of `getMutex` in which no entry has the name. -/
theorem createMutex_gets {state : MutexState} (missing : ∀ i, ¬ Listed state.mutexes i name) :
    Gets state.mutexes (state.createMutex name).1.mutexes name (state.createMutex name).2 := by
  rcases state.getFreeSpot_spec with ⟨none, full⟩ | ⟨low, high, free⟩
  · simp only [createMutex, none, if_true]
    exact .full missing full (.refl _)
  · have space : state.getFreeSpot ≠ NO_SPACE_LEFT_M := by
      simp only [NO_SPACE_LEFT_M]
      omega
    simp only [createMutex, if_neg space]
    exact .created missing ⟨low, high, free, by rw [setMutex_same], by rw [setMutex_same],
      fun k other => by rw [setMutex_ne other]; exact ⟨rfl, rfl⟩⟩

/-- What `getMutex` does to the names behind its lock. -/
theorem getMutexLocked_gets (state : MutexState) (name : Option String) :
    Gets state.mutexes (state.getMutexLocked name).1.mutexes name
      (state.getMutexLocked name).2 := by
  simp only [getMutexLocked]
  rcases state.getIndex_cases name with ⟨notFound, missing⟩ | found
  · rw [if_pos notFound]
    exact (createMutex_gets missing).within (.refl _) (freeMutex_sameNames _ _)
  · rw [if_neg found.getIndex_ne]
    exact .found found (freeMutex_sameNames _ _)

/-- `getMutex` keeps the names when its caller has to wait. -/
theorem getMutex_gets (state : MutexState) (name : Option String) (garbage : Int) :
    ((state.getMutex name garbage).2 = none ∧
        SameNames state.mutexes (state.getMutex name garbage).1.mutexes) ∨
      ∃ i, (state.getMutex name garbage).2 = some i ∧
        Gets state.mutexes (state.getMutex name garbage).1.mutexes name i := by
  have locks := state.lockMutex_sameNames adminMutex garbage
  simp only [getMutex]
  split <;> rename_i after locked <;> rw [locked] at locks
  · exact .inr ⟨_, rfl, (after.getMutexLocked_gets name).within locks (.refl _)⟩
  · exact .inl ⟨rfl, locks⟩

/-! ## Unique names -/

/-- No two entries in use have the same name. -/
def NamesUnique (mutexes : Int → Mutex) : Prop :=
  ∀ i k name, Listed mutexes i name → Listed mutexes k name → i = k

/-- Names that are unique stay so while the names stay. -/
theorem NamesUnique.congr (unique : NamesUnique a) (same : SameNames a b) : NamesUnique b :=
  fun i k name first second =>
    unique i k name (same.symm.listed first) (same.symm.listed second)

/-- An entry is listed under its own name. -/
theorem Listed.name_eq {i : Int} (listed : Listed a i name) : (a i).name = name :=
  eq_of_sameName listed.named

/-- An entry that is listed after one was created was listed before, or is that one. -/
theorem Created.listed {i k : Int} {other : Option String} (created : Created a b name i)
    (listed : Listed b k other) : k = i ∧ other = name ∨ Listed a k other := by
  by_cases here : k = i
  · subst here
    exact .inl ⟨rfl, listed.name_eq.symm.trans created.named⟩
  · obtain ⟨used, named⟩ := created.others k here
    exact .inr ⟨listed.low, listed.high, used.symm.trans listed.used, by
      rw [← named]
      exact listed.named⟩

/-- `getMutex` takes a slot for a name that is not there only. -/
theorem Gets.unique {i : Int} (gets : Gets a b name i) (unique : NamesUnique a) :
    NamesUnique b := by
  cases gets with
  | found _ same | full _ _ same => exact unique.congr same
  | created missing created =>
      intro j k other first second
      rcases created.listed first with ⟨rfl, rfl⟩ | firstBefore
      · rcases created.listed second with ⟨rfl, -⟩ | secondBefore
        · rfl
        · exact absurd secondBefore (missing _)
      · rcases created.listed second with ⟨-, rfl⟩ | secondBefore
        · exact absurd firstBefore (missing _)
        · exact unique j k other firstBefore secondBefore

/-- The entry that `getMutex` returns is listed under the name, if there is one. -/
theorem Gets.listed {i : Int} (gets : Gets a b name i) (handle : i ≠ ERROR)
    (text : name ≠ none) : Listed b i name := by
  cases gets with
  | found listed same => exact same.listed listed
  | full => exact absurd rfl handle
  | created _ created =>
      obtain ⟨word, rfl⟩ := Option.ne_none_iff_exists'.mp text
      exact ⟨created.low, created.high, created.used, by simp [created.named, sameName]⟩

/-- It keeps what is listed. -/
theorem Gets.keeps {i k : Int} {other : Option String} (gets : Gets a b name i)
    (listed : Listed a k other) : Listed b k other := by
  cases gets with
  | found _ same | full _ _ same => exact same.listed listed
  | created _ created =>
      have here : k ≠ i := by
        rintro rfl
        have free := created.free
        rw [listed.used] at free
        cases free
      obtain ⟨used, named⟩ := created.others k here
      exact ⟨listed.low, listed.high, used.trans listed.used, by
        rw [named]
        exact listed.named⟩

/-! ## The mutex of the table -/

/-- `freeMutex` of a mutex that nobody waits for leaves it free. -/
theorem freeMutex_idle {state : MutexState} {m : Int}
    (nobody : (state.mutexes m).cardinalBlocked = 0)
    (unlocked : state.isValidMutex m = false → (state.mutexes m).mutex = 0) :
    ¬ Busy ((state.freeMutex m).mutexes m) := by
  cases valid : state.isValidMutex m with
  | false => simp [freeMutex, valid, Busy, nobody, unlocked valid]
  | true =>
      rw [freeMutex_opens valid (by omega), setMutex_same]
      simp [Busy, nobody]

/-- `lockMutex` writes its own entry only. -/
theorem lockMutex_ne {mutex other : Int} (different : other ≠ mutex) (state : MutexState)
    (garbage : Int) : (state.lockMutex mutex garbage).1.mutexes other = state.mutexes other := by
  simp only [lockMutex]
  split
  · rfl
  · split
    · exact setMutex_ne different _ _
    · split <;> simp [addToBlocked, setMutex_ne different]

/-- When the mutex of the table is free, `getMutex` returns and leaves it free. -/
theorem getMutex_idle {state : MutexState} (idle : ¬ Busy (state.mutexes adminMutex))
    (name : Option String) (garbage : Int) :
    (∃ i, (state.getMutex name garbage).2 = some i) ∧
      ¬ Busy ((state.getMutex name garbage).1.mutexes adminMutex) := by
  have idle' := idle
  simp only [Busy, not_or, not_not] at idle'
  obtain ⟨unlocked, nobody⟩ := idle'
  have frees : ∀ table : MutexState, (table.mutexes adminMutex).cardinalBlocked = 0 →
      (table.isValidMutex adminMutex = false → (table.mutexes adminMutex).mutex = 0) →
      ¬ Busy ((table.getMutexLocked name).1.mutexes adminMutex) := by
    intro table count invalid
    obtain ⟨waiters, flag, used⟩ := table.createMutex_entry name adminMutex
    simp only [getMutexLocked]
    split
    · refine freeMutex_idle (by rw [waiters]; exact count) fun closed => ?_
      rw [flag]
      refine invalid ?_
      simp only [isValidMutex] at closed ⊢
      split
      · rfl
      · rename_i inside
        rw [if_neg inside] at closed
        cases before : (table.mutexes adminMutex).used with
        | false => rfl
        | true => rw [used before] at closed; cases closed
    · exact freeMutex_idle count invalid
  cases valid : state.isValidMutex adminMutex with
  | false =>
      have ignored : state.lockMutex adminMutex garbage = (state, .returned) := by
        simp [lockMutex, valid]
      simp only [getMutex, ignored]
      exact ⟨⟨_, rfl⟩, frees state nobody fun _ => unlocked⟩
  | true =>
      have taken := lockMutex_acquires valid unlocked nobody garbage
      simp only [getMutex, taken]
      refine ⟨⟨_, rfl⟩, frees _ (by simp) fun invalid => ?_⟩
      have still : (state.setMutex adminMutex
          { state.mutexes adminMutex with mutex := 1, cardinalBlocked := 0 }).isValidMutex
            adminMutex = true := by
        rw [← valid]
        exact isValidMutex_congr (by simp)
      rw [still] at invalid
      cases invalid

end Names

end MutexState

namespace SemaphoreState

/-- Entry `s` of the table is in use under the name. -/
structure Listed (semaphores : Int → Semaphore) (s : Int) (name : Option String) : Prop where
  low : 0 ≤ s
  high : s < MAX_SEMAPHORES
  used : (semaphores s).used = true
  named : MutexState.sameName (semaphores s).name name = true

/-- The same entries are in use under the same names and guarded by the same mutexes. -/
def SameSlots (before after : Int → Semaphore) : Prop :=
  ∀ s, (after s).used = (before s).used ∧
    (after s).name = (before s).name ∧
    (after s).mutex = (before s).mutex

section Slots

variable {a b c : Int → Semaphore} {name : Option String}

/-- A table has its own slots. -/
theorem SameSlots.refl (semaphores : Int → Semaphore) : SameSlots semaphores semaphores :=
  fun _ => ⟨rfl, rfl, rfl⟩

/-- Slots that stay twice stay. -/
theorem SameSlots.trans (first : SameSlots a b) (second : SameSlots b c) : SameSlots a c :=
  fun s => ⟨(second s).1.trans (first s).1, (second s).2.1.trans (first s).2.1,
    (second s).2.2.trans (first s).2.2⟩

/-- An entry in use under a name stays so while the slots stay. -/
theorem SameSlots.listed (same : SameSlots a b) {s : Int} (listed : Listed a s name) :
    Listed b s name :=
  ⟨listed.low, listed.high, (same s).1.trans listed.used,
    by rw [(same s).2.1]; exact listed.named⟩

/-- A write to an entry that leaves these fields. -/
theorem setSemaphore_sameSlots {state : SemaphoreState} {index : Int} {sem : Semaphore}
    (used : sem.used = (state.semaphores index).used)
    (named : sem.name = (state.semaphores index).name)
    (guarded : sem.mutex = (state.semaphores index).mutex) :
    SameSlots state.semaphores (state.setSemaphore index sem).semaphores := by
  intro s
  by_cases here : s = index
  · subst here
    rw [setSemaphore_same]
    exact ⟨used, named, guarded⟩
  · rw [setSemaphore_ne here]
    exact ⟨rfl, rfl, rfl⟩

/-- `wait` behind its lock gives no semaphore a name or a guard. -/
theorem waitLocked_sameSlots (state : SemaphoreState) (semaphore : Int) :
    SameSlots state.semaphores (state.waitLocked semaphore).1.semaphores := by
  have counted : ∀ value, SameSlots state.semaphores (state.setSemaphore semaphore
      { state.semaphores semaphore with semaphore := value }).semaphores :=
    fun _ => setSemaphore_sameSlots rfl rfl rfl
  simp only [waitLocked]
  split
  · exact counted _
  · have added : ∀ (other : SemaphoreState) (pid : Int),
        SameSlots other.semaphores (other.addToSemBlocked semaphore pid).semaphores :=
      fun _ _ => setSemaphore_sameSlots rfl rfl rfl
    exact (counted _).trans (added _ _)

/-- `wait` gives no semaphore a name or a guard. -/
theorem wait_sameSlots (state : SemaphoreState) (semaphore garbage : Int) :
    SameSlots state.semaphores (state.wait semaphore garbage).1.semaphores := by
  simp only [wait]
  split
  · exact .refl _
  · split
    · exact fun _ => ⟨rfl, rfl, rfl⟩
    · rename_i mutexes locked
      have rest := waitLocked_sameSlots { state with toMutexState := mutexes } semaphore
      split <;> rename_i done <;> rw [done] at rest <;> exact rest

/-- `wait` behind its lock gives no mutex a name. -/
theorem waitLocked_sameNames (state : SemaphoreState) (semaphore : Int) :
    MutexState.SameNames state.mutexes (state.waitLocked semaphore).1.mutexes := by
  simp only [waitLocked]
  split
  · exact MutexState.freeMutex_sameNames _ _
  · exact MutexState.freeMutex_sameNames (state.changeProcessState _ _) _

/-- `wait` gives no mutex a name. -/
theorem wait_sameNames (state : SemaphoreState) (semaphore garbage : Int) :
    MutexState.SameNames state.mutexes (state.wait semaphore garbage).1.mutexes := by
  have locks := state.lockMutex_sameNames (state.semaphores semaphore).mutex garbage
  simp only [wait]
  split
  · exact .refl _
  · split <;> rename_i mutexes locked <;> rw [locked] at locks
    · exact locks
    · have rest := waitLocked_sameNames { state with toMutexState := mutexes } semaphore
      split <;> rename_i done <;> rw [done] at rest <;> exact locks.trans rest

/-- `signal` gives no mutex a name. -/
theorem signal_sameNames (state : SemaphoreState) (semaphore : Int) :
    MutexState.SameNames state.mutexes (state.signal semaphore).mutexes := by
  intro i
  rw [signal_mutexes]
  exact ⟨rfl, rfl⟩

/-- `signal` gives no semaphore a name or a guard. -/
theorem signal_sameSlots (state : SemaphoreState) (semaphore : Int) :
    SameSlots state.semaphores (state.signal semaphore).semaphores := by
  have woken : SameSlots state.semaphores (state.unblockProcessSemaphore semaphore).semaphores :=
    @setSemaphore_sameSlots { state with processes := _ } semaphore _ rfl rfl rfl
  simp only [signal]
  split
  · exact .refl _
  · split
    · refine (woken.trans (setSemaphore_sameSlots ?_ ?_ ?_)).trans
        (setSemaphore_sameSlots ?_ ?_ ?_) <;> rfl
    · exact setSemaphore_sameSlots rfl rfl rfl

/-- A search finds an entry that is in use under the name, or there is none. -/
theorem getSemIndex_cases (state : SemaphoreState) (name : Option String) :
    (state.getSemIndex name = MUTEX_NOT_FOUND ∧ ∀ s, ¬ Listed state.semaphores s name) ∨
      Listed state.semaphores (state.getSemIndex name) name := by
  simp only [getSemIndex]
  split
  · rename_i s found
    have bound := List.mem_range.mp (List.mem_of_find?_eq_some found)
    have holds := List.find?_some found
    rw [Bool.and_eq_true] at holds
    exact .inr ⟨by omega, by omega, holds.2, holds.1⟩
  · rename_i missing
    refine .inl ⟨rfl, fun s listed => ?_⟩
    have high := listed.high
    have here := List.find?_eq_none.mp missing s.toNat
      (List.mem_range.mpr (by have low := listed.low; omega))
    rw [Int.toNat_of_nonneg listed.low, listed.used, listed.named] at here
    exact here rfl

/-- A free slot is found. -/
theorem getFreePositionSemaphores_room {state : SemaphoreState} {s : Int} (low : 0 ≤ s)
    (high : s < MAX_SEMAPHORES) (free : (state.semaphores s).used = false) :
    state.getFreePositionSemaphores ≠ NO_SPACE_LEFT_M := by
  simp only [getFreePositionSemaphores]
  split
  · simp only [NO_SPACE_LEFT_M]
    omega
  · rename_i full
    have here := List.find?_eq_none.mp full s.toNat (List.mem_range.mpr (by omega))
    rw [Int.toNat_of_nonneg low, free] at here
    exact absurd rfl here

/-- A free entry was given the name, and the others are the same. -/
structure Taken (before after : Int → Semaphore) (name : Option String) (s : Int) : Prop where
  low : 0 ≤ s
  high : s < MAX_SEMAPHORES
  free : (before s).used = false
  used : (after s).used = true
  named : (after s).name = name
  others : ∀ k, k ≠ s → (after k).used = (before k).used ∧
    (after k).name = (before k).name ∧
    (after k).mutex = (before k).mutex

/-- No two entries in use have the same name. -/
def NamesUnique (semaphores : Int → Semaphore) : Prop :=
  ∀ s k name, Listed semaphores s name → Listed semaphores k name → s = k

/-- An entry that is listed after one was taken was listed before, or is that one. -/
theorem Taken.listed {s k : Int} {other : Option String} (taken : Taken a b name s)
    (listed : Listed b k other) : k = s ∧ other = name ∨ Listed a k other := by
  by_cases here : k = s
  · subst here
    exact .inl ⟨rfl, (MutexState.eq_of_sameName listed.named).symm.trans taken.named⟩
  · obtain ⟨used, named, -⟩ := taken.others k here
    exact .inr ⟨listed.low, listed.high, used.symm.trans listed.used, by
      rw [← named]
      exact listed.named⟩

/-- The new entry is listed, if its name is a text. -/
theorem Taken.isListed {s : Int} (taken : Taken a b name s) (text : name ≠ none) :
    Listed b s name := by
  obtain ⟨word, rfl⟩ := Option.ne_none_iff_exists'.mp text
  refine ⟨taken.low, taken.high, taken.used, ?_⟩
  rw [taken.named]
  simp [MutexState.sameName]

/-- Taking a slot keeps what is listed. -/
theorem Taken.keeps {s k : Int} {other : Option String} (taken : Taken a b name s)
    (listed : Listed a k other) : Listed b k other := by
  have here : k ≠ s := by
    rintro rfl
    have free := taken.free
    rw [listed.used] at free
    cases free
  obtain ⟨used, named, -⟩ := taken.others k here
  exact ⟨listed.low, listed.high, used.trans listed.used, by
    rw [named]
    exact listed.named⟩

/-- A slot is taken for a name that is not there only. -/
theorem Taken.unique {s : Int} (taken : Taken a b name s) (missing : ∀ k, ¬ Listed a k name)
    (unique : NamesUnique a) : NamesUnique b := by
  intro j k other first second
  rcases taken.listed first with ⟨rfl, rfl⟩ | firstBefore
  · rcases taken.listed second with ⟨rfl, -⟩ | secondBefore
    · rfl
    · exact absurd secondBefore (missing _)
  · rcases taken.listed second with ⟨-, rfl⟩ | secondBefore
    · exact absurd firstBefore (missing _)
    · exact unique j k other firstBefore secondBefore

end Slots

end SemaphoreState

/-- What a part of a call is for. `createSemaphore` is the rest of a `semCreate` that has
already taken its slot. -/
inductive Request where
  | getMutex (name : Option String)
  | closeMutex (index : Int)
  | semCreate (name : Option String)
  | createSemaphore (name : Option String) (index : Int)
  | semClose (index : Int)
  | other
  deriving DecidableEq, Repr

def SyncCall.request : SyncCall → Request
  | .getMutex name => .getMutex name
  | .closeMutex index => .closeMutex index
  | .semCreate name _ => .semCreate name
  | .semClose index => .semClose index
  | .lockMutex _ | .freeMutex _ | .wait _ | .signal _ => .other

def Pending.request : Pending → Request
  | .getMutex name => .getMutex name
  | .semCreate name _ => .semCreate name
  | .createSemaphore name _ _ index => .createSemaphore name index
  | .lockMutex | .waitLocked _ | .wait => .other

/-- The outcomes of a part that gave out no handle and took no slot. A `getMutex` that
returns has looked, and so has the rest of a `createSemaphore`. -/
def Request.Plain : Request → Outcome → Prop
  | .getMutex _, .returned _ | .createSemaphore _ _, _ => False
  | _, .returned (some i) => i = ERROR
  | _, .yielded (.createSemaphore _ _ _ _) => False
  | _, _ => True

/-- What a part of a call does to the names and the guards of the semaphores, by what it
is for and how far it got. -/
inductive NameEffect (before after : SyncState) : Request → Outcome → Prop where
  | kept {request : Request} {outcome : Outcome}
      (names : MutexState.SameNames before.mutexes after.mutexes)
      (slots : SemaphoreState.SameSlots before.semaphores after.semaphores)
      (plain : request.Plain outcome) : NameEffect before after request outcome
  | got {name : Option String} {i : Int}
      (gets : MutexState.Gets before.mutexes after.mutexes name i)
      (slots : SemaphoreState.SameSlots before.semaphores after.semaphores) :
      NameEffect before after (.getMutex name) (.returned (some i))
  | closedMutex {i : Int} (valid : before.isValidMutex i = true)
      (closed : (after.mutexes i).used = false)
      (others : ∀ k, k ≠ i → (after.mutexes k).used = (before.mutexes k).used ∧
        (after.mutexes k).name = (before.mutexes k).name)
      (slots : SemaphoreState.SameSlots before.semaphores after.semaphores) :
      NameEffect before after (.closeMutex i) (.returned none)
  | closedSemaphore {s : Int} (valid : before.isValidSemaphore s = true)
      (names : MutexState.SameNames before.mutexes after.mutexes)
      (closed : (after.semaphores s).used = false)
      (others : ∀ k, k ≠ s → (after.semaphores k).used = (before.semaphores k).used ∧
        (after.semaphores k).name = (before.semaphores k).name ∧
        (after.semaphores k).mutex = (before.semaphores k).mutex) :
      NameEffect before after (.semClose s) (.returned none)
  | took {name : Option String} {start pid s : Int}
      (missing : ∀ k, ¬ SemaphoreState.Listed before.semaphores k name)
      (names : MutexState.SameNames before.mutexes after.mutexes)
      (taken : SemaphoreState.Taken before.semaphores after.semaphores name s) :
      NameEffect before after (.semCreate name) (.yielded (.createSemaphore name start pid s))
  | built {name : Option String} {s i : Int}
      (missing : ∀ k, ¬ SemaphoreState.Listed before.semaphores k name)
      (gets : MutexState.Gets before.mutexes after.mutexes name i)
      (taken : SemaphoreState.Taken before.semaphores after.semaphores name s)
      (guard : (after.semaphores s).mutex = i) :
      NameEffect before after (.semCreate name) (.returned (some s))
  | finished {name : Option String} {s i : Int}
      (gets : MutexState.Gets before.mutexes after.mutexes name i)
      (slot : (after.semaphores s).used = (before.semaphores s).used ∧
        (after.semaphores s).name = (before.semaphores s).name)
      (guard : (after.semaphores s).mutex = i)
      (others : ∀ k, k ≠ s → (after.semaphores k).used = (before.semaphores k).used ∧
        (after.semaphores k).name = (before.semaphores k).name ∧
        (after.semaphores k).mutex = (before.semaphores k).mutex) :
      NameEffect before after (.createSemaphore name s) (.returned (some s))

/-- A step that keeps the names, and the semaphores, may come before. -/
theorem NameEffect.after {before after : SyncState} {mutexes : MutexState} {request : Request}
    {outcome : Outcome} (effect : NameEffect { before with toMutexState := mutexes } after
      request outcome)
    (locks : MutexState.SameNames before.mutexes mutexes.mutexes) :
    NameEffect before after request outcome := by
  have valid : ∀ i, mutexes.isValidMutex i = before.isValidMutex i := fun i =>
    MutexState.isValidMutex_congr (locks i).1
  cases effect with
  | kept names slots plain => exact .kept (locks.trans names) slots plain
  | got gets slots => exact .got (gets.within locks (.refl _)) slots
  | closedMutex here closed others slots =>
      refine .closedMutex ((valid _).symm.trans here) closed (fun k other => ?_) slots
      exact ⟨((others k other).1).trans (locks k).1, ((others k other).2).trans (locks k).2⟩
  | closedSemaphore here names closed others =>
      exact .closedSemaphore here (locks.trans names) closed others
  | took missing names taken => exact .took missing (locks.trans names) taken
  | built missing gets taken guard =>
      exact .built missing (gets.within locks (.refl _)) taken guard
  | finished gets slot guard others =>
      exact .finished (gets.within locks (.refl _)) slot guard others

namespace NameEffect

variable {before after : SyncState} {request : Request} {outcome : Outcome}

/-- A mutex that is still in use is listed under the name that it had. -/
theorem keepsMutex (effect : NameEffect before after request outcome) {i : Int}
    {name : Option String} (listed : MutexState.Listed before.mutexes i name)
    (used : (after.mutexes i).used = true) : MutexState.Listed after.mutexes i name := by
  cases effect with
  | kept names | closedSemaphore _ names | took _ names => exact names.listed listed
  | got gets | built _ gets | finished gets => exact gets.keeps listed
  | @closedMutex k valid closed others slots =>
      have different : i ≠ k := by
        rintro rfl
        rw [closed] at used
        cases used
      exact ⟨listed.low, listed.high, used, by
        rw [(others i different).2]
        exact listed.named⟩

/-- So is a semaphore. -/
theorem keepsSemaphore (effect : NameEffect before after request outcome) {s : Int}
    {name : Option String} (listed : SemaphoreState.Listed before.semaphores s name)
    (used : (after.semaphores s).used = true) : SemaphoreState.Listed after.semaphores s name := by
  have moved : (after.semaphores s).name = (before.semaphores s).name →
      SemaphoreState.Listed after.semaphores s name := fun same =>
    ⟨listed.low, listed.high, used, by
      rw [same]
      exact listed.named⟩
  cases effect with
  | kept _ slots | got _ slots | closedMutex _ _ _ slots => exact slots.listed listed
  | @closedSemaphore k valid names closed others =>
      have different : s ≠ k := by
        rintro rfl
        rw [closed] at used
        cases used
      exact moved (others s different).2.1
  | took _ _ taken | built _ _ taken => exact taken.keeps listed
  | @finished name k i gets slot guard others =>
      by_cases here : s = k
      · subst here
        exact moved slot.2
      · exact moved (others s here).2.1

/-- A part of a call keeps the names of the mutexes unique. -/
theorem mutexNames (effect : NameEffect before after request outcome)
    (unique : MutexState.NamesUnique before.mutexes) : MutexState.NamesUnique after.mutexes := by
  cases effect with
  | kept names | closedSemaphore _ names | took _ names => exact unique.congr names
  | got gets | built _ gets | finished gets => exact gets.unique unique
  | @closedMutex c valid closed others slots =>
      have back : ∀ {i name}, MutexState.Listed after.mutexes i name →
          MutexState.Listed before.mutexes i name := by
        intro i name listed
        have different : i ≠ c := by
          rintro rfl
          have used := listed.used
          rw [closed] at used
          cases used
        obtain ⟨used, named⟩ := others i different
        exact ⟨listed.low, listed.high, used.symm.trans listed.used, by
          rw [← named]
          exact listed.named⟩
      exact fun i k name first second => unique i k name (back first) (back second)

/-- A part of a call keeps the names of the semaphores unique. -/
theorem semaphoreNames (effect : NameEffect before after request outcome)
    (unique : SemaphoreState.NamesUnique before.semaphores) :
    SemaphoreState.NamesUnique after.semaphores := by
  -- Where no slot is taken, what is in use now was in use before under the same name.
  have fewer : (∀ s, (after.semaphores s).used = true → (before.semaphores s).used = true ∧
      (after.semaphores s).name = (before.semaphores s).name) →
      SemaphoreState.NamesUnique after.semaphores := by
    intro same s k name first second
    have back : ∀ {j}, SemaphoreState.Listed after.semaphores j name →
        SemaphoreState.Listed before.semaphores j name := by
      intro j listed
      obtain ⟨used, named⟩ := same j listed.used
      exact ⟨listed.low, listed.high, used, by
        rw [← named]
        exact listed.named⟩
    exact unique s k name (back first) (back second)
  cases effect with
  | kept _ slots | got _ slots | closedMutex _ _ _ slots =>
      exact fewer fun s used => ⟨(slots s).1.symm.trans used, (slots s).2.1⟩
  | took missing _ taken | built missing _ taken => exact taken.unique missing unique
  | @closedSemaphore c valid names closed others =>
      refine fewer fun s used => ?_
      have different : s ≠ c := by
        rintro rfl
        rw [closed] at used
        cases used
      obtain ⟨same, named, -⟩ := others s different
      exact ⟨same.symm.trans used, named⟩
  | @finished name c i gets slot guard others =>
      refine fewer fun s used => ?_
      by_cases here : s = c
      · subst here
        exact ⟨slot.1.symm.trans used, slot.2⟩
      · obtain ⟨same, named, -⟩ := others s here
        exact ⟨same.symm.trans used, named⟩

end NameEffect

namespace SyncState

open MutexState SemaphoreState

/-- What `semCreate` does to the names behind its lock. -/
theorem semCreateLocked_effect (state : SyncState) (name : Option String) (start garbage : Int) :
    NameEffect state (state.semCreateLocked name start garbage).1 (.semCreate name)
      (state.semCreateLocked name start garbage).2 := by
  simp only [semCreateLocked]
  rcases state.getSemIndex_cases name with ⟨notFound, missing⟩ | found
  · rw [if_neg (not_not.mpr notFound)]
    by_cases space : state.getFreePositionSemaphores = NO_SPACE_LEFT_M
    · have full : state.createSemaphore name start garbage =
          (state.toSemaphoreState, some ERROR) := by
        simp [createSemaphore, space]
      rw [full]
      exact .kept (MutexState.freeMutex_sameNames _ _) (.refl _) rfl
    · obtain ⟨low, high⟩ :=
        (getFreePositionSemaphores_spec state.toSemaphoreState).resolve_left space
      have free := getFreePositionSemaphores_unused space
      have gets := state.getMutex_gets name garbage
      simp only [createSemaphore, if_neg space, setSemaphore_toMutexState]
      split <;> rename_i created <;> split at created <;> rename_i got <;> rw [got] at gets
      · cases created
      · obtain ⟨rfl, index⟩ := Prod.mk.inj created
        obtain rfl := Option.some.inj index
        obtain ⟨none, -⟩ | ⟨i, same, gets⟩ := gets
        · cases none
        · obtain rfl := Option.some.inj same
          refine .built missing (gets.within (.refl _) (MutexState.freeMutex_sameNames _ _))
            ⟨low, high, free, ?_, ?_, fun k other => ?_⟩ ?_
          · simp [semCreateReturn, createSemaphoreLocked]
          · simp [semCreateReturn, createSemaphoreLocked]
          · simp [semCreateReturn, createSemaphoreLocked, setSemaphore_ne other]
          · simp [semCreateReturn, createSemaphoreLocked]
      · obtain ⟨rfl, -⟩ := Prod.mk.inj created
        obtain ⟨-, names⟩ | ⟨i, same, -⟩ := gets
        · refine .took missing names ⟨low, high, free, ?_, ?_, fun k other => ?_⟩
          · simp
          · simp
          · simp [setSemaphore_ne other]
        · cases same
      · cases (Prod.mk.inj created).2
  · have inUse : state.getSemIndex name ≠ MUTEX_NOT_FOUND := by
      intro notFound
      have low := found.low
      rw [notFound] at low
      exact absurd low (by decide)
    rw [if_pos inUse]
    exact .kept (.refl _) (.refl _) rfl

/-- With the mutex of the mutex table free, the rest of `semCreate` returns. -/
theorem semCreateLocked_idle {state : SyncState} (idle : ¬ Busy (state.mutexes adminMutex))
    (apart : state.semaphoreMutex ≠ adminMutex) (name : Option String) (start garbage : Int) :
    (∃ value, (state.semCreateLocked name start garbage).2 = .returned value) ∧
      ¬ Busy ((state.semCreateLocked name start garbage).1.mutexes adminMutex) := by
  simp only [semCreateLocked]
  split
  · exact ⟨⟨_, rfl⟩, idle⟩
  · obtain ⟨⟨i, got⟩, free⟩ := state.getMutex_idle idle name garbage
    simp only [createSemaphore]
    split <;> rename_i semaphores result created <;> split at created
    · obtain ⟨rfl, -⟩ := Prod.mk.inj created
      refine ⟨⟨_, rfl⟩, ?_⟩
      simp only [semCreateReturn]
      rwa [freeMutex_ne apart.symm]
    · simp only [setSemaphore_toMutexState] at created
      split at created <;> rename_i after found <;> rw [found] at got free
      · cases got
      · obtain ⟨rfl, -⟩ := Prod.mk.inj created
        refine ⟨⟨_, rfl⟩, ?_⟩
        simp only [semCreateReturn, createSemaphoreLocked, setSemaphore_toMutexState]
        rwa [freeMutex_ne apart.symm]
    · cases (Prod.mk.inj created).2
    · simp only [setSemaphore_toMutexState] at created
      split at created <;> rename_i after found <;> rw [found] at got
      · cases got
      · cases (Prod.mk.inj created).2

/-- The rest of `semCreate` leaves that mutex free and does not wait again. -/
theorem resume_semCreate_idle {state after : SyncState} {outcome : Outcome}
    (idle : ¬ Busy (state.mutexes adminMutex)) (apart : state.semaphoreMutex ≠ adminMutex)
    {name : Option String} {start garbage : Int}
    (resumed : state.resume garbage (.semCreate name start) = (after, outcome)) :
    ¬ Busy (after.mutexes adminMutex) ∧ ∀ pending, outcome ≠ .yielded pending := by
  obtain ⟨⟨value, returns⟩, free⟩ := semCreateLocked_idle idle apart name start garbage
  simp only [resume] at resumed
  rw [resumed] at returns free
  refine ⟨free, fun pending yields => ?_⟩
  rw [yields] at returns
  cases returns

/-- So does `semCreate`, unless it waits for the mutex of the semaphore table. -/
theorem semCreate_idle {state : SyncState} (idle : ¬ Busy (state.mutexes adminMutex))
    (apart : state.semaphoreMutex ≠ adminMutex) (name : Option String) (start garbage : Int) :
    ¬ Busy ((state.semCreate name start garbage).1.mutexes adminMutex) ∧
      ∀ pending, (state.semCreate name start garbage).2 = .yielded pending →
        pending = .semCreate name start := by
  have other := lockMutex_ne apart.symm state.toMutexState garbage
  simp only [semCreate]
  split <;> rename_i mutexes locked <;> rw [locked] at other
  · obtain ⟨⟨value, returns⟩, free⟩ := @semCreateLocked_idle { state with toMutexState := mutexes }
      (by rw [other]; exact idle) apart name start garbage
    refine ⟨free, fun pending yields => ?_⟩
    rw [returns] at yields
    cases yields
  · refine ⟨by rw [other]; exact idle, ?_⟩
    rintro _ ⟨⟩
    rfl

/-- `cleanSemaphore` over the first `count` entries frees these. -/
theorem cleanedSemaphores_unused (state : SemaphoreState) (count : Nat) {s : Int} (low : 0 ≤ s)
    (high : s < count) :
    (((List.range count).foldl (fun state (i : Nat) => state.cleanSemaphore i)
      state).semaphores s).used = false := by
  induction count with
  | zero => omega
  | succ count ih =>
      simp only [List.range_succ, List.foldl_append, List.foldl_cons, List.foldl_nil,
        cleanSemaphore]
      by_cases same : s = count
      · rw [same, setSemaphore_same]
      · rw [setSemaphore_ne same]
        exact ih (by omega)

/-- After the initialisation no semaphore is in use, the mutex of the mutex table is free,
and that of the semaphore table is another one. -/
theorem initializeTables_names (state : SyncState) :
    MutexState.NamesUnique state.initializeTables.mutexes ∧
      (∀ s : Int, 0 ≤ s → s < MAX_SEMAPHORES →
        (state.initializeTables.semaphores s).used = false) ∧
      ¬ Busy (state.initializeTables.mutexes adminMutex) ∧
      state.initializeTables.semaphoreMutex ≠ adminMutex := by
  obtain ⟨mutexes, -⟩ :=
    cleanedSemaphores ⟨state.initializeMutexes, state.semaphores⟩ MAX_SEMAPHORES
  have unused := fun s low high => @cleanedSemaphores_unused
    ⟨state.initializeMutexes, state.semaphores⟩ MAX_SEMAPHORES s low high
  have entry := fun i low high => @initializeMutexes_entry state.toMutexState i low high
  -- The only entry in use has no name.
  have noName : ∀ i name, ¬ MutexState.Listed state.initializeMutexes.mutexes i name := by
    intro i name listed
    obtain ⟨creator, here⟩ := entry i listed.low listed.high
    have named := listed.named
    rw [here] at named
    simp [sameName] at named
  have adminUsed : (state.initializeMutexes.mutexes adminMutex).used = true := by
    obtain ⟨creator, here⟩ := entry adminMutex (by decide) (by decide)
    simp [here]
  have idle : ¬ Busy (state.initializeMutexes.mutexes adminMutex) := by
    obtain ⟨creator, here⟩ := entry adminMutex (by decide) (by decide)
    rw [here]
    simp [Busy, WaitQueue.empty]
  obtain ⟨⟨i, got⟩, free⟩ := getMutex_idle idle (some "semaphoreMutex") 0
  have gets := state.initializeMutexes.getMutex_gets (some "semaphoreMutex") 0
  rw [got] at gets
  obtain ⟨none, -⟩ | ⟨j, same, gets⟩ := gets
  · cases none
  obtain rfl := Option.some.inj same
  have unique := gets.unique fun i k name first _ => absurd first (noName i name)
  have apart : i ≠ adminMutex := by
    rintro rfl
    cases gets with
    | found listed => exact noName _ _ listed
    | created missing created =>
        have vacant := created.free
        rw [adminUsed] at vacant
        cases vacant
  simp only [initializeTables, initializeSemaphores]
  simp only [mutexes] at got ⊢
  split
  · rename_i after index result
    rw [result] at got unique free
    obtain rfl := Option.some.inj got
    exact ⟨unique, unused, free, apart⟩
  · rename_i after result
    rw [result] at got
    cases got

/-- The effect of a call, up to its end or its first `_yield`. -/
theorem enter_effect (state : SyncState) (garbage : Int) (call : SyncCall) :
    NameEffect state (state.enter garbage call).1 call.request (state.enter garbage call).2 := by
  cases call with
  | lockMutex mutex =>
      have locks := state.lockMutex_sameNames mutex garbage
      simp only [enter]
      split <;> rename_i locked <;> rw [locked] at locks <;> exact .kept locks (.refl _) trivial
  | freeMutex mutex => exact .kept (MutexState.freeMutex_sameNames _ _) (.refl _) trivial
  | getMutex name =>
      have gets := state.getMutex_gets name garbage
      simp only [enter]
      split <;> rename_i got <;> rw [got] at gets
      · obtain ⟨none, -⟩ | ⟨i, same, gets⟩ := gets
        · cases none
        · obtain rfl := Option.some.inj same
          exact .got gets (.refl _)
      · obtain ⟨-, names⟩ | ⟨i, same, -⟩ := gets
        · exact .kept names (.refl _) trivial
        · cases same
  | closeMutex index =>
      simp only [enter, closeMutex]
      split
      · exact .kept (.refl _) (.refl _) trivial
      · rename_i valid
        split
        · refine .closedMutex (by simpa using valid) ?_ (fun k other => ?_) (.refl _)
          · simp
          · simp [setMutex_ne other]
        · exact .kept (.refl _) (.refl _) trivial
  | semCreate name start =>
      have locks := state.lockMutex_sameNames state.semaphoreMutex garbage
      simp only [enter, semCreate]
      split <;> rename_i mutexes locked <;> rw [locked] at locks
      · exact (semCreateLocked_effect { state with toMutexState := mutexes } name start
          garbage).after locks
      · exact .kept locks (.refl _) trivial
  | wait semaphore =>
      have slots := state.wait_sameSlots semaphore garbage
      have names := state.wait_sameNames semaphore garbage
      simp only [enter]
      split <;> rename_i waited <;> rw [waited] at slots names <;>
        exact .kept names slots trivial
  | signal semaphore =>
      exact .kept (state.signal_sameNames semaphore) (state.signal_sameSlots semaphore) trivial
  | semClose index =>
      simp only [enter, semClose]
      split
      · exact .kept (.refl _) (.refl _) trivial
      · rename_i valid
        split
        · refine .closedSemaphore (by simpa using valid) (.refl _) ?_ (fun k other => ?_)
          · simp
          · simp [setSemaphore_ne other]
        · exact .kept (.refl _) (.refl _) trivial

/-- The effect of the rest of a call. -/
theorem resume_effect (state : SyncState) (garbage : Int) (pending : Pending) :
    NameEffect state (state.resume garbage pending).1 pending.request
      (state.resume garbage pending).2 := by
  cases pending with
  | lockMutex | wait => exact .kept (.refl _) (.refl _) trivial
  | getMutex name => exact .got (state.getMutexLocked_gets name) (.refl _)
  | semCreate name start => exact semCreateLocked_effect state name start garbage
  | createSemaphore name start pid index =>
      have gets := state.getMutexLocked_gets name
      refine .finished (gets.within (.refl _) (MutexState.freeMutex_sameNames _ _)) ?_ ?_
        fun k other => ?_
      · simp [resume, semCreateReturn, createSemaphoreLocked]
      · simp [resume, semCreateReturn, createSemaphoreLocked]
      · simp [resume, semCreateReturn, createSemaphoreLocked, setSemaphore_ne other]
  | waitLocked semaphore =>
      have slots := state.waitLocked_sameSlots semaphore
      have names := state.waitLocked_sameNames semaphore
      simp only [resume]
      split <;> rename_i waited <;> rw [waited] at slots names <;>
        exact .kept names slots trivial

end SyncState

end SistemasOperativos.Kernel
