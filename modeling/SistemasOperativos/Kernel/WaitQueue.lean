import SistemasOperativos.Foundation.SlotArray
import SistemasOperativos.Kernel.ProcessTable

/-!
# Waiting processes of a mutex or a semaphore

`Mutex` and `Semaphore` hold the same two fields for the processes that wait,
an array of pids and a counter, and mutex.c and semaphores.c handle them with
the same statements. `WaitQueue` is that pair. `entries` is what the array
says, `Counted` that the counter agrees with it.
-/

namespace SistemasOperativos.Kernel

open SistemasOperativos.Foundation

/-- Slots of a waiting array. -/
def MAX_BLOCKED_QUEUE_SIZE : Nat := 20

/-- The mark of an unused slot. -/
def NO_BLOCKED_QUEUE_VALUE : Int := -1

/-- Result of a search for a free slot that finds none. -/
def NO_SPACE_LEFT_M : Int := -2

/-- The fields `queue` and `cardinalBlocked`. -/
structure WaitQueue where
  queue : Vector Int MAX_BLOCKED_QUEUE_SIZE
  cardinalBlocked : Int
  deriving DecidableEq

/-- Index of the first unused slot, or `NO_SPACE_LEFT_M`. -/
def getFreeSpotInBlockedQueue (blocked : Vector Int MAX_BLOCKED_QUEUE_SIZE) : Int :=
  match vacantSlot NO_BLOCKED_QUEUE_VALUE blocked.toList with
  | some i => i
  | none => NO_SPACE_LEFT_M

namespace WaitQueue

/-- What `cleanMutex` and `cleanSemaphore` leave. -/
def empty : WaitQueue where
  queue := Vector.replicate _ NO_BLOCKED_QUEUE_VALUE
  cardinalBlocked := 0

/-- `isQueueFull` and `isSemaphoreQueueFull`. -/
def isQueueFull (waiters : WaitQueue) : Bool :=
  decide ((MAX_BLOCKED_QUEUE_SIZE : Int) ≤ waiters.cardinalBlocked)

/-- `addToBlocked` and `addToSemBlocked`: a pid for which there is no slot is dropped. -/
def addToBlocked (waiters : WaitQueue) (pid : Int) : WaitQueue :=
  let index := getFreeSpotInBlockedQueue waiters.queue
  if index = NO_SPACE_LEFT_M then waiters
  else
    { queue := waiters.queue.setIfInBounds index.toNat pid
      cardinalBlocked := waiters.cardinalBlocked + 1 }

/-- `unblockProcess` and `unblockProcessSemaphore`: the pid in the lowest used
slot becomes READY and its slot unused. -/
def unblockProcess (waiters : WaitQueue) (processes : ProcessTable) : ProcessTable × WaitQueue :=
  match occupiedSlot NO_BLOCKED_QUEUE_VALUE waiters.queue.toList with
  | some i =>
      (processes.changeProcessState (waiters.queue.toList.getD i NO_BLOCKED_QUEUE_VALUE) .ready,
        { waiters with queue := waiters.queue.setIfInBounds i NO_BLOCKED_QUEUE_VALUE })
  | none => (processes, waiters)

/-- The waiting pids in slot order. -/
def entries (waiters : WaitQueue) : List Int :=
  occupied NO_BLOCKED_QUEUE_VALUE waiters.queue.toList

/-- The counter is the number of waiting pids. -/
def Counted (waiters : WaitQueue) : Prop := waiters.cardinalBlocked = waiters.entries.length

instance (waiters : WaitQueue) : Decidable waiters.Counted :=
  inferInstanceAs (Decidable (_ = _))

/-- All waiting pids stand in front of the first unused slot. -/
def Packed (waiters : WaitQueue) : Prop :=
  Foundation.Packed NO_BLOCKED_QUEUE_VALUE waiters.queue.toList

instance (waiters : WaitQueue) : Decidable waiters.Packed :=
  inferInstanceAs (Decidable (Foundation.Packed _ _))

@[simp] theorem entries_empty : empty.entries = [] := by decide

@[simp] theorem counted_empty : empty.Counted := by decide

variable {waiters : WaitQueue}

/-- A pid is an entry exactly when it stands in a slot. -/
theorem mem_entries {pid : Int} :
    pid ∈ waiters.entries ↔ pid ∈ waiters.queue ∧ pid ≠ NO_BLOCKED_QUEUE_VALUE := by
  simp [entries]

/-- No more pids wait than there are slots. -/
theorem entries_length_le (waiters : WaitQueue) :
    waiters.entries.length ≤ MAX_BLOCKED_QUEUE_SIZE := by
  have slots := List.length_filter_le (fun pid => decide (pid ≠ NO_BLOCKED_QUEUE_VALUE))
    waiters.queue.toList
  rwa [Vector.length_toList] at slots

/-- There is a free slot as long as fewer than 20 pids wait. -/
theorem vacantSlot_of_lt (room : waiters.entries.length < MAX_BLOCKED_QUEUE_SIZE) :
    ∃ i, vacantSlot NO_BLOCKED_QUEUE_VALUE waiters.queue.toList = some i := by
  apply Option.isSome_iff_exists.mp
  rw [vacantSlot_isSome]
  simpa [entries] using room

/-- With a free slot `addToBlocked` adds the pid and counts it. -/
theorem addToBlocked_entries {pid : Int} (entry : pid ≠ NO_BLOCKED_QUEUE_VALUE)
    (room : waiters.entries.length < MAX_BLOCKED_QUEUE_SIZE) :
    (waiters.addToBlocked pid).entries.Perm (pid :: waiters.entries) ∧
      (waiters.addToBlocked pid).cardinalBlocked = waiters.cardinalBlocked + 1 := by
  obtain ⟨i, found⟩ := vacantSlot_of_lt room
  have index : getFreeSpotInBlockedQueue waiters.queue = i := by
    simp [getFreeSpotInBlockedQueue, found]
  have space : (i : Int) ≠ NO_SPACE_LEFT_M := by
    simp only [NO_SPACE_LEFT_M]
    omega
  refine ⟨?_, by simp [addToBlocked, index, space]⟩
  simpa [addToBlocked, index, space, entries] using occupied_set_vacantSlot found entry

/-- Without a free slot `addToBlocked` drops the pid. -/
theorem addToBlocked_full {pid : Int}
    (full : ¬ waiters.entries.length < MAX_BLOCKED_QUEUE_SIZE) :
    waiters.addToBlocked pid = waiters := by
  have none : vacantSlot NO_BLOCKED_QUEUE_VALUE waiters.queue.toList = none := by
    rw [← Option.not_isSome_iff_eq_none, vacantSlot_isSome]
    simpa [entries] using full
  simp [addToBlocked, getFreeSpotInBlockedQueue, none]

/-- In a packed array `addToBlocked` adds the pid behind the others, if there is a slot. -/
theorem Packed.addToBlocked (packed : waiters.Packed) {pid : Int}
    (entry : pid ≠ NO_BLOCKED_QUEUE_VALUE) :
    (waiters.addToBlocked pid).entries = waiters.entries ∨
      (waiters.addToBlocked pid).entries = waiters.entries ++ [pid] := by
  by_cases room : waiters.entries.length < MAX_BLOCKED_QUEUE_SIZE
  · obtain ⟨i, found⟩ := vacantSlot_of_lt room
    have index : getFreeSpotInBlockedQueue waiters.queue = i := by
      simp [getFreeSpotInBlockedQueue, found]
    have space : (i : Int) ≠ NO_SPACE_LEFT_M := by
      simp only [NO_SPACE_LEFT_M]
      omega
    right
    simpa [WaitQueue.addToBlocked, index, space, entries] using
      occupied_set_packed found entry packed
  · exact .inl (by rw [addToBlocked_full room])

/-- `addToBlocked` keeps the counter equal to the number of entries. -/
theorem Counted.addToBlocked (counted : waiters.Counted) {pid : Int}
    (entry : pid ≠ NO_BLOCKED_QUEUE_VALUE) : (waiters.addToBlocked pid).Counted := by
  by_cases room : waiters.entries.length < MAX_BLOCKED_QUEUE_SIZE
  · obtain ⟨added, count⟩ := addToBlocked_entries entry room
    simp only [Counted] at counted ⊢
    rw [count, added.length_eq, counted]
    simp
  · rwa [addToBlocked_full room]

/-- A counter below 20 means that there is a free slot. -/
theorem Counted.room (counted : waiters.Counted) (notFull : waiters.isQueueFull = false) :
    waiters.entries.length < MAX_BLOCKED_QUEUE_SIZE := by
  simp only [isQueueFull, decide_eq_false_iff_not, Counted] at counted notFull
  omega

/-- Nobody but the pid comes into the array, and nobody leaves it. -/
theorem mem_addToBlocked {pid q : Int} (member : q ∈ (waiters.addToBlocked pid).entries) :
    q = pid ∨ q ∈ waiters.entries := by
  simp only [addToBlocked] at member
  split at member
  · exact .inr member
  · rw [mem_entries, Vector.mem_iff_getElem] at member
    obtain ⟨⟨i, bound, here⟩, entry⟩ := member
    by_cases same : (getFreeSpotInBlockedQueue waiters.queue).toNat = i
    · simp only [Vector.getElem_setIfInBounds, same, if_true] at here
      exact .inl here.symm
    · simp only [Vector.getElem_setIfInBounds, same, if_false] at here
      exact .inr (mem_entries.mpr ⟨Vector.mem_of_getElem here, entry⟩)

/-- `unblockProcess` takes the first entry out of the array. -/
theorem unblockProcess_entries (waiters : WaitQueue) (processes : ProcessTable) :
    (waiters.unblockProcess processes).2.entries = waiters.entries.tail := by
  cases found : occupiedSlot NO_BLOCKED_QUEUE_VALUE waiters.queue.toList with
  | none =>
      have nobody := found
      rw [occupiedSlot_eq_none] at nobody
      simp [unblockProcess, found, entries, nobody]
  | some i =>
      obtain ⟨x, -, split⟩ := occupied_set_occupiedSlot found
      simp [unblockProcess, found, entries, split]

/-- `unblockProcess` wakes the first entry and takes it out of the array. -/
theorem unblockProcess_eq {pid : Int} {rest : List Int} (waiting : waiters.entries = pid :: rest)
    (processes : ProcessTable) :
    (waiters.unblockProcess processes).1 = processes.changeProcessState pid .ready ∧
      (waiters.unblockProcess processes).2.entries = rest ∧
      (waiters.unblockProcess processes).2.cardinalBlocked = waiters.cardinalBlocked := by
  cases found : occupiedSlot NO_BLOCKED_QUEUE_VALUE waiters.queue.toList with
  | none =>
      rw [occupiedSlot_eq_none] at found
      rw [entries, found] at waiting
      cases waiting
  | some i =>
      obtain ⟨x, stored, split⟩ := occupied_set_occupiedSlot found
      rw [entries, split] at waiting
      obtain ⟨rfl, rest⟩ := List.cons.inj waiting
      refine ⟨?_, ?_, ?_⟩
      · simp only [unblockProcess, found, List.getD_eq_getElem?_getD, stored, Option.getD_some]
      · simpa [unblockProcess, found, entries] using rest
      · simp [unblockProcess, found]

/-- With nobody in the array `unblockProcess` does nothing. -/
theorem unblockProcess_nil (nobody : waiters.entries = []) (processes : ProcessTable) :
    waiters.unblockProcess processes = (processes, waiters) := by
  rw [entries, ← occupiedSlot_eq_none] at nobody
  simp only [unblockProcess, nobody]

@[simp] theorem unblockProcess_present (waiters : WaitQueue) (processes : ProcessTable)
    (pid : Int) :
    (waiters.unblockProcess processes).1.state pid = none ↔ processes.state pid = none := by
  unfold unblockProcess
  split <;> simp

@[simp] theorem unblockProcess_current (waiters : WaitQueue) (processes : ProcessTable) :
    (waiters.unblockProcess processes).1.current = processes.current := by
  unfold unblockProcess
  split <;> simp

end WaitQueue

end SistemasOperativos.Kernel
