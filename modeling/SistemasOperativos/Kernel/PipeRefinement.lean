import SistemasOperativos.Kernel.PipeClosing
import SistemasOperativos.Kernel.PipeQueue

/-!
# One call on a pipe

The queue that the fields of a pipe represent, with any value of `readFlag`, and what one
call of `write` or `read` does to it (`calls_refine`). `write` ends with `unlockProcesses`,
which looks for the pipe under its name and finds another one, or NULL, when a pipe of the
same name was created before it. That wakes the wrong processes, but leaves the queues alone.
-/

namespace SistemasOperativos.Kernel

open SistemasOperativos.Foundation SistemasOperativos.Semantics

namespace Pipe

/-- The fields represent a queue, whose bytes are `stored`. -/
structure Represents (p : Pipe) : Prop where
  position : p.position < PIPE_LENGTH
  endPosition : p.endPosition < PIPE_LENGTH
  flag : p.readFlag = 1 → p.position = p.endPosition

instance (p : Pipe) : Decidable p.Represents :=
  decidable_of_iff (p.position < PIPE_LENGTH ∧ p.endPosition < PIPE_LENGTH ∧
      (p.readFlag = 1 → p.position = p.endPosition))
    ⟨fun ⟨position, endPosition, flag⟩ => ⟨position, endPosition, flag⟩,
      fun ⟨position, endPosition, flag⟩ => ⟨position, endPosition, flag⟩⟩

/-- The part of a message that the pipe has room for. -/
def accepted (p : Pipe) (message : List UInt8) : List UInt8 :=
  (cString message).take (PIPE_LENGTH - p.stored.length)

/-- The part of the queue that a `read` asks for. -/
def requested (p : Pipe) (bytes : Int) : List UInt8 :=
  if bytes = -1 then p.stored else p.stored.take bytes.toNat

variable {p : Pipe}

@[simp] theorem length_stored (p : Pipe) : p.stored.length = p.count := length_window ..

/-- The bytes end where the next ones go. -/
theorem Represents.stop (represents : p.Represents) :
    p.endPosition = (p.position + p.count) % PIPE_LENGTH ∧ p.count ≤ PIPE_LENGTH := by
  obtain ⟨position, endPosition, flag⟩ := represents
  unfold count
  simp only [PIPE_LENGTH] at *
  split
  · split <;> omega
  · omega

/-- The test for a full pipe finds the pipes that hold `PIPE_LENGTH` bytes. -/
theorem Represents.full_iff (represents : p.Represents) : p.Full ↔ p.count = PIPE_LENGTH := by
  obtain ⟨position, endPosition, flag⟩ := represents
  unfold Full count
  simp only [PIPE_LENGTH] at *
  split
  · split <;> simp_all
  · omega

/-- A queue with bytes is not taken for empty. -/
theorem not_drained_of_stored (some : p.stored ≠ []) : ¬ p.Drained := by
  rintro ⟨same, flag⟩
  have length : p.count ≠ 0 := by
    rw [← length_stored]
    exact mt List.eq_nil_of_length_eq_zero some
  rw [count, if_pos same, flag] at length
  simp at length

/-- A stretch of a pipe that `write` or `read` has left behind. -/
theorem represents_of_stretch {held : Nat} (position : p.position < PIPE_LENGTH)
    (stop : p.endPosition = (p.position + held) % PIPE_LENGTH) (bound : held ≤ PIPE_LENGTH)
    (flag : p.readFlag = 1 ↔ held = PIPE_LENGTH) :
    p.Represents ∧ p.stored = window p.pipe p.position held := by
  have counted : p.count = held := by
    unfold count
    simp only [PIPE_LENGTH] at *
    split
    · split <;> omega
    · omega
  refine ⟨⟨position, ?_, fun set => ?_⟩, by rw [stored, counted]⟩
  · rw [stop]
    exact Nat.mod_lt _ (by decide)
  · rw [stop, flag.mp set, Nat.add_mod_right, Nat.mod_eq_of_lt position]

/-- Behind its test for a full pipe `write` appends what there is room for. -/
theorem Represents.append (represents : p.Represents) (room : p.count < PIPE_LENGTH)
    {message : List UInt8} (text : cString message ≠ []) :
    (p.append message p.endPosition).1.Represents ∧
      (p.append message p.endPosition).1.stored = p.stored ++ p.accepted message ∧
      (p.append message p.endPosition).2 = (p.accepted message).length := by
  obtain ⟨stop, bound⟩ := represents.stop
  have some := List.length_pos_of_ne_nil text
  have position := represents.position
  have taken : message.take (min (PIPE_LENGTH - p.count) (cString message).length) =
      p.accepted message := by
    rw [accepted, length_stored, take_cString]
  have length : (p.accepted message).length =
      min (PIPE_LENGTH - p.count) (cString message).length := by
    rw [accepted, length_stored, List.length_take]
  have result := append_eq_of_stop position stop room message
  rw [taken, ← length] at result
  rw [result]
  have flag : p.readFlag = 1 → p.count = PIPE_LENGTH := fun set =>
    represents.full_iff.mp ⟨represents.flag set, set⟩
  obtain ⟨after, contents⟩ := @represents_of_stretch
    { p with
      pipe := store p.pipe (p.position + p.count) (p.accepted message)
      endPosition := (p.position + (p.count + (p.accepted message).length)) % PIPE_LENGTH
      readFlag := if (p.position + (p.count + (p.accepted message).length)) % PIPE_LENGTH =
        p.position then 1 else p.readFlag }
    (p.count + (p.accepted message).length) position rfl (by omega) (by
      simp only [PIPE_LENGTH] at *
      split <;> omega)
  refine ⟨after, ?_, rfl⟩
  rw [contents, stored]
  exact window_store (by omega)

/-- Behind its test for an empty pipe `read` takes what it asks for from the front. -/
theorem Represents.take (represents : p.Represents) (some : p.stored ≠ []) {bytes : Int}
    (asks : 1 ≤ bytes ∨ bytes = -1) :
    (p.take bytes p.position).1.Represents ∧
      (p.take bytes p.position).2 = p.requested bytes ∧
      (p.take bytes p.position).1.stored = p.stored.drop (p.requested bytes).length := by
  obtain ⟨stop, bound⟩ := represents.stop
  have position := represents.position
  have counted : 0 < p.count := by
    rw [← length_stored]
    exact List.length_pos_of_ne_nil some
  have number : p.stored.take (Holds.asked bytes) = p.requested bytes := by
    unfold Holds.asked requested
    split
    · exact List.take_of_length_le (by rw [length_stored]; exact bound)
    · rfl
  have positive : 0 < Holds.asked bytes := by
    unfold Holds.asked
    split
    · decide
    · omega
  have result := take_eq_of_stop position stop counted bound bytes
  rw [← stored, number] at result
  rw [result]
  obtain ⟨after, contents⟩ := @represents_of_stretch
    { p with
      position := (p.position + min (Holds.asked bytes) p.count) % PIPE_LENGTH
      readFlag := 0 }
    (p.count - min (Holds.asked bytes) p.count) (Nat.mod_lt _ (by decide)) (by
      simp only [stop, PIPE_LENGTH]
      omega) (by omega) (by
      simp only [PIPE_LENGTH] at *
      omega)
  refine ⟨after, rfl, ?_⟩
  rw [contents]
  refine (drop_window p (Holds.asked bytes)).trans ?_
  rw [← number, List.length_take, ← stored, length_stored]
  by_cases all : Holds.asked bytes ≤ p.count
  · rw [Nat.min_eq_left all]
  · rw [Nat.min_eq_right (by omega), List.drop_of_length_le (by rw [length_stored]; omega),
      List.drop_of_length_le (by rw [length_stored])]

/-- Pipes with the same bytes represent the same queue. -/
theorem SameBytes.represents {a b : Pipe} (same : a.SameBytes b) (represents : b.Represents) :
    a.Represents := by
  obtain ⟨position, endPosition, flag⟩ := represents
  refine ⟨?_, ?_, ?_⟩
  · rwa [same.position]
  · rwa [same.stop]
  · rwa [same.flag, same.position, same.stop]

end Pipe

namespace PipeState

/-- The call returned the number of bytes that it appended to the queue. -/
structure Appends (state : PipeState) (p : Nat) (message : List UInt8)
    (result : PipeState × Nat) : Prop where
  count : result.2 = ((state.pipe p).accepted message).length
  represents : (result.1.pipe p).Represents
  stored : (result.1.pipe p).stored = (state.pipe p).stored ++ (state.pipe p).accepted message

/-- The call returned the bytes asked for and took them off the queue. -/
structure Takes (state : PipeState) (p : Nat) (bytes : Int)
    (result : PipeState × ReadProgress) : Prop where
  taken : result.2 = .returned ((state.pipe p).requested bytes)
  represents : (result.1.pipe p).Represents
  stored : (result.1.pipe p).stored =
    (state.pipe p).stored.drop ((state.pipe p).requested bytes).length

variable {state : PipeState} {p : Nat}

/-- `write` behind its lock appends to the queue what there is room for, which is nothing if
the queue is full. -/
theorem writeLocked_appends (represents : (state.pipe p).Represents) {message : List UInt8}
    (text : cString message ≠ []) :
    state.Appends p message (state.writeLocked p message (state.pipe p).endPosition) := by
  have outcome := state.writeLocked_outcome p message (state.pipe p).endPosition
  split at outcome
  · rename_i full
    obtain ⟨bytes, same⟩ := outcome
    have nothing : (state.pipe p).accepted message = [] := by
      rw [Pipe.accepted, Pipe.length_stored, represents.full_iff.mp full]
      rfl
    refine ⟨?_, same.represents represents, ?_⟩
    · rw [bytes, nothing]
      rfl
    · rw [same.stored, nothing, List.append_nil]
  · rename_i notFull
    obtain ⟨bytes, same⟩ := outcome
    have room : (state.pipe p).count < PIPE_LENGTH :=
      Nat.lt_of_le_of_ne represents.stop.2 (mt represents.full_iff.mpr notFull)
    obtain ⟨grown, contents, number⟩ := represents.append room text
    refine ⟨bytes.trans number, same.represents grown, ?_⟩
    rw [same.stored, contents]

/-- `read` behind its lock takes the front of a queue that has bytes. -/
theorem readLocked_takes (represents : (state.pipe p).Represents)
    (some : (state.pipe p).stored ≠ []) {bytes : Int} (asks : 1 ≤ bytes ∨ bytes = -1) :
    state.Takes p bytes (state.readLocked p bytes (state.pipe p).position) := by
  have notEmpty : ¬ ((state.pipe p).position = (state.pipe p).endPosition ∧
      (state.pipe p).readFlag = 0) := Pipe.not_drained_of_stored some
  obtain ⟨left, result, contents⟩ := represents.take some asks
  rw [readLocked, if_neg notEmpty]
  refine ⟨by rw [← result], ?_, ?_⟩
  · simp only [setPipe_same]
    exact left
  · simp only [setPipe_same]
    exact contents

/-- A call of `write` that gets its lock at once. -/
theorem write_of_uncontended (free : state.Uncontended (state.pipe p).mutex)
    (message : List UInt8) (garbage : Int) :
    ∃ mutexes, let result := { state with mutexes }.writeLocked p message (state.pipe p).endPosition
      state.write p message garbage = (result.1, some result.2) := by
  obtain ⟨mutexes, locked, -⟩ := MutexState.lockMutex_uncontended free garbage
  refine ⟨mutexes, ?_⟩
  rw [write, locked]

/-- A call of `read` that gets its lock at once. -/
theorem read_of_uncontended (free : state.Uncontended (state.pipe p).mutex) (bytes garbage : Int) :
    ∃ mutexes, state.read p bytes garbage =
      { state with mutexes }.readLocked p bytes (state.pipe p).position := by
  obtain ⟨mutexes, locked, -⟩ := MutexState.lockMutex_uncontended free garbage
  refine ⟨mutexes, ?_⟩
  rw [read, locked]

/-- In every state of a pipe that represents a queue, a `write` of a message that is not empty
appends what there is room for and returns its length, and a `read` takes what it asks for
from the front of a queue with bytes; the pipe represents the queue that is left. This holds
of calls that get their lock at once, and of the rest of a call that waited for it while the
pipe stayed as it was. -/
theorem calls_refine (represents : (state.pipe p).Represents) :
    (∀ message, cString message ≠ [] →
      state.Appends p message (state.writeLocked p message (state.pipe p).endPosition) ∧
      (state.Uncontended (state.pipe p).mutex → ∀ garbage, ∃ result,
        state.write p message garbage = (result.1, some result.2) ∧
          state.Appends p message result)) ∧
    (∀ bytes, 1 ≤ bytes ∨ bytes = -1 → (state.pipe p).stored ≠ [] →
      state.Takes p bytes (state.readLocked p bytes (state.pipe p).position) ∧
      (state.Uncontended (state.pipe p).mutex → ∀ garbage,
        state.Takes p bytes (state.read p bytes garbage))) := by
  refine ⟨fun message text => ⟨writeLocked_appends represents text, fun free garbage => ?_⟩,
    fun bytes asks some => ⟨readLocked_takes represents some asks, fun free garbage => ?_⟩⟩
  · obtain ⟨mutexes, call⟩ := write_of_uncontended free message garbage
    obtain ⟨count, grown, stored⟩ :=
      @writeLocked_appends { state with mutexes } p represents message text
    exact ⟨_, call, count, grown, stored⟩
  · obtain ⟨mutexes, call⟩ := read_of_uncontended free bytes garbage
    obtain ⟨taken, left, stored⟩ :=
      @readLocked_takes { state with mutexes } p represents some bytes asks
    rw [call]
    exact ⟨taken, left, stored⟩

end PipeState

namespace IpcRun

/-- `SHELL` creates two pipes of one name, closes the first one and writes into the other. -/
def closesFirst : List IpcAction :=
  .createProcess 2 (ownerAt 2 12) :: (createsPipe "x" ++ createsPipe "x") ++
    [.call (.closePipe 33) 0 0, .call (.write 34 [97, 98]) 0 0]

/-- `unlockProcesses` finds the NULL entry of the first one, and the calls on the other one
append and take. -/
theorem closesFirst_refines : ∃ state,
    run step (boot (ownerAt 0 10) (ownerAt 1 11)) closesFirst = some state ∧
      state.kernel.unlockedPipe (state.kernel.pipe 34).name = some NULL ∧
      (state.kernel.pipe 34).stored = [97, 98] ∧
      (∃ result, state.kernel.write 34 [99] 0 = (result.1, some result.2) ∧
        state.kernel.Appends 34 [99] result) ∧
      state.kernel.Takes 34 (-1) (state.kernel.read 34 (-1) 0) := by
  have result : (run step (boot (ownerAt 0 10) (ownerAt 1 11)) closesFirst).map (fun state =>
      decide (state.kernel.unlockedPipe (state.kernel.pipe 34).name = some NULL ∧
        (state.kernel.pipe 34).stored = [97, 98] ∧ (state.kernel.pipe 34).Represents ∧
        state.kernel.Uncontended (state.kernel.pipe 34).mutex)) = some true := by
    decide +kernel
  obtain ⟨state, ran, facts⟩ := Option.map_eq_some_iff.mp result
  obtain ⟨null, stored, represents, free⟩ := of_decide_eq_true facts
  obtain ⟨writes, reads⟩ := PipeState.calls_refine represents
  refine ⟨state, ran, null, stored, (writes [99] (by decide)).2 free 0, ?_⟩
  exact (reads (-1) (.inr rfl) (by rw [stored]; simp)).2 free 0

end IpcRun

end SistemasOperativos.Kernel
