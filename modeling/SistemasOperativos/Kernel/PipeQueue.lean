import SistemasOperativos.Kernel.Pipe
import SistemasOperativos.Semantics.Run

/-!
# A pipe is a queue of bytes

`Pipe.stored` lists the bytes a pipe holds. `write` appends to it and `read`
takes from its front, except in one case each: `write` with an empty message
sets `readFlag` on an empty pipe, which then counts as full, and `read` with
no bytes asked for clears it on a full pipe, which then counts as empty.
`PipeRun` is a sequence of completed calls with the bytes the writers were told
are accepted and the bytes the readers got.
-/

namespace SistemasOperativos.Kernel

open SistemasOperativos.Foundation SistemasOperativos.Semantics

/-- The bytes of a message before its NUL. -/
def cString (message : List UInt8) : List UInt8 := message.takeWhile (· ≠ 0)

namespace Pipe

/-- The number of bytes in the pipe. -/
def count (p : Pipe) : Nat :=
  if p.position = p.endPosition then if p.readFlag = 1 then PIPE_LENGTH else 0
  else (p.endPosition + PIPE_LENGTH - p.position) % PIPE_LENGTH

/-- The bytes in the pipe, the next one to read first. -/
def stored (p : Pipe) : List UInt8 := window p.pipe p.position p.count

/-- The fields are those of a pipe that holds `held` bytes. -/
structure Holds (p : Pipe) (held : Nat) : Prop where
  position : p.position < PIPE_LENGTH
  bound : held ≤ PIPE_LENGTH
  stop : p.endPosition = (p.position + held) % PIPE_LENGTH
  full : p.readFlag = if held = PIPE_LENGTH then 1 else 0

/-- The pointers and the flag tell how many bytes a pipe holds. -/
theorem Holds.count_eq {p : Pipe} {held : Nat} (holds : p.Holds held) : p.count = held := by
  obtain ⟨position, bound, stop, full⟩ := holds
  unfold count
  by_cases isFull : held = PIPE_LENGTH
  · rw [if_pos isFull] at full
    have same : p.position = p.endPosition := by
      simp only [PIPE_LENGTH] at *
      omega
    rw [if_pos same, if_pos full, isFull]
  · rw [if_neg isFull] at full
    by_cases isEmpty : held = 0
    · have same : p.position = p.endPosition := by
        simp only [PIPE_LENGTH] at *
        omega
      rw [if_pos same, if_neg (by omega), isEmpty]
    · simp only [PIPE_LENGTH] at *
      rw [if_neg (by omega)]
      omega

/-- The bytes that a pipe holds are those from `position` on. -/
theorem Holds.stored_eq {p : Pipe} {held : Nat} (holds : p.Holds held) :
    p.stored = window p.pipe p.position held := by
  rw [stored, holds.count_eq]

/-- An offset stays the remainder of the position it stands for. -/
theorem next_mod (position : Nat) :
    next (position % PIPE_LENGTH) = (position + 1) % PIPE_LENGTH := by
  unfold next
  split
  · simp only [PIPE_LENGTH] at *
    omega
  · simp only [PIPE_LENGTH] at *
    omega

/-- The loop of `write` stores the message as far as there is room. -/
theorem writeLoop_eq {p : Pipe} {room : Nat} (positive : 0 < room) (bound : room ≤ PIPE_LENGTH)
    (position : p.position = (p.endPosition + room) % PIPE_LENGTH) (message : List UInt8)
    {aux bytes : Nat} (within : bytes ≤ room)
    (here : aux = (p.endPosition + bytes) % PIPE_LENGTH) (buffer : Vector UInt8 PIPE_LENGTH) :
    p.writeLoop message aux bytes buffer =
      (store buffer (p.endPosition + bytes) ((cString message).take (room - bytes)),
        bytes + min (room - bytes) (cString message).length) := by
  induction message generalizing aux bytes buffer with
  | nil => simp [writeLoop, cString]
  | cons current message ih =>
      have continues : (p.endPosition + bytes) % PIPE_LENGTH ≠ p.position ∨ bytes = 0 ↔
          bytes < room := by
        rw [position]
        simp only [PIPE_LENGTH] at bound ⊢
        omega
      unfold writeLoop
      by_cases nul : current = 0
      · simp [nul, cString]
      · have string : cString (current :: message) = current :: cString message := by
          simp [cString, nul]
        rw [string]
        by_cases space : bytes < room
        · rw [if_pos ⟨nul, continues.mpr space⟩,
            ih (by omega) (by rw [here, next_mod, Nat.add_assoc])]
          obtain ⟨left, split⟩ : ∃ left, room - bytes = left + 1 := ⟨room - bytes - 1, by omega⟩
          rw [split, List.take_succ_cons, List.length_cons, store, ← here,
            show room - (bytes + 1) = left by omega, Nat.add_assoc p.endPosition bytes 1]
          congr 1
          omega
        · rw [if_neg fun both => space (continues.mp both.2), show room - bytes = 0 by omega]
          simp

/-- The loop of `read` takes the bytes asked for as far as there are any. -/
theorem readLoop_eq {p : Pipe} {held : Nat} (positive : 0 < held) (bound : held ≤ PIPE_LENGTH)
    (stop : p.endPosition = (p.position + held) % PIPE_LENGTH) (remaining : Nat) {i aux : Nat}
    (within : i ≤ held) (here : aux = (p.position + i) % PIPE_LENGTH) :
    p.readLoop remaining i aux =
      window p.pipe (p.position + i) (min remaining (held - i)) := by
  induction remaining generalizing i aux with
  | zero => simp [readLoop]
  | succ remaining ih =>
      have continues : (i + p.position) % PIPE_LENGTH ≠ p.endPosition ∨ i = 0 ↔ i < held := by
        rw [stop]
        simp only [PIPE_LENGTH] at bound ⊢
        omega
      unfold readLoop
      by_cases more : i < held
      · rw [if_pos (continues.mpr more), ih more (by rw [here, next_mod, Nat.add_assoc]), here,
          getElem?_mod,
          show min (remaining + 1) (held - i) = min remaining (held - (i + 1)) + 1 by omega,
          window, Option.getD_some, Nat.add_assoc]
      · rw [if_neg fun less => more (continues.mp less),
          show min (remaining + 1) (held - i) = 0 by omega, window_zero]

/-- The part of a message that fits is a beginning of the message. -/
theorem take_cString (message : List UInt8) (room : Nat) :
    (cString message).take room = message.take (min room (cString message).length) := by
  have beginning := List.prefix_iff_eq_take.mp (List.takeWhile_prefix (l := message) (· ≠ 0))
  rw [← List.take_take]
  exact congrArg (List.take room) beginning

section Stretch

variable {p : Pipe} {held : Nat}

/-- The bytes `write` accepts behind a stretch of bytes: as many as fit. -/
theorem append_eq_of_stop (position : p.position < PIPE_LENGTH)
    (stop : p.endPosition = (p.position + held) % PIPE_LENGTH) (room : held < PIPE_LENGTH)
    (message : List UInt8) :
    p.append message p.endPosition =
      ({ p with
          pipe := store p.pipe (p.position + held)
            (message.take (min (PIPE_LENGTH - held) (cString message).length))
          endPosition := (p.position +
            (held + min (PIPE_LENGTH - held) (cString message).length)) % PIPE_LENGTH
          readFlag :=
            if (p.position + (held + min (PIPE_LENGTH - held) (cString message).length)) %
              PIPE_LENGTH = p.position then 1 else p.readFlag },
        min (PIPE_LENGTH - held) (cString message).length) := by
  have around : p.position = (p.endPosition + (PIPE_LENGTH - held)) % PIPE_LENGTH := by
    simp only [PIPE_LENGTH] at *
    omega
  have loop := writeLoop_eq (by omega) (by omega) around message (Nat.zero_le _)
    (show p.endPosition = (p.endPosition + 0) % PIPE_LENGTH by
      rw [Nat.add_zero, stop, Nat.mod_mod]) p.pipe
  have start : p.endPosition % PIPE_LENGTH = (p.position + held) % PIPE_LENGTH := by
    rw [stop, Nat.mod_mod]
  rw [Nat.sub_zero, Nat.zero_add, Nat.add_zero, take_cString, store_congr start] at loop
  simp only [append, loop]
  rw [stop, Nat.mod_add_mod, Nat.add_assoc]

/-- The number of bytes `read` returns. -/
def Holds.asked (bytes : Int) : Nat := if bytes = -1 then PIPE_LENGTH else bytes.toNat

/-- The bytes `read` takes from the front of a stretch of bytes. -/
theorem take_eq_of_stop (position : p.position < PIPE_LENGTH)
    (stop : p.endPosition = (p.position + held) % PIPE_LENGTH) (some : 0 < held)
    (bound : held ≤ PIPE_LENGTH) (bytes : Int) :
    p.take bytes p.position =
      ({ p with
          position := (p.position + min (Holds.asked bytes) held) % PIPE_LENGTH
          readFlag := 0 },
        (window p.pipe p.position held).take (Holds.asked bytes)) := by
  have number : (if bytes = -1 then (PIPE_LENGTH : Int) else bytes).toNat = Holds.asked bytes := by
    unfold Holds.asked
    split <;> simp
  have loop := readLoop_eq some bound stop (Holds.asked bytes) (Nat.zero_le _)
    (show p.position = (p.position + 0) % PIPE_LENGTH by
      rw [Nat.add_zero, Nat.mod_eq_of_lt position])
  have front : window p.pipe p.position (min (Holds.asked bytes) held) =
      (window p.pipe p.position held).take (Holds.asked bytes) := by
    have split := @window_add _ _ _ p.pipe p.position (min (Holds.asked bytes) held)
      (held - min (Holds.asked bytes) held)
    rw [show min (Holds.asked bytes) held + (held - min (Holds.asked bytes) held) = held by omega]
      at split
    rw [split]
    by_cases all : Holds.asked bytes ≤ held
    · rw [Nat.min_eq_left all, List.take_left' (length_window ..)]
    · rw [show held - min (Holds.asked bytes) held = 0 by omega, window_zero, List.append_nil,
        List.take_of_length_le (by rw [length_window]; omega)]
  rw [Nat.add_zero, Nat.sub_zero] at loop
  simp only [Pipe.take, number, loop, length_window]
  rw [front]

/-- What is left of a stretch behind its front. -/
theorem drop_window (p : Pipe) (number : Nat) :
    window p.pipe ((p.position + min number held) % PIPE_LENGTH) (held - min number held) =
      (window p.pipe p.position held).drop number := by
  have split := @window_add _ _ _ p.pipe p.position (min number held) (held - min number held)
  rw [show min number held + (held - min number held) = held by omega] at split
  rw [split, window_congr (Nat.mod_mod _ _)]
  by_cases all : number ≤ held
  · rw [Nat.min_eq_left all, List.drop_left' (length_window ..)]
  · rw [show held - min number held = 0 by omega, window_zero, List.append_nil,
      List.drop_of_length_le (by rw [length_window]; omega)]

end Stretch

namespace Holds

variable {p : Pipe} {held : Nat}

/-- The bytes `write` accepts: as many as fit. -/
theorem append_eq (holds : p.Holds held) (room : held < PIPE_LENGTH) (message : List UInt8) :
    p.append message p.endPosition =
      ({ p with
          pipe := store p.pipe (p.position + held)
            (message.take (min (PIPE_LENGTH - held) (cString message).length))
          endPosition := (p.position +
            (held + min (PIPE_LENGTH - held) (cString message).length)) % PIPE_LENGTH
          readFlag :=
            if (p.position + (held + min (PIPE_LENGTH - held) (cString message).length)) %
              PIPE_LENGTH = p.position then 1 else p.readFlag },
        min (PIPE_LENGTH - held) (cString message).length) :=
  append_eq_of_stop holds.position holds.stop room message

/-- `write` appends what it accepts, unless an empty message meets an empty pipe. -/
theorem append (holds : p.Holds held) (room : held < PIPE_LENGTH) {message : List UInt8}
    (some : held ≠ 0 ∨ cString message ≠ []) :
    (p.append message p.endPosition).1.Holds
        (held + min (PIPE_LENGTH - held) (cString message).length) ∧
      (p.append message p.endPosition).1.stored =
        p.stored ++ message.take (p.append message p.endPosition).2 := by
  have length : 0 < held + (cString message).length := by
    rcases some with bytes | text
    · omega
    · have positive := List.length_pos_of_ne_nil text
      omega
  have grown : (p.append message p.endPosition).1.Holds
      (held + min (PIPE_LENGTH - held) (cString message).length) := by
    rw [holds.append_eq room]
    refine ⟨holds.position, by omega, rfl, ?_⟩
    have position := holds.position
    have full := holds.full
    rw [if_neg (by omega)] at full
    simp only [full]
    congr 1
    simp only [PIPE_LENGTH] at *
    simp only [eq_iff_iff]
    omega
  refine ⟨grown, ?_⟩
  have fits : (message.take (min (PIPE_LENGTH - held) (cString message).length)).length =
      min (PIPE_LENGTH - held) (cString message).length := by
    rw [← take_cString, List.length_take]
  rw [grown.stored_eq, holds.stored_eq, holds.append_eq room]
  have appended := @window_store _ _ _ p.pipe p.position held
    (message.take (min (PIPE_LENGTH - held) (cString message).length)) (by omega)
  rwa [fits] at appended

/-- `write` makes an empty pipe look full when the message is empty. -/
theorem append_nothing (holds : p.Holds 0) {message : List UInt8}
    (text : cString message = []) :
    (p.append message p.endPosition).1.stored.length = PIPE_LENGTH := by
  have position := holds.position
  have around : (p.position + (0 + min (PIPE_LENGTH - 0) (cString message).length)) %
      PIPE_LENGTH = p.position := by
    rw [text]
    simpa using Nat.mod_eq_of_lt position
  rw [stored, length_window, holds.append_eq (by simp [PIPE_LENGTH]), count]
  simp only [around]
  simp

/-- A `read` takes what was asked for, at most what the pipe holds. -/
theorem take_eq (holds : p.Holds held) (some : 0 < held) (bytes : Int) :
    p.take bytes p.position =
      ({ p with
          position := (p.position + min (asked bytes) held) % PIPE_LENGTH
          readFlag := 0 },
        p.stored.take (asked bytes)) := by
  rw [holds.stored_eq]
  exact take_eq_of_stop holds.position holds.stop some holds.bound bytes

/-- `read` takes bytes from the front, unless it takes none of a full pipe. -/
theorem take (holds : p.Holds held) (some : 0 < held) {bytes : Int}
    (moves : held ≠ PIPE_LENGTH ∨ asked bytes ≠ 0) :
    (p.take bytes p.position).1.Holds (held - min (asked bytes) held) ∧
      (p.take bytes p.position).1.stored = p.stored.drop (asked bytes) := by
  have stop := holds.stop
  have bound := holds.bound
  have left : (p.take bytes p.position).1.Holds (held - min (asked bytes) held) := by
    rw [holds.take_eq some]
    refine ⟨Nat.mod_lt _ (by simp [PIPE_LENGTH]), by omega, ?_, ?_⟩
    · simp only [stop]
      rw [Nat.mod_add_mod, Nat.add_assoc, show min (asked bytes) held +
        (held - min (asked bytes) held) = held by omega]
    · rw [if_neg]
      rcases moves with notFull | number
      · omega
      · omega
  refine ⟨left, ?_⟩
  rw [left.stored_eq, holds.stored_eq, holds.take_eq some]
  exact drop_window p (asked bytes)

/-- `read` makes a full pipe look empty when no bytes are asked for. -/
theorem take_nothing (holds : p.Holds PIPE_LENGTH) {bytes : Int} (number : asked bytes = 0) :
    (p.take bytes p.position).1.stored = [] := by
  have stop := holds.stop
  have position := holds.position
  rw [stored, holds.take_eq (by simp [PIPE_LENGTH]), count, number]
  have same : (p.position + min 0 PIPE_LENGTH) % PIPE_LENGTH = p.endPosition := by
    simp only [PIPE_LENGTH] at *
    omega
  simp only [same]
  simp

end Holds

/-- The two structs hold the same bytes at the same positions. -/
structure SameBytes (a b : Pipe) : Prop where
  position : a.position = b.position
  stop : a.endPosition = b.endPosition
  flag : a.readFlag = b.readFlag
  bytes : a.pipe = b.pipe

namespace SameBytes

variable {a b : Pipe}

/-- A pipe has its own bytes. -/
theorem refl (a : Pipe) : a.SameBytes a := ⟨rfl, rfl, rfl, rfl⟩

/-- Pipes with the same bytes hold as many. -/
theorem holds (same : a.SameBytes b) {held : Nat} (holds : b.Holds held) : a.Holds held :=
  ⟨same.position ▸ holds.position, holds.bound,
    by rw [same.position, same.stop]; exact holds.stop, same.flag ▸ holds.full⟩

/-- Pipes with the same bytes hold the same ones. -/
theorem stored (same : a.SameBytes b) : a.stored = b.stored := by
  rw [Pipe.stored, Pipe.stored, count, count, same.position, same.stop, same.flag, same.bytes]

end SameBytes

end Pipe

/-! ## The calls on the kernel state -/

namespace PipeState

/-- The struct that was stored is read back. -/
@[simp] theorem setPipe_same (state : PipeState) (p : Nat) (pipe : Pipe) :
    (state.setPipe p pipe).pipe p = pipe := by
  simp [setPipe]

/-- `unlockProcesses` does not touch the bytes of any pipe. -/
theorem unlockProcesses_sameBytes (state : PipeState) (name : Option String) (p : Nat) :
    ((state.unlockProcesses name).pipe p).SameBytes (state.pipe p) := by
  rcases state.unlockProcesses_cases name with same | ⟨q, woken⟩
  · rw [same]
    exact .refl _
  · rw [woken]
    by_cases same : p = q
    · subst same
      simp only [setPipe_same]
      exact ⟨rfl, rfl, rfl, rfl⟩
    · simp only [setPipe, Function.update_of_ne same]
      exact .refl _

/-- `write` behind its lock either finds the pipe full, or appends. -/
theorem writeLocked_outcome (state : PipeState) (p : Nat) (message : List UInt8) (aux : Nat) :
    if (state.pipe p).position = (state.pipe p).endPosition ∧ (state.pipe p).readFlag = 1 then
      (state.writeLocked p message aux).2 = 0 ∧
        ((state.writeLocked p message aux).1.pipe p).SameBytes (state.pipe p)
    else
      (state.writeLocked p message aux).2 = ((state.pipe p).append message aux).2 ∧
        ((state.writeLocked p message aux).1.pipe p).SameBytes
          ((state.pipe p).append message aux).1 := by
  simp only [writeLocked]
  split
  · exact ⟨rfl, .refl _⟩
  · have same := (state.setPipe p ((state.pipe p).append message aux).1).unlockProcesses_sameBytes
      (state.pipe p).name p
    rw [setPipe_same] at same
    exact ⟨rfl, same⟩

/-- A completed `write` either finds the pipe full, or appends. -/
theorem write_completed {state after : PipeState} {p bytes : Nat} {message : List UInt8}
    {garbage : Int} (completed : state.write p message garbage = (after, some bytes)) :
    if (state.pipe p).position = (state.pipe p).endPosition ∧ (state.pipe p).readFlag = 1 then
      bytes = 0 ∧ (after.pipe p).SameBytes (state.pipe p)
    else
      bytes = ((state.pipe p).append message (state.pipe p).endPosition).2 ∧
        (after.pipe p).SameBytes
          ((state.pipe p).append message (state.pipe p).endPosition).1 := by
  simp only [write] at completed
  split at completed
  · cases (Prod.mk.inj completed).2
  · rename_i mutexes _
    obtain ⟨rfl, same⟩ := Prod.mk.inj completed
    obtain rfl := Option.some.inj same
    exact writeLocked_outcome { state with toMutexState := mutexes } p message _

/-- A `read` that returns bytes does so from a pipe that is not empty. -/
theorem read_returned {state after : PipeState} {p : Nat} {bytes garbage : Int}
    {result : List UInt8} (completed : state.read p bytes garbage = (after, .returned result)) :
    ¬ ((state.pipe p).position = (state.pipe p).endPosition ∧ (state.pipe p).readFlag = 0) ∧
      result = ((state.pipe p).take bytes (state.pipe p).position).2 ∧
      after.pipe p = ((state.pipe p).take bytes (state.pipe p).position).1 := by
  simp only [read] at completed
  split at completed
  · cases (Prod.mk.inj completed).2
  · simp only [readLocked] at completed
    split at completed
    · cases (Prod.mk.inj completed).2
    · rename_i notEmpty
      obtain ⟨rfl, same⟩ := Prod.mk.inj completed
      obtain rfl := ReadProgress.returned.inj same
      refine ⟨notEmpty, rfl, ?_⟩
      simp

/-- A `read` has to wait for bytes only if the pipe is empty. -/
theorem read_yielded_empty {state after : PipeState} {p : Nat} {bytes garbage : Int}
    (completed : state.read p bytes garbage = (after, .yielded)) :
    (state.pipe p).position = (state.pipe p).endPosition ∧ (state.pipe p).readFlag = 0 := by
  simp only [read] at completed
  split at completed
  · cases (Prod.mk.inj completed).2
  · simp only [readLocked] at completed
    split at completed
    · assumption
    · cases (Prod.mk.inj completed).2

/-- A `read` that has to wait for bytes leaves the pipe as it is. -/
theorem read_yielded {state after : PipeState} {p : Nat} {bytes garbage : Int}
    (completed : state.read p bytes garbage = (after, .yielded)) :
    (after.pipe p).SameBytes (state.pipe p) := by
  simp only [read] at completed
  split at completed
  · cases (Prod.mk.inj completed).2
  · simp only [readLocked] at completed
    split at completed
    · obtain ⟨rfl, -⟩ := Prod.mk.inj completed
      simp only [setPipe_same]
      exact ⟨rfl, rfl, rfl, rfl⟩
    · cases (Prod.mk.inj completed).2

end PipeState

/-! ## Runs -/

/-- The kernel, the bytes accepted from the writers and those given to the readers. -/
structure PipeRun where
  kernel : PipeState
  accepted : List UInt8
  delivered : List UInt8

/-- A call on the pipe, or a switch to the READY process `next`. -/
inductive PipeAction where
  | write (message : List UInt8) (garbage : Int)
  | read (bytes garbage next : Int)
  | switch (next : Int)
  deriving DecidableEq, Repr

namespace PipeRun

/-- Switch to the process `next`. -/
def dispatch (state : PipeRun) (next : Int) : Option PipeRun :=
  (state.kernel.processes.schedule next).map fun processes =>
    { state with kernel := { state.kernel with processes } }

/-- A completed call on the pipe `p`. A call that would have to wait for the
mutex of the pipe does not complete. -/
def step (p : Nat) (state : PipeRun) : PipeAction → Option PipeRun
  | .write message garbage =>
      match state.kernel.write p message garbage with
      | (kernel, some bytes) =>
          some { state with kernel, accepted := state.accepted ++ message.take bytes }
      | (_, none) => none
  | .read bytes garbage next =>
      match state.kernel.read p bytes garbage with
      | (kernel, .returned result) =>
          some { state with kernel, delivered := state.delivered ++ result }
      | (kernel, .yielded) => dispatch { state with kernel } next
      | (_, .yieldedInLock) => none
  | .switch next => state.dispatch next

/-- A run starts with the struct that `createPipeStruct` made, to which its
caller gave a mutex, and no calls so far. -/
structure Start (p : Nat) (state : PipeRun) : Prop where
  created : ∃ before pro name made owner,
    PipeState.createPipeStruct before pro name = (made, owner, some p) ∧
      state.kernel.pipe p = { made.pipe p with mutex := (state.kernel.pipe p).mutex }
  accepted : state.accepted = []
  delivered : state.delivered = []

/-- The condition on a call: no empty message into an empty pipe, and no `read`
of no bytes from a full one. -/
def MovesBytes (p : Nat) (state : PipeRun) : PipeAction → Prop
  | .write message _ =>
      (state.kernel.pipe p).count = 0 → cString message ≠ []
  | .read bytes _ _ =>
      (state.kernel.pipe p).count = PIPE_LENGTH → Pipe.Holds.asked bytes ≠ 0
  | .switch _ => True

instance (p : Nat) (state : PipeRun) (action : PipeAction) :
    Decidable (state.MovesBytes p action) := by
  cases action <;> unfold MovesBytes <;> infer_instance

/-- What was accepted is what was delivered followed by what is stored. -/
def Conserved (p : Nat) (state : PipeRun) : Prop :=
  state.accepted = state.delivered ++ (state.kernel.pipe p).stored

/-- The invariant of the runs. -/
def Queued (p : Nat) (state : PipeRun) : Prop :=
  (∃ held, (state.kernel.pipe p).Holds held) ∧ state.Conserved p

variable {p : Nat}

/-- A pipe that was just created is a queue. -/
theorem Start.queued {state : PipeRun} (begins : Start p state) : Queued p state := by
  obtain ⟨before, pro, name, made, owner, created, fields⟩ := begins.created
  have fresh : (state.kernel.pipe p).Holds 0 := by
    simp only [PipeState.createPipeStruct] at created
    split at created
    · simp at created
    · simp only [Prod.mk.injEq, Option.some.injEq] at created
      obtain ⟨made, -, handle⟩ := created
      rw [fields, ← made, handle, PipeState.setPipe_same]
      exact ⟨by simp [PIPE_LENGTH], by simp [PIPE_LENGTH], by simp, by simp [PIPE_LENGTH]⟩
  refine ⟨⟨0, fresh⟩, ?_⟩
  rw [Conserved, begins.accepted, begins.delivered, fresh.stored_eq]
  rfl

/-- A switch does not touch the pipe. -/
theorem dispatch_eq_some {state after : PipeRun} {next : Int}
    (switched : state.dispatch next = some after) :
    after.kernel.pipe = state.kernel.pipe ∧ after.accepted = state.accepted ∧
      after.delivered = state.delivered := by
  obtain ⟨processes, -, rfl⟩ := Option.map_eq_some_iff.mp switched
  exact ⟨rfl, rfl, rfl⟩

namespace Queued

variable {state after : PipeRun}

/-- A pipe with the same bytes is the same queue. -/
theorem congr (queued : Queued p state)
    (same : (after.kernel.pipe p).SameBytes (state.kernel.pipe p))
    (accepted : after.accepted = state.accepted)
    (delivered : after.delivered = state.delivered) : Queued p after := by
  obtain ⟨⟨held, holds⟩, conserved⟩ := queued
  refine ⟨⟨held, same.holds holds⟩, ?_⟩
  rw [Conserved, accepted, delivered, same.stored]
  exact conserved

/-- The tests of `read` and `write` tell an empty pipe from a full one. -/
theorem full_iff {pipe : Pipe} {held : Nat} (holds : pipe.Holds held) :
    pipe.position = pipe.endPosition ∧ pipe.readFlag = 1 ↔ held = PIPE_LENGTH := by
  obtain ⟨position, bound, stop, full⟩ := holds
  constructor
  · rintro ⟨-, flag⟩
    by_contra notFull
    rw [flag, if_neg notFull] at full
    omega
  · rintro rfl
    rw [if_pos rfl] at full
    refine ⟨?_, full⟩
    rw [stop, Nat.add_mod_right, Nat.mod_eq_of_lt position]

/-- The test for an empty pipe finds the pipes that hold nothing. -/
theorem empty_iff {pipe : Pipe} {held : Nat} (holds : pipe.Holds held) :
    pipe.position = pipe.endPosition ∧ pipe.readFlag = 0 ↔ held = 0 := by
  obtain ⟨position, bound, stop, full⟩ := holds
  constructor
  · rintro ⟨same, flag⟩
    have notFull : held ≠ PIPE_LENGTH := fun isFull => by
      rw [flag, if_pos isFull] at full
      omega
    simp only [PIPE_LENGTH] at *
    omega
  · rintro rfl
    refine ⟨?_, by simpa [PIPE_LENGTH] using full⟩
    rw [stop, Nat.add_zero, Nat.mod_eq_of_lt position]

/-- Appending what `write` accepts keeps the queue. -/
theorem append (queued : Queued p state) {message : List UInt8}
    (notFull : ¬ ((state.kernel.pipe p).position = (state.kernel.pipe p).endPosition ∧
      (state.kernel.pipe p).readFlag = 1))
    (moves : (state.kernel.pipe p).count = 0 → cString message ≠ [])
    (same : (after.kernel.pipe p).SameBytes
      ((state.kernel.pipe p).append message (state.kernel.pipe p).endPosition).1)
    (accepted : after.accepted = state.accepted ++ message.take
      ((state.kernel.pipe p).append message (state.kernel.pipe p).endPosition).2)
    (delivered : after.delivered = state.delivered) : Queued p after := by
  obtain ⟨⟨held, holds⟩, conserved⟩ := queued
  have room : held < PIPE_LENGTH :=
    Nat.lt_of_le_of_ne holds.bound (mt (full_iff holds).mpr notFull)
  have some : held ≠ 0 ∨ cString message ≠ [] := by
    by_cases isEmpty : held = 0
    · exact .inr (moves (holds.count_eq.trans isEmpty))
    · exact .inl isEmpty
  obtain ⟨grown, stored⟩ := holds.append room some
  refine ⟨⟨_, same.holds grown⟩, ?_⟩
  rw [Conserved, same.stored, stored, accepted, delivered, conserved, List.append_assoc]

/-- Taking what `read` returns keeps the queue. -/
theorem take (queued : Queued p state) {bytes : Int}
    (notEmpty : ¬ ((state.kernel.pipe p).position = (state.kernel.pipe p).endPosition ∧
      (state.kernel.pipe p).readFlag = 0))
    (moves : (state.kernel.pipe p).count = PIPE_LENGTH → Pipe.Holds.asked bytes ≠ 0)
    (rest : after.kernel.pipe p =
      ((state.kernel.pipe p).take bytes (state.kernel.pipe p).position).1)
    (accepted : after.accepted = state.accepted)
    (delivered : after.delivered = state.delivered ++
      ((state.kernel.pipe p).take bytes (state.kernel.pipe p).position).2) : Queued p after := by
  obtain ⟨⟨held, holds⟩, conserved⟩ := queued
  have some : 0 < held := Nat.pos_of_ne_zero (mt (empty_iff holds).mpr notEmpty)
  have part : held ≠ PIPE_LENGTH ∨ Pipe.Holds.asked bytes ≠ 0 := by
    by_cases isFull : held = PIPE_LENGTH
    · exact .inr (moves (holds.count_eq.trans isFull))
    · exact .inl isFull
  obtain ⟨left, stored⟩ := holds.take some part
  refine ⟨⟨_, by rw [rest]; exact left⟩, ?_⟩
  rw [Conserved, rest, stored, accepted, delivered, conserved, holds.take_eq some,
    List.append_assoc, List.take_append_drop]

/-- `write` keeps the queue if it meets the condition, and only then the bytes. -/
theorem write_step (queued : Queued p state) {message : List UInt8} {garbage : Int}
    (stepped : state.step p (.write message garbage) = some after) :
    (state.MovesBytes p (.write message garbage) → Queued p after) ∧
      (after.Conserved p → state.MovesBytes p (.write message garbage)) := by
  obtain ⟨⟨held, holds⟩, conserved⟩ := queued
  simp only [step] at stepped
  split at stepped
  · rename_i kernel bytes completed
    obtain rfl := Option.some.inj stepped
    have written := PipeState.write_completed completed
    split at written
    · rename_i isFull
      obtain ⟨rfl, same⟩ := written
      have held := (full_iff holds).mp isFull
      refine ⟨fun _ => ?_, fun _ isEmpty => ?_⟩
      · exact congr ⟨⟨_, holds⟩, conserved⟩ same (by simp) rfl
      · rw [holds.count_eq, held] at isEmpty
        cases isEmpty
    · rename_i notFull
      obtain ⟨rfl, same⟩ := written
      have room : held < PIPE_LENGTH :=
        Nat.lt_of_le_of_ne holds.bound (mt (full_iff holds).mpr notFull)
      constructor
      · intro moves
        exact append ⟨⟨_, holds⟩, conserved⟩ notFull moves same rfl rfl
      · intro kept isEmpty text
        rw [holds.count_eq] at isEmpty
        subst isEmpty
        have phantom := holds.append_nothing text
        have bytes : ((state.kernel.pipe p).append message
            (state.kernel.pipe p).endPosition).2 = 0 := by
          rw [holds.append_eq room, text]
          rfl
        rw [Conserved, same.stored, bytes, List.take_zero, List.append_nil, conserved,
          holds.stored_eq] at kept
        have lengths := congrArg List.length kept
        simp only [List.length_append, phantom, window_zero, List.length_nil] at lengths
        omega
  · cases stepped

/-- `read` keeps the queue if it meets the condition, and only then the bytes. -/
theorem read_step (queued : Queued p state) {bytes garbage next : Int}
    (stepped : state.step p (.read bytes garbage next) = some after) :
    (state.MovesBytes p (.read bytes garbage next) → Queued p after) ∧
      (after.Conserved p → state.MovesBytes p (.read bytes garbage next)) := by
  obtain ⟨⟨held, holds⟩, conserved⟩ := id queued
  simp only [step] at stepped
  split at stepped
  · rename_i kernel result completed
    obtain rfl := Option.some.inj stepped
    obtain ⟨notEmpty, rfl, rest⟩ := PipeState.read_returned completed
    have some : 0 < held := Nat.pos_of_ne_zero (mt (empty_iff holds).mpr notEmpty)
    constructor
    · intro moves
      exact queued.take notEmpty moves rest rfl rfl
    · intro kept isFull number
      rw [holds.count_eq] at isFull
      subst isFull
      rw [Conserved, rest, holds.take_nothing number, holds.take_eq some, number,
        List.take_zero, List.append_nil, List.append_nil, conserved, holds.stored_eq] at kept
      have lengths := congrArg List.length kept
      simp only [List.length_append, length_window] at lengths
      omega
  · rename_i kernel completed
    obtain ⟨pipe, accepted, delivered⟩ := dispatch_eq_some stepped
    have same := PipeState.read_yielded completed
    refine ⟨fun _ => queued.congr (pipe ▸ same) accepted delivered, fun _ isFull => ?_⟩
    have held := (empty_iff holds).mp (PipeState.read_yielded_empty completed)
    rw [holds.count_eq, held] at isFull
    cases isFull
  · cases stepped

end Queued

/-- A step that meets the condition keeps the pipe a queue. -/
theorem queued_step (p : Nat) (state : PipeRun) (action : PipeAction) (after : PipeRun)
    (queued : Queued p state) (moves : state.MovesBytes p action)
    (stepped : state.step p action = some after) : Queued p after := by
  cases action with
  | write message garbage => exact (queued.write_step stepped).1 moves
  | read bytes garbage next => exact (queued.read_step stepped).1 moves
  | switch next =>
      obtain ⟨pipe, accepted, delivered⟩ := dispatch_eq_some stepped
      exact queued.congr (pipe ▸ .refl _) accepted delivered

/-- A step from a queue conserves the bytes exactly if it meets the condition. -/
theorem Queued.conserved_iff {p : Nat} {state after : PipeRun} (queued : Queued p state)
    {action : PipeAction} (stepped : state.step p action = some after) :
    after.Conserved p ↔ state.MovesBytes p action := by
  refine ⟨fun conserved => ?_, fun moves =>
    (queued_step p state action after queued moves stepped).2⟩
  cases action with
  | write message garbage => exact (queued.write_step stepped).2 conserved
  | read bytes garbage next => exact (queued.read_step stepped).2 conserved
  | switch next => trivial

/-- In a run without an empty message into an empty pipe and without a `read` of
no bytes from a full one, the bytes the readers got followed by those in the
pipe are the bytes accepted from the writers. -/
theorem bytes_conserved (p : Nat) (start : PipeRun) (begins : Start p start)
    (actions : List PipeAction) (final : PipeRun)
    (moves : Along (step p) (MovesBytes p) start actions)
    (ran : run (step p) start actions = some final) :
    final.delivered <+: final.accepted ∧
      final.accepted = final.delivered ++ (final.kernel.pipe p).stored := by
  obtain ⟨-, conserved⟩ := moves.invariant (queued_step p) begins.queued ran
  exact ⟨⟨_, conserved.symm⟩, conserved⟩

/-- One process, and memory full of zeros. -/
def blank : PipeState where
  processes := { state := fun pid => if pid = 1 then some .running else none, current := 1 }
  mutexes := fun _ =>
    { WaitQueue.empty with used := true, name := none, mutex := 0, pidCreator := 1 }
  pipe := fun _ =>
    { name := none, position := 0, endPosition := 0, creator := 0, pipePids := 0, blocked := 0
      cardinalBlocked := 0, connected := 0, pipe := Vector.replicate _ 0, readFlag := 0
      mutex := 1 }
  pipeNames := fun _ => none
  pipes := fun _ => none
  lastPipeName := 0
  memory := fun _ => 0

/-- The process before it creates a pipe. -/
def blankOwner : PipeOwner where
  pid := 1
  pipesOpened := 0
  occupiedPosition := 48
  pipePids := 0
  blocked := 24
  pipesStruct := id

/-- The process after it created the pipe. -/
def fresh : PipeRun where
  kernel := (PipeState.createPipeStruct blank blankOwner (some "p")).1
  accepted := []
  delivered := []

/-- The pipe of the example was just created. -/
theorem fresh_start : Start 0 fresh where
  created := ⟨blank, blankOwner, some "p", fresh.kernel, _, rfl, rfl⟩
  accepted := rfl
  delivered := rfl

/-- Twelve bytes into a pipe of ten, seven out, three in and all out. -/
def wrapAround : List PipeAction :=
  [.write [1, 2, 3, 4, 5, 6, 7, 8, 9, 10, 11, 12] 0, .read 7 0 1, .write [21, 22, 23] 0,
    .read (-1) 0 1]

/-- The ten bytes that fit and the three written later come out in order. -/
theorem bytes_conserved_around : ∃ final,
    run (step 0) fresh wrapAround = some final ∧
      final.delivered = [1, 2, 3, 4, 5, 6, 7, 8, 9, 10, 21, 22, 23] ∧
      final.delivered <+: final.accepted ∧
      final.accepted = final.delivered ++ (final.kernel.pipe 0).stored := by
  have result : (run (step 0) fresh wrapAround).map PipeRun.delivered =
      some [1, 2, 3, 4, 5, 6, 7, 8, 9, 10, 21, 22, 23] := by
    decide +kernel
  have moves : Along (step 0) (MovesBytes 0) fresh wrapAround := by
    decide +kernel
  obtain ⟨final, ran, delivered⟩ := Option.map_eq_some_iff.mp result
  exact ⟨final, ran, delivered, bytes_conserved 0 _ fresh_start _ final moves ran⟩

/-- An empty message into the fresh pipe, then a `read`: ten bytes come out that
nobody wrote. -/
theorem bytes_invented : Start 0 fresh ∧ ∃ final,
    run (step 0) fresh [.write [] 0, .read (-1) 0 1] = some final ∧
      final.accepted = [] ∧ final.delivered = List.replicate 10 0 ∧
      ¬ final.delivered <+: final.accepted := by
  have result : (run (step 0) fresh [.write [] 0, .read (-1) 0 1]).map
      (fun final => (final.accepted, final.delivered)) = some ([], List.replicate 10 0) := by
    decide +kernel
  obtain ⟨final, ran, bytes⟩ := Option.map_eq_some_iff.mp result
  obtain ⟨accepted, delivered⟩ := Prod.mk.inj bytes
  refine ⟨fresh_start, final, ran, accepted, delivered, ?_⟩
  rw [accepted, delivered]
  decide

end PipeRun

end SistemasOperativos.Kernel
