import SistemasOperativos.Foundation.RingBuffer
import SistemasOperativos.Kernel.ProcessTable
import SistemasOperativos.Semantics.Run

/-!
# The keyboard buffer of the terminal

`putTerminalBuffer` and `getTerminalBuffer` of terminal.c on a ring of 2500
bytes. Equal pointers mean an empty buffer, and `isBufferFull` compares the
position plus one with the read pointer. The second half of its test is for the
last cell of the array, but it looks for the read pointer behind the end, where
it never is. A put into the last cell while the read pointer is at the start
therefore goes around and makes the full buffer look empty (`full_looks_empty`);
in runs without such a put the buffer is a queue (`puts_and_gets_in_order`).
The pointers are offsets into `Buffer`.
-/

namespace SistemasOperativos.Kernel

open SistemasOperativos.Foundation SistemasOperativos.Semantics

/-- `BUFFERSIZE`. -/
abbrev BUFFERSIZE : Nat := 2500

/-- The calls of video.c that echo a character. -/
inductive ScreenCall where
  | backInLine
  | putChar (c : UInt8)
  | lineJump
  deriving DecidableEq

/-- The static variables of terminal.c, and what was echoed so far. -/
structure Terminal where
  buffer : Vector UInt8 BUFFERSIZE
  bufferConsume : Nat
  bufferPosition : Nat
  bufferStart : Nat
  bufferSize : Nat
  isEcho : Bool
  screen : List ScreenCall

namespace Terminal

/-- `terminalInitializeC`. -/
def terminalInitializeC (terminal : Terminal) : Terminal :=
  { terminal with
    bufferConsume := 0
    bufferStart := 0
    bufferPosition := 0
    bufferSize := BUFFERSIZE
    isEcho := true }

/-- `isBufferFull`. -/
def isBufferFull (terminal : Terminal) : Prop :=
  terminal.bufferConsume = terminal.bufferPosition + 1 ∨
    terminal.bufferConsume = terminal.bufferStart + terminal.bufferSize ∧
      terminal.bufferPosition = terminal.bufferStart

/-- `isBufferEmpty`. -/
def isBufferEmpty (terminal : Terminal) : Prop :=
  terminal.bufferConsume = terminal.bufferPosition

instance (terminal : Terminal) : Decidable terminal.isBufferFull :=
  inferInstanceAs (Decidable (_ ∨ _))

instance (terminal : Terminal) : Decidable terminal.isBufferEmpty :=
  inferInstanceAs (Decidable (_ = _))

/-- `echoON` and `echoOF`. -/
def setEcho (terminal : Terminal) (isEcho : Bool) : Terminal := { terminal with isEcho }

/-- The echo of a character: backspace (8), newline (10), or anything else. -/
def echo (terminal : Terminal) (c : UInt8) : List ScreenCall :=
  if c = 8 then [.backInLine, .putChar 32, .backInLine]
  else if c = 10 then [.lineJump]
  else if terminal.isEcho then [.putChar c]
  else []

/-- The pointer after `pointer`, going around at the end of the buffer. -/
def advance (terminal : Terminal) (pointer : Nat) : Nat :=
  if pointer + 1 = terminal.bufferStart + terminal.bufferSize then terminal.bufferStart
  else pointer + 1

/-- `putTerminalBuffer`. -/
def putTerminalBuffer (terminal : Terminal) (c : UInt8) : Terminal :=
  if terminal.isBufferFull then terminal
  else
    { terminal with
      buffer := terminal.buffer.setIfInBounds terminal.bufferPosition c
      screen := terminal.screen ++ terminal.echo c
      bufferPosition := terminal.advance terminal.bufferPosition }

/-- Move the read pointer on. -/
def consumeOne (terminal : Terminal) : Terminal :=
  { terminal with bufferConsume := terminal.advance terminal.bufferConsume }

/-- The loop of `getTerminalBuffer` with `length` characters still wanted: the
characters written to the destination and `charsConsume`. -/
def consumeLoop : Nat → Terminal → List UInt8 → Int → Terminal × List UInt8 × Int
  | 0, terminal, destination, charsConsume => (terminal, destination, charsConsume)
  | length + 1, terminal, destination, charsConsume =>
      if terminal.isBufferEmpty then (terminal, destination, charsConsume)
      else
        consumeLoop length terminal.consumeOne
          (destination ++ [(terminal.buffer[terminal.bufferConsume]?).getD 0])
          (toInt32 (charsConsume + 1))

/-- `getTerminalBuffer`. -/
def getTerminalBuffer (terminal : Terminal) (length : Nat) : Terminal × List UInt8 × Int :=
  consumeLoop length terminal [] 0

/-! ## The buffer as a queue -/

/-- The number of cells from the read pointer up to the position. -/
def used (terminal : Terminal) : Nat :=
  (terminal.bufferPosition + BUFFERSIZE - terminal.bufferConsume) % BUFFERSIZE

/-- The stored characters, oldest first. -/
def stored (terminal : Terminal) : List UInt8 :=
  window terminal.buffer terminal.bufferConsume terminal.used

/-- The pointers are inside the array. -/
structure Valid (terminal : Terminal) : Prop where
  start : terminal.bufferStart = 0
  size : terminal.bufferSize = 2500
  consume : terminal.bufferConsume < 2500
  position : terminal.bufferPosition < 2500

/-- The pointers are inside after the initialization. -/
theorem terminalInitializeC_valid (terminal : Terminal) : Valid terminal.terminalInitializeC :=
  ⟨rfl, rfl, by simp [terminalInitializeC], by simp [terminalInitializeC]⟩

/-- A pointer goes around the array. -/
theorem Valid.advance {terminal : Terminal} (valid : Valid terminal) {pointer : Nat}
    (inside : pointer < 2500) : terminal.advance pointer = (pointer + 1) % 2500 := by
  rw [Terminal.advance, valid.start, valid.size]
  split <;> omega

/-- The position is as many cells behind the read pointer as are in use. -/
theorem Valid.position_eq {terminal : Terminal} (valid : Valid terminal) :
    terminal.bufferPosition = (terminal.bufferConsume + terminal.used) % 2500 := by
  have position := valid.position
  have consume := valid.consume
  simp only [used, BUFFERSIZE]
  omega

/-- The buffer looks empty exactly if nothing is stored. -/
theorem Valid.isBufferEmpty_iff {terminal : Terminal} (valid : Valid terminal) :
    terminal.isBufferEmpty ↔ terminal.used = 0 := by
  have position := valid.position
  have consume := valid.consume
  simp only [isBufferEmpty, used, BUFFERSIZE]
  omega

/-- The stored characters are as many as the pointers say. -/
theorem length_stored (terminal : Terminal) : terminal.stored.length = terminal.used :=
  length_window _ _

/-- Less than the whole array is stored. -/
theorem used_lt (terminal : Terminal) : terminal.used < 2500 := Nat.mod_lt _ (by decide)

/-- The put that goes wrong: into the last cell, with the read pointer at the start. -/
def AtSeam (terminal : Terminal) : Prop :=
  terminal.bufferPosition + 1 = terminal.bufferStart + terminal.bufferSize ∧
    terminal.bufferConsume = terminal.bufferStart

instance (terminal : Terminal) : Decidable terminal.AtSeam := inferInstanceAs (Decidable (_ ∧ _))

/-- Away from the seam, the buffer is full when one cell is left. -/
theorem Valid.isBufferFull_iff {terminal : Terminal} (valid : Valid terminal)
    (apart : ¬ terminal.AtSeam) : terminal.isBufferFull ↔ terminal.used = 2499 := by
  have position := valid.position
  have consume := valid.consume
  simp only [AtSeam, valid.start, valid.size] at apart
  simp only [isBufferFull, used, BUFFERSIZE, valid.start, valid.size]
  omega

/-- A refused put changes nothing. -/
theorem putTerminalBuffer_full {terminal : Terminal} (full : terminal.isBufferFull) (c : UInt8) :
    terminal.putTerminalBuffer c = terminal := if_pos full

/-- Putting a character keeps the pointers inside. -/
theorem Valid.put {terminal : Terminal} (valid : Valid terminal) (c : UInt8) :
    Valid (terminal.putTerminalBuffer c) := by
  rw [putTerminalBuffer]
  split
  · exact valid
  · refine ⟨valid.start, valid.size, valid.consume, ?_⟩
    simp only [valid.advance valid.position]
    omega

/-- Away from the seam, an accepted put appends its character. -/
theorem Valid.put_stored {terminal : Terminal} (valid : Valid terminal)
    (apart : ¬ terminal.AtSeam) (accepted : ¬ terminal.isBufferFull) (c : UInt8) :
    (terminal.putTerminalBuffer c).stored = terminal.stored ++ [c] := by
  have position := valid.position
  have consume := valid.consume
  have few : terminal.used ≠ 2499 := fun most => accepted ((valid.isBufferFull_iff apart).mpr most)
  have room : terminal.used < BUFFERSIZE := terminal.used_lt
  have more : (terminal.putTerminalBuffer c).used = terminal.used + 1 := by
    rw [putTerminalBuffer, if_neg accepted]
    simp only [used, BUFFERSIZE, valid.advance valid.position] at few ⊢
    omega
  have appended := @window_set_next _ _ _ terminal.buffer terminal.bufferConsume _ room c
  rw [stored, more, putTerminalBuffer, if_neg accepted]
  dsimp only
  rw [valid.position_eq]
  exact appended

/-- Taking a character keeps the pointers inside. -/
theorem Valid.consumeOne {terminal : Terminal} (valid : Valid terminal) :
    Valid terminal.consumeOne := by
  refine ⟨valid.start, valid.size, ?_, valid.position⟩
  rw [Terminal.consumeOne, valid.advance valid.consume]
  exact Nat.mod_lt _ (by decide)

/-- Reading takes the oldest stored character. -/
theorem Valid.stored_cons {terminal : Terminal} (valid : Valid terminal)
    (nonempty : ¬ terminal.isBufferEmpty) :
    terminal.stored =
      (terminal.buffer[terminal.bufferConsume]?).getD 0 :: terminal.consumeOne.stored := by
  have position := valid.position
  have consume := valid.consume
  have next := valid.advance valid.consume
  have nonzero : terminal.used ≠ 0 := fun nothing =>
    nonempty (valid.isBufferEmpty_iff.mpr nothing)
  have fewer : terminal.consumeOne.used + 1 = terminal.used := by
    simp only [used, Terminal.consumeOne, BUFFERSIZE, next] at nonzero ⊢
    omega
  have here := @getElem?_mod _ _ _ terminal.buffer terminal.bufferConsume
  rw [Nat.mod_eq_of_lt consume] at here
  rw [stored, ← fewer, window, here, stored, Terminal.consumeOne]
  refine congrArg _ (window_congr ?_ _)
  dsimp only
  rw [next, Nat.mod_mod]

/-- The loop hands out the oldest characters and leaves the others. -/
theorem Valid.consumeLoop {terminal : Terminal} (valid : Valid terminal) (length : Nat)
    (destination : List UInt8) (charsConsume : Int) (low : 0 ≤ charsConsume)
    (high : charsConsume + terminal.used < 2 ^ 31) :
    ∃ after, consumeLoop length terminal destination charsConsume =
        (after, destination ++ terminal.stored.take length,
          charsConsume + (terminal.stored.take length).length) ∧
      Valid after ∧ after.stored = terminal.stored.drop length := by
  induction length generalizing terminal destination charsConsume with
  | zero => exact ⟨terminal, by simp [Terminal.consumeLoop], valid, rfl⟩
  | succ length ih =>
      rw [Terminal.consumeLoop]
      by_cases empty : terminal.isBufferEmpty
      · have nothing : terminal.stored = [] := by
          rw [stored, valid.isBufferEmpty_iff.mp empty]
          rfl
        refine ⟨terminal, ?_, valid, ?_⟩
        · rw [if_pos empty, nothing]
          simp
        · rw [nothing]
          simp
      · rw [if_neg empty]
        have split := valid.stored_cons empty
        have fewer : terminal.used = terminal.consumeOne.used + 1 := by
          rw [← length_stored, ← length_stored, split, List.length_cons]
        rw [toInt32_of_range (by omega) (by omega)]
        obtain ⟨after, looped, sound, rest⟩ := ih valid.consumeOne
          (destination ++ [(terminal.buffer[terminal.bufferConsume]?).getD 0])
          (charsConsume + 1) (by omega) (by omega)
        refine ⟨after, ?_, sound, ?_⟩
        · rw [looped, split, List.take_succ_cons, List.append_assoc, List.length_cons,
            Int.add_assoc, Int.add_comm 1]
          rfl
        · rw [rest, split, List.drop_succ_cons]

/-- `getTerminalBuffer` hands out the oldest characters, and returns their number. -/
theorem Valid.getTerminalBuffer {terminal : Terminal} (valid : Valid terminal) (length : Nat) :
    ∃ after, terminal.getTerminalBuffer length =
        (after, terminal.stored.take length, ((terminal.stored.take length).length : Int)) ∧
      Valid after ∧ after.stored = terminal.stored.drop length := by
  have few := terminal.used_lt
  obtain ⟨after, looped, rest⟩ := valid.consumeLoop length [] 0 (by omega) (by omega)
  rw [List.nil_append, Int.zero_add] at looped
  exact ⟨after, looped, rest⟩

end Terminal

/-- The terminal with the characters that puts stored and gets handed out. -/
structure TerminalRun where
  terminal : Terminal
  accepted : List UInt8
  delivered : List UInt8

/-- The calls of the keyboard, the mouse and the `read` system call. -/
inductive TerminalAction where
  | putTerminalBuffer (c : UInt8)
  | getTerminalBuffer (length : Nat)
  | setEcho (isEcho : Bool)
  deriving DecidableEq

namespace TerminalRun

/-- One call; the length of a get is a `uint32_t`. -/
def step (state : TerminalRun) : TerminalAction → Option TerminalRun
  | .putTerminalBuffer c =>
      some { state with
        terminal := state.terminal.putTerminalBuffer c
        accepted := if state.terminal.isBufferFull then state.accepted else state.accepted ++ [c] }
  | .getTerminalBuffer length =>
      if length < 2 ^ 32 then
        let (terminal, characters, _) := state.terminal.getTerminalBuffer length
        some { state with terminal, delivered := state.delivered ++ characters }
      else none
  | .setEcho isEcho => some { state with terminal := state.terminal.setEcho isEcho }

/-- The run begins with the call of `terminalInitializeC`. -/
def initialized (terminal : Terminal) : TerminalRun := ⟨terminal.terminalInitializeC, [], []⟩

/-- The condition on a step: no put at the seam. -/
def AwayFromSeam (state : TerminalRun) : TerminalAction → Prop
  | .putTerminalBuffer _ => ¬ state.terminal.AtSeam
  | _ => True

instance (state : TerminalRun) (action : TerminalAction) :
    Decidable (state.AwayFromSeam action) :=
  match action with
  | .putTerminalBuffer _ => inferInstanceAs (Decidable (¬ _))
  | .getTerminalBuffer _ => inferInstanceAs (Decidable True)
  | .setEcho _ => inferInstanceAs (Decidable True)

/-- The characters handed out, followed by those that gets will hand out from here
on, are the accepted ones, and the buffer looks empty exactly when all of them have
been handed out. -/
structure InOrder (state : TerminalRun) : Prop where
  ordered : state.accepted = state.delivered ++ state.terminal.stored
  handedOut : ∀ length, ∃ after, state.terminal.getTerminalBuffer length =
    (after, state.terminal.stored.take length,
      ((state.terminal.stored.take length).length : Int))
  empty : state.terminal.isBufferEmpty ↔ state.delivered = state.accepted

/-- What the next put does: it never makes a buffer that holds characters look empty,
and when it is refused the stored characters stay. -/
structure PutsSafely (state : TerminalRun) (c : UInt8) : Prop where
  nonempty : ¬ state.terminal.isBufferEmpty →
    ¬ (state.terminal.putTerminalBuffer c).isBufferEmpty
  refused : state.terminal.isBufferFull →
    (state.terminal.putTerminalBuffer c).stored = state.terminal.stored

/-- The invariant of the runs. -/
structure Queued (state : TerminalRun) : Prop where
  valid : state.terminal.Valid
  ordered : state.accepted = state.delivered ++ state.terminal.stored

/-- The invariant holds after the initialization. -/
theorem initialized_queued (terminal : Terminal) : Queued (initialized terminal) := by
  refine ⟨terminal.terminalInitializeC_valid, ?_⟩
  have nothing : terminal.terminalInitializeC.used = 0 := Nat.mod_self _
  dsimp only [initialized]
  rw [Terminal.stored, nothing, window_zero]
  rfl

/-- A step away from the seam keeps the invariant. -/
theorem queued_step (state : TerminalRun) (action : TerminalAction) (next : TerminalRun)
    (queued : Queued state) (away : state.AwayFromSeam action)
    (stepped : state.step action = some next) : Queued next := by
  cases action with
  | putTerminalBuffer c =>
      obtain rfl := Option.some.inj stepped
      refine ⟨queued.valid.put c, ?_⟩
      dsimp only
      split
      · rename_i full
        rw [Terminal.putTerminalBuffer_full full, queued.ordered]
      · rename_i accepted
        rw [queued.valid.put_stored away accepted, queued.ordered, List.append_assoc]
  | getTerminalBuffer length =>
      obtain ⟨after, got, valid, rest⟩ := queued.valid.getTerminalBuffer length
      simp only [step, got] at stepped
      split at stepped
      · obtain rfl := Option.some.inj stepped
        refine ⟨valid, ?_⟩
        dsimp only
        rw [rest, List.append_assoc, List.take_append_drop, queued.ordered]
      · cases stepped
  | setEcho isEcho =>
      obtain rfl := Option.some.inj stepped
      exact ⟨⟨queued.valid.start, queued.valid.size, queued.valid.consume,
        queued.valid.position⟩, queued.ordered⟩

/-- In a state of the invariant characters are handed out in order. -/
theorem Queued.inOrder {state : TerminalRun} (queued : Queued state) : InOrder state := by
  refine ⟨queued.ordered, ?_, ?_⟩
  · intro length
    obtain ⟨after, got, -⟩ := queued.valid.getTerminalBuffer length
    exact ⟨after, got⟩
  · rw [queued.valid.isBufferEmpty_iff, ← Terminal.length_stored, List.length_eq_zero_iff,
      queued.ordered]
    constructor
    · intro nothing
      rw [nothing, List.append_nil]
    · intro all
      exact List.self_eq_append_right.mp all

/-- Away from the seam the next put is safe. -/
theorem Queued.putsSafely {state : TerminalRun} (queued : Queued state)
    (apart : ¬ state.terminal.AtSeam) (c : UInt8) : PutsSafely state c := by
  refine ⟨?_, ?_⟩
  · intro nonempty
    by_cases full : state.terminal.isBufferFull
    · rwa [Terminal.putTerminalBuffer_full full]
    · rw [(queued.valid.put c).isBufferEmpty_iff, ← Terminal.length_stored,
        queued.valid.put_stored apart full]
      simp
  · intro full
    rw [Terminal.putTerminalBuffer_full full]

/-- In every run without a put at the seam, the characters come out in the order they
went in, none is lost or repeated, and no put hides stored characters. -/
theorem puts_and_gets_in_order {terminal : Terminal} {final : TerminalRun}
    {actions : List TerminalAction}
    (away : Along step AwayFromSeam (initialized terminal) actions)
    (ran : run step (initialized terminal) actions = some final) :
    InOrder final ∧ ∀ c, final.AwayFromSeam (.putTerminalBuffer c) → PutsSafely final c := by
  have queued : Queued final :=
    Along.invariant queued_step (initialized_queued terminal) away ran
  exact ⟨queued.inOrder, fun c apart => queued.putsSafely apart c⟩

/-- The memory before the call of `terminalInitializeC`. -/
def zeroedTerminal : Terminal where
  buffer := Vector.replicate BUFFERSIZE 0
  bufferConsume := 0
  bufferPosition := 0
  bufferStart := 0
  bufferSize := 0
  isEcho := false
  screen := []

/-- Three puts, with a get in between. -/
def typed : List TerminalAction :=
  [.putTerminalBuffer 104, .putTerminalBuffer 111, .getTerminalBuffer 1, .putTerminalBuffer 108,
    .getTerminalBuffer 8]

theorem typed_in_order : ∃ final, run step (initialized zeroedTerminal) typed = some final ∧
    final.accepted = [104, 111, 108] ∧ InOrder final := by
  obtain ⟨final, ran⟩ : ∃ final, run step (initialized zeroedTerminal) typed = some final :=
    ⟨_, rfl⟩
  have accepted : (run step (initialized zeroedTerminal) typed).map accepted =
      some [104, 111, 108] := rfl
  rw [ran] at accepted
  exact ⟨final, ran, Option.some.inj accepted, (puts_and_gets_in_order (by decide) ran).1⟩

/-- Puts up to the end of the array, with the read pointer at the start, end with
equal pointers. -/
theorem puts_to_the_end (c : UInt8) (count : Nat) {state : TerminalRun}
    (start : state.terminal.bufferStart = 0) (size : state.terminal.bufferSize = 2500)
    (consume : state.terminal.bufferConsume = 0)
    (position : state.terminal.bufferPosition + (count + 1) = 2500) :
    ∃ final, run step state (List.replicate (count + 1) (.putTerminalBuffer c)) = some final ∧
      final.terminal.isBufferEmpty ∧
      final.accepted = state.accepted ++ List.replicate (count + 1) c ∧
      final.delivered = state.delivered := by
  have room : ¬ state.terminal.isBufferFull := by
    simp only [Terminal.isBufferFull, start, size, consume]
    omega
  induction count generalizing state with
  | zero =>
      refine ⟨_, rfl, ?_, ?_, rfl⟩
      · simp only [Terminal.putTerminalBuffer, if_neg room, Terminal.isBufferEmpty,
          Terminal.advance, start, size, consume]
        rw [if_pos (by omega)]
      · simp [room]
  | succ count ih =>
      have filled := @ih
        { state with
          terminal := state.terminal.putTerminalBuffer c
          accepted := if state.terminal.isBufferFull then state.accepted
            else state.accepted ++ [c] }
      simp only [Terminal.putTerminalBuffer, if_neg room] at filled
      obtain ⟨final, ran, empty, accepted, delivered⟩ := filled start size consume
        (by simp only [Terminal.advance, start, size]; rw [if_neg (by omega)]; omega)
        (by
          simp only [Terminal.isBufferFull, Terminal.advance, start, size, consume]
          rw [if_neg (by omega)]
          omega)
      refine ⟨final, ?_, empty, ?_, delivered⟩
      · rw [List.replicate_succ, run_cons_eq_some]
        refine ⟨_, rfl, ?_⟩
        simp only [Terminal.putTerminalBuffer, if_neg room]
        exact ran
      · rw [accepted, List.append_assoc]
        rfl

/-- 2500 characters are put and accepted, none is handed out, and the buffer looks
empty; the put before, into the last cell, made it look so. -/
theorem full_looks_empty : ∃ final,
    run step (initialized zeroedTerminal)
        (List.replicate 2500 (.putTerminalBuffer 97)) = some final ∧
      final.terminal.isBufferEmpty ∧ final.accepted = List.replicate 2500 97 ∧
      final.delivered = [] ∧ ¬ InOrder final := by
  obtain ⟨final, ran, empty, accepted, delivered⟩ :=
    @puts_to_the_end 97 2499 (initialized zeroedTerminal) rfl rfl rfl rfl
  refine ⟨final, ran, empty, accepted, delivered, ?_⟩
  intro inOrder
  have all := inOrder.empty.mp empty
  rw [accepted, delivered] at all
  have lengths := congrArg List.length all
  rw [List.length_append, List.length_replicate] at lengths
  exact absurd lengths (by simp [initialized])

end TerminalRun

end SistemasOperativos.Kernel
