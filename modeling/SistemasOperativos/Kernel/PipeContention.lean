import SistemasOperativos.Kernel.PipeQueue

/-!
# A pipe with several callers

`write` and `read` compute the address of their first byte before `lockMutex`,
and a caller that has to wait for the mutex uses it when it goes on. The runs of
this module are those of `PipeRun` with callers that wait, and with user code that
locks and frees the mutex of the pipe. As long as nobody goes on with an address
that was overtaken, the pipe is a queue (`queued_callers_in_order`); otherwise a
write can overwrite bytes that nobody has read (`overtaken_write_overwrites`).
-/

namespace SistemasOperativos.Kernel

open SistemasOperativos.Semantics

/-- Where a process stands that waits in `lockMutex`, with the pointer it computed. -/
inductive PipeCall where
  | write (message : List UInt8) (aux : Nat)
  | read (bytes : Int) (aux : Nat)
  | lockMutex
  deriving DecidableEq

/-- What goes on is a call that moves bytes, with a pointer that is still right. -/
def PipeCall.InTime (pipe : Pipe) : PipeCall → Prop
  | .write message aux =>
      (pipe.count = 0 → cString message ≠ []) ∧
        (pipe.count ≠ PIPE_LENGTH → cString message ≠ [] → aux = pipe.endPosition)
  | .read bytes aux =>
      (pipe.count = PIPE_LENGTH → Pipe.Holds.asked bytes ≠ 0) ∧
        (pipe.count ≠ 0 → Pipe.Holds.asked bytes ≠ 0 → aux = pipe.position)
  | .lockMutex => True

instance (pipe : Pipe) (call : PipeCall) : Decidable (call.InTime pipe) :=
  match call with
  | .write _ _ => inferInstanceAs (Decidable (_ ∧ _))
  | .read _ _ => inferInstanceAs (Decidable (_ ∧ _))
  | .lockMutex => inferInstanceAs (Decidable True)

/-- A run of a pipe, and the processes that wait in `lockMutex`. -/
structure ContendedRun extends PipeRun where
  pending : Int → Option PipeCall

/-- What the current process, or the timer, does. User code may lock and free any
mutex, so also that of the pipe, and `resume` goes on after the `_yield` in
`lockMutex`. -/
inductive ContendedAction where
  | write (message : List UInt8) (garbage next : Int)
  | read (bytes garbage next : Int)
  | lockMutex (mutex garbage next : Int)
  | freeMutex (mutex : Int)
  | resume (next : Int)
  | switch (next : Int)
  deriving DecidableEq

namespace ContendedRun

/-- The process that runs. -/
def current (state : ContendedRun) : Int := state.kernel.processes.current

/-- The current process is somewhere else in its code, `none` outside of the calls. -/
def settle (state : ContendedRun) (call : Option PipeCall) : ContendedRun :=
  { state with pending := Function.update state.pending state.current call }

/-- Take over what happened to the pipe. -/
def setRun (state : ContendedRun) (pipeRun : PipeRun) : ContendedRun :=
  { state with toPipeRun := pipeRun }

/-- The current process waits in `lockMutex`, and the processor goes to `next`. -/
def wait (state : ContendedRun) (mutexes : MutexState) (call : PipeCall) (next : Int) :
    Option ContendedRun :=
  let waiting := (state.settle (some call)).setRun
    { state.toPipeRun with kernel := { state.kernel with toMutexState := mutexes } }
  (waiting.toPipeRun.dispatch next).map waiting.setRun

/-- The rest of a call, from the return of `lockMutex` on. -/
def goOn (p : Nat) (state : ContendedRun) (next : Int) : PipeCall → Option ContendedRun
  | .write message aux =>
      let (kernel, bytes) := state.kernel.writeLocked p message aux
      some (state.setRun
        { state.toPipeRun with kernel, accepted := state.accepted ++ message.take bytes })
  | .read bytes aux =>
      match state.kernel.readLocked p bytes aux with
      | (kernel, .returned result) =>
          some (state.setRun
            { state.toPipeRun with kernel, delivered := state.delivered ++ result })
      | (kernel, .yielded) =>
          (PipeRun.dispatch { state.toPipeRun with kernel } next).map state.setRun
      | (_, .yieldedInLock) => none
  | .lockMutex => some state

/-- One action. A call that finds the mutex free is a step of `PipeRun`. -/
def step (p : Nat) (state : ContendedRun) : ContendedAction → Option ContendedRun
  | .write message garbage next =>
      if state.pending state.current = none then
        match state.kernel.write p message garbage with
        | (kernel, none) =>
            state.wait kernel.toMutexState (.write message (state.kernel.pipe p).endPosition) next
        | (_, some _) => (state.toPipeRun.step p (.write message garbage)).map state.setRun
      else none
  | .read bytes garbage next =>
      if state.pending state.current = none then
        match state.kernel.read p bytes garbage with
        | (kernel, .yieldedInLock) =>
            state.wait kernel.toMutexState (.read bytes (state.kernel.pipe p).position) next
        | _ => (state.toPipeRun.step p (.read bytes garbage next)).map state.setRun
      else none
  | .lockMutex mutex garbage next =>
      if state.pending state.current = none then
        match state.kernel.lockMutex mutex garbage with
        | (mutexes, .yielded) => state.wait mutexes .lockMutex next
        | (mutexes, .returned) =>
            some (state.setRun
              { state.toPipeRun with kernel := { state.kernel with toMutexState := mutexes } })
      else none
  | .freeMutex mutex =>
      if state.pending state.current = none then
        some (state.setRun { state.toPipeRun with
          kernel := { state.kernel with toMutexState := state.kernel.freeMutex mutex } })
      else none
  | .resume next =>
      (state.pending state.current).bind fun call => (state.settle none).goOn p next call
  | .switch next => (state.toPipeRun.dispatch next).map state.setRun

/-- A run starts with a new pipe, and nobody waits in a call on it. -/
structure Start (p : Nat) (state : ContendedRun) : Prop where
  created : PipeRun.Start p state.toPipeRun
  idle : ∀ pid, state.pending pid = none

/-- The condition on a step: what completes moves bytes (`PipeRun.MovesBytes`), and
what goes on after `lockMutex` does so with a pointer that is still right. -/
def NotOvertaken (p : Nat) (state : ContendedRun) : ContendedAction → Prop
  | .write message garbage _ =>
      state.kernel.Uncontended (state.kernel.pipe p).mutex →
        state.MovesBytes p (.write message garbage)
  | .read bytes garbage next =>
      state.kernel.Uncontended (state.kernel.pipe p).mutex →
        state.MovesBytes p (.read bytes garbage next)
  | .resume _ =>
      match state.pending state.current with
      | some call => call.InTime (state.kernel.pipe p)
      | none => True
  | _ => True

instance (p : Nat) (state : ContendedRun) (action : ContendedAction) :
    Decidable (state.NotOvertaken p action) := by
  cases action with
  | resume next =>
      unfold NotOvertaken
      cases state.pending state.current <;> infer_instance
  | _ =>
      unfold NotOvertaken
      infer_instance

/-- The bytes accepted so far are those delivered followed by those in the pipe: a
write stores its bytes behind the unread ones, and a read gets the oldest. -/
def InOrder (p : Nat) (state : ContendedRun) : Prop :=
  state.accepted = state.delivered ++ (state.kernel.pipe p).stored

variable {p : Nat}

@[simp] theorem setRun_toPipeRun (state : ContendedRun) (pipeRun : PipeRun) :
    (state.setRun pipeRun).toPipeRun = pipeRun := rfl

@[simp] theorem settle_toPipeRun (state : ContendedRun) (call : Option PipeCall) :
    (state.settle call).toPipeRun = state.toPipeRun := rfl

/-! ## Pointers that are still right -/

/-- Without bytes in the message the pointer is not used. -/
theorem append_aux {pipe : Pipe} {message : List UInt8} {aux : Nat}
    (right : cString message ≠ [] → aux = pipe.endPosition) :
    pipe.append message aux = pipe.append message pipe.endPosition := by
  by_cases text : cString message = []
  · have unused (start : Nat) : pipe.writeLoop message start 0 pipe.pipe = (pipe.pipe, 0) := by
      cases message with
      | nil => rfl
      | cons current message =>
          have nul : current = 0 := by
            by_contra character
            simp [cString, character] at text
          simp [Pipe.writeLoop, nul]
    simp only [Pipe.append, unused]
  · rw [right text]

/-- Without bytes asked for the pointer is not used. -/
theorem take_aux {pipe : Pipe} {bytes : Int} {aux : Nat}
    (right : Pipe.Holds.asked bytes ≠ 0 → aux = pipe.position) :
    pipe.take bytes aux = pipe.take bytes pipe.position := by
  have number : (if bytes = -1 then (PIPE_LENGTH : Int) else bytes).toNat =
      Pipe.Holds.asked bytes := by
    unfold Pipe.Holds.asked
    split <;> simp
  by_cases nothing : Pipe.Holds.asked bytes = 0
  · simp only [Pipe.take, number, nothing, Pipe.readLoop]
  · rw [right nothing]

/-! ## Steps -/

/-- Mutexes and processes are no part of the queue. -/
theorem queued_setMutexes {pipeRun : PipeRun} (queued : pipeRun.Queued p) (mutexes : MutexState) :
    PipeRun.Queued p
      { pipeRun with kernel := { pipeRun.kernel with toMutexState := mutexes } } :=
  queued.congr (.refl _) rfl rfl

/-- A switch keeps the pipe a queue. -/
theorem queued_dispatch {pipeRun after : PipeRun} (queued : pipeRun.Queued p) {next : Int}
    (switched : pipeRun.dispatch next = some after) : after.Queued p := by
  obtain ⟨pipe, accepted, delivered⟩ := PipeRun.dispatch_eq_some switched
  exact queued.congr (pipe ▸ .refl _) accepted delivered

/-- A caller that has to wait leaves the pipe a queue. -/
theorem queued_wait {state after : ContendedRun} (queued : state.Queued p)
    {mutexes : MutexState} {call : PipeCall} {next : Int}
    (waits : state.wait mutexes call next = some after) : after.Queued p := by
  obtain ⟨pipeRun, switched, rfl⟩ := Option.map_eq_some_iff.mp waits
  exact queued_dispatch (queued_setMutexes queued mutexes) switched

/-- A `write` that goes on in time appends what it accepts. -/
theorem queued_writeLocked {pipeRun : PipeRun} (queued : pipeRun.Queued p)
    {message : List UInt8} {aux bytes : Nat} {kernel : PipeState}
    (inTime : (PipeCall.write message aux).InTime (pipeRun.kernel.pipe p))
    (written : pipeRun.kernel.writeLocked p message aux = (kernel, bytes)) :
    PipeRun.Queued p
      { pipeRun with kernel, accepted := pipeRun.accepted ++ message.take bytes } := by
  obtain ⟨held, holds⟩ := queued.1
  have outcome := pipeRun.kernel.writeLocked_outcome p message aux
  rw [written] at outcome
  split at outcome
  · obtain ⟨rfl, same⟩ := outcome
    exact queued.congr same (by simp) rfl
  · rename_i notFull
    have room : (pipeRun.kernel.pipe p).count ≠ PIPE_LENGTH := by
      rw [holds.count_eq]
      exact fun full => notFull ((PipeRun.Queued.full_iff holds).mpr full)
    rw [append_aux (inTime.2 room)] at outcome
    obtain ⟨rfl, same⟩ := outcome
    exact queued.append notFull inTime.1 same rfl rfl

/-- A `read` that goes on in time gets the oldest bytes. -/
theorem queued_readLocked {pipeRun : PipeRun} (queued : pipeRun.Queued p) {bytes : Int}
    {aux : Nat} {kernel : PipeState} {result : List UInt8}
    (inTime : (PipeCall.read bytes aux).InTime (pipeRun.kernel.pipe p))
    (got : pipeRun.kernel.readLocked p bytes aux = (kernel, .returned result)) :
    PipeRun.Queued p { pipeRun with kernel, delivered := pipeRun.delivered ++ result } := by
  obtain ⟨held, holds⟩ := queued.1
  simp only [PipeState.readLocked] at got
  split at got
  · cases (Prod.mk.inj got).2
  · rename_i notEmpty
    have some_held : (pipeRun.kernel.pipe p).count ≠ 0 := by
      rw [holds.count_eq]
      exact fun empty => notEmpty ((PipeRun.Queued.empty_iff holds).mpr empty)
    rw [take_aux (inTime.2 some_held)] at got
    obtain ⟨rfl, same⟩ := Prod.mk.inj got
    obtain rfl := PipeState.ReadProgress.returned.inj same
    exact queued.take notEmpty inTime.1 (by simp) rfl rfl

/-- A `read` that finds the pipe empty after `lockMutex` leaves the bytes alone. -/
theorem queued_readLocked_empty {pipeRun : PipeRun} (queued : pipeRun.Queued p) {bytes : Int}
    {aux : Nat} {kernel : PipeState}
    (got : pipeRun.kernel.readLocked p bytes aux = (kernel, .yielded)) :
    PipeRun.Queued p { pipeRun with kernel } := by
  simp only [PipeState.readLocked] at got
  split at got
  · obtain ⟨rfl, -⟩ := Prod.mk.inj got
    refine queued.congr ?_ rfl rfl
    simp only [PipeState.setPipe_same]
    exact ⟨rfl, rfl, rfl, rfl⟩
  · cases (Prod.mk.inj got).2

/-- The rest of a call keeps the queue if it is in time. -/
theorem queued_goOn {state after : ContendedRun} (queued : state.Queued p) {next : Int}
    {call : PipeCall} (inTime : call.InTime (state.kernel.pipe p))
    (went : state.goOn p next call = some after) : after.Queued p := by
  cases call with
  | write message aux =>
      obtain rfl := Option.some.inj went
      exact queued_writeLocked queued inTime rfl
  | read bytes aux =>
      simp only [goOn] at went
      split at went
      · rename_i kernel result got
        obtain rfl := Option.some.inj went
        exact queued_readLocked queued inTime got
      · rename_i kernel got
        obtain ⟨pipeRun, switched, rfl⟩ := Option.map_eq_some_iff.mp went
        exact queued_dispatch (queued_readLocked_empty queued got) switched
      · cases went
  | lockMutex =>
      obtain rfl := Option.some.inj went
      exact queued

/-- A `write` that completes found the mutex free. -/
theorem uncontended_of_write {state : PipeRun} {after : PipeRun} {message : List UInt8}
    {garbage : Int} (stepped : state.step p (.write message garbage) = some after) :
    state.kernel.Uncontended (state.kernel.pipe p).mutex := by
  simp only [PipeRun.step, PipeState.write] at stepped
  cases locked : state.kernel.lockMutex (state.kernel.pipe p).mutex garbage with
  | mk mutexes progress =>
      cases progress with
      | returned => exact MutexState.lockMutex_returned.mp (congrArg Prod.snd locked)
      | yielded =>
          rw [locked] at stepped
          cases stepped

/-- A `read` that completes found the mutex free. -/
theorem uncontended_of_read {state : PipeRun} {after : PipeRun} {bytes garbage next : Int}
    (stepped : state.step p (.read bytes garbage next) = some after) :
    state.kernel.Uncontended (state.kernel.pipe p).mutex := by
  simp only [PipeRun.step, PipeState.read] at stepped
  cases locked : state.kernel.lockMutex (state.kernel.pipe p).mutex garbage with
  | mk mutexes progress =>
      cases progress with
      | returned => exact MutexState.lockMutex_returned.mp (congrArg Prod.snd locked)
      | yielded =>
          rw [locked] at stepped
          cases stepped

/-- A step in which nobody is overtaken keeps the pipe a queue. -/
theorem queued_step (p : Nat) (state : ContendedRun) (action : ContendedAction)
    (after : ContendedRun) (queued : state.Queued p) (inTime : state.NotOvertaken p action)
    (stepped : state.step p action = some after) : after.Queued p := by
  cases action with
  | write message garbage next =>
      simp only [step] at stepped
      split at stepped
      · split at stepped
        · exact queued_wait queued stepped
        · obtain ⟨pipeRun, completed, rfl⟩ := Option.map_eq_some_iff.mp stepped
          exact PipeRun.queued_step p _ _ _ queued (inTime (uncontended_of_write completed))
            completed
      · cases stepped
  | read bytes garbage next =>
      simp only [step] at stepped
      split at stepped
      · split at stepped
        · exact queued_wait queued stepped
        · obtain ⟨pipeRun, completed, rfl⟩ := Option.map_eq_some_iff.mp stepped
          exact PipeRun.queued_step p _ _ _ queued (inTime (uncontended_of_read completed))
            completed
      · cases stepped
  | lockMutex mutex garbage next =>
      simp only [step] at stepped
      split at stepped
      · split at stepped
        · exact queued_wait queued stepped
        · obtain rfl := Option.some.inj stepped
          exact queued_setMutexes queued _
      · cases stepped
  | freeMutex mutex =>
      simp only [step] at stepped
      split at stepped
      · obtain rfl := Option.some.inj stepped
        exact queued_setMutexes queued _
      · cases stepped
  | resume next =>
      obtain ⟨call, here, went⟩ := Option.bind_eq_some_iff.mp stepped
      simp only [NotOvertaken, here] at inTime
      have settled : (state.settle none).Queued p := queued
      exact queued_goOn settled inTime went
  | switch next =>
      obtain ⟨pipeRun, switched, rfl⟩ := Option.map_eq_some_iff.mp stepped
      exact queued_dispatch queued switched

/-- In every run in which no caller goes on with a pointer that was overtaken, each
write stores its bytes behind the unread ones and each read gets the oldest. -/
theorem queued_callers_in_order (p : Nat) (start final : ContendedRun) (begins : Start p start)
    (actions : List ContendedAction)
    (inTime : Along (step p) (NotOvertaken p) start actions)
    (ran : run (step p) start actions = some final) : InOrder p final := by
  have queued : final.Queued p :=
    Along.invariant (queued_step p) begins.created.queued inTime ran
  exact queued.2

/-- The new pipe of `PipeRun.fresh`, with READY processes beside its creator. -/
def shared : ContendedRun where
  kernel :=
    { PipeRun.fresh.kernel with
      processes :=
        { state := fun pid => if 1 ≤ pid ∧ pid ≤ 4 then some .ready else none
          current := 1 } }
  accepted := []
  delivered := []
  pending := fun _ => none

theorem shared_start : Start 0 shared where
  created :=
    { created := ⟨PipeRun.blank, PipeRun.blankOwner, some "p", PipeRun.fresh.kernel, _, rfl, rfl⟩
      accepted := rfl
      delivered := rfl }
  idle := fun _ => rfl

/-- Process `2` waits for the mutex with its write, and nobody writes meanwhile. -/
def queuedOnce : List ContendedAction :=
  [.lockMutex 1 0 1, .switch 2, .write [97, 98] 0 1, .freeMutex 1, .switch 2, .resume 1,
    .read 1 0 1]

theorem queuedOnce_in_order : ∃ final, run (step 0) shared queuedOnce = some final ∧
    final.accepted = [97, 98] ∧ final.delivered = [97] ∧ InOrder 0 final := by
  have result : (run (step 0) shared queuedOnce).map (fun final =>
      (final.accepted, final.delivered)) = some ([97, 98], [97]) := by
    decide +kernel
  obtain ⟨final, ran, bytes⟩ := Option.map_eq_some_iff.mp result
  obtain ⟨accepted, delivered⟩ := Prod.mk.inj bytes
  exact ⟨final, ran, accepted, delivered,
    queued_callers_in_order 0 shared final shared_start queuedOnce (by decide +kernel) ran⟩

/-- Processes `2` and `3` wait for the mutex with their writes, and process `4` reads. -/
def queuedTwice : List ContendedAction :=
  [.lockMutex 1 0 1, .switch 2, .write [97, 98] 0 3, .write [99] 0 1, .freeMutex 1, .switch 2,
    .resume 1, .switch 3, .resume 1, .switch 4, .read (-1) 0 1]

/-- Both writes start at the same cell: the second one overwrites the first byte of
the first, and the reader gets a byte that nobody wrote. -/
theorem overtaken_write_overwrites : Start 0 shared ∧ ∃ final,
    run (step 0) shared queuedTwice = some final ∧ final.accepted = [97, 98, 99] ∧
      final.delivered = [99, 98, 0] ∧ ¬ InOrder 0 final := by
  have result : (run (step 0) shared queuedTwice).map (fun final =>
      (final.accepted, final.delivered)) = some ([97, 98, 99], [99, 98, 0]) := by
    decide +kernel
  obtain ⟨final, ran, bytes⟩ := Option.map_eq_some_iff.mp result
  obtain ⟨accepted, delivered⟩ := Prod.mk.inj bytes
  refine ⟨shared_start, final, ran, accepted, delivered, ?_⟩
  rw [InOrder, accepted, delivered]
  intro same
  exact absurd (List.cons.inj same).1 (by decide)

end ContendedRun

end SistemasOperativos.Kernel
