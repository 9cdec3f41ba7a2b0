import SistemasOperativos.Foundation.Rotation
import SistemasOperativos.Kernel.SchedulerEffects

/-!
# Taking turns

`switchKernelToUser` goes on with the next process of the ring that is READY, and within that
process with the thread behind the one that ran last. Called again and again it gives the
processes that can run their turns in the order of the ring, and each turn of a process to
another of its threads (`switchKernelToUser_rotates`). Both are one law of rings with nodes to
skip, for the slots of the ring and for the entries of the array `thread`.
-/

namespace SistemasOperativos.Kernel

open SistemasOperativos.Foundation

/-- `thread[index]` is in use. -/
def Process.HasThread (p : Process) (index : Fin MAX_THREADS) : Prop := p.thread.get index ≠ NULL

instance (p : Process) : DecidablePred p.HasThread := fun index =>
  inferInstanceAs (Decidable (p.thread.get index ≠ NULL))

/-- The entries of `thread` in use. -/
def Process.threads (p : Process) : List (Fin MAX_THREADS) :=
  (List.finRange MAX_THREADS).filter fun index => p.HasThread index

/-- What `switchKernelToUser` goes on with. -/
structure Dispatch where
  slot : Nat
  index : Fin MAX_THREADS
  userStack : Nat

namespace Scheduler

/-- The process in the slot is READY or RUNNING. -/
def Runnable (s : Scheduler) (slot : Nat) : Prop :=
  (s.processOf slot).state = .ready ∨ (s.processOf slot).state = .running

instance (s : Scheduler) : DecidablePred s.Runnable := fun _ =>
  inferInstanceAs (Decidable (_ ∨ _))

/-- The processes of the ring that can run, in its order. -/
def runnable (s : Scheduler) (ring : List Nat) : List Nat := ring.filter fun a => s.Runnable a

/-- `switchKernelToUser` is called some number of times and nothing else happens. -/
def switches (s : Scheduler) (fuel : Nat) : (calls : Nat) → Option Scheduler
  | 0 => some s
  | calls + 1 =>
      (s.switches fuel calls).bind fun s => (s.switchKernelToUser fuel).map Prod.fst

/-- What one more call goes on with. -/
def dispatch (s : Scheduler) (fuel calls : Nat) : Option Dispatch :=
  (s.switches fuel calls).bind fun s =>
    (s.switchKernelToUser fuel).map fun (s, userStack) =>
      ⟨s.current, (s.processOf s.current).activeThread, userStack⟩

/-- The slots of `ring`, from `start` on, hold processes of their own. One of them can run, only
the current one may be RUNNING, and each that can run has a thread. -/
structure Rotating (s : Scheduler) (start : Nat) (ring : List Nat) : Prop where
  closed : Ring s.next start ring
  current : s.current ∈ ring
  distinct : (ring.map fun a => (s.slot a).process).Nodup
  inhabited : ∃ a ∈ ring, s.Runnable a
  running : ∀ a ∈ ring, (s.processOf a).state = .running → a = s.current
  threads : ∀ a ∈ ring, s.Runnable a → ∃ index, (s.processOf a).HasThread index

/-- One call went on from `s` with `userStack` and left `s'`. -/
structure Turn (s s' : Scheduler) (ring : List Nat) (userStack : Nat) : Prop where
  slot : s'.slot = s.slot
  thread : s'.thread = s.thread
  threads : ∀ a, (s'.processOf a).thread = (s.processOf a).thread
  runnable : ∀ a, s'.Runnable a ↔ s.Runnable a
  chosen : Finds s.next s.Runnable (s.next s.current) s'.current
  index : Finds (· + 1) (s.processOf s'.current).HasThread
    ((s.processOf s'.current).activeThread + 1) (s'.processOf s'.current).activeThread
  others : ∀ a ∈ ring, a ≠ s'.current →
    (s'.processOf a).activeThread = (s.processOf a).activeThread
  userStack : userStack =
    (s.thread ((s.processOf s'.current).thread.get
      (s'.processOf s'.current).activeThread)).userStack

/-! ## One call -/

section Call

variable {s s' : Scheduler} {ring : List Nat} {start fuel userStack a b : Nat} {p : Process}

/-- The threads of a process in the order in which `nextThread` tries them. -/
theorem threadRing (index : Fin MAX_THREADS) :
    Ring (· + 1) index (List.iterate (· + 1) index MAX_THREADS) := by
  refine Returns.ring ⟨by decide, ?_, ?_⟩
  · revert index
    decide
  · have first : ∀ k, k < MAX_THREADS → ∀ index : Fin MAX_THREADS, 0 < k →
        (· + 1)^[k] index ≠ index := by
      decide
    exact fun k positive bound => first k bound index positive

theorem threads_perm (p : Process) (index : Fin MAX_THREADS) :
    ((List.iterate (· + 1) index MAX_THREADS).filter fun i => p.HasThread i).Perm p.threads := by
  refine List.Perm.filter _ ?_
  revert index
  decide

/-- `find?` on what following `next` gives is the search for the first node. -/
theorem find?_iterate {next : Fin MAX_THREADS → Fin MAX_THREADS} {property : Fin MAX_THREADS → Prop}
    [DecidablePred property] {first found : Fin MAX_THREADS} {n : Nat}
    (search : (List.iterate next first n).find? (fun i => property i) = some found) :
    Finds next property first found := by
  induction n generalizing first with
  | zero => cases search
  | succ n ih =>
      rw [List.iterate, List.find?_cons] at search
      split at search
      · rename_i holds
        obtain rfl := Option.some.inj search
        exact .here (of_decide_eq_true holds)
      · rename_i fails
        exact (ih search).later (of_decide_eq_false fails)

/-- `nextThread` ends if the process has a thread, and finds the next one behind `activeThread`. -/
theorem nextThread_finds (inhabited : ∃ index, p.HasThread index) :
    ∃ index, nextThread p = some index ∧
      Finds (· + 1) p.HasThread (p.activeThread + 1) index := by
  have order : ∀ active : Fin MAX_THREADS,
      ((List.range' 1 MAX_THREADS).map fun i => active + Fin.ofNat MAX_THREADS i) =
        List.iterate (· + 1) (active + 1) MAX_THREADS := by
    decide
  have search : nextThread p =
      (List.iterate (· + 1) (p.activeThread + 1) MAX_THREADS).find? fun i => p.HasThread i := by
    rw [nextThread, order]
    rfl
  obtain ⟨used, isUsed⟩ := inhabited
  have member := (threads_perm p (p.activeThread + 1)).mem_iff.mpr
    (List.mem_filter.mpr ⟨List.mem_finRange used, by simpa using isUsed⟩)
  cases found : nextThread p with
  | none =>
      have none :=
        List.find?_eq_none.mp (search.symm.trans found) used (List.mem_filter.mp member).1
      exact absurd isUsed (by simpa using none)
  | some index => exact ⟨index, rfl, find?_iterate (search.symm.trans found)⟩

/-- The walk of `schedule` stops at the first READY process. -/
theorem scheduleLoop_eq {slot k : Nat} (bound : k < fuel)
    (ready : (s.processOf (s.next^[k] slot)).state = .ready)
    (none : ∀ j < k, (s.processOf (s.next^[j] slot)).state ≠ .ready) :
    s.scheduleLoop fuel slot = some (s.next^[k] slot) := by
  induction fuel generalizing slot k with
  | zero => omega
  | succ fuel ih =>
      unfold scheduleLoop
      cases k with
      | zero => exact if_pos ready
      | succ k =>
          have notReady : (s.processOf slot).state ≠ .ready := none 0 (Nat.succ_pos k)
          rw [if_neg notReady]
          exact ih (Nat.lt_of_succ_lt_succ bound) ready fun j less =>
            none (j + 1) (Nat.succ_lt_succ less)

/-- The state of each process after the first statement of `schedule`. -/
theorem preempt_state (s : Scheduler) (q : Nat) :
    s.preempt.process q = { s.process q with
      state := if q = (s.slot s.current).process ∧ (s.process q).state = .running then .ready
        else (s.process q).state } := by
  unfold preempt processOf
  by_cases same : q = (s.slot s.current).process
  · subst same
    split
    · rename_i running
      simp [running]
    · rename_i other
      simp [other]
  · split
    · rw [setProcess_ne same]
      simp [same]
    · simp [same]

/-- What `schedule` leaves. -/
structure Scheduled (s s' : Scheduler) : Prop where
  slot : s'.slot = s.slot
  thread : s'.thread = s.thread
  chosen : Finds s.next s.Runnable (s.next s.current) s'.current
  process : ∀ q, s'.process q = { s.process q with
    state := if q = (s.slot s'.current).process then .running
      else if q = (s.slot s.current).process ∧ (s.process q).state = .running then .ready
      else (s.process q).state }

/-- The slot behind the current one is on the ring. -/
theorem Rotating.start_mem (rotating : s.Rotating start ring) : s.next s.current ∈ ring :=
  rotating.closed.next_mem rotating.current

/-- Once the process that ran is READY, the READY processes of the ring are those that can run. -/
theorem Rotating.ready_iff (rotating : s.Rotating start ring) (member : a ∈ ring) :
    (s.preempt.processOf a).state = .ready ↔ s.Runnable a := by
  rw [processOf, (preempt_sameRing s).1.slot, preempt_state]
  change ite _ _ _ = _ ↔ _
  split
  · rename_i running
    exact iff_of_true rfl (.inr running.2)
  · rename_i other
    refine ⟨Or.inl, fun runnable => runnable.resolve_right fun running => other ⟨?_, running⟩⟩
    rw [rotating.running a member running]

/-- `schedule` ends and chooses the next process that can run. -/
theorem Rotating.schedule (rotating : s.Rotating start ring) (enough : ring.length ≤ fuel) :
    ∃ s', s.schedule fuel = some s' ∧ Scheduled s s' := by
  obtain ⟨same, current⟩ := preempt_sameRing s
  obtain ⟨a, member, runnable⟩ := rotating.inhabited
  obtain ⟨r, turned, perm⟩ := rotating.closed.rotate rotating.start_mem
  obtain ⟨m, short, -, k, arrives, holds, none⟩ :=
    turned.exists_finds turned.start_mem (perm.mem_iff.mpr member) runnable
  have inside : ∀ j, s.next^[j] (s.next s.current) ∈ ring :=
    rotating.closed.iterate_mem rotating.start_mem
  have bound : k < ring.length := by
    by_contra far
    have less : m < k := by
      rw [perm.length_eq] at short
      omega
    exact none m less (arrives ▸ holds)
  have walked : s.preempt.scheduleLoop fuel (s.preempt.next s.preempt.current) =
      some (s.next^[k] (s.next s.current)) := by
    rw [same.next, current, ← same.next]
    refine scheduleLoop_eq (by omega) ?_ fun j less => ?_
    · rw [same.next]
      exact (rotating.ready_iff (inside k)).mpr (arrives ▸ holds)
    · rw [same.next, ne_eq, rotating.ready_iff (inside j)]
      exact none j less
  rw [Scheduler.schedule, walked]
  refine ⟨_, rfl, same.slot, ?_, ⟨k, rfl, arrives ▸ holds, none⟩, fun q => ?_⟩
  · change s.preempt.thread = s.thread
    unfold preempt
    split <;> rfl
  · by_cases chosen : q = (s.slot (s.next^[k] (s.next s.current))).process
    · subst chosen
      simp [processOf, same.slot, preempt_state]
    · simp only [same.slot]
      rw [setProcess_ne chosen, preempt_state]
      simp [chosen]

/-- No process is on the ring twice. -/
theorem Rotating.eq_of_process (rotating : s.Rotating start ring) (first : a ∈ ring)
    (second : b ∈ ring) (same : (s.slot a).process = (s.slot b).process) : a = b :=
  List.inj_on_of_nodup_map rotating.distinct first second same

/-- The scheduler chooses a slot of the ring. -/
theorem Rotating.chosen_mem (rotating : s.Rotating start ring)
    (chosen : Finds s.next s.Runnable (s.next s.current) b) : b ∈ ring :=
  (List.mem_filter.mp (rotating.closed.finds_mem rotating.start_mem chosen)).1

/-- What `switchKernelToUser` writes: two states and one `activeThread`. -/
theorem Rotating.switch (rotating : s.Rotating start ring) (enough : ring.length ≤ fuel) :
    ∃ s' index, s.switchKernelToUser fuel = some (s', (s'.thread s'.currentThread).userStack) ∧
      Finds (· + 1) (s.processOf s'.current).HasThread
        ((s.processOf s'.current).activeThread + 1) index ∧
      s'.slot = s.slot ∧ s'.thread = s.thread ∧
      Finds s.next s.Runnable (s.next s.current) s'.current ∧
      ∀ q, s'.process q = { s.process q with
        state := if q = (s.slot s'.current).process then .running
          else if q = (s.slot s.current).process ∧ (s.process q).state = .running then .ready
          else (s.process q).state
        activeThread := if q = (s.slot s'.current).process then index
          else (s.process q).activeThread } := by
  obtain ⟨v, scheduled, left⟩ := rotating.schedule enough
  have member := rotating.chosen_mem left.chosen
  have process : v.processOf v.current = { s.processOf v.current with state := .running } := by
    rw [processOf, left.process, left.slot, if_pos rfl]
    rfl
  obtain ⟨index, found, finds⟩ := nextThread_finds (p := v.processOf v.current) (by
    rw [process]
    exact rotating.threads _ member left.chosen.found)
  refine ⟨v.setProcess (v.slot v.current).process
    { v.processOf v.current with activeThread := index }, index, ?_, ?_, left.slot, left.thread,
    left.chosen, fun q => ?_⟩
  · rw [switchKernelToUser, scheduled, Option.bind_eq_bind, Option.bind_some, found]
    rfl
  · rw [process] at finds
    exact finds
  · change Function.update v.process _ _ q = _
    rw [left.slot]
    by_cases chosen : q = (s.slot v.current).process
    · subst chosen
      rw [Function.update_self, process]
      simp [processOf, setProcess]
    · rw [Function.update_of_ne chosen, left.process]
      simp [setProcess, chosen]

/-- One call is one turn, and the ring is ready for the next one. -/
theorem Rotating.turn (rotating : s.Rotating start ring) (enough : ring.length ≤ fuel) :
    ∃ s' userStack, s.switchKernelToUser fuel = some (s', userStack) ∧
      Turn s s' ring userStack ∧ s'.Rotating start ring := by
  obtain ⟨s', index, switched, finds, slot, thread, chosen, process⟩ := rotating.switch enough
  have member := rotating.chosen_mem chosen
  have processOf_eq : ∀ a, s'.processOf a = { s.processOf a with
      state := if (s.slot a).process = (s.slot s'.current).process then .running
        else if (s.slot a).process = (s.slot s.current).process ∧
          (s.processOf a).state = .running then .ready
        else (s.processOf a).state
      activeThread := if (s.slot a).process = (s.slot s'.current).process then index
        else (s.processOf a).activeThread } := by
    intro a
    rw [processOf, slot, process]
    rfl
  have active : (s'.processOf s'.current).activeThread = index := by
    rw [processOf_eq]
    exact if_pos rfl
  have threads : ∀ a, (s'.processOf a).thread = (s.processOf a).thread := by
    intro a
    rw [processOf_eq]
  have runnable : ∀ a, s'.Runnable a ↔ s.Runnable a := by
    intro a
    unfold Runnable
    rw [processOf_eq]
    dsimp only
    split
    · rename_i same
      have holds := chosen.found
      rw [Runnable, processOf, ← same] at holds
      exact iff_of_true (.inr rfl) holds
    · split
      · rename_i before
        exact iff_of_true (.inl rfl) (.inr before.2)
      · rfl
  have next : s'.next = s.next := by
    funext a
    rw [Scheduler.next, Scheduler.next, slot]
  refine ⟨s', _, switched, ⟨slot, thread, threads, runnable, chosen, active ▸ finds, ?_, ?_⟩, ?_⟩
  · intro a onRing other
    rw [processOf_eq]
    exact if_neg fun same => other (rotating.eq_of_process onRing member same)
  · rw [currentThread, thread, threads]
  · refine ⟨next ▸ rotating.closed, member, ?_, ?_, ?_, ?_⟩
    · rw [slot]
      exact rotating.distinct
    · obtain ⟨a, onRing, ready⟩ := rotating.inhabited
      exact ⟨a, onRing, (runnable a).mpr ready⟩
    · intro a onRing running
      rw [processOf_eq] at running
      dsimp only at running
      split at running
      · rename_i same
        exact rotating.eq_of_process onRing member same
      · split at running
        · cases running
        · rename_i other
          refine absurd ⟨?_, running⟩ other
          rw [rotating.running a onRing running]
    · intro a onRing ready
      obtain ⟨used, isUsed⟩ := rotating.threads a onRing ((runnable a).mp ready)
      refine ⟨used, ?_⟩
      rw [Process.HasThread, threads]
      exact isUsed

end Call

/-! ## Call after call -/

/-- The states between the calls, and the stacks the calls go on with. -/
structure Turns (s : Scheduler) (fuel : Nat) (ring : List Nat) (states : Nat → Scheduler)
    (userStacks : Nat → Nat) : Prop where
  start : states 0 = s
  reached : ∀ n, s.switches fuel n = some (states n)
  switched : ∀ n, (states n).switchKernelToUser fuel = some (states (n + 1), userStacks n)
  turn : ∀ n, Turn (states n) (states (n + 1)) ring (userStacks n)

section Calls

variable {s : Scheduler} {ring : List Nat} {fuel a : Nat} {states : Nat → Scheduler}
  {userStacks : Nat → Nat}

/-- No call fails. -/
theorem Rotating.turns {start : Nat} (rotating : s.Rotating start ring)
    (enough : ring.length ≤ fuel) : ∃ states userStacks, Turns s fuel ring states userStacks := by
  have all : ∀ n, ∃ t, s.switches fuel n = some t ∧ t.Rotating start ring := by
    intro n
    induction n with
    | zero => exact ⟨s, rfl, rotating⟩
    | succ n ih =>
        obtain ⟨t, reached, ready⟩ := ih
        obtain ⟨t', userStack, switched, -, ready'⟩ := ready.turn enough
        refine ⟨t', ?_, ready'⟩
        rw [switches, reached, Option.bind_some, switched]
        rfl
  choose states reached ready using all
  have each : ∀ n, ∃ userStack, (states n).switchKernelToUser fuel =
      some (states (n + 1), userStack) ∧ Turn (states n) (states (n + 1)) ring userStack := by
    intro n
    obtain ⟨t', userStack, switched, turn, -⟩ := (ready n).turn enough
    have after := reached (n + 1)
    rw [switches, reached n, Option.bind_some, switched] at after
    obtain rfl := Option.some.inj after
    exact ⟨userStack, switched, turn⟩
  choose userStacks switched turn using each
  exact ⟨states, userStacks, (Option.some.inj (reached 0)).symm, reached, switched, turn⟩

namespace Turns

/-- The calls change neither the slots nor the threads, nor which processes can run. -/
theorem kept (turns : Turns s fuel ring states userStacks) (n : Nat) :
    (states n).slot = s.slot ∧ (states n).thread = s.thread ∧
      (∀ a, ((states n).processOf a).thread = (s.processOf a).thread) ∧
      ∀ a, (states n).Runnable a ↔ s.Runnable a := by
  induction n with
  | zero =>
      rw [turns.start]
      exact ⟨rfl, rfl, fun _ => rfl, fun _ => Iff.rfl⟩
  | succ n ih =>
      obtain ⟨slot, thread, threads, runnable⟩ := ih
      have turn := turns.turn n
      exact ⟨turn.slot.trans slot, turn.thread.trans thread,
        fun a => (turn.threads a).trans (threads a),
        fun a => (turn.runnable a).trans (runnable a)⟩

/-- The ring stays the same over all turns. -/
theorem next (turns : Turns s fuel ring states userStacks) (n : Nat) :
    (states n).next = s.next := by
  funext a
  rw [Scheduler.next, Scheduler.next, (turns.kept n).1]

/-- Each call searches the ring for the next process that can run. -/
theorem chosen (turns : Turns s fuel ring states userStacks) (n : Nat) :
    Finds s.next s.Runnable (s.next (states n).current) (states (n + 1)).current := by
  have finds := (turns.turn n).chosen
  rw [turns.next] at finds
  exact finds.congr fun a => ((turns.kept n).2.2.2 a).symm

/-- Each call searches the threads of the chosen process for the next one. -/
theorem index (turns : Turns s fuel ring states userStacks) (n : Nat)
    (visited : (states (n + 1)).current = a) :
    Finds (· + 1) (s.processOf a).HasThread (((states n).processOf a).activeThread + 1)
      ((states (n + 1)).processOf a).activeThread := by
  obtain rfl := visited
  refine (turns.turn n).index.congr fun index => ?_
  rw [Process.HasThread, Process.HasThread, (turns.kept n).2.2.1]

/-- What the n-th turn lets run. -/
theorem dispatch (turns : Turns s fuel ring states userStacks) (n : Nat) :
    s.dispatch fuel n = some ⟨(states (n + 1)).current,
      ((states (n + 1)).processOf (states (n + 1)).current).activeThread, userStacks n⟩ := by
  rw [Scheduler.dispatch, turns.reached, Option.bind_some, turns.switched]
  rfl

/-- What the n-th turn loads is the stack saved for the thread it chose. -/
theorem userStack (turns : Turns s fuel ring states userStacks) (n : Nat)
    (visited : (states (n + 1)).current = a) : userStacks n = (s.thread
      ((s.processOf a).thread.get ((states (n + 1)).processOf a).activeThread)).userStack := by
  obtain rfl := visited
  obtain ⟨-, thread, threads, -⟩ := turns.kept n
  rw [(turns.turn n).userStack, thread, threads]

/-- The calls visit the processes that can run in the order of the ring. -/
theorem visits (turns : Turns s fuel ring states userStacks)
    (closed : Ring s.next (s.next s.current) ring) (n : Nat) :
    (s.runnable ring)[n % (s.runnable ring).length]? = some (states (n + 1)).current := by
  have first := turns.chosen 0
  rw [turns.start] at first
  exact closed.visits (fun n => (states (n + 1)).current) first
    (fun n => turns.chosen (n + 1)) n

/-- Between two visits the `activeThread` of a process stays. -/
theorem idle (turns : Turns s fuel ring states userStacks) (member : a ∈ ring) {n d : Nat}
    (others : ∀ j < d, (states (n + j + 1)).current ≠ a) :
    ((states (n + d)).processOf a).activeThread = ((states n).processOf a).activeThread := by
  induction d with
  | zero => rfl
  | succ d ih =>
      have last := (turns.turn (n + d)).others a member (others d (Nat.lt_succ_self d)).symm
      exact last.trans (ih fun j less => others j (Nat.lt_succ_of_lt less))

/-- The process at index `i` of those that can run is visited at the calls `i`, `i + L`,
`i + 2 * L` and so on, where `L` is their number. -/
theorem visited_iff (turns : Turns s fuel ring states userStacks)
    (closed : Ring s.next (s.next s.current) ring) {i : Nat}
    (place : (s.runnable ring)[i]? = some a) (n : Nat) :
    (states (n + 1)).current = a ↔ n % (s.runnable ring).length = i := by
  have visited := turns.visits closed n
  have nodup : (s.runnable ring).Nodup := closed.nodup.filter _
  constructor
  · intro same
    have bound := (List.getElem?_eq_some_iff.mp visited).1
    exact (List.getElem?_inj bound nodup).mp (visited.trans (same ▸ place.symm))
  · intro same
    rw [same, place] at visited
    exact (Option.some.inj visited).symm

/-- As many visits in a row as a process has threads run each of them once. -/
theorem threads_once (turns : Turns s fuel ring states userStacks)
    (closed : Ring s.next (s.next s.current) ring) {i : Nat}
    (place : (s.runnable ring)[i]? = some a) (m : Nat) :
    ((List.range (s.processOf a).threads.length).map fun j =>
      ((states (i + (m + j) * (s.runnable ring).length + 1)).processOf a).activeThread).Perm
        (s.processOf a).threads := by
  have visited := turns.visited_iff closed place
  have bound : i < (s.runnable ring).length := (List.getElem?_eq_some_iff.mp place).1
  have member : a ∈ ring := (List.mem_filter.mp (List.mem_of_getElem? place)).1
  generalize (s.runnable ring).length = L at visited bound ⊢
  have first : Finds (· + 1) (s.processOf a).HasThread ((s.processOf a).activeThread + 1)
      ((states (i + 0 * L + 1)).processOf a).activeThread := by
    rw [Nat.zero_mul, Nat.add_zero]
    have waits := turns.idle (n := 0) (d := i) member fun j less => by
      rw [ne_eq, visited, Nat.mod_eq_of_lt (by omega)]
      omega
    rw [Nat.zero_add, turns.start] at waits
    rw [← waits]
    exact turns.index i ((visited i).mpr (Nat.mod_eq_of_lt bound))
  have step : ∀ n, Finds (· + 1) (s.processOf a).HasThread
      (((states (i + n * L + 1)).processOf a).activeThread + 1)
      ((states (i + (n + 1) * L + 1)).processOf a).activeThread := by
    intro n
    have round : i + (n + 1) * L = i + n * L + 1 + (L - 1) := by
      rw [Nat.add_mul]
      omega
    have waits := turns.idle (n := i + n * L + 1) (d := L - 1) member fun j less => by
      rw [ne_eq, visited, show i + n * L + 1 + j = i + 1 + j + n * L by omega,
        Nat.add_mul_mod_self_right]
      rcases Nat.lt_or_ge (i + 1 + j) L with inside | around
      · rw [Nat.mod_eq_of_lt inside]
        omega
      · rw [Nat.mod_eq_sub_mod around, Nat.mod_eq_of_lt (by omega)]
        omega
    rw [← waits, ← round]
    refine turns.index _ ((visited _).mpr ?_)
    rw [Nat.add_mul_mod_self_right, Nat.mod_eq_of_lt bound]
  have order := threads_perm (s.processOf a) ((s.processOf a).activeThread + 1)
  have once := (threadRing ((s.processOf a).activeThread + 1)).visits_perm
    (fun n => ((states (i + n * L + 1)).processOf a).activeThread) first step m
  rw [order.length_eq] at once
  exact once.trans order

end Turns

/-- Where nothing but `switchKernelToUser` is called, the calls visit the processes of the ring
that can run in the order of the ring, from the one behind the current slot on and round after
round; each goes on with the next thread of the process behind `activeThread`; and as many visits
in a row as a process has threads run each of them once. -/
theorem switchKernelToUser_rotates (s : Scheduler) (ring : List Nat)
    (rotating : s.Rotating (s.next s.current) ring) (fuel : Nat) (enough : ring.length ≤ fuel) :
    (∀ n, ∃ before d, s.switches fuel n = some before ∧ s.dispatch fuel n = some d ∧
      (s.runnable ring)[n % (s.runnable ring).length]? = some d.slot ∧
      Finds (· + 1) (s.processOf d.slot).HasThread ((before.processOf d.slot).activeThread + 1)
        d.index ∧
      d.userStack = (s.thread ((s.processOf d.slot).thread.get d.index)).userStack) ∧
    ∀ i a, (s.runnable ring)[i]? = some a → ∀ m,
      ((List.range (s.processOf a).threads.length).map fun j =>
        (s.dispatch fuel (i + (m + j) * (s.runnable ring).length)).map Dispatch.index).Perm
          ((s.processOf a).threads.map some) := by
  obtain ⟨states, userStacks, turns⟩ := rotating.turns enough
  constructor
  · intro n
    exact ⟨_, _, turns.reached n, turns.dispatch n, turns.visits rotating.closed n,
      turns.index n rfl, turns.userStack n rfl⟩
  · intro i a place m
    have once := (turns.threads_once rotating.closed place m).map some
    rw [List.map_map] at once
    have visited := turns.visited_iff rotating.closed place
    have bound := (List.getElem?_eq_some_iff.mp place).1
    refine List.Perm.trans (List.Perm.of_eq (List.map_congr_left fun j _ => ?_)) once
    have here := (visited (i + (m + j) * (s.runnable ring).length)).mpr (by
      rw [Nat.add_mul_mod_self_right, Nat.mod_eq_of_lt bound])
    rw [turns.dispatch, Option.map_some, here]
    rfl

/-- Three processes: the second one runs, the third one is BLOCKED, and the first one has the
threads 0 and 4. -/
def blockedThird : Scheduler where
  cardinal_processes := 3
  current := 0x2000
  pid := 3
  buddyArray := createHeap
  slot := fun a => ⟨if a = 0x3000 then 0x1000 else a + 0x1000, a⟩
  process := fun p =>
    { pid := p / 0x1000 - 1
      state := if p = 0x2000 then .running else if p = 0x3000 then .blocked else .ready
      activeThread := 0
      numberOfThreads := if p = 0x1000 then 2 else 1
      thread := Vector.ofFn fun i =>
        if i = 0 then p + 0x100 else if p = 0x1000 ∧ i = 4 then p + 0x200 else NULL
      heap := NULL
      pagesIndex := 0
      pages := Vector.replicate _ NULL }
  thread := fun t => ⟨t + 1, t + 2, 0⟩

/-- The first and the second process take turns, and the first one runs both of its threads. -/
theorem switchKernelToUser_rotates_two :
    (∃ d, blockedThird.dispatch 3 1 = some d ∧ d.slot = 0x2000) ∧
      (List.map (fun j => (blockedThird.dispatch 3 (0 + (5 + j) * 2)).map Dispatch.index)
        [0, 1]).Perm [some 0, some 4] := by
  have rotating : blockedThird.Rotating (blockedThird.next blockedThird.current)
      [0x3000, 0x1000, 0x2000] := by
    refine ⟨⟨⟨rfl, rfl, rfl, rfl⟩, by decide, by decide⟩, by decide, by decide, ?_, ?_, ?_⟩
    · exact ⟨0x2000, by decide, by decide⟩
    · decide
    · decide
  have canRun : blockedThird.runnable [0x3000, 0x1000, 0x2000] = [0x1000, 0x2000] := by decide
  have threads : (blockedThird.processOf 0x1000).threads = [0, 4] := by decide
  obtain ⟨visits, once⟩ := switchKernelToUser_rotates blockedThird _ rotating 3 (by decide)
  rw [canRun] at visits once
  obtain ⟨-, d, -, dispatched, place, -⟩ := visits 1
  have both := once 0 0x1000 rfl 5
  rw [threads] at both
  exact ⟨⟨d, dispatched, (Option.some.inj place).symm⟩, both⟩

end Calls

end Scheduler

end SistemasOperativos.Kernel
