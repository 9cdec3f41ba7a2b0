import SistemasOperativos.Kernel.SchedulerRing

/-!
# The process table is the ring

`ProcessTable` stands for the ring of scheduler.c: `Holds` says that the slots of
a ring hold exactly the processes of a table, each in its state. The functions of
scheduler.c on the ring do what those of the table do. The walk of `schedule` ends
as soon as one process of the table is READY, and the process it stops at is the
parameter `next` of the table (`Holds.schedule`).
-/

namespace SistemasOperativos.Kernel

open SistemasOperativos.Foundation

namespace Scheduler

/-- The slots of `ring`, from the one behind the current slot on, hold the processes of
the table. The current slot is one of them, unless its process has just been removed. -/
structure Holds (s : Scheduler) (table : ProcessTable) (ring : List Nat) : Prop where
  closed : Ring s.next (s.next s.current) ring
  cardinal : s.cardinal_processes = ring.length
  distinct : ∀ a ∈ ring, ∀ b, b = s.current ∨ b ∈ ring → s.pidOf a = s.pidOf b → a = b
  state : ∀ pid processState, table.state pid = some processState ↔
    ∃ a ∈ ring, s.pidOf a = pid ∧ (s.processOf a).state = processState
  current : table.current = s.pidOf s.current

namespace Holds

variable {s : Scheduler} {table : ProcessTable} {ring : List Nat}

/-- A process is on the ring when a slot holds it. -/
theorem present (holds : Holds s table ring) {pid : Int} :
    table.state pid ≠ none ↔ ∃ a ∈ ring, s.pidOf a = pid := by
  rw [Option.ne_none_iff_exists']
  constructor
  · rintro ⟨processState, here⟩
    obtain ⟨a, member, isPid, -⟩ := (holds.state pid processState).mp here
    exact ⟨a, member, isPid⟩
  · rintro ⟨a, member, isPid⟩
    exact ⟨_, (holds.state pid _).mpr ⟨a, member, isPid, rfl⟩⟩

/-- The state of the process in a slot of the ring. -/
theorem state_pidOf (holds : Holds s table ring) {a : Nat} (member : a ∈ ring) :
    table.state (s.pidOf a) = some (s.processOf a).state :=
  (holds.state _ _).mpr ⟨a, member, rfl, rfl⟩

/-- A process of which the current slot holds the pid stands in this slot or nowhere. -/
theorem absent (holds : Holds s table ring) {b : Nat} (slot : b = s.current ∨ b ∈ ring)
    (removed : b ∉ ring) : table.state (s.pidOf b) = none := by
  by_contra here
  obtain ⟨a, member, same⟩ := holds.present.mp here
  exact removed (holds.distinct a member b slot same ▸ member)

/-! ## The functions of scheduler.c -/

/-- Writing the state of the process in a slot is `changeProcessState` of its pid. -/
theorem setState (holds : Holds s table ring) {b : Nat} (slot : b = s.current ∨ b ∈ ring)
    (processState : ProcessState) :
    Holds (s.setProcess (s.slot b).process { s.processOf b with state := processState })
      (table.changeProcessState (s.pidOf b) processState) ring := by
  have same : SameRing s (s.setProcess (s.slot b).process
      { s.processOf b with state := processState }) := setProcess_sameRing rfl
  have apart : ∀ a ∈ ring, a ≠ b → (s.slot a).process ≠ (s.slot b).process := by
    intro a member other sameProcess
    refine other (holds.distinct a member b slot ?_)
    rw [pidOf, pidOf, processOf, processOf, sameProcess]
  refine ⟨?_, holds.cardinal, ?_, ?_, ?_⟩
  · rw [same.next]
    exact holds.closed
  · rw [same.pidOf]
    exact holds.distinct
  · intro pid state
    rw [same.pidOf, ProcessTable.changeProcessState_state]
    split
    · rename_i isPid
      subst isPid
      constructor
      · intro changed
        obtain ⟨before, here, rfl⟩ := Option.map_eq_some_iff.mp changed
        obtain ⟨a, member, isPid, -⟩ := (holds.state _ _).mp here
        obtain rfl := holds.distinct a member b slot isPid
        exact ⟨a, member, rfl, by simp [processOf]⟩
      · rintro ⟨a, member, isPid, stored⟩
        obtain rfl := holds.distinct a member b slot isPid
        rw [holds.state_pidOf member, ← stored]
        simp [processOf]
    · rename_i other
      rw [holds.state]
      have kept : ∀ a ∈ ring, s.pidOf a = pid → (s.setProcess (s.slot b).process
          { s.processOf b with state := processState }).processOf a = s.processOf a := by
        intro a member isPid
        have different : a ≠ b := by
          rintro rfl
          exact other isPid.symm
        rw [processOf, setProcess_slot, setProcess_ne (apart a member different), processOf]
      constructor
      · rintro ⟨a, member, isPid, stored⟩
        exact ⟨a, member, isPid, by rw [kept a member isPid, stored]⟩
      · rintro ⟨a, member, isPid, stored⟩
        exact ⟨a, member, isPid, by rw [← kept a member isPid, stored]⟩
  · rw [ProcessTable.changeProcessState_current, same.pidOf]
    exact holds.current

/-- The loop of `changeProcessState` changes the process of the pid, when one of the
slots ahead holds it. -/
theorem changeProcessStateLoop (holds : Holds s table ring) {pid : Int}
    (processState : ProcessState) {slots : List Nat} {slot last : Nat}
    (path : Path s.next slot slots last) (inside : ∀ a ∈ slots, a ∈ ring)
    (ahead : table.state pid ≠ none → ∃ a ∈ slots, s.pidOf a = pid) :
    Holds (s.changeProcessStateLoop pid processState slots.length slot)
      (table.changeProcessState pid processState) ring := by
  induction slots generalizing slot with
  | nil =>
      have gone : table.state pid = none := by
        by_contra here
        obtain ⟨a, member, -⟩ := ahead here
        cases member
      rwa [ProcessTable.changeProcessState, if_pos gone]
  | cons a slots ih =>
      obtain ⟨rfl, rest⟩ := path
      rw [List.length_cons, Scheduler.changeProcessStateLoop]
      split
      · rename_i isPid
        rw [← isPid]
        exact holds.setState (.inr (inside slot (by simp))) processState
      · rename_i other
        refine ih rest (fun b member => inside b (List.mem_cons_of_mem _ member)) ?_
        intro here
        obtain ⟨b, member, isPid⟩ := ahead here
        refine ⟨b, (List.mem_cons.mp member).resolve_left ?_, isPid⟩
        rintro rfl
        exact other isPid

/-- `changeProcessState` on the ring is `changeProcessState` of the table. -/
theorem changeProcessState (holds : Holds s table ring) (onRing : s.current ∈ ring) (pid : Int)
    (processState : ProcessState) :
    Holds (s.changeProcessState pid processState)
      (table.changeProcessState pid processState) ring := by
  obtain ⟨slots, turned, perm⟩ := holds.closed.rotate onRing
  rw [Scheduler.changeProcessState, holds.cardinal, ← perm.length_eq]
  refine holds.changeProcessStateLoop processState turned.path
    (fun a member => perm.mem_iff.mp member) fun here => ?_
  obtain ⟨a, member, isPid⟩ := holds.present.mp here
  exact ⟨a, perm.mem_iff.mpr member, isPid⟩

/-- The first statement of `schedule` on the ring is that of the table. -/
theorem preempt (holds : Holds s table ring) : Holds s.preempt table.preempt ring := by
  have written := holds.setState (.inl rfl) .ready
  rw [← holds.current] at written
  rw [Scheduler.preempt, ProcessTable.preempt]
  by_cases onRing : s.current ∈ ring
  · have here := holds.state_pidOf onRing
    rw [← holds.current] at here
    by_cases runs : (s.processOf s.current).state = .running
    · rwa [if_pos runs, if_pos (by rw [here, runs])]
    · rwa [if_neg runs, if_neg (by rw [here]; simpa using runs)]
  · -- A process that was removed has no state in the table to change.
    have gone := holds.absent (.inl rfl) onRing
    rw [← holds.current] at gone
    rw [ProcessTable.changeProcessState, if_pos gone] at written
    have idle : table.state table.current ≠ some .running := by simp [gone]
    rw [if_neg idle]
    split
    · exact written
    · exact holds

/-- The current slot may be set to any slot of the ring. -/
theorem move (holds : Holds s table ring) {a : Nat} (member : a ∈ ring) :
    ∃ ring', Holds { s with current := a } { table with current := s.pidOf a } ring' ∧
      ring'.Perm ring := by
  obtain ⟨ring', turned, perm⟩ := holds.closed.rotate (holds.closed.next_mem member)
  refine ⟨ring', ⟨turned, ?_, ?_, ?_, rfl⟩, perm⟩
  · exact holds.cardinal.trans perm.length_eq.symm
  · intro b inside c slot same
    refine holds.distinct b (perm.mem_iff.mp inside) c (.inr ?_) same
    rcases slot with rfl | other
    · exact member
    · exact perm.mem_iff.mp other
  · intro pid processState
    rw [holds.state pid processState]
    simp only [perm.mem_iff]
    rfl

/-- When a process of the table is READY, the walk of `schedule` ends, and at a READY
process. -/
theorem schedule (holds : Holds s table ring) {pid : Int}
    (ready : table.preempt.state pid = some .ready) {fuel : Nat} (enough : ring.length ≤ fuel) :
    ∃ s' next after ring', s.schedule fuel = some s' ∧ table.schedule next = some after ∧
      Holds s' after ring' ∧ s'.current ∈ ring' ∧ ring'.Perm ring := by
  have settled := holds.preempt
  obtain ⟨a, member, -, isReady⟩ := (settled.state pid .ready).mp ready
  obtain ⟨k, bound, rfl⟩ := settled.closed.mem_iff.mp member
  obtain ⟨found, walked⟩ := Option.isSome_iff_exists.mp
    (scheduleLoop_isSome (by omega : k < fuel) isReady)
  obtain ⟨stopped, steps, position⟩ := scheduleLoop_eq_some walked
  have onRing : found ∈ ring := by
    rw [position]
    exact settled.closed.iterate_mem settled.closed.start_mem steps
  have here := settled.state_pidOf onRing
  rw [stopped] at here
  have picked := settled.setState (.inr onRing) .running
  obtain ⟨ring', moved, perm⟩ := picked.move onRing
  have same : SameRing s.preempt (s.preempt.setProcess (s.preempt.slot found).process
      { s.preempt.processOf found with state := .running }) := setProcess_sameRing rfl
  rw [same.pidOf] at moved
  refine ⟨_, s.preempt.pidOf found, _, ring', ?_, ?_, moved, perm.mem_iff.mpr onRing, perm⟩
  · rw [Scheduler.schedule, walked]
    rfl
  · rw [ProcessTable.schedule, if_pos here]

/-- Behind its loop `removeProcess` takes the process out of the table. -/
theorem unlink (holds : Holds s table ring) (onRing : s.current ∈ ring) {x y : Nat}
    (before : x ∈ ring) (leads : s.next x = y) (two : y ≠ x) :
    ∃ ring', Holds (s.unlink x y)
        { table with state := Function.update table.state (s.pidOf y) none } ring' ∧
      (y :: ring').Perm ring := by
  have member : y ∈ ring := leads ▸ holds.closed.next_mem before
  have others : ∀ z ∈ ring, z ≠ x → (s.unlink x y).next z = s.next z := fun z _ other => by
    simp [unlink_next, other]
  obtain ⟨rest, perm, rings⟩ :=
    holds.closed.remove before leads two (by simp [unlink_next]) others
  have left : ∀ z ∈ ring, z ≠ y → z ∈ rest := fun z inside other =>
    (List.mem_cons.mp (perm.mem_iff.mpr inside)).resolve_left other
  have ahead : (s.unlink x y).next s.current ∈ rest := by
    by_cases isCurrent : s.current = y
    · -- The slot taken out still leads to the ring.
      have leaves : s.next y ≠ y := fun alone =>
        two (holds.closed.eq_of_next_self member alone x before).symm
      rw [isCurrent, others y member two]
      exact left _ (holds.closed.next_mem member) leaves
    · obtain ⟨turned, entered, perm'⟩ := rings _ (left _ onRing isCurrent)
      exact perm'.mem_iff.mp (entered.next_mem entered.start_mem)
  obtain ⟨ring', entered, perm'⟩ := rings _ ahead
  have whole := (perm'.cons y).trans perm
  have inner : ∀ {z}, z ∈ ring' → z ∈ ring := fun inside =>
    whole.mem_iff.mp (List.mem_cons_of_mem _ inside)
  have apart := List.nodup_cons.mp (whole.nodup_iff.mpr holds.closed.nodup)
  refine ⟨ring', ⟨entered, ?_, ?_, ?_, ?_⟩, whole⟩
  · have length := whole.length_eq
    rw [List.length_cons] at length
    change s.cardinal_processes - 1 = _
    rw [holds.cardinal]
    omega
  · intro a inside b slot same
    rw [unlink_pidOf] at same
    exact holds.distinct a (inner inside) b (slot.imp_right inner) same
  · intro pid processState
    simp only [unlink_pidOf, processOf, unlink_process]
    by_cases isPid : pid = s.pidOf y
    · subst isPid
      simp only [Function.update_self, reduceCtorEq, false_iff]
      rintro ⟨a, inside, same, -⟩
      obtain rfl := holds.distinct a (inner inside) y (.inr member) same
      exact apart.1 inside
    · rw [Function.update_of_ne isPid, holds.state]
      constructor
      · rintro ⟨a, inside, here, stored⟩
        refine ⟨a, (List.mem_cons.mp (whole.mem_iff.mpr inside)).resolve_left ?_, here, stored⟩
        rintro rfl
        exact isPid here.symm
      · rintro ⟨a, inside, here, stored⟩
        exact ⟨a, inner inside, here, stored⟩
  · rw [unlink_pidOf]
    exact holds.current

/-- A new process comes behind the current slot and is READY. -/
theorem created (holds : Holds s table ring) (onRing : s.current ∈ ring)
    (present : s.current ≠ NULL) {s' : Scheduler} {p slot : Nat} (created : Created s s' p slot)
    (fresh : ∀ a ∈ ring, a ≠ slot ∧ (s.slot a).process ≠ p)
    (new : table.state s.pid = none) :
    ∃ ring', Holds s' { table with state := Function.update table.state s.pid (some .ready) }
        ring' ∧ ring'.Perm (slot :: ring) := by
  obtain ⟨turned, entered, perm⟩ := holds.closed.rotate onRing
  have current : s'.current = s.current := by rw [created.current, if_neg present]
  have first : s'.next s.current = slot := by rw [next, created.linked present]
  have second : s'.next slot = s.next s.current := by rw [next, created.added, if_neg present]
  have others : ∀ a ∈ turned, a ≠ s.current → s'.next a = s.next a := by
    intro a member other
    rw [next, next, created.others a (fresh a (perm.mem_iff.mp member)).1 other]
  obtain ⟨linked, closed, perm'⟩ := entered.insert
    (fun member => (fresh slot (perm.mem_iff.mp member)).1 rfl) first second others
  obtain ⟨ring', again, perm''⟩ := closed.rotate (closed.next_mem closed.start_mem)
  have whole := perm''.trans (perm'.trans (perm.cons slot))
  have kept : ∀ a ∈ ring, (s'.slot a).process = (s.slot a).process ∧
      s'.pidOf a = s.pidOf a ∧ s'.processOf a = s.processOf a := by
    intro a member
    obtain ⟨process, pid⟩ := created.kept present (fresh a member).1 (fresh a member).2
    refine ⟨process, pid, ?_⟩
    rw [processOf, processOf, process, created.processes _ (fresh a member).2]
  have newPid : ∀ a ∈ ring, s.pidOf a ≠ s.pid := fun a member same =>
    holds.present.mpr ⟨a, member, same⟩ new
  refine ⟨ring', ⟨current ▸ again, ?_, ?_, ?_, ?_⟩, whole⟩
  · rw [created.cardinal, holds.cardinal, whole.length_eq, List.length_cons]
  · have ofRing : ∀ b, b = s'.current ∨ b ∈ ring' → b = slot ∨ b ∈ ring := by
      rintro b (rfl | member)
      · exact .inr (current ▸ onRing)
      · exact List.mem_cons.mp (whole.mem_iff.mp member)
    intro a member b stands same
    rcases ofRing a (.inr member) with rfl | inside
    · rcases ofRing b stands with rfl | other
      · rfl
      · rw [created.pidOf_slot, (kept b other).2.1] at same
        exact absurd same.symm (newPid b other)
    · rcases ofRing b stands with rfl | other
      · rw [created.pidOf_slot, (kept a inside).2.1] at same
        exact absurd same (newPid a inside)
      · rw [(kept a inside).2.1, (kept b other).2.1] at same
        exact holds.distinct a inside b (.inr other) same
  · intro pid processState
    have isNew : (s'.processOf slot).state = .ready := by
      rw [processOf, created.added, created.state]
    simp only [whole.mem_iff, List.exists_mem_cons_iff, created.pidOf_slot, isNew]
    by_cases isPid : pid = s.pid
    · subst isPid
      simp only [Function.update_self, Option.some.injEq, true_and, iff_self_or]
      rintro ⟨a, member, same, -⟩
      rw [(kept a member).2.1] at same
      exact absurd same (newPid a member)
    · rw [Function.update_of_ne isPid, holds.state]
      constructor
      · rintro ⟨a, member, here, stored⟩
        obtain ⟨-, pids, states⟩ := kept a member
        exact .inr ⟨a, member, by rw [pids, here], by rw [states, stored]⟩
      · rintro (⟨same, -⟩ | ⟨a, member, here, stored⟩)
        · exact absurd same.symm isPid
        · rw [(kept a member).2.1] at here
          rw [(kept a member).2.2] at stored
          exact ⟨a, member, here, stored⟩
  · rw [current, (kept _ onRing).2.1]
    exact holds.current

end Holds

/-- The two processes that `main` creates. -/
theorem Boot.holds {boot first second : Scheduler} {entry entry' : Nat} {pid pid' : Int}
    (empty : SchedulerRun.Boot boot) (init : boot.createProcess entry = some (first, pid))
    (shell : first.createProcess entry' = some (second, pid')) :
    ∃ ring, second.Holds
        { state := Function.update (Function.update (fun _ => none) 0 (some .ready)) 1
            (some .ready)
          current := 0 } ring ∧ second.current ∈ ring := by
  obtain ⟨p, t, page1, page2, slot, -, made, linked, -, stored⟩ := empty.createProcess init
  have start := linked.closed.start_mem
  have present := stored.present start
  have isInit : first.pidOf slot = 0 := by rw [made.pidOf_slot, empty.pid]
  have current : first.current = slot := List.mem_singleton.mp start
  have holds : first.Holds
      { state := Function.update (fun _ => none) 0 (some .ready), current := 0 } [slot] := by
    obtain ⟨turned, entered, perm⟩ := linked.closed.rotate (linked.closed.next_mem start)
    refine ⟨List.perm_singleton.mp perm ▸ entered, linked.cardinal, ?_, ?_, ?_⟩
    · intro a member b stands _
      rw [List.mem_singleton.mp member]
      rcases stands with rfl | other
      · exact current.symm
      · exact (List.mem_singleton.mp other).symm
    · intro pid processState
      have state : (first.processOf slot).state = .ready := by
        rw [processOf, made.added, made.state]
      simp only [List.mem_singleton, exists_eq_left, isInit, state]
      by_cases zero : pid = 0
      · simp [zero]
      · simp [zero, Ne.symm zero]
    · rw [current, isInit]
  obtain ⟨p', t', page1', page2', slot', took, rfl, added⟩ := createProcess_allocates shell
  have consistent := stored.consistent.allocPages took
  have fresh := fun a member => stored.fresh (a := a) consistent member
  have counter : first.pid = 1 := by
    rw [made.counter, empty.pid]
    rfl
  obtain ⟨ring, held, perm⟩ := holds.created start present (added (fresh _ start).1.symm) fresh
    (by simp [counter])
  rw [counter] at held
  refine ⟨ring, held, perm.mem_iff.mpr (List.mem_cons_of_mem _ ?_)⟩
  rw [(added (fresh _ start).1.symm).current, if_neg present]
  exact start

end Scheduler

end SistemasOperativos.Kernel
