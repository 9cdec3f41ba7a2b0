import SistemasOperativos.Foundation.TurnOrder
import SistemasOperativos.Kernel.ProcessRing
import SistemasOperativos.Semantics.Simulation

/-!
# The ring is a queue of turns

`TurnQueue` is what the ring of scheduler.c is for: the pids in the order of their turns, with
the table of their states. A new process comes first, a switch goes on with the first one that
is READY and puts it last with those it passed, and removing a process leaves the others in
their order. Every call of scheduler.c on the ring in memory is the call on the queue
(`Represents.step`), so every run of the scheduler is a run of the queue (`ring_refines_queue`).
-/

namespace SistemasOperativos.Kernel

open SistemasOperativos.Foundation SistemasOperativos.Semantics

/-- The processes in the order of their turns. The one that runs has had its turn last. -/
structure TurnQueue where
  order : List Int
  processes : ProcessTable
  pid : Int

namespace TurnQueue

/-- The first READY process has its turn. -/
def schedule (queue : TurnQueue) : Option TurnQueue := do
  let next ← queue.order.find? fun pid => queue.processes.preempt.state pid = some .ready
  let processes ← queue.processes.schedule next
  some { queue with order := afterTurn next queue.order, processes }

/-- A new process is the next to have its turn. -/
def createProcess (queue : TurnQueue) : TurnQueue where
  order := queue.pid :: queue.order
  processes := { queue.processes with
    state := Function.update queue.processes.state queue.pid (some .ready) }
  pid := queue.pid + 1

/-- A process leaves the queue. -/
def remove (queue : TurnQueue) (pid : Int) : TurnQueue :=
  { queue with
    order := queue.order.erase pid
    processes := { queue.processes with
      state := Function.update queue.processes.state pid none } }

/-- A process other than the first one leaves, and the next one has its turn when it ran. -/
def removeProcess (queue : TurnQueue) (pid : Int) : Option TurnQueue :=
  if pid = 0 then queue.schedule
  else if pid ∈ queue.order then
    if pid = queue.processes.current then (queue.remove pid).schedule else some (queue.remove pid)
  else some queue

/-- One call. -/
def step (queue : TurnQueue) : SchedulerAction → Option TurnQueue
  | .createProcess _ => some queue.createProcess
  | .removeProcess pid _ => queue.removeProcess pid
  | .next_process _ | .switchKernelToUser => queue.schedule
  | .switchUserToKernel _ => some queue
  | .changeProcessState pid state =>
      some { queue with processes := queue.processes.changeProcessState pid state }

/-- The first process alone. -/
def first : TurnQueue where
  order := [0]
  processes := { state := Function.update (fun _ => none) 0 (some .ready), current := 0 }
  pid := 1

end TurnQueue

namespace Scheduler

/-- The slots in the order in which `schedule` looks at them. -/
def upcoming (s : Scheduler) : List Nat :=
  List.iterate s.next (s.next s.current) s.cardinal_processes

/-- The pids in the order of their turns. -/
def turnOrder (s : Scheduler) : List Int := s.upcoming.map s.pidOf

/-- The ring is that of the queue. -/
structure Represents (s : Scheduler) (queue : TurnQueue) : Prop where
  holds : s.Holds queue.processes s.upcoming
  order : s.turnOrder = queue.order
  current : s.current ∈ s.upcoming
  pid : s.pid = queue.pid

section Order

variable {s s' : Scheduler} {table : ProcessTable} {queue : TurnQueue} {ring : List Nat}

/-- The slots a ring is made of are those `schedule` looks at. -/
theorem upcoming_eq (closed : Ring s.next (s.next s.current) ring)
    (cardinal : s.cardinal_processes = ring.length) : s.upcoming = ring := by
  rw [upcoming, cardinal]
  exact closed.eq_iterate.symm

theorem Holds.upcoming (holds : s.Holds table ring) : s.upcoming = ring :=
  upcoming_eq holds.closed holds.cardinal

/-- Pids tell the slots of the ring apart. -/
theorem Holds.nodup (holds : s.Holds table ring) : (ring.map s.pidOf).Nodup :=
  List.Nodup.map_on (fun a first b second same => holds.distinct a first b (.inr second) same)
    holds.closed.nodup

/-- The table only knows the pids and states of the ring. -/
theorem Holds.same (holds : s.Holds table ring) (same : SameLinks s s')
    (current : s'.current = s.current)
    (states : ∀ a, (s'.processOf a).state = (s.processOf a).state) : s'.Holds table ring := by
  refine ⟨?_, ?_, ?_, ?_, ?_⟩
  · rw [same.next, current]
    exact holds.closed
  · rw [same.cardinal]
    exact holds.cardinal
  · rw [same.pidOf, current]
    exact holds.distinct
  · simp only [same.pidOf, states]
    exact holds.state
  · rw [same.pidOf, current]
    exact holds.current

theorem Represents.of_holds (holds : s.Holds queue.processes ring)
    (order : ring.map s.pidOf = queue.order) (current : s.current ∈ ring)
    (pid : s.pid = queue.pid) : s.Represents queue := by
  have same := holds.upcoming
  refine ⟨?_, ?_, ?_, pid⟩
  · rwa [same]
  · rw [turnOrder, same, order]
  · rwa [same]

/-- Where the ring and the states stay the queue does. -/
theorem Represents.same (represents : s.Represents queue) (same : SameLinks s s')
    (current : s'.current = s.current)
    (states : ∀ a, (s'.processOf a).state = (s.processOf a).state) : s'.Represents queue := by
  refine .of_holds (represents.holds.same same current states) ?_ ?_ ?_
  · rw [same.pidOf]
    exact represents.order
  · rw [current]
    exact represents.current
  · rw [same.counter]
    exact represents.pid

/-! ## A switch -/

/-- The walk of `schedule` stops at the first READY process of the round ahead. -/
theorem scheduleLoop_first {fuel slot found last : Nat} {slots : List Nat}
    (path : Path s.next slot slots last)
    (ready : ∃ a ∈ slots, (s.processOf a).state = .ready)
    (walked : s.scheduleLoop fuel slot = some found) :
    ∃ x y, slots = x ++ found :: y ∧ ∀ a ∈ x, (s.processOf a).state ≠ .ready := by
  induction slots generalizing slot fuel with
  | nil =>
      obtain ⟨a, member, -⟩ := ready
      cases member
  | cons z slots ih =>
      obtain ⟨rfl, rest⟩ := path
      cases fuel with
      | zero => cases walked
      | succ fuel =>
          unfold scheduleLoop at walked
          split at walked
          · obtain rfl := Option.some.inj walked
            exact ⟨[], slots, rfl, by simp⟩
          · rename_i passed
            obtain ⟨a, member, isReady⟩ := ready
            have later : a ∈ slots := by
              refine (List.mem_cons.mp member).resolve_left ?_
              rintro rfl
              exact passed isReady
            obtain ⟨x, y, rfl, none⟩ := ih rest ⟨a, later, isReady⟩ walked
            refine ⟨slot :: x, y, rfl, fun b inner => ?_⟩
            rcases List.mem_cons.mp inner with rfl | behind
            · exact passed
            · exact none b behind

/-- `schedule` on the ring is `schedule` of the queue. The current slot may be one that was
taken out. -/
theorem Holds.scheduled (holds : s.Holds queue.processes ring)
    (order : ring.map s.pidOf = queue.order) (pid : s.pid = queue.pid) {fuel : Nat}
    (switched : s.schedule fuel = some s') :
    ∃ after, queue.schedule = some after ∧ s'.Represents after := by
  obtain ⟨same, current⟩ := preempt_sameRing s
  obtain ⟨found, walked, result⟩ := Option.map_eq_some_iff.mp switched
  have settled := holds.preempt
  obtain ⟨ready, steps, position⟩ := scheduleLoop_eq_some walked
  have onRing : found ∈ ring := by
    rw [position]
    exact settled.closed.iterate_mem settled.closed.start_mem steps
  obtain ⟨x, y, rfl, none⟩ :=
    scheduleLoop_first settled.closed.path ⟨found, onRing, ready⟩ walked
  have state := fun a (member : a ∈ x ++ found :: y) => settled.state_pidOf member
  have here := state found onRing
  rw [ready] at here
  have chosen : queue.order.find?
      (fun pid => queue.processes.preempt.state pid = some .ready) =
        some (s.preempt.pidOf found) := by
    rw [← order, ← same.pidOf, List.find?_eq_some_iff_append]
    refine ⟨by simpa using here, x.map s.preempt.pidOf, y.map s.preempt.pidOf, by simp, ?_⟩
    intro pid passed
    obtain ⟨a, member, rfl⟩ := List.mem_map.mp passed
    have first := state a (List.mem_append_left _ member)
    rw [first]
    simpa using none a member
  have picked := settled.setState (.inr onRing) .running
  have write : SameRing s.preempt (s.preempt.setProcess (s.preempt.slot found).process
      { s.preempt.processOf found with state := .running }) := setProcess_sameRing rfl
  obtain ⟨written, writtenEq⟩ : ∃ written, written = s.preempt.setProcess
      (s.preempt.slot found).process { s.preempt.processOf found with state := .running } :=
    ⟨_, rfl⟩
  have moves : { written with current := found } = s' := by rw [writtenEq, ← result]
  rw [← writtenEq] at picked write
  obtain ⟨ring', moved, -⟩ := picked.move onRing
  have turned : ring' = y ++ (x ++ [found]) := by
    refine moved.closed.unique ?_
    change Ring written.next (written.next found) _
    rw [write.next]
    exact settled.closed.behind
  subst turned
  rw [write.pidOf] at moved
  subst moves
  have last : found ∈ y ++ (x ++ [found]) := by simp
  refine ⟨{ queue with
      order := afterTurn (s.preempt.pidOf found) queue.order
      processes := { queue.processes.preempt.changeProcessState (s.preempt.pidOf found) .running
        with current := s.preempt.pidOf found } }, ?_, .of_holds moved ?_ last ?_⟩
  · rw [TurnQueue.schedule, chosen, Option.bind_eq_bind, Option.bind_some, ProcessTable.schedule,
      if_pos here]
    rfl
  · have new : s.pidOf found ∉ x.map s.pidOf := by
      have nodup := holds.nodup
      rw [List.map_append, List.map_cons] at nodup
      intro member
      exact (List.nodup_append.mp nodup).2.2 _ member _ List.mem_cons_self rfl
    change (y ++ (x ++ [found])).map written.pidOf = afterTurn (s.preempt.pidOf found) queue.order
    rw [write.pidOf, same.pidOf, ← order]
    simp only [List.map_append, List.map_cons, List.map_nil, afterTurn_append new]
  · exact write.counter.trans (same.counter.trans pid)

theorem Holds.yielded (holds : s.Holds queue.processes ring)
    (order : ring.map s.pidOf = queue.order) (pid : s.pid = queue.pid) (present : s.current ≠ NULL)
    {fuel rsp stack : Nat} (switched : s.next_process fuel rsp = some (s', stack)) :
    ∃ after, queue.schedule = some after ∧ s'.Represents after := by
  rw [next_process, if_neg present] at switched
  obtain ⟨next, scheduled, result⟩ := Option.map_eq_some_iff.mp switched
  obtain ⟨rfl, -⟩ := Prod.mk.inj result
  have saved : SameLinks s (s.saveUserStack rsp) := (setThread_sameRing s _ _).toSameLinks
  exact (holds.same saved rfl fun _ => rfl).scheduled (saved.pidOf ▸ order)
    (saved.counter.trans pid) scheduled

/-! ## Creating and removing -/

/-- `createProcess` puts the process on the ring where the next turn is. -/
theorem Represents.created (represents : s.Represents queue) (present : s.current ≠ NULL)
    {p slot : Nat} (created : Created s s' p slot)
    (fresh : ∀ a ∈ s.upcoming, a ≠ slot ∧ (s.slot a).process ≠ p)
    (new : queue.processes.state s.pid = none) (counter : s'.pid = s.pid + 1) :
    s'.Represents queue.createProcess := by
  have holds := represents.holds
  have current : s'.current = s.current := by rw [created.current, if_neg present]
  have newSlot : slot ∉ s.upcoming := fun member => (fresh slot member).1 rfl
  obtain ⟨ring', linked, perm⟩ := holds.created represents.current present created fresh new
  have placed : ring' = slot :: s.upcoming := by
    refine linked.closed.unique ?_
    rw [current]
    refine holds.closed.link represents.current newSlot ?_ ?_ fun a member other => ?_
    · rw [next, created.linked present]
    · rw [next, created.added, if_neg present]
    · rw [next, next, created.others a (fresh a member).1 other]
  subst placed
  have kept : ∀ a ∈ s.upcoming, s'.pidOf a = s.pidOf a := fun a member =>
    (created.kept present (fresh a member).1 (fresh a member).2).2
  rw [represents.pid] at linked
  refine .of_holds linked ?_ ?_ ?_
  · rw [List.map_cons, created.pidOf_slot, List.map_congr_left kept, represents.pid]
    exact congrArg _ represents.order
  · rw [current]
    exact List.mem_cons_of_mem _ represents.current
  · rw [counter, represents.pid]
    rfl

/-- Behind its loop `removeProcess` takes the process out of the queue, and the next one has
its turn when the process ran. -/
theorem Represents.removeSlot (represents : s.Represents queue) (present : s.current ≠ NULL)
    {x y fuel rsp : Nat} (before : x ∈ s.upcoming) (leads : s.next x = y) (two : y ≠ x)
    (removed : s.removeSlot fuel rsp x y = some s') :
    ∃ after, (if s.pidOf y = queue.processes.current then (queue.remove (s.pidOf y)).schedule
        else some (queue.remove (s.pidOf y))) = some after ∧ s'.Represents after := by
  have holds := represents.holds
  have member : y ∈ s.upcoming := leads ▸ holds.closed.next_mem before
  obtain ⟨ring', unlinked, perm⟩ := holds.unlink represents.current before leads two
  have link : (s.unlink x y).next x = s.next y := by simp [unlink_next]
  have others : ∀ z ∈ s.upcoming, z ≠ x → (s.unlink x y).next z = s.next z := fun z _ other => by
    simp [unlink_next, other]
  have left : ring' = s.upcoming.erase y := by
    refine unlinked.closed.unique ?_
    exact holds.closed.unlinkBehind represents.current before leads two link others
  subst left
  have order : (s.upcoming.erase y).map (s.unlink x y).pidOf =
      (queue.remove (s.pidOf y)).order := by
    rw [unlink_pidOf, map_erase_of_nodup holds.nodup member]
    exact congrArg (·.erase (s.pidOf y)) represents.order
  have unlinked' : (s.unlink x y).Holds (queue.remove (s.pidOf y)).processes
    (s.upcoming.erase y) := unlinked
  simp only [Scheduler.removeSlot, unlink_pidOf] at removed
  rw [holds.current]
  change (if s.pidOf y = s.pidOf s.current then _ else _) = _ at removed
  split at removed
  · rename_i ran
    rw [if_pos ran]
    obtain ⟨⟨next, stack⟩, switched, rfl⟩ := Option.map_eq_some_iff.mp removed
    exact unlinked'.yielded order represents.pid present switched
  · rename_i waited
    obtain rfl := Option.some.inj removed
    rw [if_neg waited]
    refine ⟨_, rfl, .of_holds unlinked' order ?_ represents.pid⟩
    exact (List.mem_erase_of_ne fun same => waited (congrArg s.pidOf same.symm)).mpr
      represents.current

/-- The slots of the ring are those `schedule` looks at. -/
theorem Linked.mem_upcoming {live : List Int} (linked : Linked s live ring) {a : Nat} :
    a ∈ ring ↔ a ∈ s.upcoming := by
  obtain ⟨ring', turned, perm⟩ :=
    linked.closed.rotate (linked.closed.next_mem linked.closed.start_mem)
  rw [upcoming_eq turned (linked.cardinal.trans perm.length_eq.symm)]
  exact perm.mem_iff.symm

/-- `removeProcess` of a process that is on the ring or not. -/
theorem Represents.removeProcess (represents : s.Represents queue) {live : List Int}
    (linked : Linked s live ring) (present : s.current ≠ NULL) {fuel rsp : Nat} {pid : Int}
    (removed : s.removeProcess fuel rsp pid = some s') :
    ∃ after, queue.removeProcess pid = some after ∧ s'.Represents after := by
  unfold Scheduler.removeProcess at removed
  unfold TurnQueue.removeProcess
  by_cases init : pid = 0
  · rw [if_pos init] at removed ⊢
    obtain ⟨⟨next, stack⟩, switched, rfl⟩ := Option.map_eq_some_iff.mp removed
    exact represents.holds.yielded represents.order represents.pid present switched
  · rw [if_neg init, if_neg present, if_neg (linked.not_onlyProcess init)] at removed
    rw [if_neg init, ← represents.order, turnOrder]
    split at removed
    · rename_i none
      obtain rfl := Option.some.inj removed
      have absent : pid ∉ s.upcoming.map s.pidOf := by
        intro member
        obtain ⟨a, inside, isPid⟩ := List.mem_map.mp member
        exact linked.findSlot_none none
          (linked.mem_live.mpr ⟨a, linked.mem_upcoming.mpr inside, isPid⟩)
      exact ⟨queue, if_neg absent, represents⟩
    · rename_i x y found
      obtain ⟨leads, before, member, rfl⟩ := linked.findSlot_some found
      have two : y ≠ x := by
        rintro rfl
        exact linked.next_ne member init leads
      rw [if_pos (List.mem_map_of_mem (linked.mem_upcoming.mp member))]
      exact represents.removeSlot present (linked.mem_upcoming.mp before) leads two removed

theorem Represents.createProcess (represents : s.Represents queue) {live : List Int}
    {slots : List Nat} {blocks : List Block} (linked : Linked s live ring)
    (stored : Stored s slots blocks) (within : ring ⊆ slots) {entryPoint : Nat} {pid : Int}
    (made : s.createProcess entryPoint = some (s', pid)) :
    s'.Represents queue.createProcess := by
  have present := stored.present (within linked.closed.start_mem)
  obtain ⟨p, t, page1, page2, slot, ring', -, -, created, -, stored', -⟩ :=
    linked.createProcess stored within present made
  have inside : ∀ a ∈ s.upcoming, a ∈ slots := fun a member =>
    within (linked.mem_upcoming.mpr member)
  refine represents.created present created
    (fun a member => stored.fresh stored'.consistent (inside a member)) ?_
    (created.counter.trans stored.counter_bound)
  by_contra taken
  obtain ⟨a, member, isPid⟩ := represents.holds.present.mp taken
  have below := (stored.pid a (inside a member)).2
  omega

end Order

end Scheduler

/-! ## Runs -/

namespace SchedulerRun

open Scheduler

/-- A call on the ring is the call on the queue. -/
theorem Sound.represents_step {fuel : Nat} {state after : SchedulerRun} {action : SchedulerAction}
    {slots : List Nat} {queue : TurnQueue} (sound : state.Sound slots)
    (represents : state.scheduler.Represents queue)
    (stepped : state.step fuel action = some after) :
    ∃ queue', queue.step action = some queue' ∧ after.scheduler.Represents queue' := by
  have present := Scheduler.Sound.present sound
  obtain ⟨ring, blocks, linked, stored, within⟩ := sound
  cases action with
  | createProcess entryPoint =>
      obtain ⟨⟨s, pid⟩, made, rfl⟩ := Option.map_eq_some_iff.mp stepped
      exact ⟨_, rfl, represents.createProcess linked stored within made⟩
  | removeProcess pid rsp =>
      obtain ⟨s, removed, rfl⟩ := Option.map_eq_some_iff.mp stepped
      exact represents.removeProcess linked present removed
  | next_process rsp =>
      obtain ⟨⟨s, stack⟩, switched, rfl⟩ := Option.map_eq_some_iff.mp stepped
      exact represents.holds.yielded represents.order represents.pid present switched
  | switchUserToKernel esp =>
      obtain rfl := Option.some.inj stepped
      exact ⟨queue, rfl,
        represents.same (setThread_sameRing _ _ _).toSameLinks rfl fun _ => rfl⟩
  | switchKernelToUser =>
      obtain ⟨⟨s, stack⟩, switched, rfl⟩ := Option.map_eq_some_iff.mp stepped
      obtain ⟨next, scheduled, rest⟩ := Option.bind_eq_some_iff.mp switched
      obtain ⟨index, -, result⟩ := Option.bind_eq_some_iff.mp rest
      obtain ⟨rfl, -⟩ := Prod.mk.inj (Option.some.inj result)
      obtain ⟨queue', turned, represents'⟩ :=
        represents.holds.scheduled represents.order represents.pid scheduled
      have written : SameRing next (next.setProcess (next.slot next.current).process
          { next.processOf next.current with activeThread := index }) := setProcess_sameRing rfl
      refine ⟨queue', turned, represents'.same written.toSameLinks rfl fun a => ?_⟩
      by_cases same : (next.slot a).process = (next.slot next.current).process
      · simp [processOf, same]
      · simp [processOf, setProcess_ne same]
  | changeProcessState pid processState =>
      obtain rfl := Option.some.inj stepped
      obtain ⟨same, current⟩ := changeProcessState_sameRing state.scheduler pid processState
      refine ⟨_, rfl, .of_holds
        (represents.holds.changeProcessState represents.current pid processState) ?_ ?_ ?_⟩
      · rw [same.pidOf]
        exact represents.order
      · rw [current]
        exact represents.current
      · rw [same.counter]
        exact represents.pid

/-- The first process is the queue of one. -/
theorem Start.represents {state : SchedulerRun} (start : Start state) :
    state.scheduler.Represents .first := by
  obtain ⟨boot, entryPoint, pid, empty, made, -⟩ := start
  obtain ⟨p, t, page1, page2, slot, -, created, linked, -, -⟩ := empty.createProcess made
  have isInit : state.scheduler.pidOf slot = 0 := by rw [created.pidOf_slot, empty.pid]
  have current : state.scheduler.current = slot := by rw [created.current, if_pos empty.current]
  have alone : state.scheduler.next slot = slot := by
    rw [Scheduler.next, created.added, if_pos empty.current]
  have closed := linked.closed
  have ready : (state.scheduler.processOf slot).state = .ready := by
    rw [processOf, created.added, created.state]
  have holds : state.scheduler.Holds TurnQueue.first.processes [slot] := by
    refine ⟨?_, linked.cardinal, ?_, ?_, ?_⟩
    · rw [current] at closed ⊢
      rwa [alone]
    · intro a member b stands _
      rw [List.mem_singleton.mp member]
      rcases stands with rfl | other
      · exact current.symm
      · exact (List.mem_singleton.mp other).symm
    · intro pid processState
      simp only [List.mem_singleton, exists_eq_left, isInit, ready, TurnQueue.first]
      by_cases zero : pid = 0
      · simp [zero]
      · simp [zero, Ne.symm zero]
    · rw [current, isInit]
      rfl
  refine .of_holds holds ?_ ?_ ?_
  · rw [List.map_singleton, isInit]
    rfl
  · rw [current]
    exact List.mem_singleton_self slot
  · rw [created.counter, empty.pid]
    rfl

/-- Every run of the scheduler is a run of the queue: the slots of the ring, in the order in
which `schedule` looks at them, hold the processes of the queue in its order, each in its
state, and the process that runs is that of the queue. -/
theorem ring_refines_queue (fuel : Nat) (start : SchedulerRun) (begins : Start start)
    (actions : List SchedulerAction) (final : SchedulerRun)
    (ran : run (step fuel) start actions = some final) :
    ∃ queue, run TurnQueue.step .first actions = some queue ∧
      final.scheduler.Represents queue := by
  have followed : ∀ state queue action next,
      ((∃ slots, state.Sound slots) ∧ state.scheduler.Represents queue) →
        step fuel state action = some next → ∃ after, queue.step action = some after ∧
          (∃ slots, next.Sound slots) ∧ next.scheduler.Represents after := by
    rintro state queue action next ⟨⟨slots, sound⟩, represents⟩ stepped
    obtain ⟨slots', sound', -⟩ := sound.step stepped
    obtain ⟨after, moved, represents'⟩ := sound.represents_step represents stepped
    exact ⟨after, moved, ⟨slots', sound'⟩, represents'⟩
  obtain ⟨queue, ran', -, represents⟩ :=
    run_follows followed ⟨begins.sound, begins.represents⟩ ran
  exact ⟨queue, ran', represents⟩

/-- Of three processes the second one is removed while it runs, and the third one is next. -/
theorem ring_refines_queue_removed : ∃ start final queue, Start start ∧
    run (step 3) start [.createProcess 0x800000, .switchKernelToUser, .createProcess 0x900000,
      .removeProcess 1 0] = some final ∧
    run TurnQueue.step .first [.createProcess 0x800000, .switchKernelToUser,
      .createProcess 0x900000, .removeProcess 1 0] = some queue ∧ queue.order = [0, 2] ∧
    final.scheduler.Represents queue := by
  have result : ((emptyMemory.createProcess 0x400000).bind fun made =>
      run (step 3) ⟨made.1, [made.2]⟩ [.createProcess 0x800000, .switchKernelToUser,
        .createProcess 0x900000, .removeProcess 1 0]).map SchedulerRun.live = some [2, 0] := by
    rw [emptyMemory, createHeap_eq]
    decide +kernel
  obtain ⟨final, ran, -⟩ := Option.map_eq_some_iff.mp result
  obtain ⟨⟨s, pid⟩, made, ran⟩ := Option.bind_eq_some_iff.mp ran
  have begins : Start ⟨s, [pid]⟩ := ⟨emptyMemory, 0x400000, pid, emptyMemory_boot, made, rfl⟩
  obtain ⟨queue, moved, represents⟩ := ring_refines_queue 3 _ begins _ final ran
  have order : (run TurnQueue.step .first [.createProcess 0x800000, .switchKernelToUser,
      .createProcess 0x900000, .removeProcess 1 0]).map TurnQueue.order = some [0, 2] := by
    decide +kernel
  rw [moved] at order
  exact ⟨_, final, queue, begins, ran, moved, Option.some.inj order, represents⟩

end SchedulerRun

end SistemasOperativos.Kernel
