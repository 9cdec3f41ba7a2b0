import SistemasOperativos.Kernel.InterruptedRemoval

/-!
# Looking a process up

`changeProcessState` and `removeProcess` follow `next` from slot to slot. `getProcessById` indexes
the current slot as an array instead: behind that slot it reads what the memory happens to hold,
since each slot stands in a page of its own.
-/

namespace SistemasOperativos.Kernel

open SistemasOperativos.Foundation SistemasOperativos.Semantics

namespace Scheduler

/-- `slot[i]` of `getProcessById`. -/
def slotAt (s : Scheduler) (i : Nat) : Nat := s.current + i * sizeofProcessSlot

/-- The process on the ring with the pid, or NULL if the ring has none. -/
def RingProcess (s : Scheduler) (pid : Int) (p : Nat) : Prop :=
  (∃ slot, s.OnRing slot ∧ s.pidOf slot = pid ∧ (s.slot slot).process = p) ∨
    (p = NULL ∧ ∀ slot, s.OnRing slot → s.pidOf slot ≠ pid)

/-- `getProcessById` returns the process on the ring with the pid, and NULL exactly if there is
none; `changeProcessState` and `removeProcess` act on the process it returns. -/
structure FindsTarget (s : Scheduler) (pid : Int) : Prop where
  process : ∀ slot, s.OnRing slot → s.pidOf slot = pid →
    s.getProcessById pid = (s.slot slot).process
  null : s.getProcessById pid = NULL ↔ ∀ slot, s.OnRing slot → s.pidOf slot ≠ pid
  changes : ∀ state, s.changeProcessState pid state =
    if s.getProcessById pid = NULL then s
    else s.setProcess (s.getProcessById pid)
      { s.process (s.getProcessById pid) with state := state }
  removes : (s.findSlot pid).map (fun found => (s.slot found.2).process) =
    if s.getProcessById pid = NULL then none else some (s.getProcessById pid)

/-- Of the `cardinal_processes - 1` places behind the current slot, the first one that points to
a process with the pid points to `p`; if none does, `p` is NULL. -/
def FindsBehind (s : Scheduler) (pid : Int) (p : Nat) : Prop :=
  (∃ i, 0 < i ∧ i < s.cardinal_processes ∧ s.pidOf (s.slotAt i) = pid ∧
    (s.slot (s.slotAt i)).process = p ∧ ∀ j, 0 < j → j < i → s.pidOf (s.slotAt j) ≠ pid) ∨
  (p = NULL ∧ ∀ i, 0 < i → i < s.cardinal_processes → s.pidOf (s.slotAt i) ≠ pid)

section Lookup

variable {s : Scheduler} {live : List Int} {ring slots : List Nat} {pid : Int} {p a : Nat}

/-- The pid of the process that runs is found at once. -/
theorem getProcessById_current (inhabited : 0 < s.cardinal_processes)
    (current : s.pidOf s.current = pid) : s.getProcessById pid = (s.slot s.current).process := by
  obtain ⟨n, cardinal⟩ := Nat.exists_eq_succ_of_ne_zero (Nat.pos_iff_ne_zero.mp inhabited)
  simp [getProcessById, cardinal, List.range_succ_eq_map, current]

/-- Any other pid is looked for behind the current slot. -/
theorem getProcessById_eq_iff (other : s.pidOf s.current ≠ pid) :
    s.getProcessById pid = p ↔ s.FindsBehind pid p := by
  have first : ∀ i, s.pidOf (s.slotAt i) = pid → 0 < i := by
    intro i isPid
    refine Nat.pos_of_ne_zero fun zero => other ?_
    rw [← isPid, slotAt, zero, Nat.zero_mul, Nat.add_zero]
  unfold getProcessById
  split
  · rename_i i found
    obtain ⟨isPid, bound, before⟩ := List.find?_range_eq_some.mp found
    simp only [decide_eq_true_eq, List.mem_range] at isPid bound
    have earlier : ∀ j, j < i → s.pidOf (s.slotAt j) ≠ pid := by
      intro j less
      simpa [slotAt] using before j less
    constructor
    · intro same
      exact .inl ⟨i, first i isPid, bound, isPid, same, fun j _ => earlier j⟩
    · rintro (⟨k, positive, inside, isPid', same, none⟩ | ⟨-, none⟩)
      · rcases Nat.lt_trichotomy k i with less | rfl | more
        · exact absurd isPid' (earlier k less)
        · exact same
        · exact absurd isPid (none i (first i isPid) more)
      · exact absurd isPid (none i (first i isPid) bound)
  · rename_i none
    have missing : ∀ i, i < s.cardinal_processes → s.pidOf (s.slotAt i) ≠ pid := by
      intro i bound
      simpa [slotAt] using List.find?_eq_none.mp none i (List.mem_range.mpr bound)
    constructor
    · intro same
      exact .inr ⟨same.symm, fun i _ => missing i⟩
    · rintro (⟨i, -, bound, isPid, -⟩ | ⟨null, -⟩)
      · exact absurd isPid (missing i bound)
      · exact null.symm

/-- `changeProcessState` does nothing for a pid that no slot ahead has. -/
theorem changeProcessStateLoop_absent {state : ProcessState} {slot last : Nat}
    (path : Path s.next slot slots last) (absent : ∀ b ∈ slots, s.pidOf b ≠ pid) :
    s.changeProcessStateLoop pid state slots.length slot = s := by
  induction slots generalizing slot with
  | nil => rfl
  | cons b slots ih =>
      obtain ⟨rfl, rest⟩ := path
      rw [List.length_cons, changeProcessStateLoop, if_neg (absent slot (List.mem_cons_self ..))]
      exact ih rest fun c member => absent c (List.mem_cons_of_mem _ member)

/-- `changeProcessState` writes the process of the one slot ahead that has the pid. -/
theorem changeProcessStateLoop_present {state : ProcessState} {slot last : Nat}
    (path : Path s.next slot slots last) (member : a ∈ slots)
    (only : ∀ b ∈ slots, s.pidOf b = pid ↔ b = a) :
    s.changeProcessStateLoop pid state slots.length slot =
      s.setProcess (s.slot a).process { s.processOf a with state := state } := by
  induction slots generalizing slot with
  | nil => cases member
  | cons b slots ih =>
      obtain ⟨rfl, rest⟩ := path
      rw [List.length_cons, changeProcessStateLoop]
      split
      · rename_i isPid
        obtain rfl := (only slot (List.mem_cons_self ..)).mp isPid
        rfl
      · rename_i other
        refine ih rest ?_ fun c inside => only c (List.mem_cons_of_mem _ inside)
        refine (List.mem_cons.mp member).resolve_left fun same => other ?_
        exact (only slot (List.mem_cons_self ..)).mpr same.symm

/-- `changeProcessState` and `removeProcess` act on the process of the ring. -/
theorem Linked.findsTarget_iff (linked : Linked s live ring)
    (present : ∀ b ∈ ring, (s.slot b).process ≠ NULL) :
    s.FindsTarget pid ↔ s.RingProcess pid (s.getProcessById pid) := by
  constructor
  · intro finds
    by_cases here : ∃ slot, s.OnRing slot ∧ s.pidOf slot = pid
    · obtain ⟨slot, onRing, isPid⟩ := here
      exact .inl ⟨slot, onRing, isPid, (finds.process slot onRing isPid).symm⟩
    · have absent : ∀ slot, s.OnRing slot → s.pidOf slot ≠ pid :=
        fun slot onRing isPid => here ⟨slot, onRing, isPid⟩
      exact .inr ⟨finds.null.mpr absent, absent⟩
  · rintro (⟨a, onRing, isPid, same⟩ | ⟨null, absent⟩)
    · have member := linked.onRing_iff.mp onRing
      have only : ∀ b ∈ ring, s.pidOf b = pid ↔ b = a := by
        intro b inside
        constructor
        · exact fun isPid' => linked.eq_of_pidOf inside member (isPid'.trans isPid.symm)
        · rintro rfl
          exact isPid
      have notNull : s.getProcessById pid ≠ NULL := same ▸ present a member
      refine ⟨fun slot slotOnRing slotPid => ?_, iff_of_false notNull ?_, fun state => ?_, ?_⟩
      · rw [(only slot (linked.onRing_iff.mp slotOnRing)).mp slotPid, same]
      · exact fun absent => absent a onRing isPid
      · rw [if_neg notNull, changeProcessState, linked.cardinal,
          changeProcessStateLoop_present linked.closed.path member only, ← same]
        rfl
      · rw [if_neg notNull]
        cases found : s.findSlot pid with
        | none =>
            exact absurd (linked.mem_live.mpr ⟨a, member, isPid⟩) (linked.findSlot_none found)
        | some place =>
            obtain ⟨-, -, inside, slotPid⟩ := linked.findSlot_some found
            rw [Option.map_some, (only _ inside).mp slotPid, same]
    · have missing : ∀ b ∈ ring, s.pidOf b ≠ pid :=
        fun b inside => absent b (linked.onRing_iff.mpr inside)
      refine ⟨fun slot slotOnRing slotPid => absurd slotPid (absent slot slotOnRing),
        iff_of_true null absent, fun state => ?_, ?_⟩
      · rw [if_pos null, changeProcessState, linked.cardinal,
          changeProcessStateLoop_absent linked.closed.path missing]
      · rw [if_pos null]
        cases found : s.findSlot pid with
        | none => rfl
        | some place =>
            obtain ⟨-, -, inside, slotPid⟩ := linked.findSlot_some found
            exact absurd slotPid (missing _ inside)

end Lookup

end Scheduler

namespace SchedulerRun

/-- In every state reached from boot, `getProcessById` finds the process of the ring that
`changeProcessState` and `removeProcess` act on exactly if that is the process that runs, or if
the memory behind the current slot points to it as well. -/
theorem lookup_iff (fuel : Nat) (start : SchedulerRun) (begins : Start start)
    (actions : List SchedulerAction) (final : SchedulerRun)
    (ran : run (step fuel) start actions = some final) (pid : Int) :
    final.scheduler.FindsTarget pid ↔
      final.scheduler.pidOf final.scheduler.current = pid ∨
        ∃ p, final.scheduler.RingProcess pid p ∧ final.scheduler.FindsBehind pid p := by
  obtain ⟨slots, sound⟩ := begins.sound
  obtain ⟨slots', ⟨ring, blocks, linked, stored, within⟩, -⟩ := sound.run ran
  have present : ∀ b ∈ ring, (final.scheduler.slot b).process ≠ NULL := by
    intro b member null
    have placed := stored.consistent.placed _ (stored.process b (within member))
    exact absurd placed.page_positive (null ▸ Nat.lt_irrefl 0)
  rw [linked.findsTarget_iff present]
  by_cases current : final.scheduler.pidOf final.scheduler.current = pid
  · refine iff_of_true (.inl ⟨final.scheduler.current, ⟨0, rfl⟩, current, ?_⟩) (.inl current)
    exact (Scheduler.getProcessById_current (linked.cardinal ▸ linked.closed.positive)
      current).symm
  · rw [or_iff_right current]
    constructor
    · intro target
      exact ⟨_, target, (Scheduler.getProcessById_eq_iff current).mp rfl⟩
    · rintro ⟨p, target, behind⟩
      rwa [(Scheduler.getProcessById_eq_iff current).mpr behind]

/-- The process that runs finds itself, here the first of two. -/
theorem lookup_current : ∃ start final, Start start ∧
    run (step 3) start [.createProcess 0x800000] = some final ∧
      final.scheduler.FindsTarget (final.scheduler.pidOf final.scheduler.current) := by
  have result : ((emptyMemory.createProcess 0x400000).bind fun made =>
      run (step 3) ⟨made.1, [made.2]⟩ [.createProcess 0x800000]).isSome = true := by
    rw [emptyMemory, createHeap_eq]
    decide +kernel
  obtain ⟨final, ran⟩ := Option.isSome_iff_exists.mp result
  obtain ⟨⟨s, pid⟩, made, ran⟩ := Option.bind_eq_some_iff.mp ran
  have begins : Start ⟨s, [pid]⟩ := ⟨emptyMemory, 0x400000, pid, emptyMemory_boot, made, rfl⟩
  exact ⟨_, final, begins, ran, (lookup_iff 3 _ begins _ final ran _).mpr (.inl rfl)⟩

/-- In a memory of zeros the second process is not found by the first one. -/
theorem second_process_not_found : ∃ start final, Start start ∧
    run (step 3) start [.createProcess 0x800000] = some final ∧
      final.scheduler.pidOf (final.scheduler.next final.scheduler.current) = 1 ∧
      final.scheduler.getProcessById 1 = NULL ∧ ¬ final.scheduler.FindsTarget 1 := by
  have result : ((emptyMemory.createProcess 0x400000).bind fun made =>
      run (step 3) ⟨made.1, [made.2]⟩ [.createProcess 0x800000]).map (fun final =>
        (final.scheduler.pidOf (final.scheduler.next final.scheduler.current),
          final.scheduler.getProcessById 1)) = some (1, NULL) := by
    rw [emptyMemory, createHeap_eq]
    decide +kernel
  obtain ⟨final, ran, values⟩ := Option.map_eq_some_iff.mp result
  obtain ⟨⟨s, pid⟩, made, ran⟩ := Option.bind_eq_some_iff.mp ran
  obtain ⟨second, missed⟩ := Prod.mk.inj values
  have begins : Start ⟨s, [pid]⟩ := ⟨emptyMemory, 0x400000, pid, emptyMemory_boot, made, rfl⟩
  refine ⟨_, final, begins, ran, second, missed, fun finds => ?_⟩
  exact finds.null.mp missed _ ⟨1, rfl⟩ second

end SchedulerRun

end SistemasOperativos.Kernel
