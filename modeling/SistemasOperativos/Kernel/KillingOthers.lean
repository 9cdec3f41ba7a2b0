import SistemasOperativos.Kernel.SchedulerRing

/-!
# Removing all other processes

`killAllExceptCurrent` walks the ring and removes the process of the slot it stands on, except
for the first process and the one that runs. A removed slot is no longer on the ring, but its
`next` still leads to it, and that is how the walk goes on. `WellFormed` is the ring as a list
from the current slot on, and the walk takes out of this list the slots it removes.
-/

namespace SistemasOperativos.Kernel

open SistemasOperativos.Foundation SistemasOperativos.Semantics

/-- The pid of the first process. -/
def INIT_PID : Int := 0

namespace Scheduler

/-- The loop of `killAllExceptCurrent` from `aux` on; `none` when the bound on its number of
steps was reached. -/
def killAllExceptCurrentLoop (rsp : Nat) (pid : Int) :
    (fuel : Nat) → (s : Scheduler) → (aux : Nat) → Option Scheduler
  | 0, _, _ => none
  | fuel + 1, s, aux =>
      if aux = s.current then some s
      else if s.pidOf aux ≠ pid ∧ s.pidOf aux ≠ INIT_PID then
        (s.removeProcess fuel rsp (s.pidOf aux)).bind fun s =>
          killAllExceptCurrentLoop rsp pid fuel s (s.next aux)
      else killAllExceptCurrentLoop rsp pid fuel s (s.next aux)

/-- `killAllExceptCurrent`. -/
def killAllExceptCurrent (s : Scheduler) (fuel rsp : Nat) : Option Scheduler :=
  killAllExceptCurrentLoop rsp s.getCurrentPid fuel s (s.next s.current)

/-- From the current slot `next` leads once through the `cardinal_processes` slots of `ring` and
back, and no two of them hold processes with the same pid. -/
structure WellFormed (s : Scheduler) (ring : List Nat) : Prop where
  closed : Ring s.next s.current ring
  cardinal : s.cardinal_processes = ring.length
  distinct : (ring.map s.pidOf).Nodup
  present : NULL ∉ ring

namespace WellFormed

variable {s : Scheduler} {ring before behind : List Nat} {x y : Nat} {pid : Int}

theorem eq_of_pidOf (wellFormed : s.WellFormed ring) (first : x ∈ ring) (second : y ∈ ring)
    (same : s.pidOf x = s.pidOf y) : x = y :=
  List.inj_on_of_nodup_map wellFormed.distinct first second same

theorem current_ne_null (wellFormed : s.WellFormed ring) : s.current ≠ NULL := by
  intro null
  exact wellFormed.present (null ▸ wellFormed.closed.start_mem)

/-- The ring starts at the current slot, so no later slot is the current one. -/
theorem ne_current (wellFormed : s.WellFormed (before ++ x :: y :: behind)) : y ≠ s.current := by
  rintro rfl
  have nodup := wellFormed.closed.nodup
  cases before with
  | nil =>
      obtain ⟨rfl, -⟩ := wellFormed.closed.path
      simp at nodup
  | cons z before =>
      obtain ⟨rfl, -⟩ := wellFormed.closed.path
      simp at nodup

/-- `removeProcess` finds the slot of a process and the one before it. -/
theorem findSlot_eq (wellFormed : s.WellFormed ring) (member : x ∈ ring) (leads : s.next x = y) :
    s.findSlot (s.pidOf y) = some (x, y) := by
  have onRing : y ∈ ring := leads ▸ wellFormed.closed.next_mem member
  obtain ⟨ahead, turned, perm⟩ :=
    wellFormed.closed.rotate (wellFormed.closed.next_mem wellFormed.closed.start_mem)
  have length : s.cardinal_processes = ahead.length := by
    rw [wellFormed.cardinal, perm.length_eq]
  rw [findSlot, length]
  cases found : s.removeProcessLoop (s.pidOf y) ahead.length s.current (s.next s.current) with
  | none => exact absurd rfl (removeProcessLoop_none turned.path found y (perm.mem_iff.mpr onRing))
  | some place =>
      obtain ⟨x', y'⟩ := place
      obtain ⟨leads', isBefore, inside, isPid⟩ := removeProcessLoop_some turned.path rfl found
      obtain rfl := wellFormed.eq_of_pidOf (perm.mem_iff.mp inside) onRing isPid
      have onRing' : x' ∈ ring := by
        rcases List.mem_cons.mp isBefore with rfl | later
        · exact wellFormed.closed.start_mem
        · exact perm.mem_iff.mp later
      rw [wellFormed.closed.next_injective onRing' member (leads'.trans leads.symm)]

/-- Unlinking a slot other than the current one takes it out of the list. -/
theorem unlink (wellFormed : s.WellFormed (before ++ x :: y :: behind)) :
    (s.unlink x y).WellFormed (before ++ x :: behind) := by
  have sublist : (before ++ x :: behind).Sublist (before ++ x :: y :: behind) :=
    (List.Sublist.refl before).append ((List.sublist_cons_self y behind).cons_cons x)
  have nodup : (before ++ x :: behind).Nodup := wellFormed.closed.nodup.sublist sublist
  have apart : x ∉ before ++ behind := (List.nodup_middle.mp nodup).notMem
  refine ⟨⟨?_, nodup, by simp⟩, ?_, ?_, fun null => wellFormed.present (sublist.subset null)⟩
  · refine wellFormed.closed.path.removeAfter (by simp [unlink_next]) fun z member => ?_
    rw [unlink_next, Function.update_of_ne]
    rintro rfl
    exact apart member
  · change s.cardinal_processes - 1 = _
    rw [wellFormed.cardinal]
    simp
  · rw [unlink_pidOf]
    exact wellFormed.distinct.sublist (sublist.map _)

/-- `removeProcess` of a process that neither runs nor is the first one unlinks its slot, whose
`next` is then the one of the slot before it. -/
theorem removeProcess (wellFormed : s.WellFormed (before ++ x :: y :: behind)) (fuel rsp : Nat)
    (other : s.pidOf y ≠ s.pidOf s.current) (notInit : s.pidOf y ≠ INIT_PID) :
    s.removeProcess fuel rsp (s.pidOf y) = some (s.unlink x y) ∧
      (s.unlink x y).next y = (s.unlink x y).next x := by
  have leads : s.next x = y := wellFormed.closed.path.next_eq
  have notAlone : ¬ s.IsOnlyProcess (s.pidOf y) := fun alone => other alone.2.symm
  have apart : y ≠ x := by
    rintro rfl
    have nodup := wellFormed.closed.nodup
    simp [List.nodup_append] at nodup
  have notZero : s.pidOf y ≠ 0 := notInit
  constructor
  · rw [Scheduler.removeProcess, if_neg notZero, if_neg wellFormed.current_ne_null,
      if_neg notAlone, wellFormed.findSlot_eq (by simp) leads]
    change s.removeSlot fuel rsp x y = _
    rw [removeSlot, unlink_pidOf, if_neg]
    exact other
  · simp [unlink_next, apart]

/-- From behind `x` on the loop takes all slots out but that of the first process. -/
theorem killAllExceptCurrentLoop (wellFormed : s.WellFormed (before ++ x :: behind))
    {fuel : Nat} (enough : behind.length < fuel) (rsp : Nat) :
    ∃ s', Scheduler.killAllExceptCurrentLoop rsp (s.pidOf s.current) fuel s (s.next x) = some s' ∧
      s'.WellFormed (before ++ x :: behind.filter fun a => s.pidOf a = INIT_PID) ∧
      s'.current = s.current ∧ s'.process = s.process ∧ SamePages s s' := by
  -- The walk stands behind the last slot that it left on the ring.
  induction behind generalizing s before x fuel with
  | nil =>
      obtain ⟨fuel, rfl⟩ := Nat.exists_eq_succ_of_ne_zero (Nat.ne_zero_of_lt enough)
      have back : s.next x = s.current := wellFormed.closed.path.last
      refine ⟨s, ?_, wellFormed, rfl, rfl, (SameRing.refl s).samePages⟩
      rw [Scheduler.killAllExceptCurrentLoop, if_pos back]
  | cons y behind ih =>
      obtain ⟨fuel, rfl⟩ := Nat.exists_eq_succ_of_ne_zero (Nat.ne_zero_of_lt enough)
      have leads : s.next x = y := wellFormed.closed.path.next_eq
      have notCurrent := wellFormed.ne_current
      have other : s.pidOf y ≠ s.pidOf s.current := fun same =>
        notCurrent (wellFormed.eq_of_pidOf (by simp) wellFormed.closed.start_mem same)
      have fewer : behind.length < fuel := by
        rw [List.length_cons] at enough
        omega
      rw [leads, Scheduler.killAllExceptCurrentLoop, if_neg notCurrent]
      by_cases init : s.pidOf y = INIT_PID
      · rw [if_neg fun kill => kill.2 init, List.filter_cons_of_pos (by simpa using init)]
        have further : s.WellFormed ((before ++ [x]) ++ y :: behind) := by
          simpa using wellFormed
        obtain ⟨s', ran, left, same⟩ := ih further fewer
        exact ⟨s', ran, by simpa using left, same⟩
      · obtain ⟨removed, goesOn⟩ := wellFormed.removeProcess fuel rsp other init
        obtain ⟨s', ran, left, current, process, pages⟩ := ih wellFormed.unlink fewer
        rw [if_pos ⟨other, init⟩, removed, Option.bind_some, goesOn,
          List.filter_cons_of_neg (by simpa using init)]
        rw [unlink_pidOf] at ran left
        exact ⟨s', ran, left, current, process, (unlink_samePages s x y).trans pages⟩

end WellFormed

/-- On every well-formed ring `killAllExceptCurrent` ends, after as many steps as the ring has
slots at most. It leaves the ring of the current slot and of the slot of the first process, if
there is one, with the processes they had. -/
theorem killAllExceptCurrent_leaves (s : Scheduler) (ring : List Nat)
    (wellFormed : s.WellFormed ring) (fuel : Nat) (enough : s.cardinal_processes ≤ fuel)
    (rsp : Nat) :
    ∃ s', s.killAllExceptCurrent fuel rsp = some s' ∧ s'.current = s.current ∧
      s'.WellFormed (ring.filter fun a => a = s.current ∨ s.pidOf a = INIT_PID) ∧
      s'.process = s.process ∧ SamePages s s' := by
  rw [wellFormed.cardinal] at enough
  have pid : s.getCurrentPid = s.pidOf s.current := if_neg wellFormed.current_ne_null
  rw [killAllExceptCurrent, pid]
  cases ring with
  | nil => exact absurd rfl wellFormed.closed.inhabited
  | cons a behind =>
      obtain rfl : s.current = a := wellFormed.closed.path.1
      have apart : s.current ∉ behind := (List.nodup_cons.mp wellFormed.closed.nodup).1
      have around : s.WellFormed ([] ++ s.current :: behind) := wellFormed
      obtain ⟨s', ran, left, current, same⟩ := around.killAllExceptCurrentLoop enough rsp
      refine ⟨s', ran, current, ?_, same⟩
      rw [List.filter_cons_of_pos (by simp)]
      have filters : behind.filter (fun a => a = s.current ∨ s.pidOf a = INIT_PID) =
          behind.filter fun a => s.pidOf a = INIT_PID := by
        refine List.filter_congr fun b member => ?_
        have other : b ≠ s.current := by
          rintro rfl
          exact apart member
        simp [other]
      rw [filters]
      exact left

/-- Three processes, of which the second one runs. -/
def threeProcesses : Scheduler where
  cardinal_processes := 3
  current := 0x2000
  pid := 3
  buddyArray := createHeap
  slot := fun a => ⟨if a = 0x3000 then 0x1000 else a + 0x1000, a⟩
  process := fun p => ⟨p / 0x1000 - 1, .ready, 0, 0, initializeThreadArray, NULL, 0,
    Vector.replicate _ NULL⟩
  thread := fun _ => ⟨NULL, NULL, 0⟩

/-- The third process is removed. -/
theorem killAllExceptCurrent_leaves_two :
    ∃ s', threeProcesses.killAllExceptCurrent 3 0 = some s' ∧ s'.current = 0x2000 ∧
      s'.WellFormed [0x2000, 0x1000] := by
  have wellFormed : threeProcesses.WellFormed [0x2000, 0x3000, 0x1000] := by
    refine ⟨⟨⟨rfl, rfl, rfl, rfl⟩, by decide, by decide⟩, rfl, ?_, by decide⟩
    simp [threeProcesses, pidOf, processOf]
  obtain ⟨s', ran, current, left, -⟩ :=
    killAllExceptCurrent_leaves threeProcesses _ wellFormed 3 (Nat.le_refl 3) 0
  refine ⟨s', ran, current, ?_⟩
  simpa [threeProcesses, pidOf, processOf, INIT_PID] using left

end Scheduler

end SistemasOperativos.Kernel
