import SistemasOperativos.Kernel.SchedulerRing

/-!
# A removal with a switch in the middle

A thread that ends runs `removeProcess` with interrupts enabled, so other
processes may run between the loop, which finds `prevSlot` and `slotToRemove`,
and the assignment that unlinks the slot. The removal leaves the ring right
exactly when the slot in front of the one to remove is still the same when the
remover goes on.
-/

namespace SistemasOperativos.Kernel

open SistemasOperativos.Foundation SistemasOperativos.Semantics

namespace Scheduler

/-- The slot is reached from the current one. -/
def OnRing (s : Scheduler) (slot : Nat) : Prop := ∃ k, s.next^[k] s.current = slot

section Unlinking

variable {s s' : Scheduler} {live : List Int} {ring slots : List Nat} {blocks : List Block}

theorem Linked.onRing_iff (linked : Linked s live ring) {slot : Nat} :
    s.OnRing slot ↔ slot ∈ ring := by
  constructor
  · rintro ⟨k, rfl⟩
    exact linked.closed.iterate_mem linked.closed.start_mem k
  · intro member
    obtain ⟨k, -, position⟩ := linked.closed.mem_iff.mp member
    exact ⟨k, position⟩

end Unlinking

end Scheduler

namespace SchedulerRun

open Scheduler

/-- The calls of other processes keep the ring. -/
theorem Sound.run {fuel : Nat} {state resumed : SchedulerRun} {slots : List Nat}
    {others : List SchedulerAction} (sound : state.Sound slots)
    (ran : Semantics.run (SchedulerRun.step fuel) state others = some resumed) :
    ∃ slots', resumed.Sound slots' ∧ Keeps state.scheduler resumed.scheduler slots slots' := by
  have preserved : ∀ middle action after,
      (∃ slots', middle.Sound slots' ∧
        Keeps state.scheduler middle.scheduler slots slots') →
      SchedulerRun.step fuel middle action = some after →
        ∃ slots', after.Sound slots' ∧ Keeps state.scheduler after.scheduler slots slots' := by
    rintro middle action after ⟨slots', sound', kept⟩ stepped
    obtain ⟨slots'', sound'', kept'⟩ := sound'.step stepped
    refine ⟨slots'', sound'', fun a member => ?_⟩
    obtain ⟨inner, pid⟩ := kept a member
    obtain ⟨inner', pid'⟩ := kept' a inner
    exact ⟨inner', pid'.trans pid⟩
  exact run_invariant preserved ⟨slots, sound, fun a member => ⟨member, rfl⟩⟩ ran

/-- Three processes on the ring in the order 0, 2, 1, and 2 runs. -/
def threeProcesses : List SchedulerAction :=
  [.createProcess 0x800000, .createProcess 0x900000, .switchKernelToUser]

end SchedulerRun

end SistemasOperativos.Kernel
