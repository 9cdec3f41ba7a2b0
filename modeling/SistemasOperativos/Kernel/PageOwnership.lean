import SistemasOperativos.Kernel.SchedulerRing

/-!
# Pages of removed processes

`OwnershipRun` records which blocks each process got from the page allocator.
`removeProcess` gives none of them back: only the branch for the only process of
the ring calls `freeProcessPages`, and process 0, which is never removed, keeps
every other process from being the only one.

Structures of different types stand in different memories here. A step in which
a page is handed out that a living process still holds would mix them, as would
an overflow of the pid counter, so such a step is no step of a run.
-/

namespace SistemasOperativos.Kernel

open SistemasOperativos.Foundation SistemasOperativos.Semantics

/-- A block a process got; `thread` is the thread it is for, `none` for the
blocks of the process itself. -/
structure Holding where
  pid : Int
  thread : Option Nat
  block : Block
  deriving DecidableEq

/-- The scheduler, the processes created and not removed, and their blocks. -/
structure OwnershipRun where
  scheduler : Scheduler
  live : List Int
  holdings : List Holding

/-- The calls a run is made of. -/
inductive OwnershipAction where
  | createProcess (entryPoint : Nat)
  | thread_create (entryPoint : Nat)
  | terminateThread (rsp : Nat)
  | extendHeap (pages : Nat) (pid : Int)
  | removeProcess (pid : Int) (rsp : Nat)
  | next_process (rsp : Nat)
  | switchUserToKernel (esp : Nat)
  | switchKernelToUser
  | changeProcessState (pid : Int) (state : ProcessState)

/-- No page of the block lies at or below a node marked `BUDDY_FULL`. -/
def Block.FreeIn (block : Block) (buddyArray : BuddyArray) : Prop :=
  ∀ i, i < block.pages → ∀ k, k < 11 → buddyArray.mark ((block.leaf + i) / 2 ^ k) ≠ .BUDDY_FULL

instance (block : Block) (buddyArray : BuddyArray) : Decidable (block.FreeIn buddyArray) :=
  inferInstanceAs (Decidable (∀ i, i < block.pages → ∀ k, k < 11 → _))

namespace OwnershipRun

open Scheduler

/-- The blocks are at no null pointer and share no address with a holding. -/
def Unused (state : OwnershipRun) (blocks : List Block) : Prop :=
  ∀ b ∈ blocks, b.page ≠ NULL ∧ ∀ h ∈ state.holdings, b.Disjoint h.block

instance (state : OwnershipRun) (blocks : List Block) : Decidable (state.Unused blocks) :=
  inferInstanceAs (Decidable (∀ b ∈ blocks, _ ∧ ∀ h ∈ state.holdings, _))

/-- Forget a process and its blocks. -/
def forget (state : OwnershipRun) (scheduler : Scheduler) (pid : Int) : OwnershipRun :=
  if pid = 0 then { state with scheduler }
  else ⟨scheduler, state.live.erase pid, state.holdings.filter fun h => h.pid ≠ pid⟩

/-- The holdings of a new process, from the blocks it got in order. -/
def processHoldings (pid : Int) : List Block → List Holding
  | [p, t, page1, page2, slot] =>
      [⟨pid, none, p⟩, ⟨pid, some t.page, t⟩, ⟨pid, some t.page, page1⟩,
        ⟨pid, some t.page, page2⟩, ⟨pid, none, slot⟩]
  | _ => []

/-- The holdings of a new thread, from the blocks it got in order. -/
def threadHoldings (pid : Int) : List Block → List Holding
  | [t, page1, page2] =>
      [⟨pid, some t.page, t⟩, ⟨pid, some t.page, page1⟩, ⟨pid, some t.page, page2⟩]
  | _ => []

/-- Record the blocks that a call takes from the page allocator. -/
def take (state : OwnershipRun) (sizes : List Nat) (holdings : List Block → List Holding)
    (scheduler : Scheduler) : Option OwnershipRun :=
  match allocPages state.scheduler.buddyArray sizes with
  | some (_, blocks) =>
      if state.Unused blocks then
        some ⟨scheduler, state.live, holdings blocks ++ state.holdings⟩
      else none
  | none => none

/-- One call that completes. -/
def step (fuel : Nat) (state : OwnershipRun) : OwnershipAction → Option OwnershipRun
  | .createProcess entryPoint =>
      if state.scheduler.pid + 1 < 2 ^ 31 then
        match state.scheduler.createProcess entryPoint with
        | some (s, pid) =>
            (state.take [1, 1, 2, 2, 1] (processHoldings pid) s).map fun state =>
              { state with live := pid :: state.live }
        | none => none
      else none
  | .thread_create entryPoint =>
      match state.scheduler.thread_create entryPoint with
      | some s => state.take [1, 2, 2] (threadHoldings state.scheduler.getCurrentPid) s
      | none => none
  | .extendHeap pages pid =>
      match state.scheduler.extendHeap pages pid with
      | some s => state.take [pages] (List.map (⟨state.scheduler.getCurrentPid, none, ·⟩)) s
      | none => none
  | .terminateThread rsp =>
      (state.scheduler.terminateThread fuel rsp).map fun s =>
        if (state.scheduler.processOf state.scheduler.current).activeThread = 0 then
          state.forget s state.scheduler.getCurrentPid
        else
          { state with
            scheduler := s
            holdings := state.holdings.filter fun h =>
              ¬ (h.pid = state.scheduler.getCurrentPid ∧
                h.thread = some state.scheduler.currentThread) }
  | .removeProcess pid rsp =>
      (state.scheduler.removeProcess fuel rsp pid).map fun s => state.forget s pid
  | .next_process rsp =>
      (state.scheduler.next_process fuel rsp).map fun (s, _) => { state with scheduler := s }
  | .switchUserToKernel esp =>
      some { state with scheduler := (state.scheduler.switchUserToKernel esp).1 }
  | .switchKernelToUser =>
      (state.scheduler.switchKernelToUser fuel).map fun (s, _) => { state with scheduler := s }
  | .changeProcessState pid processState =>
      some { state with scheduler := state.scheduler.changeProcessState pid processState }

/-- Process 0 has been created and holds its blocks. -/
def Start (state : OwnershipRun) : Prop :=
  ∃ boot entryPoint pid, SchedulerRun.Boot boot ∧
    boot.createProcess entryPoint = some (state.scheduler, pid) ∧ state.live = [pid] ∧
    ∃ buddyArray blocks, allocPages boot.buddyArray [1, 1, 2, 2, 1] = some (buddyArray, blocks) ∧
      state.holdings = processHoldings pid blocks

/-! ## The ring in these runs -/

/-- The processes created and not removed form the ring, and hold the pages of
their slots and processes. -/
structure Owned (state : OwnershipRun) (ring : List Nat) : Prop where
  linked : Linked state.scheduler state.live ring
  present : ∀ a ∈ ring, a ≠ NULL
  slot : ∀ a ∈ ring, ⟨state.scheduler.pidOf a, none, ⟨a, 1⟩⟩ ∈ state.holdings
  process : ∀ a ∈ ring,
    ⟨state.scheduler.pidOf a, none, ⟨(state.scheduler.slot a).process, 1⟩⟩ ∈ state.holdings
  below : ∀ pid ∈ state.live, pid < state.scheduler.pid

section Steps

variable {state after : OwnershipRun} {ring : List Nat}

/-- The ring stays where the links do, as long as the processes keep their pages. -/
theorem Owned.same {s : Scheduler} {holdings : List Holding} (owned : Owned state ring)
    (same : SameLinks state.scheduler s) (current : s.current ∈ ring)
    (kept : ∀ h ∈ state.holdings, h.thread = none → h ∈ holdings) :
    ∃ ring', Owned ⟨s, state.live, holdings⟩ ring' := by
  obtain ⟨ring', linked, perm⟩ := owned.linked.same same current
  refine ⟨ring', linked, ?_, ?_, ?_, ?_⟩
  · exact fun a member => owned.present a (perm.mem_iff.mp member)
  · intro a member
    rw [same.pidOf]
    exact kept _ (owned.slot a (perm.mem_iff.mp member)) rfl
  · intro a member
    rw [same.pidOf, same.slot]
    exact kept _ (owned.process a (perm.mem_iff.mp member)) rfl
  · rw [same.counter]
    exact owned.below

/-- A switch turns the ring and leaves the holdings. -/
theorem Owned.switched {s : Scheduler} (owned : Owned state ring)
    (switched : Switched state.scheduler s) :
    ∃ ring', Owned { state with scheduler := s } ring' := by
  obtain ⟨k, position⟩ := switched.ahead
  refine owned.same switched.same.toSameLinks ?_ fun h member _ => member
  have start := owned.linked.closed.start_mem
  rw [position]
  exact owned.linked.closed.iterate_mem (owned.linked.closed.next_mem start) k

/-- The other processes keep their pages when one is removed. -/
theorem Owned.removeProcess {fuel rsp : Nat} {pid : Int} {s : Scheduler}
    (owned : Owned state ring)
    (removed : state.scheduler.removeProcess fuel rsp pid = some s) :
    s.buddyArray = state.scheduler.buddyArray ∧ ∃ ring', Owned (state.forget s pid) ring' := by
  have present := owned.present _ owned.linked.closed.start_mem
  obtain ⟨same, ring', linked, fewer⟩ := owned.linked.removeProcess present removed
  refine ⟨same.buddyArray, ring', ?_⟩
  unfold forget
  split
  · rename_i init
    rw [if_pos init] at linked
    refine ⟨linked, fun a member => owned.present a (fewer member), ?_, ?_, ?_⟩
    · intro a member
      rw [same.pidOf]
      exact owned.slot a (fewer member)
    · intro a member
      rw [same.pidOf, same.process]
      exact owned.process a (fewer member)
    · rw [same.counter]
      exact owned.below
  · rename_i notInit
    rw [if_neg notInit] at linked
    have other : ∀ a ∈ ring', state.scheduler.pidOf a ≠ pid := by
      intro a member isPid
      have left := linked.mem_live.mpr ⟨a, member, rfl⟩
      rw [same.pidOf, isPid] at left
      exact owned.linked.distinct.not_mem_erase left
    refine ⟨linked, fun a member => owned.present a (fewer member), ?_, ?_, ?_⟩
    · intro a member
      rw [same.pidOf]
      exact List.mem_filter.mpr ⟨owned.slot a (fewer member), by simpa using other a member⟩
    · intro a member
      rw [same.pidOf, same.process]
      exact List.mem_filter.mpr ⟨owned.process a (fewer member), by simpa using other a member⟩
    · rw [same.counter]
      exact fun q member => owned.below q (List.mem_of_mem_erase member)

/-- What a call that takes pages leaves. -/
theorem take_eq {sizes : List Nat} {holdings : List Block → List Holding} {s : Scheduler}
    (taken : state.take sizes holdings s = some after) :
    ∃ buddyArray blocks, allocPages state.scheduler.buddyArray sizes = some (buddyArray, blocks) ∧
      state.Unused blocks ∧ after = ⟨s, state.live, holdings blocks ++ state.holdings⟩ := by
  unfold take at taken
  split at taken
  · rename_i buddyArray blocks took
    split at taken
    · rename_i unused
      exact ⟨buddyArray, blocks, took, unused, (Option.some.inj taken).symm⟩
    · cases taken
  · cases taken

/-- A new process in pages that no other one holds. -/
theorem Owned.createProcess {entryPoint : Nat} {pid : Int} {s : Scheduler}
    (owned : Owned state ring) (counter : state.scheduler.pid + 1 < 2 ^ 31)
    (made : state.scheduler.createProcess entryPoint = some (s, pid))
    (taken : state.take [1, 1, 2, 2, 1] (processHoldings pid) s = some after) :
    ∃ ring', Owned { after with live := pid :: after.live } ring' := by
  obtain ⟨_, blocks, took, unused, rfl⟩ := take_eq taken
  obtain ⟨p, t, page1, page2, slot, took', rfl, added⟩ := createProcess_allocates made
  obtain ⟨-, rfl⟩ := Prod.mk.inj (Option.some.inj (took.symm.trans took'))
  have start := owned.linked.closed.start_mem
  have present := owned.present _ start
  obtain ⟨notNull, apartSlot⟩ := unused ⟨slot, 1⟩ (by simp [processBlocks])
  obtain ⟨-, apartProcess⟩ := unused ⟨p, 1⟩ (by simp [processBlocks])
  have fresh : ∀ a ∈ ring, a ≠ slot ∧ (state.scheduler.slot a).process ≠ p := by
    intro a member
    exact ⟨(apartSlot _ (owned.slot a member)).page_ne.symm,
      (apartProcess _ (owned.process a member)).page_ne.symm⟩
  have created := added (fresh _ start).1.symm
  have new : state.scheduler.pid ∉ state.live := fun member =>
    Int.lt_irrefl _ (owned.below _ member)
  obtain ⟨ring', linked, perm⟩ := owned.linked.created present created fresh new
  have kept := fun a member => created.kept present (fresh a member).1 (fresh a member).2
  have next : s.pid = state.scheduler.pid + 1 := by
    rw [created.counter]
    refine toInt32_of_range ?_ counter
    have positive := owned.below 0 owned.linked.init
    omega
  refine ⟨ring', linked, ?_, ?_, ?_, ?_⟩
  · intro a member
    rcases List.mem_cons.mp (perm.mem_iff.mp member) with rfl | old
    · exact notNull
    · exact owned.present a old
  · intro a member
    rcases List.mem_cons.mp (perm.mem_iff.mp member) with rfl | old
    · simp [created.pidOf_slot, processHoldings, processBlocks]
    · rw [(kept a old).2]
      exact List.mem_append_right _ (owned.slot a old)
  · intro a member
    rcases List.mem_cons.mp (perm.mem_iff.mp member) with rfl | old
    · simp [created.pidOf_slot, created.added, processHoldings, processBlocks]
    · rw [(kept a old).1, (kept a old).2]
      exact List.mem_append_right _ (owned.process a old)
  · intro q member
    change q < s.pid
    rcases List.mem_cons.mp member with rfl | old
    · omega
    · have below := owned.below q old
      omega

/-- More blocks for the current process leave the ring alone. -/
theorem Owned.take {sizes : List Nat} {holdings : List Block → List Holding} {s : Scheduler}
    (owned : Owned state ring) (same : SameLinks state.scheduler s)
    (current : s.current = state.scheduler.current)
    (taken : state.take sizes holdings s = some after) : ∃ ring', Owned after ring' := by
  obtain ⟨_, blocks, -, -, rfl⟩ := take_eq taken
  exact owned.same same (current ▸ owned.linked.closed.start_mem)
    fun h member _ => List.mem_append_right _ member

/-- `addPagesToProcess` leaves the ring. -/
theorem addPagesToProcess_sameRing (s : Scheduler) (page : Nat) (pid : Int) :
    SameRing s (s.addPagesToProcess page pid) ∧
      (s.addPagesToProcess page pid).current = s.current := by
  unfold addPagesToProcess
  dsimp only
  split
  · exact ⟨.refl s, rfl⟩
  · exact ⟨setProcess_sameRing rfl, rfl⟩

/-- `extendHeap` takes one run of pages and leaves the ring. -/
theorem extendHeap_allocates {s s' : Scheduler} {pages : Nat} {pid : Int}
    (extended : s.extendHeap pages pid = some s') :
    ∃ page, allocPages s.buddyArray [pages] = some (s'.buddyArray, [⟨page, pages⟩]) ∧
      SameLinks s s' ∧ s'.current = s.current := by
  obtain ⟨⟨s₁, page⟩, allocated, extended⟩ := Option.bind_eq_some_iff.mp extended
  obtain ⟨_, rfl, took⟩ := Scheduler.allocPage_eq allocated
  have unmoved : ∀ buddyArray, SameLinks s { s with buddyArray } := fun _ =>
    ⟨rfl, rfl, rfl, fun _ => rfl⟩
  dsimp only at extended
  split at extended
  · obtain rfl := Option.some.inj extended
    obtain ⟨same, current⟩ := addPagesToProcess_sameRing _ _ _
    refine ⟨page, by rw [took, same.buddyArray]; rfl, SameLinks.trans ((unmoved _).trans
      (SameRing.toSameLinks (setProcess_sameRing ?_))) same.toSameLinks, current⟩
    rfl
  · obtain rfl := Option.some.inj extended
    obtain ⟨same, current⟩ := addPagesToProcess_sameRing _ _ _
    exact ⟨page, by rw [took, same.buddyArray], (unmoved _).trans same.toSameLinks, current⟩

/-- `deallocPage` leaves the ring. -/
theorem deallocPage_sameLinks {s s' : Scheduler} {page : Nat}
    (freed : s.deallocPage page = some s') : SameLinks s s' ∧ s'.current = s.current := by
  obtain ⟨⟨buddyArray, _⟩, -, rfl⟩ := Option.map_eq_some_iff.mp freed
  exact ⟨⟨rfl, rfl, rfl, fun _ => rfl⟩, rfl⟩

/-- `freeThreadPages` leaves the ring. -/
theorem freeThreadPages_sameLinks {s s' : Scheduler} {t : Nat}
    (freed : s.freeThreadPages t = some s') : SameLinks s s' ∧ s'.current = s.current := by
  obtain ⟨s₁, first, freed⟩ := Option.bind_eq_some_iff.mp freed
  obtain ⟨s₂, second, third⟩ := Option.bind_eq_some_iff.mp freed
  obtain ⟨same₁, current₁⟩ := deallocPage_sameLinks first
  obtain ⟨same₂, current₂⟩ := deallocPage_sameLinks second
  obtain ⟨same₃, current₃⟩ := deallocPage_sameLinks third
  exact ⟨(same₁.trans same₂).trans same₃, current₃.trans (current₂.trans current₁)⟩

/-- The end of a thread leaves the ring alone or removes the process. -/
theorem Owned.terminateThread {fuel rsp : Nat} (owned : Owned state ring)
    (stepped : state.step fuel (.terminateThread rsp) = some after) :
    ∃ ring', Owned after ring' := by
  obtain ⟨s, ended, rfl⟩ := Option.map_eq_some_iff.mp stepped
  have start := owned.linked.closed.start_mem
  have present := owned.present _ start
  simp only [Scheduler.terminateThread] at ended
  split at ended
  · rename_i first
    rw [if_pos first]
    have pid : state.scheduler.getCurrentPid =
        (state.scheduler.processOf state.scheduler.current).pid := by
      rw [getCurrentPid, if_neg present, pidOf]
    rw [pid]
    exact (owned.removeProcess ended).2
  · rename_i notFirst
    rw [if_neg notFirst]
    obtain ⟨s₁, freed, rfl⟩ := Option.map_eq_some_iff.mp ended
    obtain ⟨same, current⟩ := freeThreadPages_sameLinks freed
    have write : SameLinks s₁ (s₁.setProcess (s₁.slot s₁.current).process
        { state.scheduler.processOf state.scheduler.current with
          thread := (state.scheduler.processOf state.scheduler.current).thread.set
            (state.scheduler.processOf state.scheduler.current).activeThread NULL
          numberOfThreads :=
            (state.scheduler.processOf state.scheduler.current).numberOfThreads - 1 }) := by
      refine (setProcess_sameRing ?_).toSameLinks
      rw [current, same.slot, same.pids]
      rfl
    refine owned.same (same.trans write) ?_ fun h member process => ?_
    · rw [setProcess_current, current]
      exact start
    · refine List.mem_filter.mpr ⟨member, ?_⟩
      simp [process]

/-- Every call that completes keeps the ring and the pages of its processes. -/
theorem Owned.step {fuel : Nat} {action : OwnershipAction} (owned : Owned state ring)
    (stepped : state.step fuel action = some after) : ∃ ring', Owned after ring' := by
  have start := owned.linked.closed.start_mem
  cases action with
  | createProcess entryPoint =>
      simp only [OwnershipRun.step] at stepped
      split at stepped
      · rename_i counter
        split at stepped
        · rename_i s pid made
          obtain ⟨taken, took, rfl⟩ := Option.map_eq_some_iff.mp stepped
          exact owned.createProcess counter made took
        · cases stepped
      · cases stepped
  | thread_create entryPoint =>
      simp only [OwnershipRun.step] at stepped
      split at stepped
      · rename_i s made
        obtain ⟨⟨s', result⟩, started, rfl⟩ := Option.map_eq_some_iff.mp made
        obtain ⟨_, _, _, -, same, current, -⟩ := createThread_allocates started
        exact owned.take same current stepped
      · cases stepped
  | terminateThread rsp => exact owned.terminateThread stepped
  | extendHeap pages pid =>
      simp only [OwnershipRun.step] at stepped
      split at stepped
      · rename_i s extended
        obtain ⟨_, -, same, current⟩ := extendHeap_allocates extended
        exact owned.take same current stepped
      · cases stepped
  | removeProcess pid rsp =>
      obtain ⟨s, removed, rfl⟩ := Option.map_eq_some_iff.mp stepped
      exact (owned.removeProcess removed).2
  | next_process rsp =>
      obtain ⟨⟨s, stack⟩, switched, rfl⟩ := Option.map_eq_some_iff.mp stepped
      exact owned.switched (next_process_switched (owned.present _ start) switched)
  | switchUserToKernel esp =>
      obtain rfl := Option.some.inj stepped
      exact owned.same (setThread_sameRing _ _ _).toSameLinks start fun h member _ => member
  | switchKernelToUser =>
      obtain ⟨⟨s, stack⟩, switched, rfl⟩ := Option.map_eq_some_iff.mp stepped
      exact owned.switched (switchKernelToUser_switched switched)
  | changeProcessState pid processState =>
      obtain rfl := Option.some.inj stepped
      obtain ⟨same, current⟩ := changeProcessState_sameRing state.scheduler pid processState
      exact owned.same same.toSameLinks (current ▸ start) fun h member _ => member

/-- The invariant holds at the start. -/
theorem Start.owned (start : Start state) : ∃ ring, Owned state ring := by
  obtain ⟨boot, entryPoint, pid, empty, made, live, heap, blocks, took, holdings⟩ := start
  obtain ⟨p, t, page1, page2, slot, rfl, created, linked, took', stored⟩ :=
    empty.createProcess made
  obtain ⟨-, rfl⟩ := Prod.mk.inj (Option.some.inj (took.symm.trans took'))
  have pid : state.scheduler.pidOf slot = 0 := created.pidOf_slot.trans empty.pid
  refine ⟨[slot], live ▸ linked, fun a member => stored.present member, ?_, ?_, ?_⟩
  · simp [holdings, pid, processHoldings, processBlocks]
  · simp [holdings, pid, created.added, processHoldings, processBlocks]
  · intro q member
    rw [live, List.mem_singleton] at member
    have below := (stored.pid slot (by simp)).2
    rwa [pid, ← member] at below

/-! ## What a removal gives back -/

/-- Every block of the process is free. -/
def Released (holdings : List Holding) (buddyArray : BuddyArray) (pid : Int) : Prop :=
  ∀ h ∈ holdings, h.pid = pid → h.block.FreeIn buddyArray

instance (holdings : List Holding) (buddyArray : BuddyArray) (pid : Int) :
    Decidable (Released holdings buddyArray pid) :=
  inferInstanceAs (Decidable (∀ h ∈ holdings, _))

/-- No block of another process became free. -/
def Spared (holdings : List Holding) (before after : BuddyArray) (pid : Int) : Prop :=
  ∀ h ∈ holdings, h.pid ≠ pid → h.block.FreeIn after → h.block.FreeIn before

end Steps

/-- `removeProcess` leaves every block of the removed process free, and frees
none of another, if and only if the blocks of the process were free before. -/
theorem pages_released_iff (fuel : Nat) (start : OwnershipRun) (begins : Start start)
    (actions : List OwnershipAction) (state : OwnershipRun)
    (ran : run (step fuel) start actions = some state) (pid : Int) (rsp : Nat) (s : Scheduler)
    (removed : state.scheduler.removeProcess fuel rsp pid = some s) :
    Released state.holdings s.buddyArray pid ∧
        Spared state.holdings state.scheduler.buddyArray s.buddyArray pid ↔
      Released state.holdings state.scheduler.buddyArray pid := by
  have preserved : ∀ state action next, (∃ ring, Owned state ring) →
      step fuel state action = some next → ∃ ring, Owned next ring := by
    rintro state action next ⟨ring, owned⟩ stepped
    exact owned.step stepped
  have owned : ∃ ring, Owned state ring := run_invariant preserved begins.owned ran
  obtain ⟨ring, owned⟩ := owned
  rw [(owned.removeProcess removed).1]
  exact and_iff_left fun h _ _ free => free

/-- The state behind the first `createProcess`, in a memory of zeros. -/
def bootRun : Option OwnershipRun :=
  (SchedulerRun.emptyMemory.createProcess 0x400000).bind fun (s, pid) =>
    (allocPages SchedulerRun.emptyMemory.buddyArray [1, 1, 2, 2, 1]).map fun (_, blocks) =>
      ⟨s, [pid], processHoldings pid blocks⟩

/-- The scheduler after boot is a start. -/
theorem bootRun_start {state : OwnershipRun} (booted : bootRun = some state) : Start state := by
  obtain ⟨⟨s, pid⟩, made, rest⟩ := Option.bind_eq_some_iff.mp booted
  obtain ⟨⟨heap, blocks⟩, took, rfl⟩ := Option.map_eq_some_iff.mp rest
  exact ⟨SchedulerRun.emptyMemory, 0x400000, pid, SchedulerRun.emptyMemory_boot, made, rfl, heap,
    blocks, took, rfl⟩

/-- Process 1 gets a second thread and a page run for its heap. -/
def threadAndHeap : List OwnershipAction :=
  [.createProcess 0x800000, .switchKernelToUser, .thread_create 0x810000, .extendHeap 2 0]

/-- Process 1 removes itself with nine blocks in use, and none of them gets free. -/
theorem pages_released_iff_threadAndHeap :
    ∃ (start state : OwnershipRun) (s : Scheduler), Start start ∧
      run (step 3) start threadAndHeap = some state ∧
      state.scheduler.removeProcess 3 0 1 = some s ∧
      (state.holdings.filter fun h => h.pid = 1).length = 9 ∧
      ¬ (Released state.holdings s.buddyArray 1 ∧
        Spared state.holdings state.scheduler.buddyArray s.buddyArray 1) := by
  have result : (bootRun.bind fun start => (run (step 3) start threadAndHeap).bind fun state =>
      (state.scheduler.removeProcess 3 0 1).map fun _ =>
        ((state.holdings.filter fun h => h.pid = 1).length,
          decide (Released state.holdings state.scheduler.buddyArray 1))) = some (9, false) := by
    rw [bootRun, SchedulerRun.emptyMemory, createHeap_eq]
    decide +kernel
  obtain ⟨start, booted, result⟩ := Option.bind_eq_some_iff.mp result
  obtain ⟨state, ran, result⟩ := Option.bind_eq_some_iff.mp result
  obtain ⟨s, removed, values⟩ := Option.map_eq_some_iff.mp result
  obtain ⟨count, notReleased⟩ := Prod.mk.inj values
  refine ⟨start, state, s, bootRun_start booted, ran, removed, count, ?_⟩
  rw [pages_released_iff 3 start (bootRun_start booted) threadAndHeap state ran 1 0 s removed]
  exact of_decide_eq_false notReleased

/-- The first two processes of the kernel; removing the second leaves its pages
in use. -/
theorem pages_not_released :
    ∃ (start state : OwnershipRun) (s : Scheduler), Start start ∧
      run (step 2) start [.createProcess 0x800000] = some state ∧ state.live = [1, 0] ∧
      state.scheduler.removeProcess 2 0 1 = some s ∧
      ¬ Released state.holdings s.buddyArray 1 := by
  have result : (bootRun.bind fun start =>
      (run (step 2) start [.createProcess 0x800000]).bind fun state =>
        (state.scheduler.removeProcess 2 0 1).map fun s =>
          (state.live, decide (Released state.holdings s.buddyArray 1))) =
      some ([1, 0], false) := by
    rw [bootRun, SchedulerRun.emptyMemory, createHeap_eq]
    decide +kernel
  obtain ⟨start, booted, result⟩ := Option.bind_eq_some_iff.mp result
  obtain ⟨state, ran, result⟩ := Option.bind_eq_some_iff.mp result
  obtain ⟨s, removed, values⟩ := Option.map_eq_some_iff.mp result
  obtain ⟨live, notReleased⟩ := Prod.mk.inj values
  exact ⟨start, state, s, bootRun_start booted, ran, live, removed,
    of_decide_eq_false notReleased⟩

/-! ## Nothing is given back -/

/-- A block in use is not free. -/
theorem not_freeIn_of_live {heap : HeapRun} (consistent : Consistent heap) {block : Block}
    (member : block ∈ heap.live) : ¬ block.FreeIn heap.heap := by
  have placed := consistent.placed block member
  have height := placed.height_le
  intro free
  exact free 0 placed.positive block.height (by omega) (consistent.full block member)

/-- All holdings are blocks in use. -/
def Backed (state : OwnershipRun) : Prop :=
  ∃ blocks, Consistent (state.scheduler.heapRun blocks) ∧ ∀ h ∈ state.holdings, h.block ∈ blocks

/-- No thread ends but the first one of a process, with the process. -/
def FirstThreadsOnly (state : OwnershipRun) : OwnershipAction → Prop
  | .terminateThread _ =>
      (state.scheduler.processOf state.scheduler.current).activeThread = 0
  | _ => True

section Backing

variable {state after : OwnershipRun}

/-- Holdings stay backed while the marks stay and nobody gets another one. -/
theorem Backed.same {s : Scheduler} {live : List Int} {holdings : List Holding}
    (backed : state.Backed) (heap : s.buddyArray = state.scheduler.buddyArray)
    (fewer : ∀ h ∈ holdings, h ∈ state.holdings) : Backed ⟨s, live, holdings⟩ := by
  obtain ⟨blocks, consistent, inUse⟩ := backed
  refine ⟨blocks, ?_, fun h member => inUse h (fewer h member)⟩
  rw [heapRun, heap]
  exact consistent

/-- Holdings stay backed when those of a process are forgotten. -/
theorem Backed.forget {s : Scheduler} {pid : Int} (backed : state.Backed)
    (heap : s.buddyArray = state.scheduler.buddyArray) : (state.forget s pid).Backed := by
  unfold OwnershipRun.forget
  split
  · exact backed.same heap fun h member => member
  · exact backed.same heap fun h member => List.mem_of_mem_filter member

/-- Holdings stay backed when the blocks taken are added. -/
theorem Backed.take {sizes : List Nat} {holdings : List Block → List Holding} {s : Scheduler}
    {blocks : List Block} (backed : state.Backed)
    (took : allocPages state.scheduler.buddyArray sizes = some (s.buddyArray, blocks))
    (inside : ∀ h ∈ holdings blocks, h.block ∈ blocks)
    (taken : state.take sizes holdings s = some after) (live : List Int) :
    Backed { after with live } := by
  obtain ⟨known, consistent, inUse⟩ := backed
  obtain ⟨_, blocks', took', -, rfl⟩ := take_eq taken
  obtain ⟨-, rfl⟩ := Prod.mk.inj (Option.some.inj (took.symm.trans took'))
  refine ⟨blocks.reverse ++ known, consistent.allocPages took, fun h member => ?_⟩
  rcases List.mem_append.mp member with new | old
  · exact List.mem_append_left _ (List.mem_reverse.mpr (inside h new))
  · exact List.mem_append_right _ (inUse h old)

/-- Every call of such a run keeps the holdings in use. -/
theorem Backed.step {fuel : Nat} {action : OwnershipAction} {ring : List Nat}
    (owned : Owned state ring) (backed : state.Backed) (first : state.FirstThreadsOnly action)
    (stepped : state.step fuel action = some after) : after.Backed := by
  have start := owned.linked.closed.start_mem
  have present := owned.present _ start
  cases action with
  | createProcess entryPoint =>
      simp only [OwnershipRun.step] at stepped
      split at stepped
      · split at stepped
        · rename_i s pid made
          obtain ⟨taken, took, rfl⟩ := Option.map_eq_some_iff.mp stepped
          obtain ⟨p, t, page1, page2, slot, allocated, -⟩ := createProcess_allocates made
          exact backed.take allocated (by simp [processHoldings, processBlocks]) took _
        · cases stepped
      · cases stepped
  | thread_create entryPoint =>
      simp only [OwnershipRun.step] at stepped
      split at stepped
      · rename_i s made
        obtain ⟨⟨s', result⟩, started, rfl⟩ := Option.map_eq_some_iff.mp made
        obtain ⟨_, _, _, allocated, -⟩ := createThread_allocates started
        exact backed.take allocated (by simp [threadHoldings]) stepped after.live
      · cases stepped
  | terminateThread rsp =>
      obtain ⟨s, ended, rfl⟩ := Option.map_eq_some_iff.mp stepped
      simp only [FirstThreadsOnly] at first
      simp only [Scheduler.terminateThread, if_pos first] at ended ⊢
      exact backed.forget (owned.removeProcess ended).1
  | extendHeap pages pid =>
      simp only [OwnershipRun.step] at stepped
      split at stepped
      · rename_i s extended
        obtain ⟨_, allocated, -⟩ := extendHeap_allocates extended
        exact backed.take allocated (by simp) stepped after.live
      · cases stepped
  | removeProcess pid rsp =>
      obtain ⟨s, removed, rfl⟩ := Option.map_eq_some_iff.mp stepped
      exact backed.forget (owned.removeProcess removed).1
  | next_process rsp =>
      obtain ⟨⟨s, stack⟩, switched, rfl⟩ := Option.map_eq_some_iff.mp stepped
      exact backed.same (next_process_switched present switched).same.buddyArray
        fun h member => member
  | switchUserToKernel esp =>
      obtain rfl := Option.some.inj stepped
      exact backed.same rfl fun h member => member
  | switchKernelToUser =>
      obtain ⟨⟨s, stack⟩, switched, rfl⟩ := Option.map_eq_some_iff.mp stepped
      exact backed.same (switchKernelToUser_switched switched).same.buddyArray
        fun h member => member
  | changeProcessState pid processState =>
      obtain rfl := Option.some.inj stepped
      obtain ⟨same, -⟩ := changeProcessState_sameRing state.scheduler pid processState
      exact backed.same same.buddyArray fun h member => member

/-- The holdings at the start are backed. -/
theorem Start.backed (start : Start state) : state.Backed := by
  obtain ⟨boot, entryPoint, pid, empty, made, -, heap, blocks, took, holdings⟩ := start
  obtain ⟨p, t, page1, page2, slot, rfl, -, -, took', stored⟩ := empty.createProcess made
  obtain ⟨-, rfl⟩ := Prod.mk.inj (Option.some.inj (took.symm.trans took'))
  refine ⟨_, stored.consistent, ?_⟩
  rw [holdings]
  simp [processHoldings, processBlocks]

end Backing

/-- As long as no thread ends but with its process, the removal of a process
gives no page back: every page the process held stays marked. -/
theorem nothing_released (fuel : Nat) (start : OwnershipRun) (begins : Start start)
    (actions : List OwnershipAction) (state : OwnershipRun)
    (first : Along (step fuel) FirstThreadsOnly start actions)
    (ran : run (step fuel) start actions = some state) (pid : Int) (rsp : Nat) (s : Scheduler)
    (removed : state.scheduler.removeProcess fuel rsp pid = some s) :
    ∀ h ∈ state.holdings, ¬ h.block.FreeIn s.buddyArray := by
  have preserved : ∀ state action next, (∃ ring, Owned state ring) ∧ state.Backed →
      FirstThreadsOnly state action → step fuel state action = some next →
        (∃ ring, Owned next ring) ∧ next.Backed := by
    rintro state action next ⟨⟨ring, owned⟩, backed⟩ here stepped
    exact ⟨owned.step stepped, backed.step owned here stepped⟩
  have both : (∃ ring, Owned state ring) ∧ state.Backed :=
    first.invariant preserved ⟨begins.owned, begins.backed⟩ ran
  obtain ⟨⟨ring, owned⟩, blocks, consistent, inUse⟩ := both
  rw [(owned.removeProcess removed).1]
  exact fun h member => not_freeIn_of_live consistent (inUse h member)

end OwnershipRun

end SistemasOperativos.Kernel
