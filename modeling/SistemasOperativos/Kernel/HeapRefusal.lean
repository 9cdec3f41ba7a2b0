import SistemasOperativos.Kernel.HeapSizes

/-!
# Requests that get no page

`mallock` uses what `extendHeap` returns without looking whether it is NULL, and so does
`extendHeap` with what `allocPage` returns. A request that is refused gives a block at address 0:
its header is written there, and its data is what `mallock` returns.
-/

namespace SistemasOperativos.Kernel

open SistemasOperativos.Foundation SistemasOperativos.Semantics

namespace HeapState

variable {allocPage : List PageRun → Nat → Nat} {heap ready : HeapState} {l : List Nat}
  {fuel size s : Nat}

/-- A call for at least one byte to which `allocPage` returns NULL. -/
def AsksInVain (allocPage : List PageRun → Nat → Nat) (fuel : Nat) (heap : HeapState)
    (size : Nat) : Prop :=
  size ≠ 0 ∧ ¬ heap.Granted allocPage fuel size

instance (allocPage : List PageRun → Nat → Nat) (fuel : Nat) (heap : HeapState) (size : Nat) :
    Decidable (heap.AsksInVain allocPage fuel size) := by
  unfold AsksInVain Granted
  infer_instance

/-- The list that the first test of `mallock` leaves, unless its request is refused. -/
theorem ensureHeap_path (path : Path heap.next heap.heapBase l 0) (nonnull : 0 ∉ l)
    (granted : heap.heapBase = 0 → allocPage heap.runs (pagesAsked size) ≠ 0)
    (ensured : heap.ensureHeap allocPage fuel size = some ready) :
    ∃ r, Path ready.next ready.heapBase r 0 ∧ 0 ∉ r ∧ r.length ≤ l.length + 1 := by
  unfold ensureHeap at ensured
  split at ensured
  · rename_i none
    obtain ⟨heap', extended, base, last, -⟩ :=
      @extendHeap_first heap size fuel allocPage _ none rfl
    rw [extended] at ensured
    obtain rfl := Option.some.inj ensured
    refine ⟨[allocPage heap.runs (pagesAsked size)], ⟨base, last⟩, ?_, by simp⟩
    simpa using (granted none).symm
  · obtain rfl := Option.some.inj ensured
    exact ⟨l, path, nonnull, by omega⟩

/-- The block that `mallock` goes on with when its last request is refused. -/
theorem chooseBlock_refused (path : Path ready.next ready.heapBase l 0) (nonnull : 0 ∉ l)
    (enough : l.length < fuel)
    (search : ready.findFirstFreeBlock fuel ready.heapBase s = some 0)
    (null : allocPage ready.runs (pagesAsked size) = 0) :
    ∃ chosen, ready.chooseBlock allocPage fuel size s = some (chosen, 0) := by
  obtain ⟨chosen, extended⟩ := @extendHeap_completes ready l fuel allocPage size
    (pagesAsked size) path rfl (null ▸ nonnull) enough
  refine ⟨chosen, ?_⟩
  rw [chooseBlock, search]
  simp only [if_true, extended, null]

/-- A call that is refused a request goes on with a block, and with the one at NULL if the
same request is refused again. -/
theorem AsksInVain.chooses (refused : heap.AsksInVain allocPage fuel size)
    (path : Path heap.next heap.heapBase l 0) (nonnull : 0 ∉ l)
    (global : heap.heapBase = heap.heap) (enough : l.length + 1 < fuel) :
    ∃ ready chosen block, heap.ensureHeap allocPage fuel size = some ready ∧
      ready.chooseBlock allocPage fuel size (align4 size % SIZE_T) = some (chosen, block) ∧
      ((allocPage heap.runs (pagesAsked size) = 0 →
        allocPage (⟨0, pagesAsked size⟩ :: heap.runs) (pagesAsked size) = 0) → block = 0) := by
  by_cases first : heap.heapBase = 0 ∧ allocPage heap.runs (pagesAsked size) = 0
  · obtain ⟨none, null⟩ := first
    obtain ⟨fuel, rfl⟩ := Nat.exists_eq_add_of_lt enough
    obtain ⟨ready, chosen, ensured, choice⟩ := chooseBlock_twice none null rfl
    exact ⟨ready, chosen, _, ensured, choice, fun again => again null⟩
  · have granted : heap.heapBase = 0 → allocPage heap.runs (pagesAsked size) ≠ 0 :=
      fun none null => first ⟨none, null⟩
    obtain ⟨ready, ensured, search, null⟩ : ∃ ready,
        heap.ensureHeap allocPage fuel size = some ready ∧
        ready.findFirstFreeBlock fuel ready.heapBase (align4 size % SIZE_T) = some 0 ∧
        allocPage ready.runs (pagesAsked size) = 0 := by
      by_contra other
      refine refused.2 ⟨global ▸ granted, fun ready ensured search null => ?_⟩
      exact other ⟨ready, ensured, search, null⟩
    obtain ⟨r, listed, present, length⟩ := ensureHeap_path path nonnull granted ensured
    obtain ⟨chosen, choice⟩ := chooseBlock_refused listed present (by omega) search null
    exact ⟨ready, chosen, 0, ensured, choice, fun _ => rfl⟩

end HeapState

namespace SharedHeap

/-- `mallock` returns NULL, writes no header at NULL and none of the heap list, and leaves
the heap and the pages of the process as they were. -/
structure FailsCleanly (process : Nat) (state after : SharedHeap) (p : Nat) : Prop where
  result : p = 0
  null : after.block 0 = state.block 0
  blocks : ∀ block, (state.view process).OnList block → after.block block = state.block block
  fields : after.fields process = state.fields process

end SharedHeap

/-- `mallock` never fails cleanly: a call that is refused its pages completes and returns the
data of a block. That block is at NULL, and its header is written there, since `allocPage`
refuses the same request again. -/
theorem refused_request_gets_block (allocPage : List PageRun → Nat → Nat) (state : SharedHeap)
    (process : Nat) (l : List Nat)
    (path : Path (state.view process).next (state.fields process).heap l 0) (nonnull : 0 ∉ l)
    (fuel : Nat) (enough : l.length + 1 < fuel) (size : Nat) (found : Option Nat)
    (refused : (state.enterHeap process).AsksInVain (state.pageFor allocPage process) fuel size) :
    ∃ after p, state.mallock allocPage fuel process size found = some (after, p) ∧
      ¬ SharedHeap.FailsCleanly process state after p ∧
      (RefusesAgain allocPage → p = dataStart 0 ∧ (after.block 0).free = false) := by
  obtain ⟨ready, chosen, block, ensured, choice, null⟩ := refused.chooses path nonnull rfl enough
  rw [SharedHeap.mallock, if_neg refused.1]
  simp only [ensured, choice]
  refine ⟨_, _, rfl, fun clean => ?_, fun refuses => ?_⟩
  · have result : dataStart block = 0 := clean.result
    rw [dataStart_eq] at result
    omega
  · obtain rfl := null (refuses _ _ _)
    refine ⟨rfl, ?_⟩
    have used : ((chosen.takeBlock 0 (align4 size % SIZE_T)).1.block 0).free = false := by
      simp [HeapState.takeBlock, HeapState.setBlock]
    split
    · exact used
    · rw [SharedHeap.extendFound_block]
      exact used

/-- The heap of a process that has allocated 100 bytes is one page, cut into two blocks. It asks
for 5 MiB, more than there are pages. -/
theorem refused_second_request : ∃ state p after q,
    SharedHeap.noHeaps.mallock SharedHeap.boundedPages 10 0 100 none = some (state, p) ∧
      Path (state.view 0).next (state.fields 0).heap [0x1000000, 0x1000080] 0 ∧
      state.mallock SharedHeap.boundedPages 10 0 0x500000 none = some (after, q) ∧
      ¬ SharedHeap.FailsCleanly 0 state after q := by
  have result : (SharedHeap.noHeaps.mallock SharedHeap.boundedPages 10 0 100 none).map
      (fun made => (decide (Path (made.1.view 0).next (made.1.fields 0).heap
          [0x1000000, 0x1000080] 0),
        decide ((made.1.enterHeap 0).AsksInVain (made.1.pageFor SharedHeap.boundedPages 0) 10
          0x500000))) = some (true, true) := by
    decide +kernel
  obtain ⟨⟨state, p⟩, made, facts⟩ := Option.map_eq_some_iff.mp result
  simp only [Prod.mk.injEq, decide_eq_true_eq] at facts
  obtain ⟨path, refused⟩ := facts
  obtain ⟨after, q, called, unclean, -⟩ := refused_request_gets_block SharedHeap.boundedPages
    state 0 _ path (by decide) 10 (by decide) 0x500000 none refused
  exact ⟨state, p, after, q, made, path, called, unclean⟩

/-- It gets the bytes behind the header at NULL, and NULL is recorded among its pages. -/
theorem refused_request_returns_pointer :
    (SharedHeap.noHeaps.enterHeap 0).AsksInVain
      (SharedHeap.noHeaps.pageFor SharedHeap.boundedPages 0) 10 0x500000 ∧
    ∃ after p, SharedHeap.noHeaps.mallock SharedHeap.boundedPages 10 0 0x500000 none =
        some (after, p) ∧ p = 28 ∧ (after.fields 0).pages = [0] ∧
      ¬ SharedHeap.FailsCleanly 0 SharedHeap.noHeaps after p := by
  refine ⟨by decide +kernel, ?_⟩
  have result : (SharedHeap.noHeaps.mallock SharedHeap.boundedPages 10 0 0x500000 none).map
      (fun result => (result.2, (result.1.fields 0).pages)) = some (28, [0]) := by
    decide +kernel
  obtain ⟨⟨after, p⟩, called, values⟩ := Option.map_eq_some_iff.mp result
  obtain ⟨pointer, pages⟩ := Prod.mk.inj values
  refine ⟨after, p, called, pointer, pages, fun clean => ?_⟩
  exact absurd (pointer.symm.trans clean.result) (by decide)

end SistemasOperativos.Kernel
