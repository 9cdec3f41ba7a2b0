import SistemasOperativos.Kernel.MallocSafety

/-!
# The heaps of several processes

`SharedHeap` is the memory in which the heaps of all processes stand, with the one
static variable `heapBase` and the fields `heap` and `pages` of each process. A call
sees the memory, `heapBase` and the fields of its caller: its `view`.

`mallock` sets `heapBase` to the heap of its caller first. `free` does not: it works
on the heap of the process that called `mallock` last. `mallock` also calls
`extendHeap(size)` without its second argument, and takes the NULL of `allocPage` for
a page.
-/

namespace SistemasOperativos.Kernel

open SistemasOperativos.Foundation SistemasOperativos.Semantics

/-- The fields of a process that malloc.c writes. -/
structure HeapFields where
  heap : Nat
  pages : List Nat
  deriving DecidableEq, Repr

/-- Memory, `heapBase`, the heap fields of each process, the page runs that
`allocPage` returned with the process that got them, and the allocations in use. -/
structure SharedHeap where
  block : Nat → HeapBlock
  heapBase : Nat
  fields : Nat → HeapFields
  granted : List (Nat × PageRun)
  live : Nat → List Allocation

/-- The calls a run is made of, each with its caller. `found` is the process that
`getProcessById` finds for the pid read through the argument `mallock` does not pass. -/
inductive SharedHeapAction where
  | mallock (process size : Nat) (found : Option Nat)
  | free (process p : Nat)
  deriving DecidableEq, Repr

/-- What `allocPage` is relied on for: unless it returns NULL it was asked for 1 to
`NUMBER_OF_PAGES` pages, and returns pages that were not handed out before. -/
def GrantsFresh (allocPage : List PageRun → Nat → Nat) : Prop :=
  ∀ runs pages, allocPage runs pages ≠ 0 → 0 < pages ∧ pages ≤ NUMBER_OF_PAGES ∧
    ∀ run ∈ runs, (PageRun.mk (allocPage runs pages) pages).interval.Disjoint run.interval

/-- The pages that `extendHeap(size)` asks for. -/
def pagesAsked (size : Nat) : Nat :=
  NUMBER_OF_PAGES_TO_ALLOC ((size + BLOCK_STRUCT_SIZE) % SIZE_T)

namespace SharedHeap

/-- The page runs of a process. -/
def runsOf (state : SharedHeap) (process : Nat) : List PageRun :=
  (state.granted.filter (·.1 = process)).map Prod.snd

/-- The page runs of all other processes. -/
def runsElsewhere (state : SharedHeap) (process : Nat) : List PageRun :=
  (state.granted.filter (·.1 ≠ process)).map Prod.snd

/-- What a call of a process works on. -/
def view (state : SharedHeap) (process : Nat) : HeapState where
  block := state.block
  heapBase := state.heapBase
  heap := (state.fields process).heap
  pages := (state.fields process).pages
  runs := state.runsOf process

/-- The state after a call of a process. -/
def put (state : SharedHeap) (process : Nat) (heap : HeapState) : SharedHeap :=
  { state with
    block := heap.block
    heapBase := heap.heapBase
    fields := Function.update state.fields process ⟨heap.heap, heap.pages⟩
    granted := heap.runs.map (process, ·) ++ state.granted.filter (·.1 ≠ process) }

/-- `heapBase = p->heap;` -/
def enterHeap (state : SharedHeap) (process : Nat) : HeapState :=
  { state.view process with heapBase := (state.fields process).heap }

/-- `allocPage` for a call of a process that has the page runs `own` by now. -/
def pageFor (allocPage : List PageRun → Nat → Nat) (state : SharedHeap) (process : Nat)
    (own : List PageRun) (pages : Nat) : Nat :=
  allocPage (own ++ state.runsElsewhere process) pages

/-- `addPagesToProcess(pageBase, pid)` where `getProcessById(pid)` is `found`. -/
def addPagesToProcess (state : SharedHeap) (pageBase : Nat) : Option Nat → SharedHeap
  | none => state
  | some found =>
      { state with
        fields := Function.update state.fields found
          ⟨(state.fields found).heap, ((state.view found).addPagesToProcess pageBase).pages⟩ }

/-- What `extendHeap` writes through the argument that its second call does not get: the first
block, if `heapBase` is still NULL, and the page. `found` is the process that the argument is. -/
def extendFound (state : SharedHeap) (heapBase newBlock : Nat) : Option Nat → SharedHeap
  | none => state
  | some found =>
      let state :=
        if heapBase = 0 then
          { state with
            fields := Function.update state.fields found
              { state.fields found with heap := newBlock } }
        else state
      state.addPagesToProcess newBlock (some found)

/-- Nothing of that is a header. -/
theorem extendFound_block (state : SharedHeap) (heapBase newBlock : Nat) (found : Option Nat) :
    (state.extendFound heapBase newBlock found).block = state.block := by
  cases found with
  | none => rfl
  | some found =>
      simp only [extendFound, addPagesToProcess]
      split <;> rfl

/-- `mallock` of a process. What the second call of `extendHeap` writes to a process, it writes
for `found`. -/
def mallock (allocPage : List PageRun → Nat → Nat) (fuel : Nat) (state : SharedHeap)
    (process size : Nat) (found : Option Nat) : Option (SharedHeap × Nat) :=
  if size = 0 then some (state.put process (state.enterHeap process), 0)
  else
    let s := align4 size % SIZE_T
    match (state.enterHeap process).ensureHeap (state.pageFor allocPage process) fuel size with
    | none => none
    | some ready =>
        match ready.chooseBlock (state.pageFor allocPage process) fuel size s with
        | none => none
        | some (chosen, freeBlock) =>
            let after := state.put process
              { (chosen.takeBlock freeBlock s).1 with heap := ready.heap, pages := ready.pages }
            some (if chosen.runs = ready.runs then after
                else after.extendFound ready.heapBase freeBlock found,
              (chosen.takeBlock freeBlock s).2)

/-- `free` of a process. -/
def free (fuel : Nat) (state : SharedHeap) (process p : Nat) : Option SharedHeap :=
  ((state.view process).free fuel p).map (state.put process)

/-- One call: `mallock` of any `size_t`, or `free` of a pointer its caller has in use. -/
def step (allocPage : List PageRun → Nat → Nat) (fuel : Nat) (state : SharedHeap) :
    SharedHeapAction → Option SharedHeap
  | .mallock process size found =>
      if size < SIZE_T then
        (state.mallock allocPage fuel process size found).map fun result =>
          { result.1 with
            live := Function.update state.live process
              (if size = 0 then state.live process
                else ⟨result.2, size⟩ :: state.live process) }
      else none
  | .free process p =>
      match (state.live process).find? (·.pointer = p) with
      | none => none
      | some allocation =>
          (state.free fuel process p).map fun after =>
            { after with
              live := Function.update state.live process
                ((state.live process).erase allocation) }

/-- No process has a heap. -/
structure Start (state : SharedHeap) : Prop where
  heap : ∀ process, (state.fields process).heap = 0
  granted : state.granted = []
  live : ∀ process, state.live process = []

/-- A call of `process` changes headers of its heap list only, before or after the
call, and no other process' fields; the heap lists of the others stay as they are. -/
structure Isolated (process : Nat) (state after : SharedHeap) : Prop where
  blocks : ∀ b, after.block b ≠ state.block b →
    (state.view process).OnList b ∨ (after.view process).OnList b
  fields : ∀ other, other ≠ process → after.fields other = state.fields other
  others : ∀ other, other ≠ process → ∀ b, (state.view other).OnList b →
    after.block b = state.block b ∧ (after.view other).OnList b

/-- `free(p)` does to memory what it does when `heapBase` is the heap of its caller. -/
def ActsOnOwnList (fuel : Nat) (process p : Nat) (state after : SharedHeap) : Prop :=
  ((state.enterHeap process).free fuel p).map HeapState.block = some after.block

/-- What the calls of a process may do. -/
def Isolates (fuel : Nat) (state after : SharedHeap) : SharedHeapAction → Prop
  | .mallock process _ _ => Isolated process state after
  | .free process p =>
      Isolated process state after ∧ ActsOnOwnList fuel process p state after

/-- The condition on `mallock`: `allocPage` does not return NULL to it, and the pages
of its second request are not recorded for another process. -/
def Granted (allocPage : List PageRun → Nat → Nat) (fuel : Nat) (state : SharedHeap)
    (process size : Nat) (found : Option Nat) : Prop :=
  ((state.fields process).heap = 0 →
    state.pageFor allocPage process (state.runsOf process) (pagesAsked size) ≠ 0) ∧
  ∀ ready ∈ (state.enterHeap process).ensureHeap (state.pageFor allocPage process) fuel size,
    ready.findFirstFreeBlock fuel ready.heapBase (align4 size % SIZE_T) = some 0 →
      state.pageFor allocPage process ready.runs (pagesAsked size) ≠ 0 ∧
        (found = none ∨ found = some process)

/-- The condition on `free` where `getBlock` finds `block`, which it marks free: a free
block behind it is of its page run; and a `prev` that is marked free stands before it on
the list, and the block behind `prev` is of the page run of `prev`. -/
structure MergesListed (fuel : Nat) (heap : HeapState) (block : Nat) : Prop where
  next : (heap.block block).next ≠ 0 → (heap.block (heap.block block).next).free = true →
    Interval.Together heap.regions block (heap.block block).next
  prev : (heap.block block).prev ≠ 0 →
    (heap.block block).prev = block ∨ (heap.block (heap.block block).prev).free = true →
    (heap.block block).prev ∈ heap.walkTo fuel heap.heapBase block ∧
      Interval.Together heap.regions (heap.block block).prev
        (heap.next (heap.block block).prev)

instance (fuel : Nat) (heap : HeapState) (block : Nat) :
    Decidable (MergesListed fuel heap block) :=
  decidable_of_iff (_ ∧ _) ⟨fun ⟨next, prev⟩ => ⟨next, prev⟩, fun ⟨next, prev⟩ => ⟨next, prev⟩⟩

/-- The condition on a call. `free` has to find its caller's heap in `heapBase`. -/
def CallsOwnHeap (allocPage : List PageRun → Nat → Nat) (fuel : Nat) (state : SharedHeap) :
    SharedHeapAction → Prop
  | .mallock process size found =>
      size ≠ 0 → state.Granted allocPage fuel process size found
  | .free process p => state.heapBase = (state.fields process).heap ∧
      ((state.view process).isValidAddress p = true →
        ∀ block ∈ (state.view process).getBlock fuel p, block ≠ 0 →
          MergesListed fuel (state.view process) block)

instance (allocPage : List PageRun → Nat → Nat) (fuel : Nat) (state : SharedHeap)
    (action : SharedHeapAction) : Decidable (state.CallsOwnHeap allocPage fuel action) :=
  match action with
  | .mallock _ _ _ => by
      unfold CallsOwnHeap Granted
      infer_instance
  | .free _ _ => by
      unfold CallsOwnHeap
      infer_instance

end SharedHeap

/-! ## One call on the heap of its process -/

/-- What a part of a call leaves behind: the heap list has all the blocks it had,
headers changed on the new list only, and the new page runs are apart from those of
the other processes. -/
structure Extends (elsewhere : List PageRun) (heap heap' : HeapState) (l r : List Nat) :
    Prop where
  laid : Laid heap' r
  grows : l ⊆ r
  others : ∀ b, b ∉ r → heap'.block b = heap.block b
  runs : ∀ run ∈ heap'.runs, run ∈ heap.runs ∨ run.pages ≤ NUMBER_OF_PAGES ∧
    ∀ other ∈ elsewhere, run.interval.Disjoint other.interval

namespace Extends

variable {elsewhere : List PageRun} {heap heap' heap'' : HeapState} {l r r' : List Nat}

/-- A heap extends itself. -/
theorem refl (laid : Laid heap l) : Extends elsewhere heap heap l l :=
  ⟨laid, fun _ member => member, fun _ _ => rfl, fun _ member => .inl member⟩

/-- One part of a call after another. -/
theorem trans (first : Extends elsewhere heap heap' l r)
    (second : Extends elsewhere heap' heap'' r r') : Extends elsewhere heap heap'' l r' := by
  refine ⟨second.laid, fun b member => second.grows (first.grows member), fun b other => ?_, ?_⟩
  · exact (second.others b other).trans (first.others b fun member => other (second.grows member))
  · intro run isRun
    rcases second.runs run isRun with older | new
    · exact first.runs run older
    · exact .inr new

end Extends

/-- The block that `extendHeap` returns. -/
theorem HeapState.extendHeap_base {allocPage : List PageRun → Nat → Nat} {fuel size base : Nat}
    {heap heap' : HeapState} (extended : heap.extendHeap allocPage fuel size = some (heap', base)) :
    base = allocPage heap.runs (pagesAsked size) := by
  simp only [HeapState.extendHeap] at extended
  split at extended
  · exact (Prod.mk.inj (Option.some.inj extended)).2.symm
  · split at extended
    · cases extended
    · exact (Prod.mk.inj (Option.some.inj extended)).2.symm

/-- `mallock` only gets a page run when its search finds no block. -/
theorem HeapState.chooseBlock_extends {allocPage : List PageRun → Nat → Nat}
    {fuel size s block : Nat} {heap heap' : HeapState}
    (chosen : heap.chooseBlock allocPage fuel size s = some (heap', block))
    (grown : heap'.runs ≠ heap.runs) : heap.findFirstFreeBlock fuel heap.heapBase s = some 0 := by
  unfold HeapState.chooseBlock at chosen
  split at chosen
  · cases chosen
  · rename_i found search
    split at chosen
    · rename_i null
      rw [search, null]
    · obtain ⟨rfl, -⟩ := Prod.mk.inj (Option.some.inj chosen)
      exact absurd rfl grown

/-- A process that gets a page for its first block has one. -/
theorem HeapState.ensureHeap_ne_zero {allocPage : List PageRun → Nat → Nat} {fuel size : Nat}
    {heap ready : HeapState}
    (granted : heap.heapBase = 0 → allocPage heap.runs (pagesAsked size) ≠ 0)
    (ensured : heap.ensureHeap allocPage fuel size = some ready) : ready.heapBase ≠ 0 := by
  unfold HeapState.ensureHeap at ensured
  split at ensured
  · rename_i none
    obtain ⟨⟨heap', base⟩, extended, rfl⟩ := Option.map_eq_some_iff.mp ensured
    have page := HeapState.extendHeap_base extended
    simp only [HeapState.extendHeap, HeapState.setBlock, none, if_true] at extended
    obtain ⟨rfl, -⟩ := Prod.mk.inj (Option.some.inj extended)
    simp only [HeapState.addPagesToProcess_heapBase]
    exact granted none
  · rename_i present
    obtain rfl := Option.some.inj ensured
    exact present

/-- The first block of a process stays the first. -/
theorem HeapState.chooseBlock_heap {allocPage : List PageRun → Nat → Nat}
    {fuel size s block : Nat} {heap heap' : HeapState} (present : heap.heapBase ≠ 0)
    (chosen : heap.chooseBlock allocPage fuel size s = some (heap', block)) :
    heap'.heap = heap.heap := by
  unfold HeapState.chooseBlock at chosen
  split at chosen
  · cases chosen
  · split at chosen
    · simp only [HeapState.extendHeap, HeapState.setBlock, present, if_false] at chosen
      split at chosen
      · cases chosen
      · obtain ⟨rfl, -⟩ := Prod.mk.inj (Option.some.inj chosen)
        simp only [HeapState.addPagesToProcess_heap]
    · obtain ⟨rfl, -⟩ := Prod.mk.inj (Option.some.inj chosen)
      rfl

/-- The page runs and the first block stay when a block is taken. -/
theorem HeapState.takeBlock_fields (heap : HeapState) (block s : Nat) :
    (heap.takeBlock block s).1.runs = heap.runs ∧ (heap.takeBlock block s).1.heap = heap.heap := by
  simp only [HeapState.takeBlock, HeapState.split_block]
  split
  · split <;> exact ⟨rfl, rfl⟩
  · exact ⟨rfl, rfl⟩

/-- `mergePrev` writes the header of `prev`, if it is free. -/
theorem HeapState.mergePrev_changed {heap : HeapState} {block prev b : Nat}
    (same : (heap.block block).prev = prev)
    (changed : (heap.mergePrev block).block b ≠ heap.block b) :
    b = prev ∧ prev ≠ 0 ∧ (heap.block prev).free = true := by
  subst same
  simp only [HeapState.mergePrev] at changed
  split at changed
  · rename_i joins
    exact ⟨Classical.byContradiction fun other =>
      changed (HeapState.mergeBlocks_block_of_ne other), joins⟩
  · exact absurd rfl changed

/-- `extendHeap` when `allocPage` does not return NULL. -/
theorem Held.extendHeap_granted {heap heap' : HeapState} {live : List Allocation}
    {l : List Nat} {elsewhere : List PageRun} {allocPage : List PageRun → Nat → Nat}
    {fuel size base : Nat} (grants : GrantsFresh allocPage) (held : Held heap live l)
    (global : heap.heapBase = heap.heap)
    (granted : allocPage (heap.runs ++ elsewhere) (pagesAsked size) ≠ 0)
    (extended : heap.extendHeap (fun own pages => allocPage (own ++ elsewhere) pages) fuel size =
      some (heap', base)) :
    Grown heap heap' live l base (pagesAsked size) := by
  obtain ⟨positive, atMost, apart⟩ := grants _ _ granted
  have small : pagesAsked size * PAGE_SIZE < SIZE_T := by
    simp only [SIZE_T, show PAGE_SIZE = 4096 by rfl, show NUMBER_OF_PAGES = 1024 by rfl] at *
    omega
  exact held.grown global rfl rfl (Nat.pos_of_ne_zero granted)
    (fun run isRun => apart run (List.mem_append_left _ isRun)) positive small extended

namespace Laid

variable {heap heap' : HeapState} {l r : List Nat} {block : Nat} {elsewhere : List PageRun}
  {allocPage : List PageRun → Nat → Nat} {fuel size : Nat}

/-- A heap that is laid out holds no block yet. -/
theorem held (laid : Laid heap l) : Held heap [] l := ⟨laid, by simp, by simp⟩

/-- `heapBase`, `pages` and the page runs of others do not count. -/
theorem of_same (laid : Laid heap l) (blocks : heap'.block = heap.block)
    (start : heap'.heap = heap.heap) (runs : heap'.runs = heap.runs) : Laid heap' l :=
  (laid.held.congr blocks start runs).toLaid

/-- `extendHeap` when `allocPage` does not return NULL. -/
theorem extendHeap (grants : GrantsFresh allocPage) {base : Nat} (laid : Laid heap l)
    (global : heap.heapBase = heap.heap)
    (granted : allocPage (heap.runs ++ elsewhere) (pagesAsked size) ≠ 0)
    (extended : heap.extendHeap (fun own pages => allocPage (own ++ elsewhere) pages) fuel size =
      some (heap', base)) :
    Extends elsewhere heap heap' l (l ++ [base]) ∧ heap'.heapBase = heap'.heap ∧
      (heap'.block base).free = true := by
  obtain ⟨-, atMost, apart⟩ := grants _ _ granted
  have page := HeapState.extendHeap_base extended
  have grown := laid.held.extendHeap_granted grants global granted extended
  refine ⟨⟨grown.held.toLaid, by simp, grown.others, ?_⟩, grown.global, grown.free⟩
  intro run isRun
  rw [grown.runs] at isRun
  rcases List.mem_cons.mp isRun with rfl | older
  · refine .inr ⟨atMost, fun other isOther => ?_⟩
    rw [page]
    exact apart other (List.mem_append_right _ isOther)
  · exact .inl older

/-- The first test of `mallock`. -/
theorem ensureHeap (grants : GrantsFresh allocPage) (laid : Laid heap l)
    (global : heap.heapBase = heap.heap)
    (granted : heap.heap = 0 → allocPage (heap.runs ++ elsewhere) (pagesAsked size) ≠ 0)
    (ensured : heap.ensureHeap (fun own pages => allocPage (own ++ elsewhere) pages) fuel size =
      some heap') :
    ∃ r, Extends elsewhere heap heap' l r ∧ heap'.heapBase = heap'.heap := by
  unfold HeapState.ensureHeap at ensured
  split at ensured
  · rename_i none
    obtain ⟨⟨grown, base⟩, extended, rfl⟩ := Option.map_eq_some_iff.mp ensured
    obtain ⟨more, global, -⟩ :=
      laid.extendHeap grants global (granted (global ▸ none)) extended
    exact ⟨_, more, global⟩
  · obtain rfl := Option.some.inj ensured
    exact ⟨l, .refl laid, global⟩

/-- The block that `mallock` chooses is free. -/
theorem chooseBlock (grants : GrantsFresh allocPage) {s : Nat} (laid : Laid heap l)
    (global : heap.heapBase = heap.heap)
    (granted : heap.findFirstFreeBlock fuel heap.heapBase s = some 0 →
      allocPage (heap.runs ++ elsewhere) (pagesAsked size) ≠ 0)
    (chosen : heap.chooseBlock (fun own pages => allocPage (own ++ elsewhere) pages) fuel size s =
      some (heap', block)) :
    ∃ r, Extends elsewhere heap heap' l r ∧ block ∈ r ∧ (heap'.block block).free = true := by
  unfold HeapState.chooseBlock at chosen
  split at chosen
  · cases chosen
  · rename_i found search
    split at chosen
    · rename_i null
      subst null
      obtain ⟨more, -, free⟩ := laid.extendHeap grants global (granted search) chosen
      exact ⟨_, more, by simp, free⟩
    · rename_i notNull
      obtain ⟨rfl, rfl⟩ := Prod.mk.inj (Option.some.inj chosen)
      obtain ⟨member, free, -⟩ :=
        (HeapState.findFirstFreeBlock_spec (global ▸ laid.path) search).resolve_left notNull
      exact ⟨l, .refl laid, member, free⟩

/-- A block is no larger than the page runs are. -/
theorem size_lt_pages (laid : Laid heap l)
    (bounded : ∀ run ∈ heap.runs, run.pages ≤ NUMBER_OF_PAGES) (member : block ∈ l) :
    (heap.block block).size < NUMBER_OF_PAGES * PAGE_SIZE := by
  obtain ⟨i, isRegion, lower, upper⟩ := laid.inside block member
  obtain ⟨run, isRun, rfl⟩ := List.mem_map.mp isRegion
  have atMost := Nat.mul_le_mul_right PAGE_SIZE (bounded run isRun)
  simp only [PageRun.interval, HeapState.extent_lo, HeapState.extent_hi] at lower upper
  omega

/-- The end of `mallock` on a block of at most `NUMBER_OF_PAGES` pages. A request near
the largest `size_t` may be larger than the block it gets, and does not cut it. -/
theorem takeBlock (laid : Laid heap l) (member : block ∈ l)
    (free : (heap.block block).free = true)
    (small : (heap.block block).size < NUMBER_OF_PAGES * PAGE_SIZE) (s : Nat) :
    ∃ r, Extends elsewhere heap (heap.takeBlock block s).1 l r ∧ l.Sublist r := by
  have taken {heap₁ : HeapState} {r : List Nat} (cut : Extends elsewhere heap heap₁ l r) :
      Extends elsewhere heap
        (heap₁.setBlock block { heap₁.block block with free := false }) l r := by
    refine ⟨cut.laid.setFree block false, cut.grows, fun b other => ?_, cut.runs⟩
    have apart : b ≠ block := fun same => other (same ▸ cut.grows member)
    rw [← cut.others b other]
    exact Function.update_of_ne apart ..
  simp only [HeapState.takeBlock]
  split
  · rename_i large
    by_cases short : (heap.block block).size < s
    · rw [HeapState.split_block, if_pos short]
      exact ⟨l, taken (.refl laid), .refl l⟩
    · have room : s + 28 ≤ (heap.block block).size := by
        simp only [BLOCK_STRUCT_SIZE, SIZE_T, show NUMBER_OF_PAGES = 1024 by rfl,
          show PAGE_SIZE = 4096 by rfl] at large small ⊢
        omega
      obtain ⟨l₁, l₂, rfl⟩ := List.append_of_mem member
      obtain ⟨cut, blocks⟩ := laid.held.split_block free room
      have longer : (l₁ ++ block :: l₂).Sublist (l₁ ++ block :: (block + 28 + s) :: l₂) :=
        (List.Sublist.refl l₁).append ((List.sublist_cons_self ..).cons_cons block)
      refine ⟨_, taken ⟨cut.toLaid, longer.subset, fun b other => ?_, fun run isRun => .inl ?_⟩,
        longer⟩
      · simp only [List.mem_append, List.mem_cons, not_or] at other
        rw [blocks, Function.update_of_ne other.2.1, Function.update_of_ne other.2.2.1]
      · unfold HeapState.split_block at isRun
        split at isRun
        · exact isRun
        · exact isRun
  · exact ⟨l, taken (.refl laid), .refl l⟩

/-- `mergeBlocks(block->prev)` when `prev` stands before a block of its page run. -/
theorem mergePrev {prev : Nat} (laid : Laid heap l) (same : (heap.block block).prev = prev)
    (within : prev ≠ 0 → (heap.block prev).free = true →
      (∃ before x r, l = before ++ prev :: x :: r) ∧
        Interval.Together heap.regions prev (heap.next prev)) :
    ∃ r, Laid (heap.mergePrev block) r := by
  subst same
  simp only [HeapState.mergePrev]
  split
  · rename_i joins
    obtain ⟨⟨before, x, r, rfl⟩, together⟩ := within joins.1 joins.2
    rw [show heap.next (heap.block block).prev = x from laid.path.next_eq] at together
    exact ⟨_, laid.mergeBlocks together⟩
  · exact ⟨l, laid⟩

/-- `free` writes headers of the list only. -/
theorem free {p : Nat} (laid : Laid heap l) (global : heap.heapBase = heap.heap)
    (merges : heap.isValidAddress p = true → ∀ b ∈ heap.getBlock fuel p, b ≠ 0 →
      SharedHeap.MergesListed fuel heap b)
    (freed : heap.free fuel p = some heap') :
    ∃ r, Laid heap' r ∧ (∀ b, b ∉ l → heap'.block b = heap.block b) ∧
      heap'.heap = heap.heap ∧ heap'.pages = heap.pages ∧ heap'.runs = heap.runs := by
  unfold HeapState.free at freed
  split at freed
  · rename_i valid
    split at freed
    · cases freed
    · rename_i block found
      split at freed
      · obtain rfl := Option.some.inj freed
        exact ⟨l, laid, fun _ _ => rfl, rfl, rfl, rfl⟩
      · rename_i notNull
        obtain rfl := Option.some.inj freed
        have within := merges valid block found notNull
        have listed : block ∈ l :=
          (HeapState.getBlockLoop_spec (global ▸ laid.path) found).resolve_left notNull
        obtain ⟨before, behind, rfl⟩ := List.append_of_mem listed
        let marked := heap.setBlock block { heap.block block with free := true }
        have away : ∀ b, b ≠ block → marked.block b = heap.block b := by
          intro b other
          simp [marked, HeapState.setBlock, other]
        have link : (marked.block block).next = (heap.block block).next ∧
            (marked.block block).prev = (heap.block block).prev := by
          simp [marked, HeapState.setBlock]
        have kept : ((marked.mergeNext block).mergePrev block).heap = heap.heap ∧
            ((marked.mergeNext block).mergePrev block).pages = heap.pages ∧
            ((marked.mergeNext block).mergePrev block).runs = heap.runs := by
          simp only [HeapState.mergePrev, HeapState.mergeNext]
          split <;> split <;> exact ⟨rfl, rfl, rfl⟩
        obtain ⟨r, merged, others, prev, -, regions, -, -⟩ :=
          (laid.setFree block true).held.mergeNext fun notLast isFree => by
            change marked.next block ≠ 0 at notLast
            change (marked.block (marked.next block)).free = true at isFree
            change Interval.Together heap.regions block (marked.next block)
            rw [HeapState.next, link.1] at notLast isFree ⊢
            by_cases same : (heap.block block).next = block
            · obtain ⟨run, isRun, -, has⟩ := laid.run_has listed
              rw [same]
              exact ⟨run, isRun, has, has⟩
            · rw [away _ same] at isFree
              exact within.next notLast isFree
        have samePrev : ((marked.mergeNext block).block block).prev = (heap.block block).prev :=
          prev.trans link.2
        have unmoved : (heap.block block).prev ≠ block →
            (marked.mergeNext block).block (heap.block block).prev =
              heap.block (heap.block block).prev :=
          fun other => (others _ other).trans (away _ other)
        have stands : (heap.block block).prev ≠ 0 →
            ((marked.mergeNext block).block (heap.block block).prev).free = true →
            (heap.block block).prev ∈ before ∧
              Interval.Together (marked.mergeNext block).regions (heap.block block).prev
                ((marked.mergeNext block).next (heap.block block).prev) := by
          intro notFirst isFree
          obtain ⟨walked, together⟩ := within.prev notFirst <| by
            by_cases self : (heap.block block).prev = block
            · exact .inl self
            · exact .inr (by rw [← unmoved self]; exact isFree)
          have standsBefore := HeapState.mem_walkTo (global ▸ laid.path) walked
          have other : (heap.block block).prev ≠ block := by
            intro self
            have nodup := List.perm_middle.nodup_iff.mp laid.nodup
            exact (List.nodup_cons.mp nodup).1 (List.mem_append_left _ (self ▸ standsBefore))
          refine ⟨standsBefore, ?_⟩
          rw [regions, HeapState.next, unmoved other]
          exact together
        obtain ⟨r', laid'⟩ := merged.toLaid.mergePrev samePrev fun notFirst isFree => by
          obtain ⟨standsBefore, together⟩ := stands notFirst isFree
          obtain ⟨u, v, rfl⟩ := List.append_of_mem standsBefore
          refine ⟨?_, together⟩
          cases v with
          | nil => exact ⟨u, block, r, by simp⟩
          | cons x v => exact ⟨u, x, v ++ block :: r, by simp⟩
        refine ⟨r', laid', fun b other => ?_, kept⟩
        have apart : b ≠ block := by
          rintro rfl
          exact other (by simp)
        by_contra changed
        rw [← away b apart, ← others b apart] at changed
        obtain ⟨rfl, notFirst, isFree⟩ := HeapState.mergePrev_changed samePrev changed
        exact other (List.mem_append_left _ (stands notFirst isFree).1)
  · obtain rfl := Option.some.inj freed
    exact ⟨l, laid, fun _ _ => rfl, rfl, rfl, rfl⟩

end Laid

namespace SharedHeap

variable {state after : SharedHeap} {process : Nat} {heap : HeapState}

/-- The state after a call of `process` that left `heap`. -/
structure Became (state after : SharedHeap) (process : Nat) (heap : HeapState) : Prop where
  block : after.block = heap.block
  start : (after.fields process).heap = heap.heap
  fields : ∀ other, other ≠ process → after.fields other = state.fields other
  granted : after.granted = heap.runs.map (process, ·) ++ state.granted.filter (·.1 ≠ process)

/-- Storing the heap of a process leaves the fields of the others. -/
theorem put_became (state : SharedHeap) (process : Nat) (heap : HeapState) :
    Became state (state.put process heap) process heap := by
  refine ⟨rfl, ?_, fun other differs => ?_, rfl⟩
  · simp [put]
  · simp [put, differs]

namespace Became

variable (became : Became state after process heap)
include became

/-- The process has the page runs of its new heap. -/
theorem runsOf : after.runsOf process = heap.runs := by
  rw [SharedHeap.runsOf, became.granted, List.filter_append, List.filter_filter]
  simp [List.filter_map, Function.comp_def]

/-- The other processes keep their page runs. -/
theorem runsOf_ne {other : Nat} (differs : other ≠ process) :
    after.runsOf other = state.runsOf other := by
  have apart : ∀ run : Nat × PageRun,
      (decide (run.1 = other) && decide (run.1 ≠ process)) = decide (run.1 = other) := by
    intro run
    by_cases same : run.1 = other
    · simp [same, differs]
    · simp [same]
  rw [SharedHeap.runsOf, became.granted, List.filter_append, List.filter_filter]
  simp only [apart, List.filter_map, Function.comp_def, Ne.symm differs, decide_false,
    List.filter_false, List.map_nil, List.nil_append, SharedHeap.runsOf]

end Became

/-- The heap lists of the processes stand in page runs of their own. -/
structure Separate (state : SharedHeap) (lists : Nat → List Nat) : Prop where
  laid : ∀ process, Laid (state.view process) (lists process)
  bounded : ∀ process, ∀ run ∈ state.runsOf process, run.pages ≤ NUMBER_OF_PAGES
  apart : ∀ process other, process ≠ other → ∀ run ∈ state.runsOf process,
    ∀ run' ∈ state.runsOf other, run.interval.Disjoint run'.interval

/-- No block of a list stands on the list of a process with other page runs. -/
theorem not_mem_of_apart {heap other : HeapState} {l r : List Nat} {b : Nat} (laid : Laid heap l)
    (laid' : Laid other r)
    (apart : ∀ run ∈ heap.runs, ∀ run' ∈ other.runs, run.interval.Disjoint run'.interval)
    (member : b ∈ l) : b ∉ r := by
  intro member'
  obtain ⟨i, isRun, -, has⟩ := laid.run_has member
  obtain ⟨j, isRun', -, has'⟩ := laid'.run_has member'
  obtain ⟨run, mine, rfl⟩ := List.mem_map.mp isRun
  obtain ⟨run', theirs, rfl⟩ := List.mem_map.mp isRun'
  have disjoint := apart run mine run' theirs
  simp only [Interval.Disjoint, Interval.Has] at disjoint has has'
  omega

/-- A run of another process is one of those elsewhere. -/
theorem mem_runsElsewhere {other : Nat} (differs : other ≠ process) {run : PageRun}
    (member : run ∈ state.runsOf other) : run ∈ state.runsElsewhere process := by
  simp only [runsOf, runsElsewhere, List.mem_map, List.mem_filter, decide_eq_true_eq] at *
  obtain ⟨entry, ⟨isEntry, owner⟩, rfl⟩ := member
  exact ⟨entry, ⟨isEntry, owner ▸ differs⟩, rfl⟩

/-- A call that works on the heap list of its process keeps the heaps apart. -/
theorem Separate.became {lists : Nat → List Nat} {r : List Nat} (separate : Separate state lists)
    (became : Became state after process heap) (laid : Laid heap r)
    (changes : ∀ b, heap.block b ≠ state.block b → b ∈ lists process ∨ b ∈ r)
    (runs : ∀ run ∈ heap.runs, run ∈ state.runsOf process ∨ run.pages ≤ NUMBER_OF_PAGES ∧
      ∀ other ∈ state.runsElsewhere process, run.interval.Disjoint other.interval) :
    Separate after (Function.update lists process r) ∧ Isolated process state after := by
  have mine : Laid (after.view process) r :=
    laid.of_same became.block became.start became.runsOf
  have apart : ∀ other, other ≠ process → ∀ run ∈ heap.runs, ∀ run' ∈ state.runsOf other,
      run.interval.Disjoint run'.interval := by
    intro other differs run isRun run' isRun'
    rcases runs run isRun with older | ⟨-, new⟩
    · exact separate.apart process other differs.symm run older run' isRun'
    · exact new run' (mem_runsElsewhere differs isRun')
  have keeps : ∀ other, other ≠ process → ∀ b ∈ lists other, after.block b = state.block b := by
    intro other differs b member
    have theirs := separate.laid other
    by_contra changed
    rw [became.block] at changed
    rcases changes b changed with old | new
    · exact not_mem_of_apart (separate.laid process) theirs
        (separate.apart process other differs.symm) old member
    · exact not_mem_of_apart laid theirs (apart other differs) new member
  have theirs : ∀ other, other ≠ process → Laid (after.view other) (lists other) := by
    intro other differs
    refine (separate.laid other).congr ?_ ?_ ?_ (became.runsOf_ne differs)
    · exact fun b member => congrArg HeapBlock.size (keeps other differs b member)
    · exact fun b member => congrArg HeapBlock.next (keeps other differs b member)
    · exact congrArg HeapFields.heap (became.fields other differs)
  constructor
  · refine ⟨fun other => ?_, fun other => ?_, fun first second differ => ?_⟩
    · by_cases same : other = process
      · subst same
        rw [Function.update_self]
        exact mine
      · rw [Function.update_of_ne same]
        exact theirs other same
    · by_cases same : other = process
      · subst same
        rw [became.runsOf]
        intro run isRun
        rcases runs run isRun with older | ⟨atMost, -⟩
        · exact separate.bounded other run older
        · exact atMost
      · rw [became.runsOf_ne same]
        exact separate.bounded other
    · by_cases isFirst : first = process
      · subst isFirst
        rw [became.runsOf, became.runsOf_ne differ.symm]
        exact apart second differ.symm
      · by_cases isSecond : second = process
        · subst isSecond
          rw [became.runsOf, became.runsOf_ne differ]
          exact fun run isRun run' isRun' => (apart first differ run' isRun' run isRun).symm
        · rw [became.runsOf_ne isFirst, became.runsOf_ne isSecond]
          exact separate.apart first second differ
  · refine ⟨fun b changed => ?_, became.fields, fun other differs b onList => ?_⟩
    · rw [became.block] at changed
      exact (changes b changed).imp (separate.laid process).onList mine.onList
    · have member := (separate.laid other).mem_of_onList onList
      exact ⟨keeps other differs b member, (theirs other differs).onList member⟩

/-! ## Runs -/

/-- The invariant of the runs. -/
def Well (state : SharedHeap) : Prop := ∃ lists, Separate state lists

/-- The invariant holds at the start. -/
theorem Start.well (start : Start state) : state.Well := by
  have none : ∀ process, state.runsOf process = [] := by
    intro process
    rw [runsOf, start.granted]
    rfl
  refine ⟨fun _ => [], ⟨fun process => ⟨start.heap process, ?_, ?_, ?_, ?_, ?_, ?_⟩, ?_, ?_⟩⟩
  · simp
  · simp
  · simp
  · exact List.isChain_nil
  · simp [HeapState.regions, view, none]
  · simp [HeapState.regions, view, none]
  · simp [none]
  · simp [none]

/-- With a block before the search, `extendHeap` writes nothing but the page through its missing
argument. -/
theorem mallock_stored {allocPage : List PageRun → Nat → Nat} {fuel size s block : Nat}
    {ready chosen : HeapState} (present : ready.heapBase ≠ 0)
    (choice : ready.chooseBlock allocPage fuel size s = some (chosen, block)) (state : SharedHeap)
    (process : Nat) (found : Option Nat) :
    (if chosen.runs = ready.runs then
        state.put process
          { (chosen.takeBlock block s).1 with heap := ready.heap, pages := ready.pages }
      else
        (state.put process
          { (chosen.takeBlock block s).1 with
            heap := ready.heap, pages := ready.pages }).extendFound ready.heapBase block found) =
      if chosen.runs = ready.runs then
        state.put process { (chosen.takeBlock block s).1 with pages := ready.pages }
      else
        (state.put process
          { (chosen.takeBlock block s).1 with pages := ready.pages }).addPagesToProcess block
            found := by
  have start : ready.heap = (chosen.takeBlock block s).1.heap :=
    (HeapState.chooseBlock_heap present choice).symm.trans
      (HeapState.takeBlock_fields chosen block s).2.symm
  rw [start]
  cases found with
  | none => rfl
  | some found => simp only [extendFound, if_neg present]

/-- Recording pages for a process writes no other heap field. -/
theorem Became.addPagesToProcess (became : Became state after process heap) (pageBase : Nat)
    {found : Option Nat} (own : found = none ∨ found = some process) :
    Became state (after.addPagesToProcess pageBase found) process heap := by
  rcases own with rfl | rfl
  · exact became
  · refine ⟨became.block, ?_, fun other differs => ?_, became.granted⟩
    · simpa [SharedHeap.addPagesToProcess] using became.start
    · simpa [SharedHeap.addPagesToProcess, differs] using became.fields other differs

/-- `mallock` that gets its pages keeps the heaps apart. -/
theorem Well.mallock {allocPage : List PageRun → Nat → Nat} (grants : GrantsFresh allocPage)
    {fuel size pointer : Nat} {found : Option Nat} (well : state.Well)
    (granted : size ≠ 0 → state.Granted allocPage fuel process size found)
    (allocated : state.mallock allocPage fuel process size found = some (after, pointer)) :
    after.Well ∧ Isolated process state after := by
  obtain ⟨lists, separate⟩ := well
  have entered : Laid (state.enterHeap process) (lists process) :=
    (separate.laid process).of_same rfl rfl rfl
  unfold SharedHeap.mallock at allocated
  split at allocated
  · obtain ⟨rfl, -⟩ := Prod.mk.inj (Option.some.inj allocated)
    obtain ⟨separate, isolated⟩ := separate.became (put_became state process _) entered
      (fun b changed => absurd rfl changed) fun run isRun => .inl isRun
    exact ⟨⟨_, separate⟩, isolated⟩
  · rename_i positive
    obtain ⟨first, second⟩ := granted positive
    dsimp only at allocated
    split at allocated
    · cases allocated
    · rename_i ready ensured
      split at allocated
      · cases allocated
      · rename_i chosen freeBlock choice
        obtain ⟨rfl, -⟩ := Prod.mk.inj (Option.some.inj allocated)
        obtain ⟨r, ensuring, global⟩ := entered.ensureHeap grants rfl first ensured
        obtain ⟨r', choosing, member, free⟩ := ensuring.laid.chooseBlock grants global
          (fun search => (second ready ensured search).1) choice
        have small := choosing.laid.size_lt_pages (fun run isRun =>
          ((ensuring.trans choosing).runs run isRun).elim
            (separate.bounded process run) And.left) member
        obtain ⟨r'', taking, -⟩ := @Laid.takeBlock _ _ _ (state.runsElsewhere process) choosing.laid
          member free small (align4 size % SIZE_T)
        have whole := (ensuring.trans choosing).trans taking
        rw [mallock_stored (HeapState.ensureHeap_ne_zero first ensured) choice]
        have became : Became state (if chosen.runs = ready.runs then
            state.put process
              { (chosen.takeBlock freeBlock (align4 size % SIZE_T)).1 with pages := ready.pages }
          else
            (state.put process { (chosen.takeBlock freeBlock (align4 size % SIZE_T)).1 with
              pages := ready.pages }).addPagesToProcess freeBlock found) process
            { (chosen.takeBlock freeBlock (align4 size % SIZE_T)).1 with
              pages := ready.pages } := by
          split
          · exact put_became ..
          · rename_i grown
            exact (put_became ..).addPagesToProcess _
              (second ready ensured (HeapState.chooseBlock_extends choice grown)).2
        obtain ⟨separate, isolated⟩ := separate.became became
          (whole.laid.of_same rfl rfl rfl)
          (fun b changed => .inr (Classical.byContradiction fun other =>
            changed (whole.others b other))) whole.runs
        exact ⟨⟨_, separate⟩, isolated⟩

/-- `free` on the heap of its caller keeps the heaps apart. -/
theorem Well.free {fuel p : Nat} (well : state.Well)
    (own : state.heapBase = (state.fields process).heap)
    (merges : (state.view process).isValidAddress p = true →
      ∀ block ∈ (state.view process).getBlock fuel p, block ≠ 0 →
        MergesListed fuel (state.view process) block)
    (freed : state.free fuel process p = some after) :
    after.Well ∧ Isolated process state after ∧ ActsOnOwnList fuel process p state after := by
  obtain ⟨lists, separate⟩ := well
  obtain ⟨heap, done, rfl⟩ := Option.map_eq_some_iff.mp freed
  obtain ⟨r, laid, others, start, pages, runs⟩ :=
    (separate.laid process).free own merges done
  have same : state.enterHeap process = state.view process := by
    rw [enterHeap, ← own]
    rfl
  obtain ⟨separate, isolated⟩ := separate.became (put_became state process heap) laid
    (fun b changed => .inl (Classical.byContradiction fun other => changed (others b other)))
    fun run isRun => .inl (by rw [runs] at isRun; exact isRun)
  refine ⟨⟨_, separate⟩, isolated, ?_⟩
  rw [ActsOnOwnList, same, done]
  rfl

/-- A call that meets the condition keeps the invariant and what belongs to others. -/
theorem well_step {allocPage : List PageRun → Nat → Nat} (grants : GrantsFresh allocPage)
    (fuel : Nat) (state : SharedHeap) (action : SharedHeapAction) (after : SharedHeap)
    (well : state.Well) (meets : state.CallsOwnHeap allocPage fuel action)
    (stepped : state.step allocPage fuel action = some after) :
    after.Well ∧ Isolates fuel state after action := by
  cases action with
  | mallock process size found =>
      simp only [step] at stepped
      split at stepped
      · obtain ⟨⟨kernel, pointer⟩, allocated, rfl⟩ := Option.map_eq_some_iff.mp stepped
        obtain ⟨⟨lists, separate⟩, isolated⟩ := well.mallock grants meets allocated
        exact ⟨⟨lists, separate.laid, separate.bounded, separate.apart⟩,
          isolated.blocks, isolated.fields, isolated.others⟩
      · cases stepped
  | free process p =>
      simp only [step] at stepped
      split at stepped
      · cases stepped
      · obtain ⟨kernel, freed, rfl⟩ := Option.map_eq_some_iff.mp stepped
        obtain ⟨⟨lists, separate⟩, isolated, acts⟩ := well.free meets.1 meets.2 freed
        exact ⟨⟨lists, separate.laid, separate.bounded, separate.apart⟩,
          ⟨isolated.blocks, isolated.fields, isolated.others⟩, acts⟩

/-- In a run in which `free` is only called by the process that called `mallock` last and
joins blocks of one page run, and `mallock` gets the pages it asks for, each call changes
the heap of its caller only. -/
theorem calls_isolated (allocPage : List PageRun → Nat → Nat) (grants : GrantsFresh allocPage)
    (fuel : Nat) (start : SharedHeap) (begins : Start start) (actions : List SharedHeapAction)
    (state : SharedHeap)
    (within : Along (step allocPage fuel) (CallsOwnHeap allocPage fuel) start actions)
    (ran : run (step allocPage fuel) start actions = some state)
    (action : SharedHeapAction) (meets : state.CallsOwnHeap allocPage fuel action)
    (after : SharedHeap) (stepped : state.step allocPage fuel action = some after) :
    Isolates fuel state after action := by
  have well : state.Well := within.invariant
    (fun state action after well meets stepped =>
      (well_step grants fuel state action after well meets stepped).1) begins.well ran
  exact (well_step grants fuel state action after well meets stepped).2

/-- `spacedPages` for 1 to `NUMBER_OF_PAGES` pages, NULL otherwise. -/
def boundedPages (runs : List PageRun) (pages : Nat) : Nat :=
  if 0 < pages ∧ pages ≤ NUMBER_OF_PAGES then HeapProcess.spacedPages runs pages else 0

/-- The allocator of the example grants no page twice. -/
theorem boundedPages_fresh : GrantsFresh boundedPages := by
  intro runs pages granted
  unfold boundedPages at *
  split at granted
  · rename_i asked
    rw [if_pos asked]
    exact ⟨asked.1, asked.2, (HeapProcess.spacedPages_fresh runs pages asked.1).2⟩
  · exact absurd rfl granted

/-- No process has a heap, in a memory of zeros. -/
def noHeaps : SharedHeap where
  block := fun _ => ⟨0, 0, 0, false⟩
  heapBase := 0
  fields := fun _ => ⟨0, []⟩
  granted := []
  live := fun _ => []

/-- A state without heaps is a start. -/
theorem noHeaps_start : Start noHeaps := ⟨fun _ => rfl, rfl, fun _ => rfl⟩

/-- Process 0 calls `mallock` before and after process 1. -/
def ownerLast : List SharedHeapAction :=
  [.mallock 0 100 none, .mallock 1 100 none, .mallock 0 200 none]

/-- Process 0 frees its first allocation. -/
theorem calls_isolated_owner_last : ∃ state after,
    run (step boundedPages 10) noHeaps ownerLast = some state ∧
      state.step boundedPages 10 (.free 0 0x100001c) = some after ∧
      Isolates 10 state after (.free 0 0x100001c) := by
  have within : Along (step boundedPages 10) (CallsOwnHeap boundedPages 10) noHeaps
      ownerLast := by
    decide +kernel
  have result : ((run (step boundedPages 10) noHeaps ownerLast).bind fun state =>
      if state.CallsOwnHeap boundedPages 10 (.free 0 0x100001c) then
        (state.step boundedPages 10 (.free 0 0x100001c)).map fun _ => ()
      else none) = some () := by
    decide +kernel
  obtain ⟨state, ran, result⟩ := Option.bind_eq_some_iff.mp result
  split at result
  · rename_i meets
    obtain ⟨after, stepped, -⟩ := Option.map_eq_some_iff.mp result
    exact ⟨state, after, ran, stepped, calls_isolated boundedPages boundedPages_fresh 10 noHeaps
      noHeaps_start ownerLast state within ran _ meets after stepped⟩
  · cases result

/-- Process 1 has a page run on either side of that of process 0, and calls `mallock` last. -/
def otherLast : List SharedHeapAction :=
  [.mallock 1 4040 none, .mallock 0 100 none, .mallock 1 4040 none]

/-- `free` of process 0 marks a block free that process 1 holds, and leaves its own. -/
theorem free_on_other_heap : GrantsFresh boundedPages ∧ Start noHeaps ∧ ∃ state after,
    run (step boundedPages 10) noHeaps otherLast = some state ∧
      state.live 0 = [⟨0x100201c, 100⟩] ∧
      state.step boundedPages 10 (.free 0 0x100201c) = some after ∧
      ¬ Isolates 10 state after (.free 0 0x100201c) := by
  have result : ((run (step boundedPages 10) noHeaps otherLast).bind fun state =>
      (state.step boundedPages 10 (.free 0 0x100201c)).map fun after =>
        (state.live 0, (state.fields 1).heap, (state.block 0x1000000).free,
          (after.block 0x1000000).free)) =
      some ([⟨0x100201c, 100⟩], 0x1000000, false, true) := by
    decide +kernel
  obtain ⟨state, ran, result⟩ := Option.bind_eq_some_iff.mp result
  obtain ⟨after, stepped, values⟩ := Option.map_eq_some_iff.mp result
  simp only [Prod.mk.injEq] at values
  obtain ⟨live, heap, used, freed⟩ := values
  refine ⟨boundedPages_fresh, noHeaps_start, state, after, ran, live, stepped, fun isolates => ?_⟩
  have onList : (state.view 1).OnList 0x1000000 := ⟨by decide, [], heap, by simp⟩
  obtain ⟨same, -⟩ := isolates.1.others 1 (by decide) _ onList
  rw [same, used] at freed
  cases freed

end SharedHeap

end SistemasOperativos.Kernel
