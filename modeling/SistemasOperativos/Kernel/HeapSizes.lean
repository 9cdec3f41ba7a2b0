import SistemasOperativos.Kernel.HeapCalls

/-!
# Requests of any size

`sys_call_mallock` cuts a request to 32 bits, `align4` and the sum of `extendHeap` wrap near
2^32, and `mallock` does not look whether `allocPage` returned NULL; `kmalloc` has the same
`align4` on the heap of the kernel. A call is served if it returns NULL or the data of a block
that is as large as the request. The sizes for which it is are those of `requests_served_iff`.
-/

namespace SistemasOperativos.Kernel

open SistemasOperativos.Foundation SistemasOperativos.Semantics

/-! ## The arithmetic of a request -/

/-- Rounding up is what it should be unless it wraps. -/
theorem align4_of_fits {size : Nat} (positive : size ≠ 0) (fits : size + 3 < SIZE_T) :
    size ≤ align4 size % SIZE_T ∧ align4 size % SIZE_T < size + 4 := by
  simp only [SIZE_T, align4] at *
  omega

/-- The three largest requests are rounded to 0. -/
theorem align4_of_wraps {size : Nat} (limit : size < SIZE_T) (wraps : SIZE_T ≤ size + 3) :
    align4 size % SIZE_T = 0 := by
  simp only [SIZE_T, align4] at *
  omega

/-- The pages that `extendHeap` asks for hold the rounded request and a header. -/
theorem pagesAsked_of_fits {size : Nat} (fits : size + BLOCK_STRUCT_SIZE < SIZE_T) :
    align4 size % SIZE_T + 28 ≤ pagesAsked size * PAGE_SIZE := by
  simp only [pagesAsked, NUMBER_OF_PAGES_TO_ALLOC, BLOCK_STRUCT_SIZE, SIZE_T, align4,
    show PAGE_SIZE = 4096 by rfl] at *
  rw [Nat.mod_eq_of_lt fits]
  split <;> omega

namespace HeapState

/-- The pointer is NULL, or the data of a block of the list with `bytes` bytes. -/
def Serves (heap : HeapState) (p bytes : Nat) : Prop :=
  p = 0 ∨ ∃ block, heap.OnList block ∧ p = dataStart block ∧ bytes ≤ (heap.block block).size

/-- No free block of the list has more than `size` bytes. -/
def Full (heap : HeapState) (size : Nat) : Prop :=
  ∀ block, heap.OnList block → (heap.block block).free = true → (heap.block block).size ≤ size

/-- `allocPage` does not return NULL where `mallock` calls it: when no block is large enough, and
once more when the page run of a first heap has no byte to spare. -/
def GetsPages (allocPage : List PageRun → Nat → Nat) (heap : HeapState) (size : Nat) : Prop :=
  (heap.Full (align4 size % SIZE_T) → allocPage heap.runs (pagesAsked size) ≠ 0) ∧
  (heap.heap = 0 → pagesAsked size * PAGE_SIZE ≤ align4 size % SIZE_T + BLOCK_STRUCT_SIZE →
    allocPage (⟨allocPage heap.runs (pagesAsked size), pagesAsked size⟩ :: heap.runs)
      (pagesAsked size) ≠ 0)

/-- `allocPage` does not return NULL to a call of `mallock`, along its branches. -/
def Granted (allocPage : List PageRun → Nat → Nat) (fuel : Nat) (heap : HeapState)
    (size : Nat) : Prop :=
  (heap.heap = 0 → allocPage heap.runs (pagesAsked size) ≠ 0) ∧
  ∀ ready ∈ heap.ensureHeap allocPage fuel size,
    ready.findFirstFreeBlock fuel ready.heapBase (align4 size % SIZE_T) = some 0 →
      allocPage ready.runs (pagesAsked size) ≠ 0

end HeapState

/-- What `allocPage` is relied on for when it returns NULL: the same request right after it is
refused too. -/
def RefusesAgain (allocPage : List PageRun → Nat → Nat) : Prop :=
  ∀ own elsewhere pages, allocPage (own ++ elsewhere) pages = 0 →
    allocPage (⟨0, pages⟩ :: own ++ elsewhere) pages = 0

section Calls

variable {heap ready chosen : HeapState} {l r : List Nat} {block size q : Nat}
  {elsewhere : List PageRun} {allocPage : List PageRun → Nat → Nat} {fuel : Nat}

/-- The data of a block serves the requests that are no larger than the block. -/
theorem HeapState.serves_dataStart_iff {heap : HeapState} {block bytes : Nat} :
    heap.Serves (dataStart block) bytes ↔
      heap.OnList block ∧ bytes ≤ (heap.block block).size := by
  constructor
  · rintro (null | ⟨other, onList, same, enough⟩)
    · simp only [dataStart_eq] at null
      omega
    · obtain rfl : block = other := by
        simp only [dataStart_eq] at same
        omega
      exact ⟨onList, enough⟩
  · rintro ⟨onList, enough⟩
    exact .inr ⟨block, onList, rfl, enough⟩

/-- NULL is no block, so its data serves no request. -/
theorem HeapState.not_serves_null (heap : HeapState) (bytes : Nat) :
    ¬ heap.Serves (dataStart 0) bytes :=
  fun served => (HeapState.serves_dataStart_iff.mp served).1.1 rfl

/-- The block that a call of `mallock` chose serves the request unless the request wraps. -/
theorem Chosen.serves_iff {live : List Allocation}
    (chosen : Chosen heap ready live r block size (align4 size % SIZE_T))
    (small : (ready.block block).size < NUMBER_OF_PAGES * PAGE_SIZE)
    (positive : size ≠ 0) (limit : size < SIZE_T) (cut : q % SIZE_T = size) :
    (ready.takeBlock block (align4 size % SIZE_T)).1.Serves
        (ready.takeBlock block (align4 size % SIZE_T)).2 q ↔ q + BLOCK_STRUCT_SIZE < SIZE_T := by
  obtain ⟨r', taken, member⟩ :=
    chosen.held.takeBlock_any chosen.member chosen.free small (align4 size % SIZE_T)
  have serves : (ready.takeBlock block (align4 size % SIZE_T)).1.Serves
      (ready.takeBlock block (align4 size % SIZE_T)).2 q ↔
        q ≤ ((ready.takeBlock block (align4 size % SIZE_T)).1.block block).size :=
    HeapState.serves_dataStart_iff.trans (and_iff_right (taken.toLaid.onList member))
  rw [serves, ready.takeBlock_size block (align4 size % SIZE_T)]
  simp only [show NUMBER_OF_PAGES = 1024 by rfl, show PAGE_SIZE = 4096 by rfl] at small
  by_cases fits : size + BLOCK_STRUCT_SIZE < SIZE_T
  · obtain ⟨lower, upper⟩ := align4_of_fits positive (show size + 3 < SIZE_T by
      simp only [BLOCK_STRUCT_SIZE] at fits
      omega)
    have room : align4 size % SIZE_T ≤ (ready.block block).size := by
      rcases chosen.origin with ⟨more, -⟩ | whole
      · exact Nat.le_of_lt more
      · have asked := pagesAsked_of_fits fits
        omega
    simp only [SIZE_T, BLOCK_STRUCT_SIZE] at *
    split <;> omega
  · have asked : size ≤ q := cut ▸ Nat.mod_le q SIZE_T
    have short : (if (align4 size % SIZE_T + 4 + BLOCK_STRUCT_SIZE) % SIZE_T <
        (ready.block block).size ∧ align4 size % SIZE_T ≤ (ready.block block).size
          then align4 size % SIZE_T else (ready.block block).size) ≤ (ready.block block).size := by
      split
      · rename_i both
        exact both.2
      · exact Nat.le_refl _
    simp only [SIZE_T, BLOCK_STRUCT_SIZE] at *
    refine iff_of_false ?_ ?_
    · omega
    · omega

/-- `extendHeap` without a heap: the list is what `allocPage` returned, also if it is NULL. -/
theorem HeapState.extendHeap_first {alloc : List PageRun → Nat → Nat} {base : Nat}
    (none : heap.heapBase = 0) (page : alloc heap.runs (pagesAsked size) = base) :
    ∃ heap', heap.extendHeap alloc fuel size = some (heap', base) ∧ heap'.heapBase = base ∧
      heap'.next base = 0 ∧ heap'.runs = ⟨base, pagesAsked size⟩ :: heap.runs := by
  have asked : NUMBER_OF_PAGES_TO_ALLOC ((size + BLOCK_STRUCT_SIZE) % SIZE_T) =
    pagesAsked size := rfl
  have start : ∀ address header, (setBlock { heap with
      runs := ⟨base, pagesAsked size⟩ :: heap.runs } address header).heapBase = 0 :=
    fun _ _ => none
  simp only [extendHeap, asked, page, start, if_true]
  exact ⟨_, rfl, by simp, by simp [next, setBlock], by simp [setBlock]⟩

/-- A process without a heap whose first request is refused asks a second time. -/
theorem HeapState.chooseBlock_twice {alloc : List PageRun → Nat → Nat} {s base : Nat}
    (none : heap.heapBase = 0) (null : alloc heap.runs (pagesAsked size) = 0)
    (again : alloc (⟨0, pagesAsked size⟩ :: heap.runs) (pagesAsked size) = base) :
    ∃ ready chosen, heap.ensureHeap alloc (fuel + 1) size = some ready ∧
      ready.chooseBlock alloc (fuel + 1) size s = some (chosen, base) := by
  obtain ⟨ready, first, still, -, runs⟩ :=
    @HeapState.extendHeap_first heap size (fuel + 1) alloc 0 none null
  obtain ⟨chosen, second, -⟩ := @HeapState.extendHeap_first ready size (fuel + 1) alloc base still
    (by rw [runs, again])
  refine ⟨ready, chosen, ?_, ?_⟩
  · rw [ensureHeap, if_pos none, first]
    rfl
  · simp only [chooseBlock, still, findFirstFreeBlock, ne_eq, not_true_eq_false, false_and,
      if_false, if_true]
    exact second

/-- The search of `mallock` comes back with NULL if no free block is large enough. -/
theorem Laid.findFirstFreeBlock_null_iff (laid : Laid heap l) (global : heap.heapBase = heap.heap)
    (enough : l.length < fuel) {s : Nat} :
    heap.findFirstFreeBlock fuel heap.heapBase s = some 0 ↔ heap.Full s := by
  constructor
  · intro nothing block onList free
    by_contra room
    obtain ⟨found, search, present⟩ := HeapState.findFirstFreeBlock_finds
      (global ▸ laid.path) laid.nonnull (laid.mem_of_onList onList) free (Nat.not_le.mp room) enough
    exact present (Option.some.inj (search.symm.trans nothing))
  · intro full
    obtain ⟨found, search⟩ := Option.isSome_iff_exists.mp
      (@HeapState.findFirstFreeBlock_isSome heap heap.heapBase l fuel s (global ▸ laid.path) enough)
    rcases HeapState.findFirstFreeBlock_spec (global ▸ laid.path) search with rfl | suits
    · exact search
    · exact absurd (full found (laid.onList suits.1) suits.2.1) (Nat.not_le.mpr suits.2.2)

/-- A heap without a first block has no block. -/
theorem Laid.eq_nil (laid : Laid heap l) (none : heap.heap = 0) : l = [] := by
  have path := laid.path
  rw [none] at path
  cases l with
  | nil => rfl
  | cons b l => exact absurd (path.1 ▸ List.mem_cons_self ..) laid.nonnull

/-- The branches on which `mallock` asks for pages, read off the heap it starts from. -/
theorem Laid.granted_iff (grants : GrantsFresh allocPage) (laid : Laid heap l)
    (global : heap.heapBase = heap.heap) (enough : l.length + 1 < fuel) :
    heap.Granted (fun own pages => allocPage (own ++ elsewhere) pages) fuel size ↔
      heap.GetsPages (fun own pages => allocPage (own ++ elsewhere) pages) size := by
  by_cases none : heap.heap = 0
  · obtain rfl := laid.eq_nil none
    have full : heap.Full (align4 size % SIZE_T) := fun block onList =>
      absurd (laid.mem_of_onList onList) List.not_mem_nil
    by_cases first : allocPage (heap.runs ++ elsewhere) (pagesAsked size) = 0
    · exact iff_of_false (fun granted => granted.1 none first) fun gets => gets.1 full first
    · obtain ⟨ready, extended⟩ := @HeapState.extendHeap_completes heap [] fuel
        (fun own pages => allocPage (own ++ elsewhere) pages) size (pagesAsked size)
        (global ▸ laid.path) rfl (grants.not_mem laid _) (by omega)
      have grown := laid.held.extendHeap_granted grants global first extended
      have ensured : heap.ensureHeap (fun own pages => allocPage (own ++ elsewhere) pages) fuel
          size = some ready := by
        rw [HeapState.ensureHeap, if_pos (global.trans none), extended]
        rfl
      have spare : ready.findFirstFreeBlock fuel ready.heapBase (align4 size % SIZE_T) = some 0 ↔
          pagesAsked size * PAGE_SIZE ≤ align4 size % SIZE_T + BLOCK_STRUCT_SIZE := by
        rw [grown.held.toLaid.findFirstFreeBlock_null_iff grown.global (by simpa using enough),
          ← grown.size]
        constructor
        · intro none
          have small := none _ (grown.held.toLaid.onList (by simp)) grown.free
          simp only [BLOCK_STRUCT_SIZE]
          omega
        · intro small block onList _
          obtain rfl := List.mem_singleton.mp (grown.held.toLaid.mem_of_onList onList)
          simp only [BLOCK_STRUCT_SIZE] at small
          omega
      rw [HeapState.Granted, HeapState.GetsPages, ensured]
      simp only [Option.mem_some_iff, forall_eq', spare, grown.runs, none, full, true_imp_iff]
  · have ensured : heap.ensureHeap (fun own pages => allocPage (own ++ elsewhere) pages) fuel
        size = some heap := by
      rw [HeapState.ensureHeap, if_neg (global ▸ none)]
    rw [HeapState.Granted, HeapState.GetsPages, ensured]
    simp only [Option.mem_some_iff, forall_eq', none, false_imp_iff, true_and, and_true,
      laid.findFirstFreeBlock_null_iff global (show l.length < fuel by omega)]

/-- The first test of `mallock` completes with a bound above the number of blocks. -/
theorem Laid.ensureHeap_completes (grants : GrantsFresh allocPage) (laid : Laid heap l)
    (global : heap.heapBase = heap.heap) (enough : l.length < fuel) :
    ∃ ready, heap.ensureHeap (fun own pages => allocPage (own ++ elsewhere) pages) fuel size =
      some ready := by
  unfold HeapState.ensureHeap
  split
  · obtain ⟨heap', extended⟩ := @HeapState.extendHeap_completes heap l fuel
      (fun own pages => allocPage (own ++ elsewhere) pages) size (pagesAsked size)
      (global ▸ laid.path) rfl (grants.not_mem laid _) enough
    exact ⟨heap', by rw [extended]; rfl⟩
  · exact ⟨heap, rfl⟩

/-- `mallock` ends up with a block with a bound above the number of blocks. -/
theorem Laid.chooseBlock_completes (grants : GrantsFresh allocPage) (laid : Laid heap l)
    (global : heap.heapBase = heap.heap) (enough : l.length < fuel) (s : Nat) :
    ∃ chosen block, heap.chooseBlock (fun own pages => allocPage (own ++ elsewhere) pages) fuel
      size s = some (chosen, block) := by
  obtain ⟨found, search⟩ := Option.isSome_iff_exists.mp
    (@HeapState.findFirstFreeBlock_isSome heap heap.heapBase l fuel s (global ▸ laid.path) enough)
  simp only [HeapState.chooseBlock, search]
  split
  · obtain ⟨heap', extended⟩ := @HeapState.extendHeap_completes heap l fuel
      (fun own pages => allocPage (own ++ elsewhere) pages) size (pagesAsked size)
      (global ▸ laid.path) rfl (grants.not_mem laid _) enough
    exact ⟨heap', _, extended⟩
  · exact ⟨heap, found, rfl⟩

/-- A call of `mallock` completes with a bound above the number of blocks, and serves the request
exactly if the request does not wrap and `allocPage` never returns NULL to the call. -/
theorem Laid.mallock_serves (grants : GrantsFresh allocPage) (refuses : RefusesAgain allocPage)
    (laid : Laid heap l) (global : heap.heapBase = heap.heap)
    (bounded : ∀ run ∈ heap.runs, run.pages ≤ NUMBER_OF_PAGES)
    (positive : size ≠ 0) (limit : size < SIZE_T) (enough : l.length + 1 < fuel) :
    ∃ ready chosen block,
      heap.ensureHeap (fun own pages => allocPage (own ++ elsewhere) pages) fuel size =
        some ready ∧
      ready.chooseBlock (fun own pages => allocPage (own ++ elsewhere) pages) fuel size
        (align4 size % SIZE_T) = some (chosen, block) ∧
      (ready.heapBase = 0 → block = 0) ∧
      ∀ q, q % SIZE_T = size →
        ((chosen.takeBlock block (align4 size % SIZE_T)).1.Serves
            (chosen.takeBlock block (align4 size % SIZE_T)).2 q ↔
          q + BLOCK_STRUCT_SIZE < SIZE_T ∧
            heap.GetsPages (fun own pages => allocPage (own ++ elsewhere) pages) size) := by
  rw [← laid.granted_iff grants global enough]
  by_cases refused : heap.heap = 0 ∧ allocPage (heap.runs ++ elsewhere) (pagesAsked size) = 0
  · obtain ⟨none, null⟩ := refused
    obtain ⟨fuel, rfl⟩ := Nat.exists_eq_add_of_lt enough
    obtain ⟨ready, chosen, ensured, choice⟩ := @HeapState.chooseBlock_twice heap size _
      (fun own pages => allocPage (own ++ elsewhere) pages) (align4 size % SIZE_T) 0
      (global.trans none) null (refuses heap.runs elsewhere _ null)
    refine ⟨ready, chosen, 0, ensured, choice, fun _ => rfl, fun q cut => ?_⟩
    exact iff_of_false (HeapState.not_serves_null _ q) fun both => both.2.1 none null
  · have first : heap.heap = 0 → allocPage (heap.runs ++ elsewhere) (pagesAsked size) ≠ 0 :=
      fun none null => refused ⟨none, null⟩
    obtain ⟨ready, ensured⟩ := @Laid.ensureHeap_completes heap l size elsewhere allocPage fuel
      grants laid global (by omega)
    obtain ⟨r, held, base, length⟩ := laid.held.ensureHeap_granted grants global first ensured
    obtain ⟨chosen, block, choice⟩ := @Laid.chooseBlock_completes ready r size elsewhere allocPage
      fuel grants held.toLaid base (by omega) (align4 size % SIZE_T)
    refine ⟨ready, chosen, block, ensured, choice, fun missing => ?_, fun q cut => ?_⟩
    · have present := HeapState.ensureHeap_ne_zero (fun none => first (global ▸ none)) ensured
      exact absurd missing present
    by_cases second : ready.findFirstFreeBlock fuel ready.heapBase (align4 size % SIZE_T) = some 0 →
        allocPage (ready.runs ++ elsewhere) (pagesAsked size) ≠ 0
    · obtain ⟨r', chose⟩ := held.chooseBlock_granted grants base second choice
      have small := laid.held.chosen_small grants global bounded first ensured second choice
      rw [chose.serves_iff small positive limit cut]
      refine (and_iff_left ⟨first, ?_⟩).symm
      rintro other isReady
      obtain rfl := Option.some.inj (ensured.symm.trans isReady)
      exact second
    · push Not at second
      obtain ⟨nothing, null⟩ := second
      have page : block = 0 := by
        simp only [HeapState.chooseBlock, nothing, if_true] at choice
        rw [HeapState.extendHeap_base choice]
        exact null
      subst page
      exact iff_of_false (HeapState.not_serves_null _ q) fun both =>
        both.2.2 ready ensured nothing null

end Calls

theorem HeapState.serves_congr {heap heap' : HeapState} (blocks : heap'.block = heap.block)
    (start : heap'.heap = heap.heap) (p bytes : Nat) :
    heap'.Serves p bytes ↔ heap.Serves p bytes := by
  have next : heap'.next = heap.next := by
    funext b
    rw [HeapState.next, blocks, HeapState.next]
  simp only [Serves, OnList, next, start, blocks]

namespace SharedHeap

variable {state : SharedHeap} {process : Nat}

/-- `sys_call_mallock`: the byte count is cut to a `size_t`. -/
def sys_call_mallock (allocPage : List PageRun → Nat → Nat) (fuel : Nat) (state : SharedHeap)
    (process qnumberOfBytes : Nat) (found : Option Nat) : Option (SharedHeap × Nat) :=
  state.mallock allocPage fuel process (qnumberOfBytes % SIZE_T) found

/-- Recording the new pages moves no block. -/
theorem addPagesToProcess_view (state : SharedHeap) (pageBase : Nat) (found : Option Nat)
    (process : Nat) :
    ((state.addPagesToProcess pageBase found).view process).block = state.block ∧
      ((state.addPagesToProcess pageBase found).view process).heap =
        (state.view process).heap ∧
      ((state.addPagesToProcess pageBase found).view process).runs = state.runsOf process := by
  cases found with
  | none => exact ⟨rfl, rfl, rfl⟩
  | some found =>
      refine ⟨rfl, ?_, rfl⟩
      by_cases same : process = found
      · simp [addPagesToProcess, view, same]
      · simp [addPagesToProcess, view, same]

/-- A request of a process completes, and is served unless it wraps or gets no pages. -/
theorem sys_call_mallock_serves {allocPage : List PageRun → Nat → Nat}
    (grants : GrantsFresh allocPage) (refuses : RefusesAgain allocPage) (well : state.Well)
    (process : Nat) : ∃ blocks, ∀ fuel, blocks < fuel → ∀ q found, ∃ after p,
      state.sys_call_mallock allocPage fuel process q found = some (after, p) ∧
      ((after.view process).Serves p q ↔ q % SIZE_T = 0 ∨ q + BLOCK_STRUCT_SIZE < SIZE_T ∧
        (state.enterHeap process).GetsPages (state.pageFor allocPage process) q) := by
  obtain ⟨lists, separate⟩ := well
  have entered : Laid (state.enterHeap process) (lists process) :=
    (separate.laid process).of_same rfl rfl rfl
  refine ⟨(lists process).length + 1, fun fuel enough q found => ?_⟩
  rw [sys_call_mallock, mallock]
  by_cases nothing : q % SIZE_T = 0
  · rw [if_pos nothing]
    exact ⟨_, _, rfl, iff_of_true (.inl rfl) (.inl nothing)⟩
  · have limit : q % SIZE_T < SIZE_T := Nat.mod_lt q (by decide)
    obtain ⟨ready, chosen, block, ensured, choice, null, serves⟩ :=
      @Laid.mallock_serves _ _ _ (state.runsElsewhere process) allocPage fuel grants refuses
        entered rfl (separate.bounded process) nothing limit enough
    have first : (state.enterHeap process).ensureHeap (state.pageFor allocPage process) fuel
        (q % SIZE_T) = some ready := ensured
    have second : ready.chooseBlock (state.pageFor allocPage process) fuel (q % SIZE_T)
        (align4 (q % SIZE_T) % SIZE_T) = some (chosen, block) := choice
    rw [if_neg nothing]
    simp only [first, second]
    refine ⟨_, _, rfl, Iff.trans ?_ ((serves q rfl).trans ?_)⟩
    · by_cases missing : ready.heapBase = 0
      · obtain rfl := null missing
        exact iff_of_false (HeapState.not_serves_null _ q) (HeapState.not_serves_null _ q)
      rw [mallock_stored missing second]
      let after := state.put process
        { (chosen.takeBlock block (align4 (q % SIZE_T) % SIZE_T)).1 with pages := ready.pages }
      have blocks : after.block = (chosen.takeBlock block (align4 (q % SIZE_T) % SIZE_T)).1.block :=
        rfl
      have start : (after.view process).heap =
          (chosen.takeBlock block (align4 (q % SIZE_T) % SIZE_T)).1.heap := by
        simp [after, view, put]
      split
      · exact @HeapState.serves_congr _ (after.view process) blocks start _ q
      · obtain ⟨same, sameStart, -⟩ := addPagesToProcess_view after block found process
        exact HeapState.serves_congr (same.trans blocks) (sameStart.trans start) _ q
    · have whole : q + BLOCK_STRUCT_SIZE < SIZE_T → q % SIZE_T = q := fun fits =>
        Nat.mod_eq_of_lt (by omega)
      constructor
      · rintro ⟨fits, granted⟩
        exact .inr ⟨fits, whole fits ▸ granted⟩
      · rintro (none | ⟨fits, granted⟩)
        · exact absurd none nothing
        · exact ⟨fits, (whole fits).symm ▸ granted⟩

end SharedHeap

/-! ## The heap of the kernel -/

def KERNEL_HEAP_START : Nat := 0x4000

def KERNEL_HEAP_SIZE : Nat := PAGE_SIZE * 17

/-- The headers in memory and the static variable `kernelBase`. -/
structure KernelHeap where
  block : Nat → HeapBlock
  kernelBase : Nat

namespace KernelHeap

/-- The list that starts at `kernelBase`. Its first header stands in front of the 17 pages
of data, so it reaches into an eighteenth page. -/
def view (kernel : KernelHeap) : HeapState where
  block := kernel.block
  heapBase := kernel.kernelBase
  heap := kernel.kernelBase
  pages := []
  runs := [⟨KERNEL_HEAP_START, 18⟩]

def initializeKernelHeap (kernel : KernelHeap) : KernelHeap where
  block := Function.update kernel.block KERNEL_HEAP_START
    { size := KERNEL_HEAP_SIZE, next := 0, prev := 0, free := true }
  kernelBase := KERNEL_HEAP_START

/-- `kmalloc`; the result `0` is NULL. -/
def kmalloc (fuel : Nat) (kernel : KernelHeap) (size : Nat) : Option (KernelHeap × Nat) :=
  if kernel.kernelBase = 0 then some (kernel, KERNEL_HEAP_START)
  else if size = 0 then some (kernel, 0)
  else
    let s := align4 size % SIZE_T
    match kernel.view.findFirstFreeBlock fuel kernel.kernelBase s with
    | none => none
    | some freeBlock =>
        if freeBlock = 0 then some (kernel, 0)
        else
          let result := kernel.view.takeBlock freeBlock s
          some ({ kernel with block := result.1.block }, result.2)

/-- One call of `kmalloc`. -/
def step (fuel : Nat) (kernel : KernelHeap) (size : Nat) : Option KernelHeap :=
  if size < SIZE_T then (kernel.kmalloc fuel size).map Prod.fst else none

/-- The invariant of the kernel's heap. -/
structure Ready (kernel : KernelHeap) (l : List Nat) : Prop where
  laid : Laid kernel.view l
  base : kernel.kernelBase ≠ 0

/-- The heap that `initializeKernelHeap` makes is one free block. -/
theorem ready_initializeKernelHeap (kernel : KernelHeap) :
    Ready kernel.initializeKernelHeap [KERNEL_HEAP_START] := by
  have header : kernel.initializeKernelHeap.block KERNEL_HEAP_START =
      ⟨KERNEL_HEAP_SIZE, 0, 0, true⟩ := by
    simp [initializeKernelHeap]
  refine ⟨⟨⟨rfl, ?_⟩, by simp [KERNEL_HEAP_START], List.pairwise_singleton .., ?_,
    List.isChain_singleton _, List.pairwise_singleton .., ?_⟩, ?_⟩
  · simp only [HeapState.next, view, Foundation.Path, header]
  · rintro block member
    obtain rfl := List.mem_singleton.mp member
    refine ⟨_, List.mem_singleton_self _, Nat.le_refl _, ?_⟩
    simp only [HeapState.extent_hi, view, header]
    decide
  · intro run isRun
    obtain rfl := List.mem_singleton.mp isRun
    decide
  · simp [initializeKernelHeap, KERNEL_HEAP_START]

variable {kernel after : KernelHeap} {l : List Nat} {fuel size p : Nat}

/-- A block that `kmalloc` finds becomes an allocation. -/
theorem Ready.takeBlock (ready : Ready kernel l) {block : Nat} (member : block ∈ l)
    (free : (kernel.block block).free = true) (s : Nat) :
    ∃ r, Laid (kernel.view.takeBlock block s).1 r ∧ block ∈ r := by
  have small := ready.laid.size_lt_pages (fun run isRun => by
    obtain rfl := List.mem_singleton.mp isRun
    decide) member
  obtain ⟨r, taken, listed⟩ := ready.laid.held.takeBlock_any member free small s
  exact ⟨r, taken.toLaid, listed⟩

/-- The view of the heap after `kmalloc` took a block. -/
theorem laid_view_takeBlock {block s : Nat} {r : List Nat}
    (laid : Laid (kernel.view.takeBlock block s).1 r) :
    Laid (view { kernel with block := (kernel.view.takeBlock block s).1.block }) r := by
  obtain ⟨runs, start⟩ := kernel.view.takeBlock_fields block s
  exact laid.of_same rfl start.symm runs.symm

/-- `kmalloc` keeps the list in order. -/
theorem Ready.kmalloc (ready : Ready kernel l)
    (called : kernel.kmalloc fuel size = some (after, p)) : ∃ r, Ready after r := by
  unfold KernelHeap.kmalloc at called
  rw [if_neg ready.base] at called
  split at called
  · obtain ⟨rfl, -⟩ := Prod.mk.inj (Option.some.inj called)
    exact ⟨l, ready⟩
  · dsimp only at called
    split at called
    · cases called
    · rename_i block found
      split at called
      · obtain ⟨rfl, -⟩ := Prod.mk.inj (Option.some.inj called)
        exact ⟨l, ready⟩
      · rename_i notNull
        obtain ⟨rfl, -⟩ := Prod.mk.inj (Option.some.inj called)
        obtain ⟨member, free, -⟩ :=
          (HeapState.findFirstFreeBlock_spec ready.laid.path found).resolve_left notNull
        obtain ⟨r, taken, -⟩ := ready.takeBlock member free (align4 size % SIZE_T)
        exact ⟨r, laid_view_takeBlock taken, ready.base⟩

/-- A request of the kernel completes, and is served unless it wraps and a block is left. -/
theorem Ready.kmalloc_serves (ready : Ready kernel l) (enough : l.length < fuel)
    (limit : size < SIZE_T) : ∃ after p, kernel.kmalloc fuel size = some (after, p) ∧
      (after.view.Serves p size ↔ size + 3 < SIZE_T ∨ kernel.view.Full 0) := by
  rw [KernelHeap.kmalloc, if_neg ready.base]
  by_cases nothing : size = 0
  · rw [if_pos nothing]
    refine ⟨_, _, rfl, iff_of_true (.inl rfl) (.inl ?_)⟩
    rw [nothing]
    decide
  · rw [if_neg nothing]
    have search := @Laid.findFirstFreeBlock_null_iff kernel.view l fuel ready.laid rfl enough
    obtain ⟨block, found⟩ := Option.isSome_iff_exists.mp
      (@HeapState.findFirstFreeBlock_isSome kernel.view kernel.kernelBase l fuel
        (align4 size % SIZE_T) ready.laid.path enough)
    simp only [found]
    split
    · rename_i null
      subst null
      have full := search.mp found
      refine ⟨_, _, rfl, iff_of_true (.inl rfl) ?_⟩
      by_cases fits : size + 3 < SIZE_T
      · exact .inl fits
      · rw [align4_of_wraps limit (Nat.not_lt.mp fits)] at full
        exact .inr full
    · rename_i notNull
      obtain ⟨member, free, room⟩ :=
        (HeapState.findFirstFreeBlock_spec ready.laid.path found).resolve_left notNull
      obtain ⟨r, taken, listed⟩ := ready.takeBlock member free (align4 size % SIZE_T)
      have serves : (view { kernel with
          block := (kernel.view.takeBlock block (align4 size % SIZE_T)).1.block }).Serves
            (kernel.view.takeBlock block (align4 size % SIZE_T)).2 size ↔
          size ≤ ((kernel.view.takeBlock block (align4 size % SIZE_T)).1.block block).size :=
        HeapState.serves_dataStart_iff.trans
          (and_iff_right ((laid_view_takeBlock taken).onList listed))
      refine ⟨_, _, rfl, ?_⟩
      rw [serves, kernel.view.takeBlock_size block (align4 size % SIZE_T)]
      by_cases fits : size + 3 < SIZE_T
      · have lower := (align4_of_fits nothing fits).1
        refine iff_of_true ?_ (.inl fits)
        split <;> omega
      · have whole := ready.laid.size_lt_pages (fun run isRun => by
          obtain rfl := List.mem_singleton.mp isRun
          decide) member
        rw [align4_of_wraps limit (Nat.not_lt.mp fits)] at room ⊢
        refine iff_of_false ?_ ?_
        · simp only [SIZE_T, show NUMBER_OF_PAGES = 1024 by rfl,
            show PAGE_SIZE = 4096 by rfl] at fits whole
          split <;> omega
        · rintro (less | full)
          · exact fits less
          · have none := full block (ready.laid.onList member) free
            omega

/-- The heap stays ready in a run of calls. -/
theorem ready_run {sizes : List Nat} {state : KernelHeap} (ready : ∃ l, Ready kernel l)
    (ran : run (step fuel) kernel sizes = some state) : ∃ l, Ready state l := by
  have kept : ∀ state size after, (∃ l, Ready state l) → step fuel state size = some after →
      ∃ l, Ready after l := by
    intro state size after ready stepped
    obtain ⟨l, ready⟩ := ready
    unfold step at stepped
    split at stepped
    · obtain ⟨⟨after, p⟩, called, rfl⟩ := Option.map_eq_some_iff.mp stepped
      exact ready.kmalloc called
    · cases stepped
  exact @run_invariant _ _ (step fuel) (fun state => ∃ l, Ready state l) kept _ _ _ ready ran

end KernelHeap

theorem boundedPages_ne_zero {runs : List PageRun} {pages : Nat} (positive : 0 < pages)
    (atMost : pages ≤ NUMBER_OF_PAGES) : SharedHeap.boundedPages runs pages ≠ 0 := by
  rw [SharedHeap.boundedPages, if_pos ⟨positive, atMost⟩]
  exact (HeapProcess.spacedPages_fresh runs pages positive).1.ne'

theorem boundedPages_refuses : RefusesAgain SharedHeap.boundedPages := by
  intro own elsewhere pages refused
  by_cases asked : 0 < pages ∧ pages ≤ NUMBER_OF_PAGES
  · exact absurd refused (boundedPages_ne_zero asked.1 asked.2)
  · exact if_neg asked

/-- Memory before `initializeKernelHeap`. -/
def noKernelHeap : KernelHeap where
  block := fun _ => ⟨0, 0, 0, false⟩
  kernelBase := 0

/-- `sys_call_mallock` serves the requests that are 0 after they were cut, and those that fit
with a header into 32 bits if they get their pages; `kmalloc` serves the requests that can be
rounded up, and the others once no free block is left. -/
theorem requests_served_iff (allocPage : List PageRun → Nat → Nat) (grants : GrantsFresh allocPage)
    (refuses : RefusesAgain allocPage) :
    (∀ (fuel : Nat) (start : SharedHeap), start.Start → ∀ actions state,
      Along (SharedHeap.step allocPage fuel) (SharedHeap.CallsOwnHeap allocPage fuel) start
        actions →
      run (SharedHeap.step allocPage fuel) start actions = some state →
      ∀ process, ∃ blocks, ∀ enough, blocks < enough → ∀ qnumberOfBytes found, ∃ after p,
        state.sys_call_mallock allocPage enough process qnumberOfBytes found = some (after, p) ∧
        ((after.view process).Serves p qnumberOfBytes ↔
          qnumberOfBytes % SIZE_T = 0 ∨ qnumberOfBytes + BLOCK_STRUCT_SIZE < SIZE_T ∧
            (state.enterHeap process).GetsPages (state.pageFor allocPage process)
              qnumberOfBytes)) ∧
    ∀ (fuel : Nat) (kernel : KernelHeap) (sizes : List Nat) (state : KernelHeap),
      run (KernelHeap.step fuel) kernel.initializeKernelHeap sizes = some state →
      ∃ blocks, ∀ enough, blocks < enough → ∀ size, size < SIZE_T → ∃ after p,
        state.kmalloc enough size = some (after, p) ∧
        (after.view.Serves p size ↔ size + 3 < SIZE_T ∨ state.view.Full 0) := by
  constructor
  · intro fuel start begins actions state within ran process
    have well : state.Well := within.invariant
      (fun state action after well meets stepped =>
        (SharedHeap.well_step grants fuel state action after well meets stepped).1) begins.well ran
    exact SharedHeap.sys_call_mallock_serves grants refuses well process
  · intro fuel kernel sizes state ran
    obtain ⟨l, ready⟩ := KernelHeap.ready_run ⟨_, kernel.ready_initializeKernelHeap⟩ ran
    exact ⟨l.length, fun enough more size limit => ready.kmalloc_serves more limit⟩

/-- Requests of 200 bytes by a process and of 20 by the kernel. -/
theorem requests_served_small : ∃ state,
    run (SharedHeap.step SharedHeap.boundedPages 10) SharedHeap.noHeaps [.mallock 0 100 none] =
      some state ∧
    (∃ blocks, ∀ enough, blocks < enough → ∃ after p,
      state.sys_call_mallock SharedHeap.boundedPages enough 0 200 none = some (after, p) ∧
        (after.view 0).Serves p 200) ∧
    ∃ blocks, ∀ enough, blocks < enough → ∃ after p,
      noKernelHeap.initializeKernelHeap.kmalloc enough 20 = some (after, p) ∧
        after.view.Serves p 20 := by
  have within : Along (SharedHeap.step SharedHeap.boundedPages 10)
      (SharedHeap.CallsOwnHeap SharedHeap.boundedPages 10) SharedHeap.noHeaps
        [.mallock 0 100 none] := by
    decide +kernel
  obtain ⟨state, ran⟩ := Option.isSome_iff_exists.mp
    (show (run (SharedHeap.step SharedHeap.boundedPages 10) SharedHeap.noHeaps
      [.mallock 0 100 none]).isSome = true by decide +kernel)
  obtain ⟨user, kernel⟩ :=
    requests_served_iff SharedHeap.boundedPages SharedHeap.boundedPages_fresh boundedPages_refuses
  obtain ⟨blocks, calls⟩ := user 10 _ SharedHeap.noHeaps_start _ state within ran 0
  obtain ⟨kernelBlocks, kernelCalls⟩ := kernel 10 noKernelHeap [] _ rfl
  refine ⟨state, ran, ⟨blocks, fun enough more => ?_⟩, kernelBlocks, fun enough more => ?_⟩
  · obtain ⟨after, p, called, serves⟩ := calls enough more 200 none
    refine ⟨after, p, called, serves.mpr (.inr ⟨by decide, fun _ => ?_, fun _ _ => ?_⟩)⟩
    · exact boundedPages_ne_zero (by decide) (by decide)
    · exact boundedPages_ne_zero (by decide) (by decide)
  · obtain ⟨after, p, called, serves⟩ := kernelCalls enough more 20 (by decide)
    exact ⟨after, p, called, serves.mpr (.inl (by decide))⟩

/-- A request of 2^32 + 100 bytes gets 100, and one of the kernel for 2^32 - 1 gets none. -/
theorem large_requests_get_less : GrantsFresh SharedHeap.boundedPages ∧
    RefusesAgain SharedHeap.boundedPages ∧ SharedHeap.noHeaps.Start ∧
    (∃ after p, SharedHeap.noHeaps.sys_call_mallock SharedHeap.boundedPages 10 0 (2 ^ 32 + 100)
        none = some (after, p) ∧ ¬ (after.view 0).Serves p (2 ^ 32 + 100)) ∧
    ∃ after p, noKernelHeap.initializeKernelHeap.kmalloc 10 (2 ^ 32 - 1) = some (after, p) ∧
      ¬ after.view.Serves p (2 ^ 32 - 1) := by
  refine ⟨SharedHeap.boundedPages_fresh, boundedPages_refuses, SharedHeap.noHeaps_start, ?_, ?_⟩
  · have result : (SharedHeap.noHeaps.sys_call_mallock SharedHeap.boundedPages 10 0 (2 ^ 32 + 100)
        none).map (fun result => (result.2, (result.1.block 0x1000000).size)) =
          some (dataStart 0x1000000, 100) := by
      decide +kernel
    obtain ⟨⟨after, p⟩, called, values⟩ := Option.map_eq_some_iff.mp result
    obtain ⟨pointer, size⟩ := Prod.mk.inj values
    refine ⟨after, p, called, fun served => ?_⟩
    rw [show p = dataStart 0x1000000 from pointer, HeapState.serves_dataStart_iff,
      show ((after.view 0).block 0x1000000).size = 100 from size] at served
    exact absurd served.2 (by decide)
  · have result : (noKernelHeap.initializeKernelHeap.kmalloc 10 (2 ^ 32 - 1)).map
        (fun result => (result.2, (result.1.block 0x4000).size)) = some (dataStart 0x4000, 0) := by
      decide +kernel
    obtain ⟨⟨after, p⟩, called, values⟩ := Option.map_eq_some_iff.mp result
    obtain ⟨pointer, size⟩ := Prod.mk.inj values
    refine ⟨after, p, called, fun served => ?_⟩
    rw [show p = dataStart 0x4000 from pointer, HeapState.serves_dataStart_iff,
      show (after.view.block 0x4000).size = 0 from size] at served
    exact absurd served.2 (by decide)

end SistemasOperativos.Kernel
