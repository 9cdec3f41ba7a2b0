import SistemasOperativos.Kernel.HeapSizes

/-!
# The page runs a process has on record

`removeProcess` gives back the entries of `p->pages`. `mallock` calls `extendHeap` a second time
without its second argument, so the run it gets is recorded for the process whose pid is read
through that argument, if there is one; and `addPagesToProcess` drops what does not fit into
the array.
-/

namespace SistemasOperativos.Kernel

open SistemasOperativos.Foundation SistemasOperativos.Semantics

namespace HeapState

/-- The addresses of the page runs, the oldest first. -/
def bases (heap : HeapState) : List Nat := (heap.runs.map PageRun.base).reverse

/-- The blocks `l` of the heap list that are the first of a page run are the entries of `pages`,
and every block lies in a run of `pages`. -/
structure OnRecord (heap : HeapState) (l : List Nat) : Prop where
  path : Path heap.next heap.heap l 0
  nonnull : 0 ∉ l
  entries : l.filter (· ∈ heap.bases) = heap.pages
  covered : ∀ block ∈ l, ∃ run ∈ heap.runs, run.base ∈ heap.pages ∧
    run.interval.Contains (heap.extent block)

/-- What `mallock` keeps when it gets its pages: each page run starts with a block of the list, in
the order in which the runs were handed out. -/
structure Runs (heap : HeapState) (l : List Nat) : Prop where
  laid : Laid heap l
  bounded : ∀ run ∈ heap.runs, run.pages ≤ NUMBER_OF_PAGES
  firsts : l.filter (· ∈ heap.bases) = heap.bases

variable {heap heap' : HeapState} {l r : List Nat} {block base pages size s fuel : Nat}
  {elsewhere : List PageRun} {allocPage : List PageRun → Nat → Nat}

/-- Blocks that are not on the shorter list are not counted. -/
theorem filter_eq_of_sublist {p : Nat → Bool} (part : l.Sublist r) (nodup : r.Nodup)
    (counted : ∀ b ∈ r, p b = true → b ∈ l) : r.filter p = l.filter p := by
  induction part with
  | slnil => rfl
  | @cons l r b part ih =>
      obtain ⟨notIn, nodup⟩ := List.nodup_cons.mp nodup
      have skipped : p b = false := by
        by_contra isCounted
        exact notIn (part.subset (counted b (List.mem_cons_self ..) (by simpa using isCounted)))
      rw [List.filter_cons_of_neg (by simp [skipped])]
      exact ih nodup fun c member => counted c (List.mem_cons_of_mem _ member)
  | @cons_cons l r b part ih =>
      obtain ⟨notIn, nodup⟩ := List.nodup_cons.mp nodup
      have rest := ih nodup fun c member isCounted =>
        (List.mem_cons.mp (counted c (List.mem_cons_of_mem _ member) isCounted)).resolve_left
          fun same => notIn (same ▸ member)
      rw [List.filter_cons, List.filter_cons, rest]

namespace Runs

/-- The order of the runs is on record exactly if `pages` holds them all. -/
theorem onRecord_iff (runs : Runs heap l) : (∃ r, OnRecord heap r) ↔ heap.pages = heap.bases := by
  constructor
  · rintro ⟨r, recorded⟩
    obtain rfl := recorded.path.unique runs.laid.path recorded.nonnull runs.laid.nonnull
    exact recorded.entries.symm.trans runs.firsts
  · intro all
    refine ⟨l, runs.laid.path, runs.laid.nonnull, runs.firsts.trans all.symm,
      fun block member => ?_⟩
    obtain ⟨i, isRun, contains⟩ := runs.laid.inside block member
    obtain ⟨run, isPages, rfl⟩ := List.mem_map.mp isRun
    refine ⟨run, isPages, ?_, contains⟩
    rw [all, bases, List.mem_reverse]
    exact List.mem_map_of_mem isPages

/-- Only the headers, the start of the list and the page runs count. -/
theorem congr (runs : Runs heap l) (blocks : heap'.block = heap.block)
    (start : heap'.heap = heap.heap) (same : heap'.runs = heap.runs) : Runs heap' l := by
  refine ⟨runs.laid.of_same blocks start same, by rw [same]; exact runs.bounded, ?_⟩
  rw [bases, same]
  exact runs.firsts

/-- A new page run stands at the end of the list. -/
theorem extend (grants : GrantsFresh allocPage) (runs : Runs heap l)
    (global : heap.heapBase = heap.heap)
    (granted : allocPage (heap.runs ++ elsewhere) (pagesAsked size) ≠ 0)
    (extended : heap.extendHeap (fun own pages => allocPage (own ++ elsewhere) pages) fuel size =
      some (heap', base)) :
    Runs heap' (l ++ [base]) ∧ heap'.heapBase = heap'.heap ∧ (heap'.block base).free = true ∧
      heap'.bases = heap.bases ++ [base] := by
  obtain ⟨-, atMost, -⟩ := grants _ _ granted
  have grown := runs.laid.held.extendHeap_granted grants global granted extended
  have added : heap'.bases = heap.bases ++ [base] := by simp [bases, grown.runs]
  refine ⟨⟨grown.held.toLaid, ?_, ?_⟩, grown.global, grown.free, added⟩
  · rw [grown.runs]
    rintro run isRun
    rcases List.mem_cons.mp isRun with rfl | older
    · exact atMost
    · exact runs.bounded run older
  · have fresh : ∀ b ∈ l, b ≠ base := fun b member same =>
      List.disjoint_of_nodup_append grown.held.toLaid.nodup member (by simp [same])
    have old : l.filter (· ∈ heap.bases ++ [base]) = l.filter (· ∈ heap.bases) := by
      refine List.filter_congr fun b member => ?_
      simp [fresh b member]
    rw [added, List.filter_append, old, runs.firsts]
    simp

/-- Cutting a block makes no block that is the first of a run. -/
theorem takeBlock (runs : Runs heap l) (member : block ∈ l)
    (free : (heap.block block).free = true) (s : Nat) :
    ∃ r, Runs (heap.takeBlock block s).1 r := by
  obtain ⟨r, taken, part⟩ := @Laid.takeBlock _ _ _ [] runs.laid member free
    (runs.laid.size_lt_pages runs.bounded member) s
  have same := (heap.takeBlock_fields block s).1
  refine ⟨r, taken.laid, by rw [same]; exact runs.bounded, ?_⟩
  have onList : ∀ b ∈ heap.bases, b ∈ l := by
    intro b isBase
    rw [← runs.firsts] at isBase
    exact List.mem_of_mem_filter isBase
  rw [bases, same]
  exact (filter_eq_of_sublist part taken.laid.nodup fun b _ isBase =>
    onList b (of_decide_eq_true isBase)).trans runs.firsts

end Runs

theorem addPagesToProcess_pages (state : HeapState) (pageBase : Nat) :
    (state.addPagesToProcess pageBase).pages =
      if MAX_PAGES_PER_PROCESS ≤ state.pages.length then state.pages
      else state.pages ++ [pageBase] := by
  unfold addPagesToProcess
  split <;> rfl

/-- `extendHeap` records the run for its second argument, if an entry is left. -/
theorem extendHeap_pages
    (extended : heap.extendHeap allocPage fuel size = some (heap', base)) :
    heap'.pages = if MAX_PAGES_PER_PROCESS ≤ heap.pages.length then heap.pages
      else heap.pages ++ [base] := by
  simp only [extendHeap] at extended
  split at extended
  · obtain ⟨rfl, rfl⟩ := Prod.mk.inj (Option.some.inj extended)
    exact addPagesToProcess_pages _ _
  · split at extended
    · cases extended
    · obtain ⟨rfl, rfl⟩ := Prod.mk.inj (Option.some.inj extended)
      exact addPagesToProcess_pages _ _

/-- The run of a first heap is recorded. -/
theorem Runs.ensureHeap (grants : GrantsFresh allocPage) (runs : Runs heap l)
    (all : heap.pages = heap.bases) (global : heap.heapBase = heap.heap)
    (granted : heap.heap = 0 → allocPage (heap.runs ++ elsewhere) (pagesAsked size) ≠ 0)
    (ensured : heap.ensureHeap (fun own pages => allocPage (own ++ elsewhere) pages) fuel size =
      some heap') :
    (∃ r, Runs heap' r) ∧ heap'.heapBase = heap'.heap ∧ heap'.pages = heap'.bases := by
  unfold HeapState.ensureHeap at ensured
  split at ensured
  · rename_i none
    obtain ⟨⟨grown, base⟩, extended, rfl⟩ := Option.map_eq_some_iff.mp ensured
    obtain rfl := runs.laid.eq_nil (global ▸ none)
    have empty : heap.bases = [] := runs.firsts.symm
    obtain ⟨more, current, -, added⟩ :=
      runs.extend grants global (granted (global ▸ none)) extended
    have recorded := extendHeap_pages extended
    rw [all, empty, if_neg (by decide)] at recorded
    exact ⟨⟨_, more⟩, current, by rw [recorded, added, empty]⟩
  · obtain rfl := Option.some.inj ensured
    exact ⟨⟨l, runs⟩, global, all⟩

end HeapState

namespace SharedHeap

variable {allocPage : List PageRun → Nat → Nat} {state after : SharedHeap} {l : List Nat}
  {process fuel size p : Nat} {found : Option Nat}

/-- One call of `mallock` by `process`, with the size and the process that is found through
the missing argument. -/
def callMallock (allocPage : List PageRun → Nat → Nat) (fuel process : Nat) (state : SharedHeap)
    (call : Nat × Option Nat) : Option SharedHeap :=
  state.step allocPage fuel (.mallock process call.1 call.2)

/-- `allocPage` does not return NULL to the call. -/
def GetsRuns (allocPage : List PageRun → Nat → Nat) (fuel process : Nat) (state : SharedHeap)
    (size : Nat) : Prop :=
  size ≠ 0 → (state.enterHeap process).Granted (state.pageFor allocPage process) fuel size

/-- If the call extends the heap for lack of a free block, the process that is found is its
caller, which has an entry left. -/
def FindsCaller (allocPage : List PageRun → Nat → Nat) (fuel process : Nat) (state : SharedHeap)
    (size : Nat) (found : Option Nat) : Prop :=
  size ≠ 0 →
    ∀ ready ∈ (state.enterHeap process).ensureHeap (state.pageFor allocPage process) fuel size,
      ready.findFirstFreeBlock fuel ready.heapBase (align4 size % SIZE_T) = some 0 →
        found = some process ∧ ready.pages.length < MAX_PAGES_PER_PROCESS

/-- The condition on a call. -/
def RecordsRuns (allocPage : List PageRun → Nat → Nat) (fuel process : Nat) (state : SharedHeap)
    (call : Nat × Option Nat) : Prop :=
  GetsRuns allocPage fuel process state call.1 ∧
    FindsCaller allocPage fuel process state call.1 call.2

instance (allocPage : List PageRun → Nat → Nat) (fuel process : Nat) (state : SharedHeap)
    (call : Nat × Option Nat) : Decidable (RecordsRuns allocPage fuel process state call) := by
  unfold RecordsRuns GetsRuns FindsCaller HeapState.Granted
  infer_instance

/-- `addPagesToProcess` records a run for the process that is found. -/
theorem addPagesToProcess_pages (state : SharedHeap) (pageBase : Nat) (found : Option Nat)
    (process : Nat) :
    ((state.addPagesToProcess pageBase found).view process).pages =
      if found = some process ∧ (state.view process).pages.length < MAX_PAGES_PER_PROCESS then
        (state.view process).pages ++ [pageBase]
      else (state.view process).pages := by
  cases found with
  | none => simp [addPagesToProcess]
  | some other =>
      by_cases same : other = process
      · subst same
        have recorded : ((state.addPagesToProcess pageBase (some other)).view other).pages =
            ((state.view other).addPagesToProcess pageBase).pages := by
          simp [addPagesToProcess, view]
        rw [recorded, HeapState.addPagesToProcess_pages]
        by_cases room : (state.view other).pages.length < MAX_PAGES_PER_PROCESS
        · rw [if_neg (Nat.not_le.mpr room), if_pos ⟨rfl, room⟩]
        · rw [if_pos (Nat.not_lt.mp room), if_neg fun both => room both.2]
      · simp [addPagesToProcess, view, same, Ne.symm same]

/-- A last run that is not in `pages` gets there if the caller is found and has an entry left. -/
theorem addPagesToProcess_records {pages : List Nat} {block : Nat}
    (runs : HeapState.Runs (state.view process) l)
    (bases : (state.view process).bases = pages ++ [block])
    (recorded : (state.view process).pages = pages) :
    HeapState.Runs ((state.addPagesToProcess block found).view process) l ∧
      (((state.addPagesToProcess block found).view process).pages =
        ((state.addPagesToProcess block found).view process).bases ↔
          found = some process ∧ pages.length < MAX_PAGES_PER_PROCESS) := by
  obtain ⟨blocks, start, same⟩ := addPagesToProcess_view state block found process
  have kept : ((state.addPagesToProcess block found).view process).bases = pages ++ [block] := by
    rw [← bases, HeapState.bases, same]
    rfl
  refine ⟨runs.congr blocks start same, ?_⟩
  rw [kept, addPagesToProcess_pages, recorded]
  split
  · rename_i finds
    exact iff_of_true rfl finds
  · rename_i dropped
    exact iff_of_false (by simp) dropped

/-- A call that gets its pages leaves every run on record exactly if the last one is recorded
for the caller. -/
theorem mallock_records (grants : GrantsFresh allocPage)
    (runs : HeapState.Runs (state.view process) l)
    (all : (state.view process).pages = (state.view process).bases)
    (gets : GetsRuns allocPage fuel process state size)
    (called : state.mallock allocPage fuel process size found = some (after, p)) :
    (∃ r, HeapState.Runs (after.view process) r) ∧
      ((after.view process).pages = (after.view process).bases ↔
        FindsCaller allocPage fuel process state size found) := by
  unfold SharedHeap.mallock at called
  split at called
  · rename_i nothing
    obtain ⟨rfl, -⟩ := Prod.mk.inj (Option.some.inj called)
    have became := put_became state process (state.enterHeap process)
    have same : (state.put process (state.enterHeap process)).runsOf process =
        state.runsOf process := became.runsOf
    refine ⟨⟨l, runs.congr rfl became.start same⟩, iff_of_true ?_ fun some => absurd nothing some⟩
    have recorded : ((state.put process (state.enterHeap process)).view process).pages =
        (state.view process).pages := by
      simp [view, put, enterHeap]
    rw [recorded, all, HeapState.bases, HeapState.bases]
    exact congrArg (fun runs => (runs.map PageRun.base).reverse) same.symm
  · rename_i positive
    have granted := gets positive
    dsimp only at called
    split at called
    · cases called
    · rename_i ready ensured
      obtain ⟨⟨r, stands⟩, current, inOrder⟩ :=
        @HeapState.Runs.ensureHeap (state.enterHeap process) ready l size fuel
          (state.runsElsewhere process) allocPage grants (runs.congr rfl rfl rfl) all rfl
          granted.1 ensured
      split at called
      · cases called
      · rename_i chosen block choice
        obtain ⟨rfl, -⟩ := Prod.mk.inj (Option.some.inj called)
        have only : FindsCaller allocPage fuel process state size found ↔
            (ready.findFirstFreeBlock fuel ready.heapBase (align4 size % SIZE_T) = some 0 →
              found = some process ∧ ready.pages.length < MAX_PAGES_PER_PROCESS) := by
          constructor
          · exact fun finds => finds positive ready ensured
          · intro finds _ ready' ensured'
            obtain rfl := Option.some.inj (ensured.symm.trans ensured')
            exact finds
        rw [only, mallock_stored (HeapState.ensureHeap_ne_zero granted.1 ensured) choice]
        let left := { (chosen.takeBlock block (align4 size % SIZE_T)).1 with pages := ready.pages }
        have became : Became state (state.put process left) process left := put_became ..
        have sameRuns : (state.put process left).runsOf process = chosen.runs :=
          became.runsOf.trans (chosen.takeBlock_fields block _).1
        have sameBases : ((state.put process left).view process).bases = chosen.bases :=
          congrArg (fun runs => (runs.map PageRun.base).reverse) sameRuns
        have samePages : ((state.put process left).view process).pages = ready.pages := by
          simp [view, put, left]
        have settle : ∀ {r}, HeapState.Runs (chosen.takeBlock block (align4 size % SIZE_T)).1 r →
            HeapState.Runs ((state.put process left).view process) r := fun taken =>
          taken.congr rfl became.start became.runsOf
        unfold HeapState.chooseBlock at choice
        split at choice
        · cases choice
        · rename_i freeBlock search
          rw [search]
          split at choice
          · rename_i null
            subst null
            obtain ⟨more, -, free, added⟩ :=
              stands.extend grants current (granted.2 ready ensured search) choice
            obtain ⟨r', taken⟩ := more.takeBlock (by simp) free (align4 size % SIZE_T)
            have grown : chosen.runs ≠ ready.runs := by
              intro same
              have bases : chosen.bases = ready.bases := by
                rw [HeapState.bases, same, HeapState.bases]
              simp [bases] at added
            rw [if_neg grown]
            obtain ⟨settled, recorded⟩ := @addPagesToProcess_records _ _ process found _ _
              (settle taken) (sameBases.trans (inOrder ▸ added)) samePages
            refine ⟨⟨r', settled⟩, ?_⟩
            simp only [true_imp_iff]
            exact recorded
          · rename_i notNull
            obtain ⟨rfl, rfl⟩ := Prod.mk.inj (Option.some.inj choice)
            obtain ⟨member, free, -⟩ := (HeapState.findFirstFreeBlock_spec
              (current ▸ stands.laid.path) search).resolve_left notNull
            obtain ⟨r', taken⟩ := stands.takeBlock member free (align4 size % SIZE_T)
            rw [if_pos rfl]
            refine ⟨⟨r', settle taken⟩, iff_of_true ?_ fun none => ?_⟩
            · exact samePages.trans (inOrder.trans sameBases.symm)
            · exact absurd (Option.some.inj none) notNull

/-- The runs of the process are in order, and all of them are in `pages`. -/
def AllRecorded (process : Nat) (state : SharedHeap) : Prop :=
  (∃ l, HeapState.Runs (state.view process) l) ∧
    (state.view process).pages = (state.view process).bases

/-- One call from a state in which every run is recorded. -/
theorem AllRecorded.callMallock (grants : GrantsFresh allocPage) {call : Nat × Option Nat}
    (all : AllRecorded process state) (gets : GetsRuns allocPage fuel process state call.1)
    (called : state.callMallock allocPage fuel process call = some after) :
    (∃ l, HeapState.Runs (after.view process) l) ∧
      ((after.view process).pages = (after.view process).bases ↔
        FindsCaller allocPage fuel process state call.1 call.2) := by
  obtain ⟨⟨l, runs⟩, inOrder⟩ := all
  simp only [SharedHeap.callMallock, step] at called
  split at called
  · obtain ⟨⟨left, p⟩, allocated, rfl⟩ := Option.map_eq_some_iff.mp called
    have recorded := mallock_records grants runs inOrder gets allocated
    exact recorded
  · cases called

end SharedHeap

/-- From a process without a heap: while its calls get their pages and find their caller, the
page runs on its heap list are its entries in `pages`. A further call that gets its pages
leaves them so exactly if it finds its caller. -/
theorem page_runs_recorded (allocPage : List PageRun → Nat → Nat) (grants : GrantsFresh allocPage)
    (fuel process : Nat) (start : SharedHeap) (begins : start.fields process = ⟨0, []⟩)
    (none : start.runsOf process = []) (calls : List (Nat × Option Nat)) (state : SharedHeap)
    (within : Along (SharedHeap.callMallock allocPage fuel process)
      (SharedHeap.RecordsRuns allocPage fuel process) start calls)
    (ran : run (SharedHeap.callMallock allocPage fuel process) start calls = some state) :
    (∃ l, (state.view process).OnRecord l) ∧
      ∀ call after, SharedHeap.GetsRuns allocPage fuel process state call.1 →
        state.callMallock allocPage fuel process call = some after →
        ((∃ l, (after.view process).OnRecord l) ↔
          SharedHeap.RecordsRuns allocPage fuel process state call) := by
  have empty : SharedHeap.AllRecorded process start := by
    have noRuns : (start.view process).runs = [] := none
    have fields : (start.view process).heap = 0 ∧ (start.view process).pages = [] := by
      simp [SharedHeap.view, begins]
    refine ⟨⟨[], ⟨fields.1, by simp, by simp, by simp, List.isChain_nil, ?_, ?_⟩, ?_, ?_⟩, ?_⟩
    · simp [HeapState.regions, noRuns]
    · simp [HeapState.regions, noRuns]
    · simp [noRuns]
    · simp [HeapState.bases, noRuns]
    · simp [HeapState.bases, noRuns, fields.2]
  have kept : ∀ state call after, SharedHeap.AllRecorded process state →
      SharedHeap.RecordsRuns allocPage fuel process state call →
      state.callMallock allocPage fuel process call = some after →
      SharedHeap.AllRecorded process after := by
    intro state call after all meets called
    obtain ⟨runs, inOrder⟩ := all.callMallock grants meets.1 called
    exact ⟨runs, inOrder.mpr meets.2⟩
  have all : SharedHeap.AllRecorded process state := within.invariant kept empty ran
  obtain ⟨⟨l, runs⟩, inOrder⟩ := id all
  refine ⟨runs.onRecord_iff.mpr inOrder, fun call after gets called => ?_⟩
  obtain ⟨⟨r, runs'⟩, recorded⟩ := all.callMallock grants gets called
  rw [runs'.onRecord_iff, recorded]
  exact (and_iff_right gets).symm

/-- A second page run that is recorded for the caller. -/
theorem page_runs_recorded_twice : ∃ state,
    run (SharedHeap.callMallock SharedHeap.boundedPages 10 0) SharedHeap.noHeaps
      [(100, none), (5000, some 0)] = some state ∧ ∃ l, (state.view 0).OnRecord l := by
  have within : Along (SharedHeap.callMallock SharedHeap.boundedPages 10 0)
      (SharedHeap.RecordsRuns SharedHeap.boundedPages 10 0) SharedHeap.noHeaps
        [(100, none), (5000, some 0)] := by
    decide +kernel
  obtain ⟨state, ran⟩ := Option.isSome_iff_exists.mp
    (show (run (SharedHeap.callMallock SharedHeap.boundedPages 10 0) SharedHeap.noHeaps
      [(100, none), (5000, some 0)]).isSome = true by decide +kernel)
  exact ⟨state, ran, (page_runs_recorded SharedHeap.boundedPages SharedHeap.boundedPages_fresh 10 0
    _ rfl rfl _ state within ran).1⟩

/-- A second page run of which the process that is found is nobody. -/
theorem second_run_not_recorded : GrantsFresh SharedHeap.boundedPages ∧
    SharedHeap.noHeaps.Start ∧ ∃ state,
      run (SharedHeap.callMallock SharedHeap.boundedPages 10 0) SharedHeap.noHeaps
        [(100, none), (5000, none)] = some state ∧ (state.view 0).pages = [0x1000000] ∧
      ¬ ∃ l, (state.view 0).OnRecord l := by
  refine ⟨SharedHeap.boundedPages_fresh, SharedHeap.noHeaps_start, ?_⟩
  have result : (run (SharedHeap.callMallock SharedHeap.boundedPages 10 0) SharedHeap.noHeaps
      [(100, none), (5000, none)]).map (fun state => ((state.view 0).pages, (state.view 0).heap,
        (state.block 0x1000000).next, (state.block 0x1000080).next,
        decide (0x1002000 ∈ (state.view 0).bases))) =
      some ([0x1000000], 0x1000000, 0x1000080, 0x1002000, true) := by
    decide +kernel
  obtain ⟨state, ran, values⟩ := Option.map_eq_some_iff.mp result
  simp only [Prod.mk.injEq, decide_eq_true_eq] at values
  obtain ⟨pages, heap, second, third, isBase⟩ := values
  refine ⟨state, ran, pages, ?_⟩
  rintro ⟨l, recorded⟩
  have path : Path (state.view 0).next (state.view 0).heap [0x1000000, 0x1000080] 0x1002000 :=
    ⟨heap, second, third⟩
  have listed := recorded.path.mem_of_arrives path (by decide) (by decide)
  have entry : 0x1002000 ∈ l.filter (· ∈ (state.view 0).bases) :=
    List.mem_filter.mpr ⟨listed, decide_eq_true isBase⟩
  rw [recorded.entries, pages] at entry
  exact absurd entry (by decide)

end SistemasOperativos.Kernel
