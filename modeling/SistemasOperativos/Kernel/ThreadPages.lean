import SistemasOperativos.Kernel.BuddyFrame
import SistemasOperativos.Kernel.BuddyObservation
import SistemasOperativos.Kernel.SchedulerRing

/-!
# The pages of a thread

`createThread` takes a page for the thread and two pages for each of its stacks, and keeps of
the stacks only where they end. `freeThreadPages` gives back what stands at these ends: one of
the two pages of the user stack, and the page behind the kernel stack, whose own block stays
marked (`freeThreadPages_leaves_kernelStack`). A call of `createThread` that cannot add a
thread, here with the NULL pointers it goes on with, never leaves things as they were
(`createThread_never_fails_cleanly`).
-/

namespace SistemasOperativos.Kernel

open SistemasOperativos.Foundation SistemasOperativos.Semantics

/-! ## The three calls of allocPage -/

/-- The calls of `allocPage` for the thread, its user stack and its kernel stack. -/
def TakesPages (before after : BuddyArray) (t page1 page2 : Option Nat) : Prop :=
  ∃ first second, allocPage before (NUMBER_OF_PAGES_TO_ALLOC sizeofThread) = (first, t) ∧
    allocPage first 2 = (second, page1) ∧ allocPage second 2 = (after, page2)

/-- A call that finds no node keeps the marks, and one that does keeps them too. -/
theorem allocPage_kept {before after : BuddyArray} {pages : Nat} {page : Option Nat}
    (shaped : before.Shaped) (search : allocPage before pages = (after, page)) :
    after.Shaped ∧ Kept before after := by
  cases page with
  | none =>
      rw [allocPage_null shaped.heapLevel search]
      exact ⟨shaped, .refl before⟩
  | some page =>
      obtain ⟨-, -, w, -, taken, -, -⟩ := allocPage_taken shaped.base shaped.heapLevel search
      exact ⟨taken.shaped shaped, taken.kept⟩

/-- The node of two pages that a call takes: empty before, and full after. -/
theorem allocPage_pair {before after : BuddyArray} {page : Nat} (shaped : before.Shaped)
    (search : allocPage before 2 = (after, some page)) :
    ∃ w, 512 ≤ w ∧ w < 1024 ∧ page = baseMemory + PAGE_SIZE * (2 * w - 1024) ∧
      w = (Block.mk page 2).node ∧ before.mark w = .EMPTY ∧ after.mark w = .BUDDY_FULL := by
  obtain ⟨-, -, w, -, taken, placed, node⟩ :=
    allocPage_taken shaped.base shaped.heapLevel search
  have height : (Block.mk page 2).height = 1 := show Nat.clog 2 2 = 1 by decide
  have lower := placed.lower
  have upper := placed.upper
  have aligned := placed.aligned
  have address := placed.address
  rw [node, height] at lower upper aligned
  rw [aligned] at address
  refine ⟨w, by omega, by omega, ?_, node.symm, taken.empty, taken.full⟩
  rwa [Nat.pow_one, Nat.mul_comm w] at address

/-- A call that takes a single page leaves the parent of its leaf marked. -/
theorem allocPage_single {before after : BuddyArray} {page : Nat} (shaped : before.Shaped)
    (search : allocPage before 1 = (after, some page)) :
    ∃ leaf, 1024 ≤ leaf ∧ leaf < 2048 ∧ page = baseMemory + PAGE_SIZE * (leaf - 1024) ∧
      after.mark (leaf / 2) ≠ .EMPTY := by
  obtain ⟨-, -, leaf, root, taken, placed, node⟩ :=
    allocPage_taken shaped.base shaped.heapLevel search
  have height : (Block.mk page 1).height = 0 := show Nat.clog 2 1 = 0 by decide
  have aligned := placed.aligned
  have bounds := placed.leaf_bounds
  rw [node, height, Nat.pow_zero, Nat.mul_one] at aligned
  refine ⟨leaf, aligned ▸ bounds.1, aligned ▸ bounds.2, aligned ▸ placed.address, ?_⟩
  have above := taken.above 0 (by decide)
  rw [Nat.pow_zero, Nat.div_one, taken.full, if_pos rfl, Nat.zero_add, Nat.pow_one] at above
  rw [above]
  split <;> simp

/-- Three calls that succeed: the node of the kernel stack is not that of the user stack, and
not above the leaf of the thread. -/
theorem TakesPages.kernelStack {before after : BuddyArray} {t page1 page2 : Nat}
    (took : TakesPages before after (some t) (some page1) (some page2))
    (shaped : before.Shaped) :
    ∃ leaf w1 w2, 1024 ≤ leaf ∧ leaf < 2048 ∧ t = baseMemory + PAGE_SIZE * (leaf - 1024) ∧
      512 ≤ w1 ∧ w1 < 1024 ∧ page1 = baseMemory + PAGE_SIZE * (2 * w1 - 1024) ∧
      512 ≤ w2 ∧ w2 < 1024 ∧ page2 = baseMemory + PAGE_SIZE * (2 * w2 - 1024) ∧
      w2 = (Block.mk page2 2).node ∧ after.mark w2 = .BUDDY_FULL ∧ w1 ≠ w2 ∧ leaf / 2 ≠ w2 := by
  obtain ⟨first, second, single, user, kernel⟩ := took
  obtain ⟨firstShaped, -⟩ := allocPage_kept shaped single
  obtain ⟨secondShaped, between⟩ := allocPage_kept firstShaped user
  obtain ⟨leaf, leafLower, leafUpper, address, marked⟩ := allocPage_single shaped single
  obtain ⟨w1, lower1, upper1, address1, -, -, full1⟩ := allocPage_pair firstShaped user
  obtain ⟨w2, lower2, upper2, address2, node2, empty2, full2⟩ := allocPage_pair secondShaped kernel
  refine ⟨leaf, w1, w2, leafLower, leafUpper, address, lower1, upper1, address1, lower2, upper2,
    address2, node2, full2, ?_, ?_⟩
  · rintro rfl
    rw [empty2] at full1
    cases full1
  · rintro rfl
    exact marked (between.empty _ (by omega) empty2)

/-- A call that takes the pages of the user stack has changed the marks. -/
theorem TakesPages.changes {before after : BuddyArray} {t page2 : Option Nat} {page1 : Nat}
    (took : TakesPages before after t (some page1) page2) (shaped : before.Shaped) :
    after.occupied ≠ before.occupied := by
  obtain ⟨first, second, single, user, kernel⟩ := took
  obtain ⟨firstShaped, earlier⟩ := allocPage_kept shaped single
  obtain ⟨secondShaped, -⟩ := allocPage_kept firstShaped user
  obtain ⟨-, later⟩ := allocPage_kept secondShaped kernel
  obtain ⟨w, lower, -, -, -, empty, full⟩ := allocPage_pair firstShaped user
  have was : before.mark w = .EMPTY := earlier.empty w (by omega) empty
  have now : after.mark w = .BUDDY_FULL := later.full w (by omega) full
  intro same
  rw [BuddyArray.mark, same, ← BuddyArray.mark, was] at now
  cases now

theorem takesPages_of_allocPages {before after : BuddyArray} {t page1 page2 : Nat}
    (took : allocPages before [1, 2, 2] = some (after, [⟨t, 1⟩, ⟨page1, 2⟩, ⟨page2, 2⟩])) :
    TakesPages before after (some t) (some page1) (some page2) := by
  rcases single : allocPage before 1 with ⟨first, _ | page⟩
  · simp [allocPages, single] at took
  · rcases user : allocPage first 2 with ⟨second, _ | page⟩
    · simp [allocPages, single, user] at took
    · rcases kernel : allocPage second 2 with ⟨third, _ | page⟩
      · simp [allocPages, single, user, kernel] at took
      · simp only [allocPages, single, user, kernel, Option.map_some, Option.some.injEq,
          Prod.mk.injEq, List.cons.injEq, Block.mk.injEq, and_true] at took
        obtain ⟨rfl, rfl, rfl, rfl⟩ := took
        exact ⟨first, second, single, user, kernel⟩

/-! ## createThread with NULL pointers -/

namespace Scheduler

variable {s made : Scheduler} {entryPoint p : Nat}

/-- A call of `allocPage`, whatever it returns. -/
def allocPageOrNull (s : Scheduler) (pages : Nat) : Scheduler × Nat :=
  let (buddyArray, page) := Kernel.allocPage s.buddyArray pages
  ({ s with buddyArray }, page.getD NULL)

/-- `createThread` whatever its calls of `allocPage` return: what it answers, and the pointers
that it writes through. `fillStackFrame` writes below the end of `page1`. -/
def createThreadThrough (s : Scheduler) (entryPoint p : Nat) : Scheduler × Int × List Nat :=
  let (s, t) := s.allocPageOrNull (NUMBER_OF_PAGES_TO_ALLOC sizeofThread)
  let (s, page1) := s.allocPageOrNull 2
  let (s, page2) := s.allocPageOrNull 2
  let userStack := page1 + 2 * PAGE_SIZE
  let kernelStack := page2 + 2 * PAGE_SIZE
  let stack := fillStackFrame userStack
  match findNextSpot (s.process p).thread 3 with
  | (_, none) => (s, -1, [page1])
  | (thread, some index) =>
      let s := s.setProcess p
        { s.process p with
          numberOfThreads := (s.process p).numberOfThreads + 1
          thread := thread.set index t index.isLt }
      (s.setThread t ⟨stack, kernelStack, entryPoint⟩, 0, [page1, p, t])

theorem createThreadThrough_eq {after : BuddyArray} {t page1 page2 : Option Nat}
    (took : TakesPages s.buddyArray after t page1 page2) :
    s.createThreadThrough entryPoint p =
      match findNextSpot (s.process p).thread 3 with
      | (_, none) => ({ s with buddyArray := after }, -1, [page1.getD NULL])
      | (thread, some index) =>
          (({ s with buddyArray := after }.setProcess p
              { s.process p with
                numberOfThreads := (s.process p).numberOfThreads + 1
                thread := thread.set index (t.getD NULL) index.isLt }).setThread (t.getD NULL)
            ⟨fillStackFrame (page1.getD NULL + 2 * PAGE_SIZE), page2.getD NULL + 2 * PAGE_SIZE,
              entryPoint⟩, 0, [page1.getD NULL, p, t.getD NULL]) := by
  obtain ⟨first, second, single, user, kernel⟩ := took
  simp only [createThreadThrough, allocPageOrNull, single, user, kernel]

/-- Where no call of `allocPage` returns NULL it is the `createThread` of the scheduler. -/
theorem createThread_eq {after : BuddyArray} {t page1 page2 : Nat}
    (took : TakesPages s.buddyArray after (some t) (some page1) (some page2)) :
    s.createThread entryPoint p =
      some ((s.createThreadThrough entryPoint p).1, (s.createThreadThrough entryPoint p).2.1) := by
  rw [createThreadThrough_eq took]
  obtain ⟨first, second, single, user, kernel⟩ := took
  simp only [createThread, allocPage, single, user, kernel, Option.bind_eq_bind,
    Option.bind_some, Option.getD_some]
  rcases findNextSpot (s.process p).thread 3 with ⟨thread, _ | index⟩ <;> rfl

theorem findNextSpot_eq_none_iff {t : Vector Nat MAX_THREADS} {dim : Nat} :
    (findNextSpot t dim).2 = none ↔ ∀ i : Fin MAX_THREADS, i.val < dim → t.get i ≠ NULL := by
  unfold findNextSpot
  split
  · rename_i i found
    have free := List.find?_some found
    simp only [decide_eq_true_eq] at free
    exact iff_of_false (by simp) fun none => none i free.1 free.2
  · rename_i none
    refine iff_of_true rfl fun i inside null => ?_
    have skipped := List.find?_eq_none.mp none i (List.mem_finRange i)
    exact skipped (decide_eq_true ⟨inside, null⟩)

/-- The process has no entry for another thread, or a call of `allocPage` returns NULL. -/
def CannotAdd (s : Scheduler) (p : Nat) : Prop :=
  (∀ i : Fin MAX_THREADS, i.val < 3 → (s.process p).thread.get i ≠ NULL) ∨
    ∃ after t page1 page2, TakesPages s.buddyArray after t page1 page2 ∧
      (t = none ∨ page1 = none ∨ page2 = none)

/-- The call failed and left things as they were. -/
structure FailsCleanly (s : Scheduler) (p : Nat) (result : Scheduler × Int × List Nat) :
    Prop where
  answer : result.2.1 = -1
  marks : result.1.buddyArray.occupied = s.buddyArray.occupied
  thread : (result.1.process p).thread = (s.process p).thread
  numberOfThreads : (result.1.process p).numberOfThreads = (s.process p).numberOfThreads
  noNull : NULL ∉ result.2.2

/-- A process without a free entry: the call fails, but has taken pages or has written a frame
through NULL. -/
theorem createThread_without_entry (shaped : s.buddyArray.Shaped)
    (occupied : ∀ i : Fin MAX_THREADS, i.val < 3 → (s.process p).thread.get i ≠ NULL) :
    ∃ after written, s.createThreadThrough entryPoint p =
        ({ s with buddyArray := after }, -1, written) ∧
      (after.occupied ≠ s.buddyArray.occupied ∨ NULL ∈ written) := by
  rcases single : Kernel.allocPage s.buddyArray (NUMBER_OF_PAGES_TO_ALLOC sizeofThread) with
    ⟨first, t⟩
  rcases user : Kernel.allocPage first 2 with ⟨second, page1⟩
  rcases kernel : Kernel.allocPage second 2 with ⟨after, page2⟩
  have took : TakesPages s.buddyArray after t page1 page2 := ⟨first, second, single, user, kernel⟩
  have noEntry := findNextSpot_eq_none_iff.mpr occupied
  refine ⟨after, [page1.getD NULL], ?_, ?_⟩
  · rw [createThreadThrough_eq took]
    split
    · rfl
    · rename_i found
      rw [found] at noEntry
      cases noEntry
  · cases page1 with
    | none => exact .inr (List.mem_singleton.mpr rfl)
    | some page => exact .inl (took.changes shaped)

/-- A process with a free entry: the call answers 0 and adds a thread, also the NULL one. -/
theorem createThread_with_entry {i : Fin MAX_THREADS} (inside : i.val < 3)
    (free : (s.process p).thread.get i = NULL) :
    (s.createThreadThrough entryPoint p).2.1 = 0 ∧
      ((s.createThreadThrough entryPoint p).1.process p).numberOfThreads =
        (s.process p).numberOfThreads + 1 := by
  rcases single : Kernel.allocPage s.buddyArray (NUMBER_OF_PAGES_TO_ALLOC sizeofThread) with
    ⟨first, t⟩
  rcases user : Kernel.allocPage first 2 with ⟨second, page1⟩
  rcases kernel : Kernel.allocPage second 2 with ⟨after, page2⟩
  rw [createThreadThrough_eq ⟨first, second, single, user, kernel⟩]
  split
  · rename_i none
    have full := findNextSpot_eq_none_iff.mp (congrArg Prod.snd none)
    exact absurd free (full i inside)
  · simp [setThread, setProcess]

/-- A call of `createThread` that cannot add a thread never leaves things as they were: without
a free entry it answers -1 but has taken pages or written through NULL, and with one it answers
0 and counts a thread. -/
theorem createThread_never_fails_cleanly (shaped : s.buddyArray.Shaped) (entryPoint p : Nat) :
    (s.CannotAdd p → ¬ s.FailsCleanly p (s.createThreadThrough entryPoint p)) ∧
      ((∀ i : Fin MAX_THREADS, i.val < 3 → (s.process p).thread.get i ≠ NULL) →
        ∃ after written, s.createThreadThrough entryPoint p =
            ({ s with buddyArray := after }, -1, written) ∧
          (after.occupied ≠ s.buddyArray.occupied ∨ NULL ∈ written)) ∧
      ((∃ i : Fin MAX_THREADS, i.val < 3 ∧ (s.process p).thread.get i = NULL) →
        (s.createThreadThrough entryPoint p).2.1 = 0 ∧
          ((s.createThreadThrough entryPoint p).1.process p).numberOfThreads =
            (s.process p).numberOfThreads + 1) := by
  refine ⟨fun _ clean => ?_, createThread_without_entry shaped, ?_⟩
  · by_cases occupied : ∀ i : Fin MAX_THREADS, i.val < 3 → (s.process p).thread.get i ≠ NULL
    · obtain ⟨after, written, result, spoiled⟩ :=
        @createThread_without_entry s entryPoint p shaped occupied
      rw [result] at clean
      rcases spoiled with changed | null
      · exact changed clean.marks
      · exact clean.noNull null
    · push Not at occupied
      obtain ⟨i, inside, free⟩ := occupied
      have answer := clean.answer
      rw [(createThread_with_entry inside free).1] at answer
      cases answer
  · rintro ⟨i, inside, free⟩
    exact createThread_with_entry inside free

/-- A process with three threads, in a memory where nothing is taken. -/
def busyMemory : Scheduler :=
  { SchedulerRun.emptyMemory with
    process := fun _ =>
      ⟨0, .running, 0, 3, Vector.replicate _ 1, NULL, 0, Vector.replicate _ NULL⟩ }

theorem busyMemory_never_fails_cleanly : busyMemory.CannotAdd 0x1000000 ∧
    ¬ busyMemory.FailsCleanly 0x1000000 (busyMemory.createThreadThrough 0x400000 0x1000000) := by
  have shaped : busyMemory.buddyArray.Shaped := by
    constructor
    · rfl
    · rw [busyMemory, SchedulerRun.emptyMemory, createHeap_eq]
  have cannot : busyMemory.CannotAdd 0x1000000 := .inl fun i _ => by
    simp [busyMemory, Vector.get]
  exact ⟨cannot, (createThread_never_fails_cleanly shaped 0x400000 0x1000000).1 cannot⟩

/-- The first process with two threads beside its main one, and where it stands. -/
def threeThreads : Option (Scheduler × Nat) := do
  let (s, _) ← SchedulerRun.emptyMemory.createProcess 0x400000
  let p := (s.slot s.current).process
  let (s, _) ← s.createThread 0x500000 p
  let (s, _) ← s.createThread 0x600000 p
  some (s, p)

/-- A further call answers -1, and the pages that it has taken stay marked. -/
theorem fourth_thread_loses_pages : ∃ s p, threeThreads = some (s, p) ∧ s.CannotAdd p ∧
    (s.createThreadThrough 0x700000 p).2.1 = -1 ∧
    s.buddyArray.mark 522 = .EMPTY ∧
    (s.createThreadThrough 0x700000 p).1.buddyArray.mark 522 = .BUDDY_FULL ∧
    ¬ s.FailsCleanly p (s.createThreadThrough 0x700000 p) := by
  have result : threeThreads.map (fun made => decide
      ((∀ i : Fin MAX_THREADS, i.val < 3 → (made.1.process made.2).thread.get i ≠ NULL) ∧
        (made.1.createThreadThrough 0x700000 made.2).2.1 = -1 ∧
        made.1.buddyArray.mark 522 = .EMPTY ∧
        (made.1.createThreadThrough 0x700000 made.2).1.buddyArray.mark 522 = .BUDDY_FULL)) =
      some true := by
    rw [threeThreads, SchedulerRun.emptyMemory, createHeap_eq]
    decide +kernel
  obtain ⟨⟨s, p⟩, made, facts⟩ := Option.map_eq_some_iff.mp result
  obtain ⟨occupied, answer, before, after⟩ := of_decide_eq_true facts
  refine ⟨s, p, made, .inl occupied, answer, before, after, fun clean => ?_⟩
  rw [BuddyArray.mark, clean.marks] at after
  rw [BuddyArray.mark, after] at before
  cases before

end Scheduler

/-! ## Giving the pages back -/

/-- No mark on the way from the root to the page says that the page is in use. -/
def BuddyArray.PageFree (heap : BuddyArray) (leaf : Nat) : Prop :=
  ∀ v, Covers v leaf → heap.mark v ≠ .BUDDY_FULL

/-- The leaf computed from an address inside a page, or from the end of the arena. -/
theorem leaf_of_inside {leaf cleared page offset : Nat} (lower : 1024 ≤ leaf)
    (upper : leaf ≤ 2048) (inside : offset < PAGE_SIZE)
    (address : page = baseMemory + PAGE_SIZE * (leaf - 1024) + offset)
    (number : (cleared : Int) = 1024 + pageIndex page) : cleared = leaf := by
  have distance : (page : Int) - baseMemory =
      ((offset + PAGE_SIZE * (leaf - 1024) : Nat) : Int) := by
    rw [address]
    push_cast
    ring
  have quotient : (offset + PAGE_SIZE * (leaf - 1024)) / PAGE_SIZE = leaf - 1024 := by
    rw [Nat.add_mul_div_left _ _ (by decide), Nat.div_eq_of_lt inside, Nat.zero_add]
  have index : pageIndex page = ((leaf - 1024 : Nat) : Int) := by
    rw [pageIndex, distance, ← Int.ofNat_tdiv, quotient]
    exact Int.bmod_eq_of_le (by omega) (by omega)
  omega

/-- An address in a block of two pages leads to one of the two leaves of its node. -/
theorem leaf_of_pair {w cleared page : Nat} (lower : 512 ≤ w) (upper : w < 1024)
    (first : baseMemory + PAGE_SIZE * (2 * w - 1024) ≤ page)
    (last : page < baseMemory + PAGE_SIZE * (2 * w - 1024) + 2 * PAGE_SIZE)
    (number : (cleared : Int) = 1024 + pageIndex page) : cleared / 2 = w := by
  obtain ⟨offset, rfl⟩ := Nat.exists_eq_add_of_le first
  obtain ⟨number', rest, inside, rfl⟩ :
      ∃ number' rest, rest < PAGE_SIZE ∧ offset = PAGE_SIZE * number' + rest :=
    ⟨_, _, Nat.mod_lt _ (by decide), (Nat.div_add_mod offset PAGE_SIZE).symm⟩
  have within : number' < 2 := by
    refine Nat.lt_of_mul_lt_mul_left (show PAGE_SIZE * number' < PAGE_SIZE * 2 from ?_)
    omega
  have address : baseMemory + PAGE_SIZE * (2 * w - 1024) + (PAGE_SIZE * number' + rest) =
      baseMemory + PAGE_SIZE * (2 * w + number' - 1024) + rest := by
    rw [show 2 * w + number' - 1024 = 2 * w - 1024 + number' by omega, Nat.mul_add]
    omega
  have leaf := leaf_of_inside (by omega) (by omega) inside address number
  omega

namespace Scheduler

variable {s after : Scheduler}

/-- `deallocPage` keeps the mark of a node that is not above the entry it clears. -/
theorem deallocPage_mark {page v : Nat} (freed : s.deallocPage page = some after) (positive : 0 < v)
    (aside : ∀ leaf : Nat, leaf < 2048 → (leaf : Int) = 1024 + pageIndex page →
      ¬ Covers v leaf) :
    after.buddyArray.mark v = s.buddyArray.mark v ∧ after.thread = s.thread := by
  obtain ⟨⟨heap, answer⟩, cleared, rfl⟩ := Option.map_eq_some_iff.mp freed
  refine ⟨?_, rfl⟩
  by_cases inside : Indexes page
  · obtain ⟨node, middle, number, result, -, frame⟩ := deallocPage_inside inside s.buddyArray
    obtain ⟨rfl, -⟩ := Prod.mk.inj (Option.some.inj (result.symm.trans cleared))
    by_contra changed
    have above := frame (v - 1) changed
    rw [Nat.sub_add_cancel positive] at above
    have last := inside.2
    exact aside node (by omega) number above
  · rw [deallocPage_outside inside] at cleared
    cases cleared

/-- `freeThreadPages` keeps the mark of a node that is above none of the entries it clears. -/
theorem freeThreadPages_mark {t v : Nat} (freed : s.freeThreadPages t = some after)
    (positive : 0 < v)
    (aside : ∀ page ∈ [(s.thread t).userStack, (s.thread t).kernelStack, t], ∀ leaf : Nat,
      leaf < 2048 → (leaf : Int) = 1024 + pageIndex page → ¬ Covers v leaf) :
    after.buddyArray.mark v = s.buddyArray.mark v := by
  obtain ⟨first, user, freed⟩ := Option.bind_eq_some_iff.mp freed
  obtain ⟨second, kernel, last⟩ := Option.bind_eq_some_iff.mp freed
  obtain ⟨mark₁, thread₁⟩ := deallocPage_mark user positive (aside _ (by simp))
  rw [thread₁] at kernel
  obtain ⟨mark₂, -⟩ := deallocPage_mark kernel positive (aside _ (by simp))
  obtain ⟨mark₃, -⟩ := deallocPage_mark last positive (aside _ (by simp))
  rw [mark₃, mark₂, mark₁]

/-- The pages of `own` are free after the call, and those of `others` are still in use. -/
def GivesBack (own others : List Block) (result : Option Scheduler) : Prop :=
  ∃ after, result = some after ∧
    (∀ block ∈ own, ∀ leaf, 1024 ≤ leaf → leaf < 2048 → Covers block.node leaf →
      after.buddyArray.PageFree leaf) ∧
    ∀ block ∈ others, ∀ leaf, 1024 ≤ leaf → leaf < 2048 → Covers block.node leaf →
      ¬ after.buddyArray.PageFree leaf

/-- A block whose node is still full has not been given back. -/
theorem not_givesBack {own others : List Block} {result : Option Scheduler} {block : Block}
    (member : block ∈ own) (lower : 512 ≤ block.node) (upper : block.node < 1024)
    (full : ∀ after, result = some after → after.buddyArray.mark block.node = .BUDDY_FULL) :
    ¬ GivesBack own others result := by
  rintro ⟨after, returned, free, -⟩
  have above : Covers block.node (2 * block.node) := ⟨by omega, 1, by omega⟩
  exact free block member (2 * block.node) (by omega) (by omega) above block.node above
    (full after returned)

/-- The thread that `createThread` has made. -/
theorem createThread_made {made : Scheduler} {entryPoint p : Nat}
    (created : s.createThread entryPoint p = some (made, 0)) :
    ∃ t page1 page2, TakesPages s.buddyArray made.buddyArray (some t) (some page1) (some page2) ∧
      made.thread t = ⟨fillStackFrame (page1 + 2 * PAGE_SIZE), page2 + 2 * PAGE_SIZE, entryPoint⟩ ∧
      ∃ i, (made.process p).thread.get i = t := by
  obtain ⟨t, page1, page2, allocated, -⟩ := createThread_allocates created
  have took := takesPages_of_allocPages allocated
  refine ⟨t, page1, page2, took, ?_⟩
  rw [createThread_eq took, createThreadThrough_eq took] at created
  split at created
  · cases (Prod.mk.inj (Option.some.inj created)).2
  · rename_i thread i found
    rw [← (Prod.mk.inj (Option.some.inj created)).1]
    refine ⟨by simp [setThread], i, ?_⟩
    simp only [setThread, setProcess, Option.getD_some, Function.update_self]
    exact Vector.getElem_set_self i.isLt

/-- Whatever the marks are when `createThread` makes a thread, `freeThreadPages` never gives
back its three blocks: in every state in which the thread still has its kernel stack, and its
`userStack` points into its own two pages, the block of the kernel stack is as full after the
call as before. -/
theorem freeThreadPages_leaves_kernelStack {made : Scheduler} {entryPoint p : Nat}
    (shaped : s.buddyArray.Shaped) (created : s.createThread entryPoint p = some (made, 0)) :
    ∃ t page1 page2, TakesPages s.buddyArray made.buddyArray (some t) (some page1) (some page2) ∧
      (∃ i, (made.process p).thread.get i = t) ∧
      made.thread t = ⟨fillStackFrame (page1 + 2 * PAGE_SIZE), page2 + 2 * PAGE_SIZE, entryPoint⟩ ∧
      made.buddyArray.mark (Block.mk page2 2).node = .BUDDY_FULL ∧
      ∀ state : Scheduler, (state.thread t).kernelStack = page2 + 2 * PAGE_SIZE →
        page1 ≤ (state.thread t).userStack →
        (state.thread t).userStack < page1 + 2 * PAGE_SIZE →
        state.buddyArray.mark (Block.mk page2 2).node = .BUDDY_FULL →
          (∀ after, state.freeThreadPages t = some after →
            after.buddyArray.mark (Block.mk page2 2).node = .BUDDY_FULL) ∧
          ∀ others, ¬ GivesBack [⟨t, 1⟩, ⟨page1, 2⟩, ⟨page2, 2⟩] others
            (state.freeThreadPages t) := by
  obtain ⟨t, page1, page2, took, fields, entry⟩ := createThread_made created
  obtain ⟨leaf, w1, w2, leafLower, leafUpper, address, lower1, upper1, address1, lower2, upper2,
    address2, node2, full2, apart, aside⟩ := took.kernelStack shaped
  refine ⟨t, page1, page2, took, entry, fields, node2 ▸ full2, ?_⟩
  rw [← node2]
  intro state kernel userLower userUpper full
  -- A node above a leaf and of the height of the kernel stack is the parent of the leaf.
  have parent : ∀ leaf : Nat, 1024 ≤ leaf → leaf < 2048 → Covers w2 leaf → leaf / 2 = w2 := by
    intro leaf lower upper above
    have same := (@covers_leaf_iff w2 leaf 9 10 (by decide) (by omega) (by omega) (by omega)
      (by omega)).mp above
    rwa [show 10 - 9 = 1 by rfl, Nat.pow_one] at same
  have kept : ∀ after, state.freeThreadPages t = some after →
      after.buddyArray.mark w2 = .BUDDY_FULL := by
    intro after freed
    rw [freeThreadPages_mark freed (by omega), full]
    intro page member cleared inTree number above
    simp only [List.mem_cons, List.not_mem_nil, or_false] at member
    rcases member with user | top | own
    · rw [← user, address1] at userLower userUpper
      have half := leaf_of_pair lower1 upper1 userLower userUpper number
      exact apart (half.symm.trans (parent cleared (by omega) inTree above))
    · rw [kernel, address2] at top
      have behind := @leaf_of_inside (2 * w2 + 2) cleared page 0 (by omega) (by omega) (by decide)
        (by rw [top, show 2 * w2 + 2 - 1024 = 2 * w2 - 1024 + 2 by omega]; ring) number
      have shared := parent cleared (by omega) inTree above
      omega
    · obtain rfl := @leaf_of_inside leaf cleared page 0 leafLower (by omega) (by decide)
        (by rw [own, address, Nat.add_zero]) number
      exact aside (parent cleared leafLower inTree above)
  refine ⟨kept, fun others => ?_⟩
  refine @not_givesBack _ others _ ⟨page2, 2⟩ (by simp) ?_ ?_ ?_
  · rwa [← node2]
  · rwa [← node2]
  · rwa [← node2]

/-- The first thread of a process, made in a memory where nothing is taken and given back at
once. -/
theorem firstThread_leaves_kernelStack : ∃ made : Scheduler, ∃ t page1 page2,
    SchedulerRun.emptyMemory.createThread 0x400000 0x10 = some (made, 0) ∧
      TakesPages SchedulerRun.emptyMemory.buddyArray made.buddyArray (some t) (some page1)
        (some page2) ∧
      ¬ GivesBack [⟨t, 1⟩, ⟨page1, 2⟩, ⟨page2, 2⟩] [] (made.freeThreadPages t) := by
  have shaped : SchedulerRun.emptyMemory.buddyArray.Shaped := by
    constructor
    · rfl
    · rw [SchedulerRun.emptyMemory, createHeap_eq]
  have result : (SchedulerRun.emptyMemory.createThread 0x400000 0x10).map Prod.snd = some 0 := by
    rw [SchedulerRun.emptyMemory, createHeap_eq]
    decide +kernel
  obtain ⟨⟨made, answer⟩, created, rfl⟩ := Option.map_eq_some_iff.mp result
  obtain ⟨t, page1, page2, took, -, fields, full, leaves⟩ :=
    freeThreadPages_leaves_kernelStack shaped created
  have frame : sizeofStackFrame = 184 := rfl
  have size : PAGE_SIZE = 4096 := rfl
  have stack : (made.thread t).userStack = page1 + 2 * PAGE_SIZE - 2 * 184 := by
    rw [fields, fillStackFrame, frame]
  refine ⟨made, t, page1, page2, created, took, (leaves made ?_ ?_ ?_ full).2 []⟩
  · rw [fields]
  · omega
  · omega

/-- Of three threads the second one is given back: the two pages of its kernel stack stay
marked, and the page of the third thread, which lies behind them, is free. -/
theorem second_thread_frees_third : ∃ s p after, threeThreads = some (s, p) ∧
    (s.process p).thread.get 1 = 0x1007000 ∧ (s.process p).thread.get 2 = 0x100C000 ∧
    s.thread 0x1007000 = ⟨0x1009E90, 0x100C000, 0x500000⟩ ∧
    s.freeThreadPages 0x1007000 = some after ∧
    s.buddyArray.mark 1036 = .BUDDY_FULL ∧ after.buddyArray.mark 1036 = .EMPTY ∧
    after.buddyArray.mark 517 = .BUDDY_FULL ∧
    ¬ GivesBack [⟨0x1007000, 1⟩, ⟨0x1008000, 2⟩, ⟨0x100A000, 2⟩] [⟨0x100C000, 1⟩]
      (s.freeThreadPages 0x1007000) := by
  have result : threeThreads.bind (fun made => (made.1.freeThreadPages 0x1007000).map fun after =>
      decide (((made.1.process made.2).thread.get 1 = 0x1007000 ∧
        (made.1.process made.2).thread.get 2 = 0x100C000) ∧
        made.1.thread 0x1007000 = ⟨0x1009E90, 0x100C000, 0x500000⟩ ∧
        made.1.buddyArray.mark 1036 = .BUDDY_FULL ∧ after.buddyArray.mark 1036 = .EMPTY ∧
        after.buddyArray.mark 517 = .BUDDY_FULL)) = some true := by
    rw [threeThreads, SchedulerRun.emptyMemory, createHeap_eq]
    decide +kernel
  obtain ⟨⟨s, p⟩, made, rest⟩ := Option.bind_eq_some_iff.mp result
  obtain ⟨after, freed, facts⟩ := Option.map_eq_some_iff.mp rest
  obtain ⟨⟨second, third⟩, fields, used, gone, full⟩ := of_decide_eq_true facts
  refine ⟨s, p, after, made, second, third, fields, freed, used, gone, full, ?_⟩
  have node : (Block.mk 0x100A000 2).node = 517 := by decide
  refine @not_givesBack _ _ _ ⟨0x100A000, 2⟩ (by simp) ?_ ?_ ?_
  · rw [node]
    decide
  · rw [node]
    decide
  · intro other returned
    obtain rfl := Option.some.inj (returned.symm.trans freed)
    rwa [node]

end Scheduler

end SistemasOperativos.Kernel
