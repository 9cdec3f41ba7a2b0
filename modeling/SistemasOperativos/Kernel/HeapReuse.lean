import SistemasOperativos.Kernel.HeapSizes

/-!
# Freed blocks are used again

`free(p)` finds the block of `p` where the list runs upwards to it and on behind it: `getBlock`
compares `next` with `p`, so it passes the last block and stops at a block that a lower address
follows. The block is joined with its free neighbours, and the next request of its size is
served from the list if the joined block, or another one, has more than the aligned size.
-/

namespace SistemasOperativos.Kernel

open SistemasOperativos.Foundation SistemasOperativos.Semantics

/-! ## Joining free blocks -/

/-- The free block `block` became part of the free block `whole`. The used blocks are the same. -/
structure Joins (heap heap' : HeapState) (l r : List Nat) (block whole : Nat) : Prop where
  laid : Laid heap' r
  used : ∀ c, c ∈ r ∧ (heap'.block c).free = false ↔ c ∈ l ∧ (heap.block c).free = false
  kept : ∀ c ∈ l, (heap.block c).free = false → heap'.block c = heap.block c
  member : whole ∈ r
  free : (heap'.block whole).free = true
  covers : (heap'.extent whole).Contains (heap.extent block)
  full : ∀ s, (∀ c ∈ r, (heap'.block c).free = true → (heap'.block c).size ≤ s) ↔
    (∀ c ∈ l, (heap.block c).free = true → (heap.block c).size ≤ s) ∧
      (heap'.block whole).size ≤ s
  shorter : r.length ≤ l.length

namespace Joins

variable {heap heap' heap'' : HeapState} {l r r' : List Nat} {block whole outer : Nat}

/-- A free block that has no free neighbour. -/
theorem refl (laid : Laid heap l) (member : block ∈ l) (free : (heap.block block).free = true) :
    Joins heap heap l l block block := by
  refine ⟨laid, fun _ => Iff.rfl, fun _ _ _ => rfl, member, free, ⟨Nat.le_refl _, Nat.le_refl _⟩,
    fun s => (and_iff_left_of_imp fun all => all block member free).symm, Nat.le_refl _⟩

/-- Joining a joined block with a further one. -/
theorem trans (first : Joins heap heap' l r block whole)
    (second : Joins heap' heap'' r r' whole outer) : Joins heap heap'' l r' block outer := by
  refine ⟨second.laid, fun c => (second.used c).trans (first.used c), fun c member used => ?_,
    second.member, second.free, ?_, fun s => ?_, second.shorter.trans first.shorter⟩
  · obtain ⟨still, same⟩ := (first.used c).mpr ⟨member, used⟩
    exact (second.kept c still same).trans (first.kept c member used)
  · obtain ⟨lower, upper⟩ := first.covers
    obtain ⟨lower', upper'⟩ := second.covers
    exact ⟨lower'.trans lower, upper.trans upper'⟩
  · have grows : (heap'.block whole).size ≤ (heap''.block outer).size := by
      obtain ⟨lower, upper⟩ := second.covers
      simp only [HeapState.extent_lo, HeapState.extent_hi] at lower upper
      omega
    rw [second.full s, first.full s]
    constructor
    · rintro ⟨⟨all, -⟩, less⟩
      exact ⟨all, less⟩
    · rintro ⟨all, less⟩
      exact ⟨⟨all, grows.trans less⟩, less⟩

end Joins

/-- The bytes that `free` adds to a block for one of its neighbours. -/
def HeapState.gain (heap : HeapState) (neighbour : Nat) : Nat :=
  if neighbour ≠ 0 ∧ (heap.block neighbour).free = true then
    (heap.block neighbour).size + BLOCK_STRUCT_SIZE
  else 0

namespace HeapState

variable {heap heap' : HeapState} {block neighbour : Nat}

/-- No block is no gain. -/
theorem gain_null (heap : HeapState) : heap.gain 0 = 0 := if_neg fun both => both.1 rfl

/-- The gain of a merge only depends on the neighbour. -/
theorem gain_congr (same : heap'.block neighbour = heap.block neighbour) :
    heap'.gain neighbour = heap.gain neighbour := by
  rw [gain, same, gain]

/-- Merging with the next block leaves the fields of the heap. -/
theorem mergeNext_fields (heap : HeapState) (block : Nat) :
    (heap.mergeNext block).heap = heap.heap ∧ (heap.mergeNext block).runs = heap.runs := by
  simp only [mergeNext]
  split <;> exact ⟨rfl, rfl⟩

/-- Merging with the previous block leaves the fields of the heap. -/
theorem mergePrev_fields (heap : HeapState) (block : Nat) :
    (heap.mergePrev block).heap = heap.heap ∧ (heap.mergePrev block).runs = heap.runs := by
  simp only [mergePrev]
  split <;> exact ⟨rfl, rfl⟩

end HeapState

namespace Laid

variable {heap : HeapState} {l r : List Nat} {block x : Nat}

/-- `mergeBlocks` of two free neighbours of one page run: each is part of the first. -/
theorem mergeBlocks_joins (laid : Laid heap (l ++ block :: x :: r))
    (free : (heap.block block).free = true) (freeNext : (heap.block x).free = true)
    (together : Interval.Together heap.regions block x) :
    ((heap.mergeBlocks block).block block).size =
        (heap.block block).size + ((heap.block x).size + 28) ∧
      ∀ part, part = block ∨ part = x →
        Joins heap (heap.mergeBlocks block) (l ++ block :: x :: r) (l ++ block :: r) part
          block := by
  have merged := laid.mergeBlocks_block together
  have touch := (laid.neighbours together).1
  have size : ((heap.mergeBlocks block).block block).size =
      (heap.block block).size + ((heap.block x).size + 28) := by
    rw [merged]
  have isFree : ((heap.mergeBlocks block).block block).free = true := by
    rw [merged]
    exact free
  have notListed : x ∉ l ++ block :: r := by
    have nodup := laid.nodup
    rw [List.append_cons] at nodup
    simpa using (List.nodup_cons.mp (List.perm_middle.nodup_iff.mp nodup)).1
  have listed : ∀ c, c ∈ l ++ block :: x :: r ↔ c = x ∨ c ∈ l ++ block :: r := by
    intro c
    simp only [List.mem_append, List.mem_cons]
    tauto
  have others : ∀ c, c ≠ block → (heap.mergeBlocks block).block c = heap.block c :=
    fun c other => HeapState.mergeBlocks_block_of_ne other
  refine ⟨size, fun part isPart => ⟨laid.mergeBlocks together, fun c => ?_, fun c _ used => ?_,
    by simp, isFree, ?_, fun s => ?_, by simp⟩⟩
  · by_cases same : c = block
    · subst same
      simp [isFree, free]
    · rw [others c same, listed]
      constructor
      · rintro ⟨member, used⟩
        exact ⟨.inr member, used⟩
      · rintro ⟨rfl | member, used⟩
        · exact absurd (freeNext.symm.trans used) (by decide)
        · exact ⟨member, used⟩
  · refine others c ?_
    rintro rfl
    exact absurd (free.symm.trans used) (by decide)
  · simp only [Interval.Contains, HeapState.extent_lo, HeapState.extent_hi, size]
    rcases isPart with rfl | rfl <;> omega
  · constructor
    · intro all
      have room := all block (by simp) isFree
      refine ⟨fun c member isFree => ?_, room⟩
      rcases (listed c).mp member with rfl | member
      · omega
      · by_cases same : c = block
        · subst same
          omega
        · exact others c same ▸ all c member (by rw [others c same]; exact isFree)
    · rintro ⟨all, room⟩ c member isFree
      by_cases same : c = block
      · exact same ▸ room
      · rw [others c same] at isFree ⊢
        exact all c ((listed c).mpr (.inr member)) isFree

/-- The first merge of `free`. -/
theorem mergeNext_joins (laid : Laid heap (l ++ block :: r))
    (free : (heap.block block).free = true)
    (within : heap.next block ≠ 0 → (heap.block (heap.next block)).free = true →
      Interval.Together heap.regions block (heap.next block)) :
    ∃ r', Joins heap (heap.mergeNext block) (l ++ block :: r) (l ++ block :: r') block block ∧
      ((heap.mergeNext block).block block).size =
        (heap.block block).size + heap.gain (heap.next block) ∧
      ((heap.mergeNext block).block block).prev = (heap.block block).prev ∧
      ∀ c, c ≠ block → (heap.mergeNext block).block c = heap.block c := by
  have next : (heap.block block).next = heap.next block := rfl
  by_cases joins : heap.next block ≠ 0 ∧ (heap.block (heap.next block)).free = true
  · obtain ⟨x, r, rfl⟩ : ∃ x rest, r = x :: rest := by
      cases r with
      | nil => exact absurd laid.path.last joins.1
      | cons x rest => exact ⟨x, rest, rfl⟩
    have together := within joins.1 joins.2
    simp only [HeapState.mergeNext, HeapState.gain, next, if_pos joins]
    rw [show heap.next block = x from laid.path.next_eq] at joins together ⊢
    obtain ⟨size, joined⟩ := laid.mergeBlocks_joins free joins.2 together
    refine ⟨r, joined block (.inl rfl), size, ?_, fun c other =>
      HeapState.mergeBlocks_block_of_ne other⟩
    simp [HeapState.mergeBlocks, HeapState.setBlock]
  · have same : heap.mergeNext block = heap := by
      simp only [HeapState.mergeNext, next, if_neg joins]
    rw [same, HeapState.gain, if_neg joins]
    exact ⟨r, .refl laid (by simp) free, rfl, rfl, fun _ _ => rfl⟩

/-- The second merge of `free`. -/
theorem mergePrev_joins (laid : Laid heap (l ++ block :: r))
    (free : (heap.block block).free = true)
    (within : (heap.block block).prev ≠ 0 → (heap.block (heap.block block).prev).free = true →
      (heap.block block).prev ∈ l ∧ heap.next (heap.block block).prev = block ∧
        Interval.Together heap.regions (heap.block block).prev block) :
    ∃ r' whole, Joins heap (heap.mergePrev block) (l ++ block :: r) r' block whole ∧
      ((heap.mergePrev block).block whole).size =
        (heap.block block).size + heap.gain (heap.block block).prev := by
  by_cases joins : (heap.block block).prev ≠ 0 ∧
      (heap.block (heap.block block).prev).free = true
  · obtain ⟨member, next, together⟩ := within joins.1 joins.2
    simp only [HeapState.mergePrev, HeapState.gain, if_pos joins]
    generalize (heap.block block).prev = prev at *
    obtain ⟨u, v, rfl⟩ := List.append_of_mem member
    obtain rfl : v = [] := by
      cases v with
      | nil => rfl
      | cons x v =>
          rw [List.append_assoc] at laid
          obtain rfl : x = block := laid.path.next_eq.symm.trans next
          have nodup := laid.nodup
          simp [List.nodup_append] at nodup
    rw [List.append_assoc] at laid ⊢
    obtain ⟨size, joined⟩ := laid.mergeBlocks_joins joins.2 free together
    refine ⟨_, prev, joined block (.inr rfl), ?_⟩
    rw [size]
    simp only [BLOCK_STRUCT_SIZE]
    omega
  · have same : heap.mergePrev block = heap := by
      simp only [HeapState.mergePrev, if_neg joins]
    rw [same, HeapState.gain, if_neg joins]
    exact ⟨_, block, .refl laid (by simp) free, rfl⟩

end Laid

/-! ## The block of a pointer -/

/-- The block holds an allocation. -/
def HeapState.Used (heap : HeapState) (block : Nat) : Prop :=
  heap.OnList block ∧ (heap.block block).free = false

/-- The page run that `extendHeap` records. -/
theorem HeapState.extendHeap_runs {heap heap' : HeapState} {allocPage : List PageRun → Nat → Nat}
    {fuel size base : Nat} (extended : heap.extendHeap allocPage fuel size = some (heap', base)) :
    heap'.runs = ⟨base, pagesAsked size⟩ :: heap.runs := by
  obtain rfl := HeapState.extendHeap_base extended
  simp only [extendHeap] at extended
  split at extended
  · obtain ⟨rfl, -⟩ := Prod.mk.inj (Option.some.inj extended)
    simp [setBlock, pagesAsked]
  · split at extended
    · cases extended
    · obtain ⟨rfl, -⟩ := Prod.mk.inj (Option.some.inj extended)
      simp [setBlock, pagesAsked]

/-- The condition on `free` of the data of `block`: the list does not start behind `block`, runs
on no block before it to an address behind it, and goes on behind it; and what is merged are
neighbours of one page run. -/
structure FreesOwn (fuel : Nat) (heap : HeapState) (block : Nat) : Prop where
  start : heap.heapBase ≤ block
  ahead : ∀ c ∈ heap.walkTo fuel heap.heapBase block, heap.next c ≤ block
  behind : block < heap.next block
  merges : SharedHeap.MergesListed fuel heap block
  adjacent : (heap.block block).prev ≠ 0 → (heap.block (heap.block block).prev).free = true →
    heap.next (heap.block block).prev = block

instance (fuel : Nat) (heap : HeapState) (block : Nat) : Decidable (FreesOwn fuel heap block) :=
  decidable_of_iff (_ ∧ _ ∧ _ ∧ _ ∧ _)
    ⟨fun ⟨start, ahead, behind, merges, adjacent⟩ => ⟨start, ahead, behind, merges, adjacent⟩,
      fun ⟨start, ahead, behind, merges, adjacent⟩ => ⟨start, ahead, behind, merges, adjacent⟩⟩

/-- A walk that ended before its bound is the walk for every larger bound. -/
theorem HeapState.walkTo_stable {heap : HeapState} {fuel a stop : Nat}
    (short : (heap.walkTo fuel a stop).length < fuel) (more : Nat) :
    heap.walkTo (fuel + more) a stop = heap.walkTo fuel a stop := by
  induction fuel generalizing a with
  | zero => cases short
  | succ fuel ih =>
      rw [show fuel + 1 + more = fuel + more + 1 by omega, walkTo, walkTo]
      rw [walkTo] at short
      split
      · rfl
      · rename_i further
        rw [if_neg further] at short
        rw [ih (Nat.lt_of_succ_lt_succ short)]

/-- The condition does not depend on a bound that the walk to the block does not use up. -/
theorem FreesOwn.of_short {fuel block : Nat} {heap : HeapState} (own : FreesOwn fuel heap block)
    (short : (heap.walkTo fuel heap.heapBase block).length < fuel) (more : Nat) :
    FreesOwn (fuel + more) heap block := by
  have same := HeapState.walkTo_stable short more
  obtain ⟨start, ahead, behind, ⟨next, prev⟩, adjacent⟩ := own
  exact ⟨start, same.symm ▸ ahead, behind, ⟨next, same.symm ▸ prev⟩, adjacent⟩

/-- The size of the free block that `block` is part of once it was freed. -/
def HeapState.joinedSize (heap : HeapState) (block : Nat) : Nat :=
  (heap.block block).size + heap.gain (heap.next block) + heap.gain (heap.block block).prev

/-- Once the allocation was freed, a free block has more than its aligned size. -/
def HeapState.LeavesRoom (heap : HeapState) (a : Allocation) : Prop :=
  heap.Full (align4 a.size % SIZE_T) →
    align4 a.size % SIZE_T < heap.joinedSize (a.pointer - BLOCK_STRUCT_SIZE)

/-- `getBlock` passes the blocks that are followed by one up to `block`, and stops there. -/
theorem HeapState.getBlockLoop_eq {heap : HeapState} {a block found fuel : Nat} {l : List Nat}
    (path : Path heap.next a l 0) (nonnull : 0 ∉ l) (member : block ∈ l)
    (ahead : ∀ c ∈ heap.walkTo fuel a block, heap.next c ≤ block)
    (behind : dataStart block ≤ heap.next block)
    (search : heap.getBlockLoop fuel a (dataStart block) = some found) : found = block := by
  induction l generalizing a fuel with
  | nil => cases member
  | cons b l ih =>
      obtain ⟨rfl, rest⟩ := path
      have present : a ≠ 0 := fun null => nonnull (by simp [null])
      cases fuel with
      | zero => cases search
      | succ fuel =>
          rw [getBlockLoop] at search
          by_cases same : a = block
          · subst same
            rw [if_neg fun further => absurd further.2 (Nat.not_lt.mpr behind)] at search
            exact (Option.some.inj search).symm
          · rw [walkTo, if_neg (by simp [present, same])] at ahead
            have next : heap.next a ≤ block := ahead a (List.mem_cons_self ..)
            have further : a ≠ 0 ∧ (heap.block a).next < dataStart block := by
              refine ⟨present, Nat.lt_of_le_of_lt next ?_⟩
              rw [dataStart_eq]
              omega
            rw [if_pos further] at search
            refine ih rest (fun null => nonnull (List.mem_cons_of_mem _ null)) ?_
              (fun c later => ahead c (List.mem_cons_of_mem _ later)) search
            exact (List.mem_cons.mp member).resolve_left (Ne.symm same)

section Free

variable {heap heap' : HeapState} {l r : List Nat} {block fuel : Nat}

/-- The header behind a block stands behind its data. -/
theorem Laid.dataStart_le_next (laid : Laid heap l) (member : block ∈ l)
    (behind : block < heap.next block) :
    dataStart block + (heap.block block).size ≤ heap.next block := by
  by_contra inside
  obtain ⟨before, rest, rfl⟩ := List.append_of_mem member
  cases rest with
  | nil =>
      have last : heap.next block = 0 := laid.path.last
      omega
  | cons x rest =>
      have next : heap.next block = x := laid.path.next_eq
      rw [next] at behind inside
      have same := laid.eq_of_has member (show x ∈ _ by simp) ⟨Nat.le_of_lt behind, by
        simp only [HeapState.extent_hi, dataStart_eq] at inside ⊢
        omega⟩
      omega

/-- `blockForFree->free = 1;` -/
def HeapState.mark (heap : HeapState) (block : Nat) : HeapState :=
  heap.setBlock block { heap.block block with free := true }

/-- `free` of the data of a block, on the list of its heap. -/
theorem Laid.free_eq (laid : Laid heap l) (global : heap.heapBase = heap.heap)
    (member : block ∈ l) (own : FreesOwn fuel heap block)
    (freed : heap.free fuel (dataStart block) = some heap') :
    heap' = ((heap.mark block).mergeNext block).mergePrev block := by
  have valid : heap.isValidAddress (dataStart block) = true := by
    have start := own.start
    rw [HeapState.isValidAddress, if_neg]
    simp only [dataStart_eq]
    omega
  have behind := laid.dataStart_le_next member own.behind
  rw [HeapState.free, if_pos valid] at freed
  split at freed
  · cases freed
  · rename_i found search
    obtain rfl := HeapState.getBlockLoop_eq (global ▸ laid.path) laid.nonnull member own.ahead
      (by omega) search
    rw [if_neg fun null : found = 0 => laid.nonnull (null ▸ member)] at freed
    exact (Option.some.inj freed).symm

/-- `free` completes with a bound above the number of blocks. -/
theorem Laid.free_completes (laid : Laid heap l) (global : heap.heapBase = heap.heap)
    (enough : l.length < fuel) (p : Nat) : ∃ heap', heap.free fuel p = some heap' := by
  obtain ⟨block, found⟩ := Option.isSome_iff_exists.mp
    (@HeapState.getBlockLoop_isSome heap heap.heapBase l fuel p (global ▸ laid.path) enough)
  simp only [HeapState.free, HeapState.getBlock, found]
  split
  · split <;> exact ⟨_, rfl⟩
  · exact ⟨_, rfl⟩

/-- What `free` of the data of `block` leaves behind: `block` is part of the free block `whole`,
and everything else is as it was. -/
structure FreedBlock (heap heap' : HeapState) (l r : List Nat) (block whole : Nat) : Prop where
  laid : Laid heap' r
  used : ∀ c, c ∈ r ∧ (heap'.block c).free = false ↔
    (c ∈ l ∧ (heap.block c).free = false) ∧ c ≠ block
  kept : ∀ c ∈ l, (heap.block c).free = false → c ≠ block → heap'.block c = heap.block c
  member : whole ∈ r
  free : (heap'.block whole).free = true
  covers : (heap'.extent whole).Contains (heap.extent block)
  full : ∀ s, heap'.Full s ↔ heap.Full s ∧ heap.joinedSize block ≤ s
  shorter : r.length ≤ l.length
  start : heap'.heap = heap.heap
  runs : heap'.runs = heap.runs

/-- A heap is full if all free blocks of its list are small. -/
theorem Laid.full_iff (laid : Laid heap l) (s : Nat) : heap.Full s ↔
    ∀ c ∈ l, (heap.block c).free = true → (heap.block c).size ≤ s :=
  ⟨fun full c member => full c (laid.onList member),
    fun all c onList => all c (laid.mem_of_onList onList)⟩

/-- `free` of the data of a used block. -/
theorem Laid.free_own (laid : Laid heap l) (global : heap.heapBase = heap.heap)
    (member : block ∈ l) (used : (heap.block block).free = false)
    (own : FreesOwn fuel heap block)
    (freed : heap.free fuel (dataStart block) = some heap') :
    ∃ r whole, FreedBlock heap heap' l r block whole := by
  obtain rfl := laid.free_eq global member own freed
  obtain ⟨before, behind, rfl⟩ := List.append_of_mem member
  have away : ∀ c, c ≠ block → (heap.mark block).block c = heap.block c := by
    intro c other
    simp [HeapState.mark, HeapState.setBlock, other]
  have header : (heap.mark block).block block = { heap.block block with free := true } := by
    simp [HeapState.mark, HeapState.setBlock]
  have marked : Laid (heap.mark block) (before ++ block :: behind) := laid.setFree block true
  have isFree : ((heap.mark block).block block).free = true := by rw [header]
  have next : (heap.mark block).next block = heap.next block := by
    rw [HeapState.next, header, HeapState.next]
  have notNext : heap.next block ≠ block := own.behind.ne'
  obtain ⟨r, first, size, prev, others⟩ := marked.mergeNext_joins isFree fun notLast isFree => by
    rw [next] at notLast isFree ⊢
    rw [away _ notNext] at isFree
    exact own.merges.next notLast isFree
  have samePrev : (((heap.mark block).mergeNext block).block block).prev =
      (heap.block block).prev := by
    rw [prev, header]
  have stands : (heap.block block).prev ≠ 0 →
      (heap.block block).prev = block ∨ (heap.block (heap.block block).prev).free = true →
        (heap.block block).prev ∈ before ∧ (heap.block block).prev ≠ block := by
    intro notFirst marks
    have listed := HeapState.mem_walkTo (global ▸ laid.path) (own.merges.prev notFirst marks).1
    refine ⟨listed, fun self => ?_⟩
    have nodup := List.perm_middle.nodup_iff.mp laid.nodup
    exact (List.nodup_cons.mp nodup).1 (List.mem_append_left _ (self ▸ listed))
  have unmoved : (heap.block block).prev ≠ 0 →
      ((heap.mark block).mergeNext block).block (heap.block block).prev =
        heap.block (heap.block block).prev := by
    intro notFirst
    have other : (heap.block block).prev ≠ block := fun self =>
      (stands notFirst (.inl self)).2 self
    exact (others _ other).trans (away _ other)
  obtain ⟨r', whole, second, size'⟩ := first.laid.mergePrev_joins first.free
    fun notFirst isFree => by
      rw [samePrev] at notFirst isFree ⊢
      have same := unmoved notFirst
      rw [same] at isFree
      have adjacent := own.adjacent notFirst isFree
      obtain ⟨-, together⟩ := own.merges.prev notFirst (.inr isFree)
      refine ⟨(stands notFirst (.inr isFree)).1, ?_, ?_⟩
      · rw [HeapState.next, same]
        exact adjacent
      · rw [HeapState.regions, ((heap.mark block).mergeNext_fields block).2]
        rw [adjacent] at together
        exact together
  have joins := first.trans second
  have length : (heap.block block).size + heap.gain (heap.next block) +
      heap.gain (heap.block block).prev = ((((heap.mark block).mergeNext block).mergePrev
        block).block whole).size := by
    rw [size', size, samePrev, header, next, HeapState.gain_congr (away _ notNext)]
    by_cases none : (heap.block block).prev = 0
    · rw [none, HeapState.gain_null, HeapState.gain_null]
    · rw [HeapState.gain_congr (unmoved none)]
  have marks : ∀ c, ((heap.mark block).block c).free = false ↔
      (heap.block c).free = false ∧ c ≠ block := by
    intro c
    by_cases same : c = block
    · subst same
      simp [isFree]
    · simp [away c same, same]
  obtain ⟨start, runs⟩ := (heap.mark block).mergeNext_fields block
  obtain ⟨start', runs'⟩ := ((heap.mark block).mergeNext block).mergePrev_fields block
  refine ⟨r', whole, joins.laid, fun c => ?_, fun c listed inUse other => ?_, joins.member,
    joins.free, ?_, fun s => ?_, joins.shorter, start'.trans start,
    runs'.trans runs⟩
  · rw [joins.used c, marks c, and_assoc]
  · rw [joins.kept c listed ((marks c).mpr ⟨inUse, other⟩), away c other]
  · have extent : (heap.mark block).extent block = heap.extent block := by
      rw [HeapState.extent, header, HeapState.extent]
    exact extent ▸ joins.covers
  · rw [joins.laid.full_iff, joins.full s, laid.full_iff, HeapState.joinedSize, length]
    refine and_congr_left fun room => ⟨fun all c listed isFree => ?_, fun all c listed isFree => ?_⟩
    · have other : c ≠ block := fun same =>
        absurd (used.symm.trans (same ▸ isFree)) (by decide)
      exact away c other ▸ all c listed (by rw [away c other]; exact isFree)
    · by_cases same : c = block
      · subst same
        rw [header]
        exact Nat.le_trans (by simp only; omega) (length ▸ room)
      · rw [away c same] at isFree ⊢
        exact all c listed isFree

end Free

/-! ## The pointers of a process -/

namespace SharedHeap

/-- The pointers in use, whatever was asked for. -/
def pointers (live : List Allocation) : List Allocation := live.map fun a => ⟨a.pointer, 0⟩

/-- Each pointer that a process has in use is the data of a used block of its own. -/
structure Owns (state : SharedHeap) (process : Nat) (l : List Nat) : Prop where
  held : Held (state.view process) (pointers (state.live process)) l
  positive : ∀ a ∈ state.live process, a.size ≠ 0

/-- `free` marks free the block of the allocation and no other, which is then part of a free block,
and a call of `mallock` of its size gets no page run. -/
def FreesAndReuses (allocPage : List PageRun → Nat → Nat) (fuel : Nat) (state : SharedHeap)
    (process : Nat) (a : Allocation) : Prop :=
  ∃ after, state.free fuel process a.pointer = some after ∧
    (∀ b, (after.view process).Used b ↔ (state.view process).Used b ∧ dataStart b ≠ a.pointer) ∧
    (∃ block whole, dataStart block = a.pointer ∧ (after.view process).OnList whole ∧
      ((after.view process).block whole).free = true ∧
      ((after.view process).extent whole).Contains ((state.view process).extent block)) ∧
    ∀ found, ∃ last p, after.mallock allocPage fuel process a.size found = some (last, p) ∧
      p ≠ 0 ∧ last.runsOf process = state.runsOf process

/-- The condition on a call: `mallock` gets the pages it asks for, and `free` works on the heap of
its caller and on the block of its argument. -/
def FreesOwnBlock (allocPage : List PageRun → Nat → Nat) (fuel : Nat) (state : SharedHeap) :
    SharedHeapAction → Prop
  | .mallock process size found => size ≠ 0 → state.Granted allocPage fuel process size found
  | .free process p => state.heapBase = (state.fields process).heap ∧
      FreesOwn fuel (state.view process) (p - BLOCK_STRUCT_SIZE)

instance (allocPage : List PageRun → Nat → Nat) (fuel : Nat) (state : SharedHeap)
    (action : SharedHeapAction) : Decidable (state.FreesOwnBlock allocPage fuel action) :=
  match action with
  | .mallock _ _ _ => by
      unfold FreesOwnBlock Granted
      infer_instance
  | .free _ _ => by
      unfold FreesOwnBlock
      infer_instance

variable {state after : SharedHeap} {process other : Nat} {l : List Nat} {a : Allocation}
  {allocPage : List PageRun → Nat → Nat} {fuel : Nat}

/-- A process sees the heap that its call left. -/
theorem view_put (state : SharedHeap) (process : Nat) (heap : HeapState) :
    (state.put process heap).view process = heap := by
  have runs : (state.put process heap).runsOf process = heap.runs :=
    (put_became state process heap).runsOf
  rw [view, runs]
  simp [put]

/-- A pointer in use is the data of the block a header in front of it. -/
theorem Owns.block (owns : state.Owns process l) (inUse : a ∈ state.live process) :
    a.pointer - BLOCK_STRUCT_SIZE ∈ l ∧ dataStart (a.pointer - BLOCK_STRUCT_SIZE) = a.pointer ∧
      ((state.view process).block (a.pointer - BLOCK_STRUCT_SIZE)).free = false := by
  obtain ⟨block, member, pointer, -, used⟩ :=
    owns.held.owned ⟨a.pointer, 0⟩ (List.mem_map_of_mem inUse)
  have start : a.pointer = block + 28 := pointer
  have same : a.pointer - BLOCK_STRUCT_SIZE = block := by
    simp only [BLOCK_STRUCT_SIZE]
    omega
  rw [same]
  exact ⟨member, pointer.symm, used⟩

/-- The calls of a process leave the pointers of the others alone. -/
theorem Owns.of_isolated (owns : state.Owns other l) (isolated : Isolated process state after)
    (well : after.Well) (differs : other ≠ process) (same : after.live other = state.live other) :
    ∃ r, after.Owns other r := by
  obtain ⟨lists, separate⟩ := well
  refine ⟨lists other, ?_, same ▸ owns.positive⟩
  rw [same]
  refine owns.held.of_laid (separate.laid other) fun b member used => ?_
  obtain ⟨header, onList⟩ := isolated.others other differs b (owns.held.toLaid.onList member)
  have kept : (after.view other).block b = (state.view other).block b := header
  rw [kept]
  exact ⟨(separate.laid other).mem_of_onList onList, Nat.le_refl _, used⟩

/-- `mallock` returns the data of a block that was free. -/
theorem Owns.mallock (grants : GrantsFresh allocPage) {size p : Nat} {found : Option Nat}
    (well : state.Well) (owns : state.Owns process l) (positive : size ≠ 0)
    (granted : state.Granted allocPage fuel process size found)
    (allocated : state.mallock allocPage fuel process size found = some (after, p)) :
    ∃ r, Held (after.view process) (⟨p, 0⟩ :: pointers (state.live process)) r := by
  obtain ⟨lists, separate⟩ := well
  obtain ⟨first, second⟩ := granted
  have entered : Held (state.enterHeap process) (pointers (state.live process)) l :=
    owns.held.congr rfl rfl rfl
  rw [SharedHeap.mallock, if_neg positive] at allocated
  dsimp only at allocated
  split at allocated
  · cases allocated
  · rename_i ready ensured
    split at allocated
    · cases allocated
    · rename_i chosen freeBlock choice
      obtain ⟨rfl, rfl⟩ := Prod.mk.inj (Option.some.inj allocated)
      obtain ⟨r, ensuring, global, -⟩ := entered.ensureHeap_granted grants rfl first ensured
      obtain ⟨r', chose⟩ := ensuring.chooseBlock_granted grants global
        (fun search => (second ready ensured search).1) choice
      have small := entered.chosen_small grants rfl (separate.bounded process) first ensured
        (fun search => (second ready ensured search).1) choice
      obtain ⟨r'', taken, -⟩ := chose.held.takeBlock_any chose.member chose.free small
        (align4 size % SIZE_T)
      refine ⟨r'', ?_⟩
      rw [mallock_stored (HeapState.ensureHeap_ne_zero first ensured) choice]
      have put : Held ((state.put process
          { (chosen.takeBlock freeBlock (align4 size % SIZE_T)).1 with
            pages := ready.pages }).view process)
            (⟨dataStart freeBlock, 0⟩ :: pointers (state.live process)) r'' := by
        rw [view_put]
        exact taken.congr rfl rfl rfl
      split
      · exact put
      · obtain ⟨blocks, start, runs⟩ := addPagesToProcess_view (state.put process
          { (chosen.takeBlock freeBlock (align4 size % SIZE_T)).1 with
            pages := ready.pages }) freeBlock found process
        exact put.congr blocks start runs

/-- Freeing the data of its block leaves a process the other pointers. -/
theorem Owns.erase {heap : HeapState} {r : List Nat} {whole : Nat} (owns : state.Owns process l)
    (inUse : a ∈ state.live process)
    (freed : FreedBlock (state.view process) heap l r (a.pointer - BLOCK_STRUCT_SIZE) whole) :
    Held heap (pointers ((state.live process).erase a)) r := by
  have distinct : ((state.live process).map Allocation.pointer).Nodup := by
    have nodup := owns.held.distinct
    rw [pointers, List.map_map] at nodup
    exact nodup
  obtain ⟨-, start, -⟩ := owns.block inUse
  refine ⟨freed.laid, fun c isRest => ?_, ?_⟩
  · obtain ⟨b, remains, rfl⟩ := List.mem_map.mp isRest
    have older := List.mem_of_mem_erase remains
    obtain ⟨member, pointer, used⟩ := owns.block older
    have other : b.pointer - BLOCK_STRUCT_SIZE ≠ a.pointer - BLOCK_STRUCT_SIZE := by
      intro same
      have equal : b.pointer = a.pointer := by rw [← pointer, ← start, same]
      obtain rfl := List.inj_on_of_nodup_map distinct older inUse equal
      exact (List.Nodup.of_map _ distinct).not_mem_erase remains
    obtain ⟨listed, still⟩ := (freed.used _).mpr ⟨⟨member, used⟩, other⟩
    exact ⟨_, listed, pointer.symm, Nat.zero_le _, still⟩
  · rw [pointers, List.map_map]
    exact distinct.sublist (List.Sublist.map _ List.erase_sublist)

/-- The state after a call of `process` that leaves it the pointers `live`. -/
theorem owns_of_held {r : List Nat} {live : List Allocation} {lives : Nat → List Allocation}
    (held : Held (state.view process) (pointers live) r) (positive : ∀ a ∈ live, a.size ≠ 0) :
    Owns { state with live := Function.update lives process live } process r := by
  have same : Function.update lives process live process = live := Function.update_self ..
  refine ⟨?_, ?_⟩
  · simp only [same]
    exact held
  · simp only [same]
    exact positive

/-- The invariant of the runs. -/
def Tracked (state : SharedHeap) : Prop := state.Well ∧ ∀ process, ∃ l, state.Owns process l

/-- The invariant holds at the start. -/
theorem Start.tracked (start : Start state) : state.Tracked := by
  refine ⟨start.well, fun process => ?_⟩
  obtain ⟨lists, separate⟩ := start.well
  refine ⟨lists process, ?_, by simp [start.live]⟩
  rw [start.live]
  exact (separate.laid process).held

/-- A call that meets the condition works on the heap of its caller. -/
theorem FreesOwnBlock.callsOwnHeap {action : SharedHeapAction} (tracked : state.Tracked)
    (meets : state.FreesOwnBlock allocPage fuel action)
    (stepped : state.step allocPage fuel action = some after) :
    state.CallsOwnHeap allocPage fuel action := by
  cases action with
  | mallock process size found => exact meets
  | free process p =>
      obtain ⟨global, own⟩ := meets
      refine ⟨global, fun _ block isFound _ => ?_⟩
      simp only [step] at stepped
      split at stepped
      · cases stepped
      · rename_i a found
        have pointer : a.pointer = p := by simpa using List.find?_some found
        subst pointer
        obtain ⟨l, owns⟩ := tracked.2 process
        obtain ⟨member, start, -⟩ := owns.block (List.mem_of_find?_eq_some found)
        have laid := owns.held.toLaid
        have current : (state.view process).heapBase = (state.view process).heap := global
        have behind := laid.dataStart_le_next member own.behind
        have search : (state.view process).getBlockLoop fuel (state.view process).heapBase
            (dataStart (a.pointer - BLOCK_STRUCT_SIZE)) = some block := start ▸ isFound
        obtain rfl := HeapState.getBlockLoop_eq (current ▸ laid.path) laid.nonnull member own.ahead
          (by omega) search
        exact own.merges

/-- A call that meets the condition keeps each pointer in use on a block of its own. -/
theorem tracked_step (grants : GrantsFresh allocPage) (fuel : Nat) (state : SharedHeap)
    (action : SharedHeapAction) (after : SharedHeap) (tracked : state.Tracked)
    (meets : state.FreesOwnBlock allocPage fuel action)
    (stepped : state.step allocPage fuel action = some after) : after.Tracked := by
  have calls := meets.callsOwnHeap tracked stepped
  obtain ⟨well, isolates⟩ := well_step grants fuel state action after tracked.1 calls stepped
  refine ⟨well, fun process => ?_⟩
  obtain ⟨l, owns⟩ := tracked.2 process
  cases action with
  | mallock caller size found =>
      simp only [step] at stepped
      split at stepped
      · obtain ⟨⟨kernel, p⟩, allocated, rfl⟩ := Option.map_eq_some_iff.mp stepped
        by_cases differs : process = caller
        · subst differs
          by_cases nothing : size = 0
          · rw [SharedHeap.mallock, if_pos nothing] at allocated
            obtain ⟨rfl, -⟩ := Prod.mk.inj (Option.some.inj allocated)
            simp only [if_pos nothing]
            refine ⟨l, owns_of_held ?_ owns.positive⟩
            rw [view_put]
            exact owns.held.congr rfl rfl rfl
          · obtain ⟨r, held⟩ := owns.mallock grants tracked.1 nothing (meets nothing) allocated
            simp only [if_neg nothing]
            refine ⟨r, owns_of_held held fun a isLive => ?_⟩
            rcases List.mem_cons.mp isLive with rfl | older
            · exact nothing
            · exact owns.positive a older
        · exact owns.of_isolated isolates well differs (by simp [differs])
      · cases stepped
  | free caller p =>
      simp only [step] at stepped
      split at stepped
      · cases stepped
      · rename_i a found
        obtain ⟨kernel, freed, rfl⟩ := Option.map_eq_some_iff.mp stepped
        by_cases differs : process = caller
        · subst differs
          obtain ⟨global, own⟩ := meets
          have pointer : a.pointer = p := by simpa using List.find?_some found
          subst pointer
          have inUse := List.mem_of_find?_eq_some found
          obtain ⟨heap, done, rfl⟩ := Option.map_eq_some_iff.mp freed
          obtain ⟨member, start, used⟩ := owns.block inUse
          obtain ⟨r, whole, left⟩ :=
            owns.held.toLaid.free_own global member used own (start.symm ▸ done)
          refine ⟨r, owns_of_held ?_ fun b remains =>
            owns.positive b (List.mem_of_mem_erase remains)⟩
          rw [view_put]
          exact owns.erase inUse left
        · exact owns.of_isolated isolates.1 well differs (by simp [differs])

/-! ## Freeing and asking again -/

/-- A call of `mallock` on a list with blocks gets no page run if a free block is large enough,
and gets one otherwise. -/
theorem mallock_reuses_iff (laid : Laid (state.view process) l) (inhabited : l ≠ []) {size : Nat}
    (positive : size ≠ 0) (enough : l.length < fuel) :
    (∀ found, ∃ last p, state.mallock allocPage fuel process size found = some (last, p) ∧
      p ≠ 0 ∧ last.runsOf process = state.runsOf process) ↔
        ¬ (state.view process).Full (align4 size % SIZE_T) := by
  have entered : Laid (state.enterHeap process) l := laid.of_same rfl rfl rfl
  have present : (state.enterHeap process).heapBase ≠ 0 := fun none =>
    inhabited (laid.eq_nil none)
  have ensured : (state.enterHeap process).ensureHeap (state.pageFor allocPage process) fuel
      size = some (state.enterHeap process) := if_neg present
  have search := @Laid.findFirstFreeBlock_null_iff _ l fuel entered rfl enough
    (align4 size % SIZE_T)
  constructor
  · intro reuses full
    obtain ⟨last, p, called, -, runs⟩ := reuses none
    have nothing := search.mpr full
    rw [mallock, if_neg positive] at called
    simp only [ensured] at called
    split at called
    · cases called
    · rename_i chosen block choice
      obtain ⟨rfl, -⟩ := Prod.mk.inj (Option.some.inj called)
      rw [mallock_stored present choice] at runs
      simp only [HeapState.chooseBlock, nothing, if_true] at choice
      have grown := HeapState.extendHeap_runs choice
      have length : chosen.runs.length = (state.runsOf process).length := by
        rw [← runs, ← (chosen.takeBlock_fields block (align4 size % SIZE_T)).1]
        refine congrArg List.length (Eq.symm ?_)
        split
        · exact (put_became ..).runsOf
        · exact (addPagesToProcess_view ..).2.2.trans (put_became ..).runsOf
      rw [grown] at length
      exact absurd length (Nat.succ_ne_self _)
  · intro room found
    obtain ⟨block, found'⟩ := Option.isSome_iff_exists.mp
      (@HeapState.findFirstFreeBlock_isSome _ (state.enterHeap process).heapBase l fuel
        (align4 size % SIZE_T) entered.path enough)
    have notNull : block ≠ 0 := fun null => room (search.mp (null ▸ found'))
    have choice : (state.enterHeap process).chooseBlock (state.pageFor allocPage process) fuel size
        (align4 size % SIZE_T) = some (state.enterHeap process, block) := by
      simp only [HeapState.chooseBlock, found', if_neg notNull]
    rw [mallock, if_neg positive]
    simp only [ensured, choice, if_true]
    refine ⟨_, _, rfl, ?_, ?_⟩
    · simp [HeapState.takeBlock, dataStart_eq]
    · exact (put_became ..).runsOf.trans (HeapState.takeBlock_fields _ block _).1

/-- `free` of a pointer in use, and `mallock` of its size. -/
theorem Owns.freesAndReuses_iff (owns : state.Owns process l) (inUse : a ∈ state.live process)
    (enough : l.length < fuel)
    (meets : state.FreesOwnBlock allocPage fuel (.free process a.pointer)) :
    state.FreesAndReuses allocPage fuel process a ↔ (state.view process).LeavesRoom a := by
  obtain ⟨global, own⟩ := meets
  have current : (state.view process).heapBase = (state.view process).heap := global
  have laid := owns.held.toLaid
  obtain ⟨member, start, used⟩ := owns.block inUse
  obtain ⟨heap, freed⟩ := laid.free_completes current enough a.pointer
  obtain ⟨r, whole, left⟩ := laid.free_own current member used own (start.symm ▸ freed)
  have done : state.free fuel process a.pointer = some (state.put process heap) := by
    rw [SharedHeap.free, freed, Option.map_some]
  have after := view_put state process heap
  have marks : ∀ b, heap.Used b ↔ (state.view process).Used b ∧ dataStart b ≠ a.pointer := by
    intro b
    have other : dataStart b ≠ a.pointer ↔ b ≠ a.pointer - BLOCK_STRUCT_SIZE := by
      rw [dataStart_eq] at start ⊢
      omega
    rw [other]
    constructor
    · rintro ⟨onList, inUse⟩
      obtain ⟨⟨listed, before⟩, differs⟩ := (left.used b).mp ⟨left.laid.mem_of_onList onList, inUse⟩
      exact ⟨⟨laid.onList listed, before⟩, differs⟩
    · rintro ⟨⟨onList, inUse⟩, differs⟩
      obtain ⟨listed, still⟩ := (left.used b).mpr ⟨⟨laid.mem_of_onList onList, inUse⟩, differs⟩
      exact ⟨left.laid.onList listed, still⟩
  have room : (∀ found, ∃ last p, (state.put process heap).mallock allocPage fuel process a.size
      found = some (last, p) ∧ p ≠ 0 ∧ last.runsOf process = state.runsOf process) ↔
        (state.view process).LeavesRoom a := by
    have same : (state.put process heap).runsOf process = state.runsOf process :=
      (put_became ..).runsOf.trans left.runs
    have reuses := @mallock_reuses_iff (state.put process heap) process r allocPage fuel
      (by rw [after]; exact left.laid) (List.ne_nil_of_mem left.member) a.size
      (owns.positive a inUse) (Nat.lt_of_le_of_lt left.shorter enough)
    rw [same, after, left.full] at reuses
    rw [reuses, not_and, Nat.not_le]
    rfl
  constructor
  · rintro ⟨other, freed', -, -, reuses⟩
    obtain rfl := Option.some.inj (done.symm.trans freed')
    exact room.mp reuses
  · intro leaves
    refine ⟨_, done, ?_, ⟨_, whole, start, ?_⟩, room.mpr leaves⟩
    · rw [after]
      exact marks
    · rw [after]
      exact ⟨left.laid.onList left.member, left.free, left.covers⟩

/-- In a run in which `mallock` gets its pages and `free` finds the block of its argument and
joins it within its page run, `free` of a pointer in use, if it finds the block in the same way,
frees it and no other, and the next request of its size is served from the list exactly if a
free block has more than the aligned size then. -/
theorem free_reuses_block (allocPage : List PageRun → Nat → Nat) (grants : GrantsFresh allocPage)
    (fuel : Nat) (start : SharedHeap) (begins : Start start) (actions : List SharedHeapAction)
    (state : SharedHeap)
    (within : Along (step allocPage fuel) (FreesOwnBlock allocPage fuel) start actions)
    (ran : run (step allocPage fuel) start actions = some state) (process : Nat)
    (a : Allocation) (inUse : a ∈ state.live process) :
    ∃ blocks, ∀ enough, blocks < enough →
      state.FreesOwnBlock allocPage enough (.free process a.pointer) →
        (state.FreesAndReuses allocPage enough process a ↔ (state.view process).LeavesRoom a) := by
  have tracked : state.Tracked := within.invariant (tracked_step grants fuel) begins.tracked ran
  obtain ⟨l, owns⟩ := tracked.2 process
  exact ⟨l.length, fun enough more meets => owns.freesAndReuses_iff inUse more meets⟩

/-- Three allocations in one page run, with bytes left over. -/
def threeInARun : List SharedHeapAction :=
  [.mallock 0 100 none, .mallock 0 200 none, .mallock 0 50 none]

/-- The third allocation is freed, and the bytes behind it joined to it. -/
theorem third_of_run_reused : ∃ state, run (step boundedPages 10) noHeaps threeInARun = some state ∧
    ∃ enough, state.FreesAndReuses boundedPages enough 0 ⟨dataStart 0x1000164, 50⟩ := by
  have within : Along (step boundedPages 10) (FreesOwnBlock boundedPages 10) noHeaps
      threeInARun := by
    decide +kernel
  have result : ((run (step boundedPages 10) noHeaps threeInARun).map fun state => decide
      (⟨dataStart 0x1000164, 50⟩ ∈ state.live 0 ∧
        state.heapBase = (state.fields 0).heap ∧ FreesOwn 10 (state.view 0) 0x1000164 ∧
        ((state.view 0).walkTo 10 (state.view 0).heapBase 0x1000164).length < 10 ∧
        52 < (state.view 0).joinedSize 0x1000164)) = some true := by
    decide +kernel
  obtain ⟨state, ran, values⟩ := Option.map_eq_some_iff.mp result
  obtain ⟨inUse, global, own, short, room⟩ := of_decide_eq_true values
  obtain ⟨blocks, reuses⟩ := free_reuses_block boundedPages boundedPages_fresh 10 noHeaps
    noHeaps_start threeInARun state within ran 0 _ inUse
  refine ⟨state, ran, 10 + (blocks + 1), (reuses _ (by omega) ⟨global, ?_⟩).mpr fun _ => room⟩
  exact own.of_short short (blocks + 1)

/-- One allocation takes all of its page run. -/
def wholeRun : List SharedHeapAction := [.mallock 0 4040 none]

/-- Three allocations take all of their page run. -/
def fullRun : List SharedHeapAction :=
  [.mallock 0 100 none, .mallock 0 100 none, .mallock 0 3800 none]

/-- The last block of a list is not freed; the second of three is, but its 100 bytes are not
enough for the next 100. -/
theorem freed_blocks_not_reused : GrantsFresh boundedPages ∧ Start noHeaps ∧
    (∃ state, run (step boundedPages 10) noHeaps wholeRun = some state ∧
      ⟨dataStart 0x1000000, 4040⟩ ∈ state.live 0 ∧
      ¬ state.FreesAndReuses boundedPages 10 0 ⟨dataStart 0x1000000, 4040⟩) ∧
    ∃ state, run (step boundedPages 10) noHeaps fullRun = some state ∧
      ⟨dataStart 0x1000080, 100⟩ ∈ state.live 0 ∧
      ¬ state.FreesAndReuses boundedPages 10 0 ⟨dataStart 0x1000080, 100⟩ := by
  refine ⟨boundedPages_fresh, noHeaps_start, ?_, ?_⟩
  · have result : ((run (step boundedPages 10) noHeaps wholeRun).bind fun state =>
        (state.free 10 0 (dataStart 0x1000000)).map fun after => decide
          (⟨dataStart 0x1000000, 4040⟩ ∈ state.live 0 ∧
            (after.fields 0).heap = 0x1000000 ∧ (after.block 0x1000000).free = false)) =
        some true := by
      decide +kernel
    obtain ⟨state, ran, result⟩ := Option.bind_eq_some_iff.mp result
    obtain ⟨after, freed, values⟩ := Option.map_eq_some_iff.mp result
    obtain ⟨inUse, start, used⟩ := of_decide_eq_true values
    refine ⟨state, ran, inUse, ?_⟩
    rintro ⟨other, freed', marks, -⟩
    obtain rfl := Option.some.inj (freed.symm.trans freed')
    have onList : (after.view 0).OnList 0x1000000 := ⟨by decide, [], start, by simp⟩
    exact ((marks 0x1000000).mp ⟨onList, used⟩).2 rfl
  · have result : ((run (step boundedPages 10) noHeaps fullRun).bind fun state =>
        (state.free 10 0 (dataStart 0x1000080)).bind fun after =>
          (after.mallock boundedPages 10 0 100 none).map fun last => decide
            (⟨dataStart 0x1000080, 100⟩ ∈ state.live 0 ∧
              last.1.runsOf 0 ≠ state.runsOf 0)) = some true := by
      decide +kernel
    obtain ⟨state, ran, result⟩ := Option.bind_eq_some_iff.mp result
    obtain ⟨after, freed, result⟩ := Option.bind_eq_some_iff.mp result
    obtain ⟨last, allocated, values⟩ := Option.map_eq_some_iff.mp result
    obtain ⟨inUse, grown⟩ := of_decide_eq_true values
    refine ⟨state, ran, inUse, ?_⟩
    rintro ⟨other, freed', -, -, reuses⟩
    obtain rfl := Option.some.inj (freed.symm.trans freed')
    obtain ⟨again, p, allocated', -, same⟩ := reuses none
    obtain rfl := Option.some.inj (allocated.symm.trans allocated')
    exact grown same

end SharedHeap

end SistemasOperativos.Kernel
