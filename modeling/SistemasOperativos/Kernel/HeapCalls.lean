import SistemasOperativos.Kernel.HeapIsolation

/-!
# One call of mallock or free

What one call does to the heap of its process, for a request of any `size_t`. A call of
`mallock` that gets its pages ends up with a free block of the list, which holds more than the
aligned size or is a whole new page run; the allocations stay what they were. The size of the
block it returns is read off the block it found (`takeBlock_size`).
-/

namespace SistemasOperativos.Kernel

open SistemasOperativos.Foundation SistemasOperativos.Semantics

namespace HeapState

variable {heap heap' : HeapState} {a block : Nat} {l : List Nat} {fuel : Nat}

/-- `findFirstFreeBlock` finds a block if there is one with more room than asked for. -/
theorem findFirstFreeBlock_finds {size : Nat} (path : Path heap.next a l 0) (nonnull : 0 ∉ l)
    (member : block ∈ l) (free : (heap.block block).free = true)
    (room : size < (heap.block block).size) (enough : l.length < fuel) :
    ∃ found, heap.findFirstFreeBlock fuel a size = some found ∧ found ≠ 0 := by
  induction l generalizing a fuel with
  | nil => cases member
  | cons b l ih =>
      obtain ⟨rfl, rest⟩ := path
      have present : a ≠ 0 := fun null => nonnull (by simp [null])
      cases fuel with
      | zero => cases enough
      | succ fuel =>
          rw [findFirstFreeBlock]
          split
          · rename_i further
            have later : block ∈ l := by
              rcases List.mem_cons.mp member with rfl | later
              · exact absurd ⟨free, room⟩ further.2
              · exact later
            exact ih rest (fun null => nonnull (List.mem_cons_of_mem _ null)) later
              (Nat.lt_of_succ_lt_succ enough)
          · exact ⟨a, rfl, present⟩

/-- The size of the block that `mallock` returns: `s` if it was cut. -/
theorem takeBlock_size (heap : HeapState) (block s : Nat) :
    ((heap.takeBlock block s).1.block block).size =
      if (s + 4 + BLOCK_STRUCT_SIZE) % SIZE_T < (heap.block block).size ∧
        s ≤ (heap.block block).size then s else (heap.block block).size := by
  simp only [takeBlock]
  split
  · rename_i large
    by_cases short : (heap.block block).size < s
    · rw [split_block, if_pos short, if_neg fun both => absurd short (Nat.not_lt.mpr both.2)]
      simp [setBlock]
    · rw [split_block, if_neg short, if_pos ⟨large, Nat.not_lt.mp short⟩]
      simp [setBlock]
  · rename_i small
    rw [if_neg fun both => small both.1]
    simp [setBlock]

end HeapState

/-- No page that `allocPage` returns is the address of a block. -/
theorem GrantsFresh.not_mem {allocPage : List PageRun → Nat → Nat} {heap : HeapState}
    {l : List Nat} {elsewhere : List PageRun} (grants : GrantsFresh allocPage)
    (laid : Laid heap l) (pages : Nat) : allocPage (heap.runs ++ elsewhere) pages ∉ l := by
  intro member
  obtain ⟨positive, -, apart⟩ := grants _ _ fun null => laid.nonnull (null ▸ member)
  obtain ⟨run, isRun, -, has⟩ := laid.run_has member
  obtain ⟨old, isOld, rfl⟩ := List.mem_map.mp isRun
  have disjoint := apart old (List.mem_append_left _ isOld)
  simp only [Interval.Disjoint, Interval.Has, PageRun.interval,
    show PAGE_SIZE = 4096 by rfl] at disjoint has
  omega

/-- Where the block comes from that `mallock` ends up with: from the list, or it is all of a
new page run. -/
structure Chosen (heap heap' : HeapState) (live : List Allocation) (r : List Nat)
    (block size s : Nat) : Prop where
  held : Held heap' live r
  member : block ∈ r
  free : (heap'.block block).free = true
  origin : s < (heap'.block block).size ∧ heap'.runs = heap.runs ∨
    (heap'.block block).size + 28 = pagesAsked size * PAGE_SIZE

namespace Held

variable {heap heap' : HeapState} {live : List Allocation} {l r : List Nat} {block : Nat}
  {elsewhere : List PageRun} {allocPage : List PageRun → Nat → Nat} {fuel size : Nat}

/-- The first test of `mallock`. -/
theorem ensureHeap_granted (grants : GrantsFresh allocPage) (held : Held heap live l)
    (global : heap.heapBase = heap.heap)
    (granted : heap.heap = 0 → allocPage (heap.runs ++ elsewhere) (pagesAsked size) ≠ 0)
    (ensured : heap.ensureHeap (fun own pages => allocPage (own ++ elsewhere) pages) fuel size =
      some heap') :
    ∃ r, Held heap' live r ∧ heap'.heapBase = heap'.heap ∧ r.length ≤ l.length + 1 := by
  unfold HeapState.ensureHeap at ensured
  split at ensured
  · rename_i none
    obtain ⟨⟨grown, base⟩, extended, rfl⟩ := Option.map_eq_some_iff.mp ensured
    have more := held.extendHeap_granted grants global (granted (global ▸ none)) extended
    exact ⟨_, more.held, more.global, by simp⟩
  · obtain rfl := Option.some.inj ensured
    exact ⟨l, held, global, by omega⟩

/-- The block that `mallock` chooses. -/
theorem chooseBlock_granted (grants : GrantsFresh allocPage) {s : Nat} (held : Held heap live l)
    (global : heap.heapBase = heap.heap)
    (granted : heap.findFirstFreeBlock fuel heap.heapBase s = some 0 →
      allocPage (heap.runs ++ elsewhere) (pagesAsked size) ≠ 0)
    (chosen : heap.chooseBlock (fun own pages => allocPage (own ++ elsewhere) pages) fuel size s =
      some (heap', block)) :
    ∃ r, Chosen heap heap' live r block size s := by
  unfold HeapState.chooseBlock at chosen
  split at chosen
  · cases chosen
  · rename_i found search
    split at chosen
    · rename_i null
      subst null
      have more := held.extendHeap_granted grants global (granted search) chosen
      exact ⟨_, more.held, by simp, more.free, .inr more.size⟩
    · rename_i notNull
      obtain ⟨rfl, rfl⟩ := Prod.mk.inj (Option.some.inj chosen)
      obtain ⟨member, free, room⟩ :=
        (HeapState.findFirstFreeBlock_spec (global ▸ held.path) search).resolve_left notNull
      exact ⟨l, held, member, free, .inl ⟨room, rfl⟩⟩

/-- The block that a call of `mallock` ends up with is no larger than the page runs. -/
theorem chosen_small (grants : GrantsFresh allocPage) {s : Nat} {ready : HeapState}
    (held : Held heap live l) (global : heap.heapBase = heap.heap)
    (bounded : ∀ run ∈ heap.runs, run.pages ≤ NUMBER_OF_PAGES)
    (first : heap.heap = 0 → allocPage (heap.runs ++ elsewhere) (pagesAsked size) ≠ 0)
    (ensured : heap.ensureHeap (fun own pages => allocPage (own ++ elsewhere) pages) fuel size =
      some ready)
    (second : ready.findFirstFreeBlock fuel ready.heapBase s = some 0 →
      allocPage (ready.runs ++ elsewhere) (pagesAsked size) ≠ 0)
    (choice : ready.chooseBlock (fun own pages => allocPage (own ++ elsewhere) pages) fuel size s =
      some (heap', block)) :
    (heap'.block block).size < NUMBER_OF_PAGES * PAGE_SIZE := by
  obtain ⟨_, ensuring, current⟩ := held.toLaid.ensureHeap grants global first ensured
  obtain ⟨_, choosing, member, -⟩ := ensuring.laid.chooseBlock grants current second choice
  exact choosing.laid.size_lt_pages (fun run isRun =>
    ((ensuring.trans choosing).runs run isRun).elim (bounded run) And.left) member

/-- The end of `mallock`, for any aligned size: the block becomes an allocation. -/
theorem takeBlock_any (held : Held heap live l) (member : block ∈ l)
    (free : (heap.block block).free = true)
    (small : (heap.block block).size < NUMBER_OF_PAGES * PAGE_SIZE) (s : Nat) :
    ∃ r, Held (heap.takeBlock block s).1 (⟨dataStart block, 0⟩ :: live) r ∧ block ∈ r := by
  by_cases fits : s ≤ (heap.block block).size
  · have bound : s ≤ 2 ^ 31 := by
      simp only [show NUMBER_OF_PAGES = 1024 by rfl, show PAGE_SIZE = 4096 by rfl] at small
      omega
    obtain ⟨r, taken, -, -⟩ := held.takeBlock member free fits (Nat.zero_le s) bound
    obtain ⟨b, onList, pointer, -⟩ := taken.owned _ (List.mem_cons_self ..)
    have same : b = block := by
      have equal : dataStart block = dataStart b := pointer
      simp only [dataStart_eq] at equal
      omega
    exact ⟨r, taken, same ▸ onList⟩
  · have whole : (heap.takeBlock block s).1 =
        heap.setBlock block { heap.block block with free := false } := by
      simp only [HeapState.takeBlock, HeapState.split_block, if_pos (Nat.not_le.mp fits), ite_self]
    rw [whole]
    exact ⟨l, held.allocate member free (Nat.zero_le _), member⟩

end Held

end SistemasOperativos.Kernel
