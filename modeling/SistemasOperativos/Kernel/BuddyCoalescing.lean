import SistemasOperativos.Kernel.BuddySafety

/-!
# Everything given back

`deallocPage` clears the leaf of the first page of a block, whatever the size of
the block, and `freeUpRecursive` may clear a node above a live block. What it
never does is to leave a node marked without reason: every marked node has the
first page of a live block below it (`Grounded`). So when every block is given back
no node is marked.
-/

namespace SistemasOperativos.Kernel

open SistemasOperativos.Foundation SistemasOperativos.Semantics

/-- Every marked node has the leaf of a live block below it. -/
structure Grounded (state : HeapRun) : Prop where
  base : state.heap.base = createHeap.base
  heapLevel : state.heap.heapLevel = 11
  placed : ∀ block ∈ state.live, block.Placed
  grounded : ∀ v, 0 < v → state.heap.mark v ≠ .EMPTY → ∃ block ∈ state.live, Covers v block.leaf

/-- The invariant holds at boot. -/
theorem grounded_boot : Grounded HeapRun.boot where
  base := rfl
  heapLevel := by simp [HeapRun.boot, createHeap_eq]
  placed := by simp [HeapRun.boot]
  grounded := by simp [HeapRun.boot, createHeap_eq, BuddyArray.mark]

/-- A parent stays marked only beside a marked sibling. -/
theorem freed_of_empty_sibling (parent : Occupied) : freed parent .EMPTY = .EMPTY := by
  cases parent <;> rfl

namespace Grounded

variable {state : HeapRun}

/-- `allocPage` marks nodes above the leaf of the block it returns only. -/
theorem allocPage (grounded : Grounded state) {pages page : Nat} {after : BuddyArray}
    (search : Kernel.allocPage state.heap pages = (after, some page)) :
    Grounded ⟨after, ⟨page, pages⟩ :: state.live⟩ := by
  obtain ⟨_, _, w, _, taken, placed, node⟩ :=
    allocPage_taken grounded.base grounded.heapLevel search
  refine ⟨taken.base.trans grounded.base, taken.heapLevel.trans grounded.heapLevel, ?_, ?_⟩
  · simpa using ⟨placed, grounded.placed⟩
  · intro v positive marked
    by_cases covers : Covers v w
    · rw [← node] at covers
      exact ⟨_, List.mem_cons_self, covers.trans placed.node_covers_leaf⟩
    · rw [taken.frame v positive fun k _ same => covers ⟨positive, k, same.symm⟩] at marked
      obtain ⟨block, member, below⟩ := grounded.grounded v positive marked
      exact ⟨block, List.mem_cons_of_mem _ member, below⟩

/-- `deallocPage` clears the nodes above the leaf that nothing else holds. -/
theorem deallocPage (grounded : Grounded state) {block : Block} (member : block ∈ state.live)
    {after : BuddyArray} (freed : Freed state.heap after block.leaf) :
    Grounded ⟨after, state.live.erase block⟩ := by
  obtain ⟨lower, upper⟩ := (grounded.placed block member).leaf_bounds
  refine ⟨freed.base.trans grounded.base, freed.heapLevel.trans grounded.heapLevel,
    fun other mem => grounded.placed other (List.mem_of_mem_erase mem), ?_⟩
  intro v positive marked
  by_cases covers : Covers v block.leaf
  · obtain ⟨_, k, rfl⟩ := covers
    cases k with
    | zero =>
        rw [Nat.pow_zero, Nat.div_one, freed.cleared] at marked
        exact absurd rfl marked
    | succ k =>
        rw [freed.path k positive] at marked
        have inside : 1 < block.leaf / 2 ^ k := by
          rw [← div_two_pow_succ] at positive
          omega
        have beside : state.heap.mark (sibling (block.leaf / 2 ^ k)) ≠ .EMPTY := by
          intro empty
          rw [empty, freed_of_empty_sibling] at marked
          exact marked rfl
        obtain ⟨other, otherMember, aside⟩ := grounded.grounded _ (sibling_positive inside) beside
        refine ⟨other, (List.mem_erase_of_ne ?_).mpr otherMember, Covers.trans ?_ aside⟩
        · rintro rfl
          exact not_covers_sibling inside (Covers.ancestor (by omega)) aside
        · exact ⟨positive, 1, by rw [Nat.pow_one, sibling_div_two, div_two_pow_succ]⟩
  · rw [freed.frame v positive covers] at marked
    obtain ⟨other, otherMember, below⟩ := grounded.grounded v positive marked
    refine ⟨other, (List.mem_erase_of_ne ?_).mpr otherMember, below⟩
    rintro rfl
    exact covers below

end Grounded

/-- A step keeps the invariant. -/
theorem grounded_step (state : HeapRun) (action : HeapAction) (next : HeapRun)
    (grounded : Grounded state) (stepped : state.step action = some next) : Grounded next := by
  cases action with
  | allocPage pages =>
      simp only [HeapRun.step] at stepped
      split at stepped
      · rename_i heap search
        obtain rfl := Option.some.inj stepped
        rw [allocPage_null grounded.heapLevel search]
        exact grounded
      · rename_i heap page search
        obtain rfl := Option.some.inj stepped
        exact grounded.allocPage search
  | deallocPage page =>
      simp only [HeapRun.step] at stepped
      split at stepped
      · cases stepped
      · rename_i block found
        have member := List.mem_of_find?_eq_some found
        have pageEq : block.page = page := by simpa using List.find?_some found
        have placed := grounded.placed block member
        obtain ⟨lower, upper⟩ := placed.leaf_bounds
        obtain ⟨after, dealloc, freed⟩ := @deallocPage_leaf state.heap _ lower upper
        rw [← placed.address, pageEq] at dealloc
        rw [dealloc] at stepped
        obtain rfl := Option.some.inj stepped
        exact grounded.deallocPage member freed

/-- When every block has been given back, in whatever order, no node of the tree
is marked, and the whole arena can be had again. -/
theorem all_given_back (actions : List HeapAction) (final : HeapRun)
    (ran : run HeapRun.step HeapRun.boot actions = some final) (nothing : final.live = []) :
    (∀ i, i < HEAPSIZE → final.heap.occupied i = .EMPTY) ∧
      (allocPage final.heap 1024).2 = some baseMemory := by
  have grounded : Grounded final := run_invariant grounded_step grounded_boot ran
  have empty : ∀ v, 0 < v → final.heap.mark v = .EMPTY := by
    intro v positive
    by_contra marked
    obtain ⟨block, member, -⟩ := grounded.grounded v positive marked
    rw [nothing] at member
    cases member
  refine ⟨fun i _ => empty (i + 1) (by omega), ?_⟩
  have whole : Nat.clog 2 1024 = 10 := by
    rw [show 1024 = 2 ^ 10 by rfl, Nat.clog_pow _ _ (by omega)]
  rw [allocPage_eq grounded.heapLevel (by omega) (by omega), whole, Nat.sub_self,
    getNextPageRecursive, empty 1 (by omega)]
  simp only [reduceCtorEq, if_false]
  rw [grounded.base, createHeap_eq]
  decide

/-- A node is cleared over a live block, which then shares its first page with
another block; all the same the tree is empty at the end. -/
theorem all_given_back_overlapping : ∃ final,
    run HeapRun.step HeapRun.boot [.allocPage 1, .allocPage 1, .deallocPage 0x1000000,
      .allocPage 4, .deallocPage 0x1001000, .deallocPage 0x1000000] = some final ∧
      (allocPage final.heap 1024).2 = some baseMemory := by
  have finishes : (run HeapRun.step HeapRun.boot [.allocPage 1, .allocPage 1,
      .deallocPage 0x1000000, .allocPage 4, .deallocPage 0x1001000,
      .deallocPage 0x1000000]).map HeapRun.live = some [] := by
    rw [HeapRun.boot_eq]
    decide +kernel
  obtain ⟨final, ran, nothing⟩ := Option.map_eq_some_iff.mp finishes
  exact ⟨final, ran, (all_given_back _ final ran nothing).2⟩

end SistemasOperativos.Kernel
