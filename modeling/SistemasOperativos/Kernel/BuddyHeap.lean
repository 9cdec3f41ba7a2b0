import SistemasOperativos.Foundation.HeapTree
import SistemasOperativos.Kernel.BuddyAllocator
import Mathlib.Tactic.Ring

/-!
# What the page allocator's functions do

One specification for each function of `Kernel.BuddyAllocator`, for an
arbitrary content of the mark array. `createHeap_eq` gives the array that
`createHeap` builds, `Taken` and `Blocked` say what `getNextPageRecursive` does
when it succeeds and when it returns `NULL`, and `freeUpRecursive_onPath` with
`freeUpRecursive_offPath` describe the walk of `freeUpRecursive`. The later
modules use these and never unfold the functions.
-/

namespace SistemasOperativos.Kernel

open SistemasOperativos.Foundation

/-! ## The array built by createHeap -/

/-- Address of the block of node `index`. -/
def nodeBase (index : Nat) : Nat :=
  MEMORY / 2 ^ Nat.log 2 index * (index - 2 ^ Nat.log 2 index) + baseMemory

/-- The level of a node is the logarithm of its index. -/
private theorem log_eq_level {level index : Nat} (lower : 2 ^ level ≤ index)
    (upper : index < 2 ^ (level + 1)) : Nat.log 2 index = level :=
  (Nat.log_eq_iff (.inr ⟨by omega, by have := Nat.two_pow_pos level; omega⟩)).mpr ⟨lower, upper⟩

/-- The loop of `createHeap` at index `i`, with the level counters in step: it
fills the entries from `i` on and ends with the counters still in step. -/
private theorem createHeapLoop_eq {remaining i level current max : Nat} {buddyArray : BuddyArray}
    (levelPositive : 1 ≤ level) (maxEq : max = 2 ^ (level - 1)) (inStep : i + 1 = max + current)
    (within : current ≤ max) (started : 0 < i → 0 < current)
    (empty : buddyArray.occupied = fun _ => .EMPTY) :
    ∃ last count,
      createHeapLoop remaining i level current max buddyArray =
        { occupied := fun _ => .EMPTY
          base := fun k => if i ≤ k ∧ k < i + remaining then nodeBase (k + 1)
            else buddyArray.base k
          heapLevel := last } ∧
      1 ≤ last ∧ i + remaining + 1 = 2 ^ (last - 1) + count ∧ count ≤ 2 ^ (last - 1) ∧
      (0 < i + remaining → 0 < count) := by
  induction remaining generalizing i level current max buddyArray with
  | zero =>
      refine ⟨level, current, ?_, levelPositive, by omega, by omega, by omega⟩
      simp only [createHeapLoop]
      congr 1
      funext k
      rw [if_neg (by omega)]
  | succ remaining ih =>
      -- After the carry the element number is inside its level.
      obtain ⟨max', current', level', carried, maxEq', inStep', inside, levelPositive'⟩ :
          ∃ max' current' level',
            (if max = current then ((0 : Nat), max * 2, level + 1) else (current, max, level)) =
              (current', max', level') ∧
            max' = 2 ^ (level' - 1) ∧ i + 1 = max' + current' ∧ current' < max' ∧ 1 ≤ level' := by
        split
        · refine ⟨max * 2, 0, level + 1, rfl, ?_, by omega, ?_, by omega⟩
          · rw [maxEq, ← Nat.pow_succ]
            congr 1
            omega
          · have := Nat.two_pow_pos (level - 1)
            omega
        · exact ⟨max, current, level, rfl, maxEq, inStep, by omega, levelPositive⟩
      have unfolded : createHeapLoop (remaining + 1) i level current max buddyArray =
          createHeapLoop remaining (i + 1) level' (current' + 1) max'
            { buddyArray with
              occupied := Function.update buddyArray.occupied i .EMPTY
              base := Function.update buddyArray.base i
                (getBaseMemoryWithIndex (i + 1) max' current') } := by
        simp only [createHeapLoop, carried]
      have depth : Nat.log 2 (i + 1) = level' - 1 := by
        apply log_eq_level
        · omega
        · rw [Nat.pow_succ]
          omega
      have here : getBaseMemoryWithIndex (i + 1) max' current' = nodeBase (i + 1) := by
        simp only [getBaseMemoryWithIndex, nodeBase, depth, ← maxEq']
        congr 2
        omega
      let filled : BuddyArray :=
        { buddyArray with
          occupied := Function.update buddyArray.occupied i .EMPTY
          base := Function.update buddyArray.base i
            (getBaseMemoryWithIndex (i + 1) max' current') }
      have filledEmpty : filled.occupied = fun _ => .EMPTY := by
        simp only [filled, empty]
        exact Function.update_eq_self i _
      obtain ⟨last, count, final, counters⟩ := @ih (i + 1) level' (current' + 1) max' filled
        levelPositive' maxEq' (by omega) (by omega) (by omega) filledEmpty
      refine ⟨last, count, ?_, by omega⟩
      rw [unfolded, final]
      congr 1
      funext k
      by_cases atI : k = i
      · subst atI
        simp [filled, here]
      · by_cases later : i + 1 ≤ k ∧ k < i + 1 + remaining
        · rw [if_pos later, if_pos (by omega)]
        · rw [if_neg later, if_neg (by omega)]
          simp [filled, Function.update_of_ne atI]

/-- The array after `createHeap`: everything free, eleven levels. -/
theorem createHeap_eq : createHeap =
    { occupied := fun _ => .EMPTY
      base := fun k => if k < HEAPSIZE then nodeBase (k + 1) else 0
      heapLevel := 11 } := by
  obtain ⟨last, count, final, lastPositive, total, bounded, counted⟩ :=
    @createHeapLoop_eq HEAPSIZE 0 1 0 1 zeroBuddyArray (le_refl 1) (by simp) (by simp) (by simp)
      (by simp) rfl
  have size : HEAPSIZE = 2047 := rfl
  have levels : last - 1 = 10 := by
    have lower : 2 ^ 10 ≤ 2 ^ (last - 1) := by omega
    have upper : 2 ^ (last - 1) < 2 ^ 11 := by omega
    have := (Nat.pow_le_pow_iff_right (by omega : 1 < 2)).mp lower
    have := (Nat.pow_lt_pow_iff_right (by omega : 1 < 2)).mp upper
    omega
  have lastEq : last = 11 := by omega
  refine final.trans ?_
  subst lastEq
  simp [zeroBuddyArray]

/-- Address of a node that lies `height` levels above the leaves, in pages. -/
theorem nodeBase_eq {index height : Nat} (bounded : height ≤ 10)
    (lower : 2 ^ (10 - height) ≤ index) (upper : index < 2 ^ (11 - height)) :
    nodeBase index = baseMemory + PAGE_SIZE * (index * 2 ^ height - 1024) := by
  have depth : Nat.log 2 index = 10 - height :=
    log_eq_level lower (by rwa [show 10 - height + 1 = 11 - height by omega])
  have split : (2 : Nat) ^ 10 = 2 ^ (10 - height) * 2 ^ height := by
    rw [← Nat.pow_add]
    congr 1
    omega
  have portion : MEMORY / 2 ^ (10 - height) = PAGE_SIZE * 2 ^ height := by
    rw [show MEMORY = PAGE_SIZE * 2 ^ 10 by rfl, split, Nat.mul_left_comm]
    exact Nat.mul_div_cancel_left _ (Nat.two_pow_pos _)
  rw [nodeBase, depth, portion, Nat.mul_assoc, Nat.mul_comm (2 ^ height), Nat.sub_mul, ← split,
    Nat.add_comm, show (2 : Nat) ^ 10 = 1024 by rfl]

/-! ## The level of a request -/

/-- Halving upwards until 1 counts the binary logarithm, rounded up. -/
private theorem getLevelLoop_eq {fuel rta : Nat} (positive : 0 < rta) (enough : rta ≤ fuel)
    (i : Nat) : getLevelLoop fuel rta i = i + Nat.clog 2 rta := by
  induction fuel generalizing rta i with
  | zero => omega
  | succ fuel ih =>
      by_cases one : rta = 1
      · simp [getLevelLoop, one]
      · have halved : (if rta % 2 ≠ 0 then rta / 2 + 1 else rta / 2) = (rta + 1) / 2 := by
          split <;> omega
        have unfolded : Nat.clog 2 rta = Nat.clog 2 ((rta + 1) / 2) + 1 :=
          Nat.clog_of_two_le (by omega) (by omega)
        simp only [getLevelLoop, if_neg one, halved]
        rw [ih (by omega) (by omega), unfolded]
        omega

/-- `getLevel` is the level whose blocks are the smallest with enough pages. -/
theorem getLevel_eq {buddyArray : BuddyArray} {pages : Nat} (positive : 0 < pages) :
    getLevel buddyArray pages = buddyArray.heapLevel - (Nat.clog 2 pages : Int) := by
  simp [getLevel, getLevelLoop_eq positive (Nat.le_succ pages)]

/-- Requests the allocator accepts fit in the tree. -/
theorem clog_le_ten {pages : Nat} (bounded : pages ≤ 1024) : Nat.clog 2 pages ≤ 10 :=
  Nat.clog_le_of_le_pow (by simpa using bounded)

/-! ## The search -/

/-- Node `w` cannot be taken by a search that started `levels` above it: it is
not empty, or a node on the way down to it is full. -/
def Blocked (buddyArray : BuddyArray) (levels w : Nat) : Prop :=
  buddyArray.mark w ≠ .EMPTY ∨ ∃ k, k ≤ levels ∧ buddyArray.mark (w / 2 ^ k) = .BUDDY_FULL

/-- A search that started `levels` above `w` took node `w`. -/
structure Taken (before after : BuddyArray) (levels w : Nat) : Prop where
  empty : before.mark w = .EMPTY
  openPath : ∀ k, k ≤ levels → before.mark (w / 2 ^ k) ≠ .BUDDY_FULL
  /-- The node taken is the leftmost one that could be. -/
  first : ∀ other, other / 2 ^ levels = w / 2 ^ levels → other < w → Blocked before levels other
  full : after.mark w = .BUDDY_FULL
  above : ∀ k, k < levels → after.mark (w / 2 ^ (k + 1)) =
    if w / 2 ^ k % 2 = 0 then .PARTIALLY_FULL
    else if after.mark (w / 2 ^ k) = .BUDDY_FULL then .BUDDY_FULL
    else before.mark (w / 2 ^ (k + 1))
  frame : ∀ u, 0 < u → (∀ k, k ≤ levels → u ≠ w / 2 ^ k) → after.mark u = before.mark u
  base : after.base = before.base
  heapLevel : after.heapLevel = before.heapLevel

/-- A node that no search takes is taken by none that starts further up. -/
theorem Blocked.deeper {buddyArray : BuddyArray} {levels w : Nat}
    (blocked : Blocked buddyArray levels w) : Blocked buddyArray (levels + 1) w := by
  rcases blocked with occupied | ⟨k, within, full⟩
  · exact .inl occupied
  · exact .inr ⟨k, by omega, full⟩

/-- On the way down to the node taken, exactly the nodes reached from it through
right children end up full. -/
theorem Taken.full_on_path_iff {before after : BuddyArray} {levels w : Nat}
    (taken : Taken before after levels w) {k : Nat} (within : k ≤ levels) :
    after.mark (w / 2 ^ k) = .BUDDY_FULL ↔ ∀ i, i < k → w / 2 ^ i % 2 = 1 := by
  induction k with
  | zero => simp [taken.full]
  | succ k ih =>
      have kept := taken.openPath (k + 1) within
      rw [taken.above k within]
      constructor
      · intro full i below
        rcases Nat.mod_two_eq_zero_or_one (w / 2 ^ k) with even | odd
        · simp [even] at full
        · have childFull : after.mark (w / 2 ^ k) = .BUDDY_FULL := by
            by_contra notFull
            rw [if_neg (by omega), if_neg notFull] at full
            exact kept full
          rcases Nat.lt_or_eq_of_le (Nat.le_of_lt_succ below) with strict | rfl
          · exact (ih (by omega)).mp childFull i strict
          · exact odd
      · intro odds
        have odd := odds k (by omega)
        have childFull := (ih (by omega)).mpr fun i below => odds i (by omega)
        rw [if_neg (by omega), if_pos childFull]

/-- The two children of `index` share out the targets below it. -/
private theorem target_below_child {w levels index : Nat} (target : w / 2 ^ (levels + 1) = index) :
    w / 2 ^ levels = LCHILD index ∨ w / 2 ^ levels = RCHILD index := by
  have := div_two_pow_succ w levels
  simp only [LCHILD, RCHILD]
  omega

/-- A search that returns `NULL` changed nothing, and every target was blocked. -/
theorem getNextPageRecursive_none {before after : BuddyArray} {index levels : Nat}
    (search : getNextPageRecursive before index levels = (after, none)) :
    after = before ∧ ∀ w, w / 2 ^ levels = index → Blocked before levels w := by
  induction levels generalizing before after index with
  | zero =>
      rw [getNextPageRecursive] at search
      split at search
      · rename_i full
        obtain ⟨rfl, -⟩ := Prod.mk.inj search
        refine ⟨rfl, fun w target => .inl ?_⟩
        rw [show w = index by simpa using target, full]
        simp
      · split at search
        · rename_i partly
          obtain ⟨rfl, -⟩ := Prod.mk.inj search
          refine ⟨rfl, fun w target => .inl ?_⟩
          rw [show w = index by simpa using target, partly]
          simp
        · simp at search
  | succ levels ih =>
      rw [getNextPageRecursive] at search
      split at search
      · rename_i full
        obtain ⟨rfl, -⟩ := Prod.mk.inj search
        exact ⟨rfl, fun w target => .inr ⟨levels + 1, le_refl _, by rw [target, full]⟩⟩
      · split at search
        · rename_i middle left
          obtain ⟨rfl, leftBlocked⟩ := ih left
          split at search
          · rename_i last right
            obtain ⟨rfl, rightBlocked⟩ := ih right
            obtain ⟨rfl, -⟩ := Prod.mk.inj search
            refine ⟨rfl, fun w target => ?_⟩
            rcases target_below_child target with below | below
            · exact (leftBlocked w below).deeper
            · exact (rightBlocked w below).deeper
          · split at search <;> simp at search
        · simp at search

/-- Taking a node below a child, seen from the parent: only the parent's own
mark is still to be described. -/
private theorem Taken.extend {before middle after : BuddyArray} {index levels w : Nat}
    (taken : Taken before middle levels w) (positive : 0 < index)
    (target : w / 2 ^ (levels + 1) = index) (notFull : before.mark index ≠ .BUDDY_FULL)
    (first : ∀ other, other / 2 ^ (levels + 1) = index → other < w →
      Blocked before (levels + 1) other)
    (others : ∀ u, 0 < u → u ≠ index → after.mark u = middle.mark u)
    (parent : after.mark index =
      if w / 2 ^ levels % 2 = 0 then .PARTIALLY_FULL
      else if middle.mark (w / 2 ^ levels) = .BUDDY_FULL then .BUDDY_FULL
      else before.mark index)
    (base : after.base = middle.base) (heapLevel : after.heapLevel = middle.heapLevel) :
    Taken before after (levels + 1) w := by
  have below : ∀ k, k ≤ levels → 0 < w / 2 ^ k ∧ w / 2 ^ k ≠ index := by
    intro k within
    obtain ⟨d, rfl⟩ := Nat.exists_eq_add_of_le within
    have down : w / 2 ^ k / 2 ^ (d + 1) = index := by
      rw [Nat.div_div_eq_div_mul, ← Nat.pow_add, ← target]
      rfl
    have shrinks : w / 2 ^ k / 2 ^ (d + 1) ≤ w / 2 ^ k / 2 := by
      rw [Nat.pow_succ', ← Nat.div_div_eq_div_mul]
      exact Nat.div_le_self _ _
    omega
  refine ⟨taken.empty, ?_, ?_, ?_, ?_, ?_, base.trans taken.base, heapLevel.trans taken.heapLevel⟩
  · intro k within
    rcases Nat.lt_or_eq_of_le within with inner | rfl
    · exact taken.openPath k (by omega)
    · rwa [target]
  · intro other same before
    exact first other (same.trans target) before
  · have inside := below 0 (Nat.zero_le _)
    rw [Nat.pow_zero, Nat.div_one] at inside
    rw [others w inside.1 inside.2, taken.full]
  · intro k within
    have here := below k (by omega)
    rcases Nat.lt_or_eq_of_le (Nat.le_of_lt_succ within) with inner | rfl
    · have up := below (k + 1) (by omega)
      rw [others _ up.1 up.2, others _ here.1 here.2]
      exact taken.above k inner
    · rw [target, others _ here.1 here.2]
      exact parent
  · intro u uPositive offPath
    have notIndex : u ≠ index := by
      have := offPath (levels + 1) (le_refl _)
      rwa [target] at this
    rw [others u uPositive notIndex]
    exact taken.frame u uPositive fun k within => offPath k (by omega)

/-- A successful search takes one target node and returns its address. -/
theorem getNextPageRecursive_some {before after : BuddyArray} {index levels page : Nat}
    (positive : 0 < index)
    (search : getNextPageRecursive before index levels = (after, some page)) :
    ∃ w, w / 2 ^ levels = index ∧ Taken before after levels w ∧ page = before.base (w - 1) := by
  induction levels generalizing before after index page with
  | zero =>
      rw [getNextPageRecursive] at search
      split at search
      · simp at search
      · rename_i notFull
        split at search
        · simp at search
        · rename_i notPartly
          obtain ⟨rfl, address⟩ := Prod.mk.inj search
          have empty : before.mark index = .EMPTY := by
            cases marked : before.mark index <;> simp_all
          refine ⟨index, by simp, ?_, (Option.some.inj address).symm⟩
          refine ⟨empty, ?_, ?_, by simp, by simp, ?_, rfl, rfl⟩
          · intro k within
            rw [Nat.le_zero.mp within]
            simpa using notFull
          · intro other same before
            simp at same
            omega
          · intro u uPositive offPath
            have notIndex : u ≠ index := by simpa using offPath 0 (le_refl 0)
            exact before.mark_setMark_of_ne _ positive uPositive notIndex
  | succ levels ih =>
      rw [getNextPageRecursive] at search
      split at search
      · simp at search
      · rename_i notFull
        split at search
        · -- The left child returned NULL, so the page comes from the right one.
          rename_i middle left
          obtain ⟨rfl, leftBlocked⟩ := getNextPageRecursive_none left
          split at search
          · simp at search
          · rename_i last rchild right
            have rchildPositive : 0 < RCHILD index := by simp [RCHILD]
            obtain ⟨w, below, taken, rfl⟩ := ih rchildPositive right
            have target : w / 2 ^ (levels + 1) = index := by
              rw [← div_two_pow_succ, below]
              simp only [RCHILD]
              omega
            have odd : w / 2 ^ levels % 2 ≠ 0 := by
              rw [below]
              simp only [RCHILD]
              omega
            have first : ∀ other, other / 2 ^ (levels + 1) = index → other < w →
                Blocked middle (levels + 1) other := by
              intro other same smaller
              rcases target_below_child same with onLeft | onRight
              · exact (leftBlocked other onLeft).deeper
              · exact (taken.first other (onRight.trans below.symm) smaller).deeper
            split at search
            · rename_i rightFull
              obtain ⟨rfl, address⟩ := Prod.mk.inj search
              refine ⟨w, target, ?_, (Option.some.inj address).symm⟩
              refine taken.extend positive target notFull first ?_ ?_ rfl rfl
              · intro u uPositive notIndex
                exact last.mark_setMark_of_ne _ positive uPositive notIndex
              · rw [if_neg odd, below, if_pos rightFull]
                simp
            · rename_i rightNotFull
              obtain ⟨rfl, address⟩ := Prod.mk.inj search
              refine ⟨w, target, ?_, (Option.some.inj address).symm⟩
              refine taken.extend positive target notFull first (fun _ _ _ => rfl) ?_ rfl rfl
              rw [if_neg odd, below, if_neg rightNotFull]
              refine taken.frame index positive fun k within same => ?_
              have shrinks := Nat.div_le_div_left (Nat.pow_le_pow_right (by omega : 0 < 2) within)
                (Nat.two_pow_pos k) (a := w)
              rw [below, ← same] at shrinks
              simp only [RCHILD] at shrinks
              omega
        · rename_i middle lchild left
          obtain ⟨rfl, address⟩ := Prod.mk.inj search
          have lchildPositive : 0 < LCHILD index := by simpa [LCHILD] using positive
          obtain ⟨w, below, taken, pageEq⟩ := ih lchildPositive left
          have target : w / 2 ^ (levels + 1) = index := by
            rw [← div_two_pow_succ, below]
            simp only [LCHILD]
            omega
          have even : w / 2 ^ levels % 2 = 0 := by
            rw [below]
            simp only [LCHILD]
            omega
          refine ⟨w, target, ?_, (Option.some.inj address).symm.trans pageEq⟩
          refine taken.extend positive target notFull ?_ ?_ ?_ rfl rfl
          · intro other same smaller
            rcases target_below_child same with onLeft | onRight
            · exact (taken.first other (onLeft.trans below.symm) smaller).deeper
            · -- A target of the right child is not to the left of `w`.
              exfalso
              have order := Nat.div_le_div_right (c := 2 ^ levels) (Nat.le_of_lt smaller)
              rw [onRight, below] at order
              simp only [LCHILD, RCHILD] at order
              omega
          · intro u uPositive notIndex
            exact middle.mark_setMark_of_ne _ positive uPositive notIndex
          · rw [if_pos even]
            simp

/-- `allocPage` searches from the root for a node of the request's size. -/
theorem allocPage_eq {buddyArray : BuddyArray} {pages : Nat} (levels : buddyArray.heapLevel = 11)
    (positive : 0 < pages) (bounded : pages ≤ 1024) :
    allocPage buddyArray pages = getNextPageRecursive buddyArray 1 (10 - Nat.clog 2 pages) := by
  have height := clog_le_ten bounded
  have accepted : ¬ (pages = 0 ∨ pages > NUMBER_OF_PAGES) := by
    simp only [show NUMBER_OF_PAGES = 1024 by rfl]
    omega
  rw [allocPage, if_neg accepted, getLevel_eq positive, levels]
  simp only [gt_iff_lt]
  rw [if_neg (by omega)]
  congr 1
  omega

/-- `allocPage` of no page, or of more pages than there are, is `NULL`. -/
theorem allocPage_refused {buddyArray : BuddyArray} {pages : Nat}
    (refused : pages = 0 ∨ 1024 < pages) : allocPage buddyArray pages = (buddyArray, none) := by
  rw [allocPage, if_pos (by simpa [show NUMBER_OF_PAGES = 1024 by rfl] using refused)]

/-- `allocPage` leaves the array alone when it returns `NULL`. -/
theorem allocPage_null {buddyArray after : BuddyArray} {pages : Nat}
    (levels : buddyArray.heapLevel = 11) (search : allocPage buddyArray pages = (after, none)) :
    after = buddyArray := by
  by_cases accepted : 0 < pages ∧ pages ≤ 1024
  · rw [allocPage_eq levels accepted.1 accepted.2] at search
    exact (getNextPageRecursive_none search).1
  · rw [allocPage_refused (by omega)] at search
    exact (Prod.mk.inj search).1.symm

/-! ## Freeing -/

/-- The mark that `freeUpRecursive` leaves on a parent, from its own mark and
that of the child it did not come from. -/
def freed (parent sibling : Occupied) : Occupied :=
  match parent, sibling with
  | .BUDDY_FULL, .EMPTY => .EMPTY
  | .BUDDY_FULL, .BUDDY_FULL => .PARTIALLY_FULL
  | .PARTIALLY_FULL, .EMPTY => .EMPTY
  | parent, _ => parent

/-- The macro `SIBLING` computes the other child of the parent. -/
theorem SIBLING_eq_sibling (i : Nat) : SIBLING i = sibling i := by
  rcases Nat.mod_two_eq_zero_or_one i with even | odd <;> simp [SIBLING, sibling, *]

/-- One turn of `freeUpRecursive` rewrites the parent's mark only. -/
private theorem freeUpStep_eq (buddyArray : BuddyArray) (index : Nat) :
    freeUpStep buddyArray index = buddyArray ∧
        freed (buddyArray.mark (index / 2)) (buddyArray.mark (sibling index)) =
          buddyArray.mark (index / 2) ∨
      freeUpStep buddyArray index = buddyArray.setMark (index / 2)
        (freed (buddyArray.mark (index / 2)) (buddyArray.mark (sibling index))) := by
  rw [freeUpStep, SIBLING_eq_sibling]
  cases buddyArray.mark (PARENT index) <;> cases buddyArray.mark (sibling index) <;> simp [freed]

/-- One turn of `freeUpRecursive` writes the mark of the parent. -/
private theorem freeUpStep_mark {buddyArray : BuddyArray} {index : Nat} (inside : 1 < index)
    {u : Nat} (positive : 0 < u) :
    (freeUpStep buddyArray index).mark u =
      if u = index / 2 then freed (buddyArray.mark (index / 2)) (buddyArray.mark (sibling index))
      else buddyArray.mark u := by
  rcases freeUpStep_eq buddyArray index with ⟨same, kept⟩ | changed
  · rw [same]
    split
    · rename_i atParent
      rw [atParent, kept]
    · rfl
  · rw [changed]
    split
    · rename_i atParent
      rw [atParent, BuddyArray.mark_setMark_self]
    · rename_i elsewhere
      exact buddyArray.mark_setMark_of_ne _ (by omega) positive elsewhere

/-- `freeUpRecursive` leaves the nodes that are not above `index` alone. -/
theorem freeUpRecursive_offPath {fuel index : Nat} {buddyArray : BuddyArray}
    (positive : 0 < index) {u : Nat} (uPositive : 0 < u)
    (offPath : ∀ k, u ≠ index / 2 ^ (k + 1)) :
    (freeUpRecursive fuel buddyArray index).mark u = buddyArray.mark u := by
  induction fuel generalizing buddyArray index with
  | zero => rfl
  | succ fuel ih =>
      rw [freeUpRecursive]
      split
      · rfl
      · have inside : 1 < index := by omega
        rw [ih (by simp only [PARENT]; omega), freeUpStep_mark inside uPositive, if_neg]
        · simpa using offPath 0
        · intro k
          have := offPath (k + 1)
          rwa [Nat.pow_succ', ← Nat.div_div_eq_div_mul] at this

/-- What `freeUpRecursive` leaves on the ancestors of `index`: it looks at the
sibling below only, never at the child it came from. -/
theorem freeUpRecursive_onPath {fuel index : Nat} {buddyArray : BuddyArray}
    (positive : 0 < index) (enough : index < 2 ^ fuel) {k : Nat}
    (ancestor : 0 < index / 2 ^ (k + 1)) :
    (freeUpRecursive fuel buddyArray index).mark (index / 2 ^ (k + 1)) =
      freed (buddyArray.mark (index / 2 ^ (k + 1)))
        (buddyArray.mark (sibling (index / 2 ^ k))) := by
  induction fuel generalizing buddyArray index k with
  | zero => simp at enough; omega
  | succ fuel ih =>
      have inside : 1 < index := by
        rw [← div_two_pow_succ] at ancestor
        have := Nat.div_le_self index (2 ^ k)
        omega
      have halved : ∀ j, index / 2 / 2 ^ j = index / 2 ^ (j + 1) := by
        intro j
        rw [Nat.pow_succ', ← Nat.div_div_eq_div_mul]
      rw [freeUpRecursive, if_neg (by omega)]
      cases k with
      | zero =>
          have parent : index / 2 ^ (0 + 1) = index / 2 := by simp
          rw [parent, freeUpRecursive_offPath (by simp only [PARENT]; omega) (by omega),
            freeUpStep_mark inside (by omega), if_pos rfl]
          · simp
          · intro j
            have := halved (j + 1)
            have shrinks : index / 2 / 2 ^ (j + 1) ≤ index / 2 / 2 := by
              rw [Nat.pow_succ', ← Nat.div_div_eq_div_mul]
              exact Nat.div_le_self _ _
            simp only [PARENT]
            omega
      | succ k =>
          have up : 0 < index / 2 / 2 ^ (k + 1) := by rwa [halved]
          have step : (freeUpRecursive fuel (freeUpStep buddyArray index) (index / 2)).mark
              (index / 2 / 2 ^ (k + 1)) = _ :=
            ih (by omega) (by rw [Nat.pow_succ] at enough; omega) up
          rw [halved, halved] at step
          rw [PARENT, step]
          have siblingUp : sibling (index / 2 ^ (k + 1)) / 2 = index / 2 ^ (k + 1 + 1) := by
            rw [sibling_div_two, div_two_pow_succ]
          have below : index / 2 ^ (k + 1 + 1) < index / 2 := by
            rw [← halved (k + 1)]
            exact Nat.div_lt_self (by omega) (Nat.one_lt_two_pow (by omega))
          have siblingElsewhere : sibling (index / 2 ^ (k + 1)) ≠ index / 2 := by
            intro same
            cases k with
            | zero =>
                refine sibling_ne (index / 2) (by omega) ?_
                simpa using same
            | succ k =>
                have lower : index / 2 ^ (k + 1 + 1 + 1) < index / 2 / 2 := by
                  rw [← halved (k + 1 + 1), Nat.pow_succ', ← Nat.div_div_eq_div_mul]
                  refine Nat.div_lt_self ?_ (Nat.one_lt_two_pow (by omega))
                  rw [← halved (k + 1 + 1), Nat.pow_succ', ← Nat.div_div_eq_div_mul] at ancestor
                  exact Nat.pos_of_ne_zero fun zero => by simp [zero] at ancestor
                omega
          have siblingPositive : 0 < sibling (index / 2 ^ (k + 1)) := by
            apply sibling_positive
            rw [← div_two_pow_succ] at ancestor
            omega
          rw [freeUpStep_mark inside ancestor, if_neg (by omega),
            freeUpStep_mark inside siblingPositive, if_neg siblingElsewhere]

/-- One turn of `freeUpRecursive` writes marks only. -/
private theorem freeUpStep_fields (buddyArray : BuddyArray) (index : Nat) :
    (freeUpStep buddyArray index).base = buddyArray.base ∧
      (freeUpStep buddyArray index).heapLevel = buddyArray.heapLevel := by
  rcases freeUpStep_eq buddyArray index with ⟨same, -⟩ | changed
  · simp [same]
  · simp [changed]

/-- `freeUpRecursive` writes marks only. -/
theorem freeUpRecursive_fields (fuel : Nat) (buddyArray : BuddyArray) (index : Nat) :
    (freeUpRecursive fuel buddyArray index).base = buddyArray.base ∧
      (freeUpRecursive fuel buddyArray index).heapLevel = buddyArray.heapLevel := by
  induction fuel generalizing buddyArray index with
  | zero => exact ⟨rfl, rfl⟩
  | succ fuel ih =>
      rw [freeUpRecursive]
      split
      · exact ⟨rfl, rfl⟩
      · obtain ⟨base, heapLevel⟩ := ih (freeUpStep buddyArray index) (PARENT index)
        obtain ⟨stepBase, stepLevel⟩ := freeUpStep_fields buddyArray index
        exact ⟨base.trans stepBase, heapLevel.trans stepLevel⟩

/-- What `deallocPage` does to the marks when it clears `leaf`. -/
structure Freed (before after : BuddyArray) (leaf : Nat) : Prop where
  cleared : after.mark leaf = .EMPTY
  path : ∀ k, 0 < leaf / 2 ^ (k + 1) → after.mark (leaf / 2 ^ (k + 1)) =
    freed (before.mark (leaf / 2 ^ (k + 1))) (before.mark (sibling (leaf / 2 ^ k)))
  frame : ∀ u, 0 < u → ¬ Covers u leaf → after.mark u = before.mark u
  base : after.base = before.base
  heapLevel : after.heapLevel = before.heapLevel

/-- The index computed from the address of a page of the arena. -/
theorem pageIndex_of_page {number : Nat} (bounded : number < 1024) :
    pageIndex ((baseMemory + PAGE_SIZE * number : Nat) : Int) = number := by
  have offset : ((baseMemory + PAGE_SIZE * number : Nat) : Int) - baseMemory =
      (PAGE_SIZE : Int) * number := by
    push_cast
    ring
  rw [pageIndex, offset, Int.mul_tdiv_cancel_left _ (by decide)]
  exact Int.bmod_eq_of_le (by omega) (by omega)

/-- Freeing the page of a leaf of the tree. -/
theorem deallocPage_leaf {before : BuddyArray} {leaf : Nat} (lower : 1024 ≤ leaf)
    (upper : leaf < 2048) :
    ∃ after, deallocPage before ((baseMemory + PAGE_SIZE * (leaf - 1024) : Nat) : Int) =
        some (after, 0) ∧ Freed before after leaf := by
  let cleared := before.setMark leaf .EMPTY
  have entry : pageIndex ((baseMemory + PAGE_SIZE * (leaf - 1024) : Nat) : Int) +
      ((HEAPSIZE / 2 : Nat) : Int) = ((leaf - 1 : Nat) : Int) := by
    rw [pageIndex_of_page (by omega), show HEAPSIZE / 2 = 1023 by rfl]
    omega
  have index : ((leaf - 1 : Nat) : Int).toNat + 1 = leaf := by omega
  have inside : 0 ≤ ((leaf - 1 : Nat) : Int) ∧ ((leaf - 1 : Nat) : Int) < (HEAPSIZE : Nat) := by
    rw [show HEAPSIZE = 2047 by rfl]
    omega
  refine ⟨freeUpRecursive 11 cleared leaf, ?_, ?_, ?_, ?_, ?_, ?_⟩
  · rw [deallocPage]
    simp only [isValid, if_true, entry, if_pos inside, index, cleared]
  · rw [freeUpRecursive_offPath (by omega) (by omega), BuddyArray.mark_setMark_self]
    intro k same
    have above : leaf / 2 ^ (k + 1) < leaf :=
      Nat.div_lt_self (by omega) (Nat.one_lt_two_pow (Nat.succ_ne_zero k))
    omega
  · intro k ancestor
    have above : leaf / 2 ^ (k + 1) < leaf :=
      Nat.div_lt_self (by omega) (Nat.one_lt_two_pow (Nat.succ_ne_zero k))
    have childInside : 1 < leaf / 2 ^ k := by
      rw [← div_two_pow_succ] at ancestor
      omega
    have siblingElsewhere : sibling (leaf / 2 ^ k) ≠ leaf := by
      intro same
      have parents := sibling_div_two (leaf / 2 ^ k)
      cases k with
      | zero =>
          refine sibling_ne leaf (by omega) ?_
          simpa using same
      | succ k =>
          rw [same, div_two_pow_succ, Nat.pow_succ', ← Nat.div_div_eq_div_mul] at parents
          have above : leaf / 2 / 2 ^ (k + 1) < leaf / 2 :=
            Nat.div_lt_self (by omega) (Nat.one_lt_two_pow (Nat.succ_ne_zero k))
          omega
    rw [freeUpRecursive_onPath (by omega) (by omega) ancestor,
      before.mark_setMark_of_ne _ (by omega) ancestor (by omega),
      before.mark_setMark_of_ne _ (by omega) (sibling_positive childInside) siblingElsewhere]
  · intro u positive notAbove
    have offPath : ∀ k, u ≠ leaf / 2 ^ k := by
      rintro k rfl
      exact notAbove (Covers.ancestor positive)
    rw [freeUpRecursive_offPath (by omega) positive fun k => offPath (k + 1)]
    exact before.mark_setMark_of_ne _ (by omega) positive (by simpa using offPath 0)
  · exact (freeUpRecursive_fields 11 cleared leaf).1
  · exact (freeUpRecursive_fields 11 cleared leaf).2

end SistemasOperativos.Kernel
