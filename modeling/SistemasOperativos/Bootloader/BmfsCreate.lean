import SistemasOperativos.Bootloader.BmfsDirectory
import SistemasOperativos.Foundation.FirstFit
import SistemasOperativos.Foundation.Sorting

/-!
# Where a new file goes

`create` sorts a copy of the records by starting block and takes the first gap between the files
that is wide enough (`findArea_lives`). Behind the files in use the sorted copy has the empty
records, and the loop goes on with where their files ended: if no gap is wide enough, it takes the
room behind a deleted file, whether or not other files lie there.
-/

namespace SistemasOperativos.Bootloader

open SistemasOperativos.Foundation

/-! ## The new record -/

section Record

variable {directory : Nat → UInt8} {slot t start blocks : Nat} {filename : FileName}

/-- Writing a record leaves the others. -/
theorem entry_addRecord_ne (apart : t ≠ slot) :
    entry (addRecord directory slot start blocks filename) t = entry directory t := by
  have short := filename.short
  have length : (filename.chars ++ [0]).length = filename.chars.length + 1 := by simp
  simp only [addRecord]
  rw [entry_stored_front (by omega) apart, entry_storeNat (by omega) apart,
    entry_storeNat (by omega) apart, entry_storeNat (by omega) apart]

/-- What `create` writes into a record. -/
structure NewRecord (e : BMFSEntry) (start blocks : Nat) (filename : FileName) : Prop where
  start : e.StartingBlock = start
  blocks : e.ReservedBlocks = blocks
  size : e.FileSize = 0
  name : e.name = filename.toCString
  still : ¬ e.Ends
  filled : ¬ e.Empty

/-- The record that `create` writes reads back with its name and its blocks. -/
theorem entry_addRecord (startFits : start < 2 ^ 64) (blocksFit : blocks < 2 ^ 64) :
    NewRecord (entry (addRecord directory slot start blocks filename) slot) start blocks
      filename := by
  have short := filename.short
  have length : (filename.chars ++ [0]).length = filename.chars.length + 1 := by simp
  have holds : Holds (addRecord directory slot start blocks filename) (slot * 64)
      (filename.chars ++ [0]) := holds_stored _ _ _
  -- The name ends in front of the fields behind it.
  have field : ∀ (memory : Nat → UInt8) offset, 32 ≤ offset →
      loadNat (stored memory (slot * 64) (filename.chars ++ [0])) (slot * 64 + offset) 8 =
        loadNat memory (slot * 64 + offset) 8 := by
    intro memory offset behind
    refine loadNat_congr fun a here => stored_outside fun there => ?_
    unfold Interval.Has at here there
    simp only at here there
    omega
  have elsewhere : ∀ (memory : Nat → UInt8) offset place value,
      offset + 8 ≤ place ∨ place + 8 ≤ offset →
      loadNat (storeNat memory (slot * 64 + place) 8 value) (slot * 64 + offset) 8 =
        loadNat memory (slot * 64 + offset) 8 := by
    intro memory offset place value apart
    refine loadNat_storeNat_apart fun a here there => ?_
    unfold Interval.Has at here there
    simp only at here there
    omega
  have first : ∃ c chars, filename.chars = c :: chars :=
    List.exists_cons_of_ne_nil filename.inhabited
  obtain ⟨c, chars, shape⟩ := first
  have byte : addRecord directory slot start blocks filename (slot * 64) = c :=
    holds 0 c (by rw [shape]; rfl)
  refine ⟨?_, ?_, ?_, name_of_holds holds, ?_, ?_⟩
  · change loadNat (stored _ _ _) _ 8 = _
    rw [field _ 32 (by omega), elsewhere _ 32 48 0 (by omega), elsewhere _ 32 40 blocks (by omega),
      loadNat_storeNat (by omega)]
  · change loadNat (stored _ _ _) _ 8 = _
    rw [field _ 40 (by omega), elsewhere _ 40 48 0 (by omega), loadNat_storeNat (by omega)]
  · change loadNat (stored _ _ _) _ 8 = _
    rw [field _ 48 (by omega), loadNat_storeNat (by decide)]
  · rw [entry_ends, byte]
    exact filename.nonzero c (by rw [shape]; exact List.mem_cons_self)
  · rw [entry_empty, byte]
    intro one
    exact filename.used (by rw [shape, one]; rfl)

end Record

/-! ## The sorted copy -/

section Sorting

variable {l : List BMFSEntry}

/-- The order in which `StartingBlockCmp` asks for the records. -/
def Sorted (a b : BMFSEntry) : Prop := b.Empty ∨ ¬ a.Empty ∧ a.StartingBlock ≤ b.StartingBlock

/-- The order that `qsort` is called with is transitive. -/
theorem Sorted.trans (a b c : BMFSEntry) (first : Sorted a b) (second : Sorted b c) :
    Sorted a c := by
  rcases second with last | ⟨filled, behind⟩
  · exact .inl last
  · obtain ⟨filled', before⟩ := first.resolve_left filled
    exact .inr ⟨filled', before.trans behind⟩

/-- The comparison contradicts itself for two empty records only, which may stand in any order. -/
theorem answers_startingBlockCmp (small : ∀ e ∈ l, e.StartingBlock < 2 ^ 31) :
    Answers (fun ea eb => decide (StartingBlockCmp ea eb ≤ 0)) Sorted l := by
  have difference : ∀ a ∈ l, ∀ b ∈ l,
      Int.bmod (a.StartingBlock - b.StartingBlock) (2 ^ 32) =
        (a.StartingBlock - b.StartingBlock : Int) := by
    intro a first b second
    have low := small a first
    have high := small b second
    exact Int.bmod_eq_of_le (by omega) (by omega)
  constructor
  · intro a first b second yes
    have answer := of_decide_eq_true yes
    unfold StartingBlockCmp at answer
    split at answer
    · omega
    · rename_i filled
      split at answer
      · rename_i empty
        exact .inl empty
      · rw [difference a first b second] at answer
        exact .inr ⟨filled, by omega⟩
  · intro a first b second no
    have answer := of_decide_eq_false no
    unfold StartingBlockCmp at answer
    split at answer
    · rename_i empty
      exact .inl empty
    · split at answer
      · omega
      · rename_i filled
        rw [difference a first b second] at answer
        exact .inr ⟨filled, by omega⟩

/-- Records in order: those in use by their starting blocks, and the empty ones behind them. -/
theorem split_of_sorted (sorted : l.Pairwise Sorted) :
    l = l.filter (fun e => ¬ e.Empty) ++ l.filter (fun e => e.Empty) := by
  induction l with
  | nil => rfl
  | cons a l ih =>
      obtain ⟨least, rest⟩ := List.pairwise_cons.mp sorted
      by_cases empty : a.Empty
      · have later : ∀ b ∈ l, b.Empty := fun b member =>
          (least b member).resolve_right fun filled => filled.1 empty
        rw [List.filter_cons_of_neg (by simpa using empty),
          List.filter_eq_nil_iff.mpr (by simpa using later), List.nil_append,
          List.filter_eq_self.mpr]
        intro b member
        rcases List.mem_cons.mp member with rfl | inside
        · simpa using empty
        · simpa using later b inside
      · rw [List.filter_cons_of_pos (by simpa using empty),
          List.filter_cons_of_neg (by simpa using empty), List.cons_append, ← ih rest]

/-- In a sorted directory the blocks of the files start one after the other. -/
theorem pairwise_filled (sorted : l.Pairwise Sorted) :
    ((l.filter fun e => ¬ e.Empty).map BMFSEntry.blocks).Pairwise fun a b => a.lo ≤ b.lo := by
  rw [List.pairwise_map]
  refine List.Pairwise.imp_of_mem ?_ (sorted.filter _)
  intro a b _ second ordered
  have filled : ¬ b.Empty := by simpa using (List.mem_filter.mp second).2
  exact (ordered.resolve_left filled).2

/-- `qsort` leaves the records in the order of `StartingBlockCmp`. -/
theorem pairwise_qsort (small : ∀ e ∈ l, e.StartingBlock < 2 ^ 31) : (qsort l).Pairwise Sorted :=
  pairwise_mergeSort Sorted.trans (answers_startingBlockCmp small)

/-- `qsort` only moves the records. -/
theorem qsort_perm (l : List BMFSEntry) : (qsort l).Perm l := List.mergeSort_perm ..

end Sorting

/-! ## The search -/

section Search

variable {num_blocks need prev : Nat} {l lives empties : List BMFSEntry}

/-- A difference of 64 bits that does not wrap is the difference. -/
theorem sub64_eq {a b : Nat} (less : b ≤ a) (fits : a < 2 ^ 64) : sub64 a b = a - b := by
  unfold sub64
  omega

/-- Where the blocks of a placed file end, which does not overflow. -/
theorem BMFSEntry.Placed.fileEnd_eq {e : BMFSEntry} (placed : e.Placed num_blocks)
    (small : num_blocks < 2 ^ 31) : e.fileEnd = e.StartingBlock + e.ReservedBlocks := by
  have ends := placed.ends
  exact Nat.mod_eq_of_lt (by omega)

/-- The first empty record behind whose file there are enough blocks, up to the last one. -/
def staleEnd (num_blocks need : Nat) (empties : List BMFSEntry) : Nat :=
  ((empties.find? fun e => need ≤ num_blocks - 1 - e.fileEnd).map BMFSEntry.fileEnd).getD 0

/-- The search on empty records: where the file in front of them ends, or where one of theirs
did. -/
theorem findArea_empties (small : num_blocks < 2 ^ 31) (positive : 1 ≤ num_blocks)
    (empty : ∀ e ∈ empties, e.Empty) (placed : ∀ e ∈ empties, e.Placed num_blocks)
    (room : prev ≤ num_blocks - 1) :
    findArea num_blocks need empties prev =
      if need ≤ num_blocks - 1 - prev then prev else staleEnd num_blocks need empties := by
  induction empties generalizing prev with
  | nil =>
      rw [findArea, sub64_eq positive (by omega), sub64_eq room (by omega)]
      rfl
  | cons e empties ih =>
      have isPlaced := placed e List.mem_cons_self
      have ends := isPlaced.ends
      have last := isPlaced.fileEnd_eq small
      rw [findArea]
      simp only [if_pos (empty e List.mem_cons_self)]
      rw [sub64_eq positive (by omega), sub64_eq room (by omega)]
      split
      · rfl
      · rw [ih (fun d member => empty d (List.mem_cons_of_mem e member))
          (fun d member => placed d (List.mem_cons_of_mem e member)) (by omega), staleEnd, staleEnd]
        by_cases fits : need ≤ num_blocks - 1 - e.fileEnd
        · rw [if_pos fits, List.find?_cons_of_pos (by simpa using fits)]
          rfl
        · rw [if_neg fits, List.find?_cons_of_neg (by simpa using fits)]

/-- The search on records in use, with the empty ones behind them. -/
theorem findArea_lives (small : num_blocks < 2 ^ 31) (positive : 1 ≤ num_blocks)
    (filled : ∀ e ∈ lives, ¬ e.Empty) (placedLives : ∀ e ∈ lives, e.Placed num_blocks)
    (empty : ∀ e ∈ empties, e.Empty) (placed : ∀ e ∈ empties, e.Placed num_blocks)
    (lined : Interval.Lined prev (num_blocks - 1) (lives.map BMFSEntry.blocks)) :
    findArea num_blocks need (lives ++ empties) prev =
      (Interval.firstFit need prev (num_blocks - 1) (lives.map BMFSEntry.blocks)).getD
        (staleEnd num_blocks need empties) := by
  induction lives generalizing prev with
  | nil =>
      rw [List.nil_append, findArea_empties small positive empty placed lined, List.map_nil,
        Interval.firstFit]
      split
      · rfl
      · rfl
  | cons e lives ih =>
      have isPlaced := placedLives e List.mem_cons_self
      have ends := isPlaced.ends
      have last := isPlaced.fileEnd_eq small
      obtain ⟨before, -, behind⟩ := lined
      have start : prev ≤ e.StartingBlock := before
      rw [List.cons_append, findArea, List.map_cons, Interval.firstFit]
      simp only [if_neg (filled e List.mem_cons_self)]
      rw [sub64_eq start (by omega)]
      split
      · rename_i fits
        rw [if_pos (by exact fits), Option.getD_some]
      · rename_i narrow
        rw [if_neg (by exact narrow), last]
        exact ih (fun d member => filled d (List.mem_cons_of_mem e member))
          (fun d member => placedLives d (List.mem_cons_of_mem e member)) behind

end Search

/-! ## The place of a new file -/

/-- The places for a number of blocks that no file in use overlaps, between the first block of the
disk and the last one. -/
def freePlaces (e : Nat → BMFSEntry) (num_blocks used need : Nat) : Set Nat :=
  {place | 1 ≤ place ∧ place + need ≤ num_blocks - 1 ∧
    ∀ t, Live e used t → Interval.Disjoint ⟨place, place + need⟩ (e t).blocks}

/-- An empty record that `create` may go by: behind the file it had there are enough blocks up to
the last one of the disk. -/
def Stale (e : Nat → BMFSEntry) (num_blocks used need t : Nat) : Prop :=
  t < used ∧ (e t).Empty ∧
    (e t).StartingBlock + (e t).ReservedBlocks + need ≤ num_blocks - 1

/-- What `findArea` returns for the sorted copy of the records. -/
inductive AreaFound (e : Nat → BMFSEntry) (num_blocks used need : Nat) : Nat → Prop where
  | free {place : Nat} (least : IsLeast (freePlaces e num_blocks used need) place) :
      AreaFound e num_blocks used need place
  | stale {t : Nat} (full : freePlaces e num_blocks used need = ∅)
      (stale : Stale e num_blocks used need t) :
      AreaFound e num_blocks used need ((e t).StartingBlock + (e t).ReservedBlocks)
  | none (full : freePlaces e num_blocks used need = ∅)
      (fresh : ∀ t, ¬ Stale e num_blocks used need t) : AreaFound e num_blocks used need 0

section Place

variable {e : Nat → BMFSEntry} {num_blocks used need : Nat}

/-- The places for a new file are those that the blocks of the files leave free. -/
theorem freePlaces_eq :
    freePlaces e num_blocks used need =
      Interval.places need 1 (num_blocks - 1)
        ((((List.range used).map e).filter fun d => ¬ d.Empty).map BMFSEntry.blocks) := by
  ext place
  simp only [freePlaces, Interval.places, Set.mem_ofPred_eq, List.mem_map, List.mem_filter,
    List.mem_range, Live]
  refine and_congr_right fun _ => and_congr_right fun _ => ?_
  constructor
  · rintro avoids i ⟨d, ⟨⟨t, inside, rfl⟩, filled⟩, rfl⟩
    exact avoids t ⟨inside, by simpa using filled⟩
  · rintro avoids t ⟨inside, filled⟩
    exact avoids _ ⟨e t, ⟨⟨t, inside, rfl⟩, by simpa using filled⟩, rfl⟩

/-- The first gap that is wide enough, else the room behind a deleted file, else nothing. -/
theorem Sound.areaFound (sound : Sound e num_blocks used) (small : num_blocks < 2 ^ 31)
    (positive : 2 ≤ num_blocks) :
    AreaFound e num_blocks used need
      (findArea num_blocks need (qsort ((List.range used).map e)) 1) := by
  have placed : ∀ d ∈ (List.range used).map e, d.Placed num_blocks := by
    intro d member
    obtain ⟨t, inside, rfl⟩ := List.mem_map.mp member
    exact sound.placed t (List.mem_range.mp inside)
  have sorted : (qsort ((List.range used).map e)).Pairwise Sorted := by
    refine pairwise_qsort fun d member => ?_
    have ends := (placed d member).ends
    omega
  have perm := qsort_perm ((List.range used).map e)
  obtain ⟨lives, livesEq⟩ : ∃ lives, lives =
      (qsort ((List.range used).map e)).filter fun d => ¬ d.Empty := ⟨_, rfl⟩
  obtain ⟨empties, emptiesEq⟩ : ∃ empties, empties =
      (qsort ((List.range used).map e)).filter fun d => d.Empty := ⟨_, rfl⟩
  have split := split_of_sorted sorted
  rw [← livesEq, ← emptiesEq] at split
  have livesPerm : lives.Perm (((List.range used).map e).filter fun d => ¬ d.Empty) :=
    livesEq ▸ perm.filter _
  have emptiesPerm : empties.Perm (((List.range used).map e).filter fun d => d.Empty) :=
    emptiesEq ▸ perm.filter _
  have inUse : ∀ d ∈ lives, d.Placed num_blocks ∧ ¬ d.Empty := by
    intro d member
    obtain ⟨inside, filled⟩ := List.mem_filter.mp (livesPerm.mem_iff.mp member)
    exact ⟨placed d inside, by simpa using filled⟩
  have unused : ∀ d ∈ empties, d.Placed num_blocks ∧ d.Empty := by
    intro d member
    obtain ⟨inside, empty⟩ := List.mem_filter.mp (emptiesPerm.mem_iff.mp member)
    exact ⟨placed d inside, by simpa using empty⟩
  have disjoint : (lives.map BMFSEntry.blocks).Pairwise Interval.Disjoint := by
    have symm : ∀ {a b : Interval}, a.Disjoint b → b.Disjoint a := Interval.Disjoint.symm
    rw [((livesPerm.map BMFSEntry.blocks).pairwise_iff symm), List.pairwise_map,
      List.filter_map, List.pairwise_map]
    refine List.Pairwise.imp_of_mem ?_ (List.nodup_range.filter _)
    intro t u first second different
    obtain ⟨inside, filled⟩ := List.mem_filter.mp first
    obtain ⟨inside', filled'⟩ := List.mem_filter.mp second
    exact sound.apart t u ⟨List.mem_range.mp inside, by simpa using filled⟩
      ⟨List.mem_range.mp inside', by simpa using filled'⟩ different
  have lined : Interval.Lined 1 (num_blocks - 1) (lives.map BMFSEntry.blocks) := by
    refine Interval.lined_of_sorted (livesEq ▸ pairwise_filled sorted) disjoint ?_ (by omega)
    intro i member
    obtain ⟨d, inside, rfl⟩ := List.mem_map.mp member
    obtain ⟨start, reserved, ends⟩ := (inUse d inside).1
    exact ⟨start, by simp only [BMFSEntry.blocks]; omega, by simp only [BMFSEntry.blocks]; omega⟩
  have places : freePlaces e num_blocks used need =
      Interval.places need 1 (num_blocks - 1) (lives.map BMFSEntry.blocks) :=
    freePlaces_eq.trans (Interval.places_perm (livesPerm.symm.map _))
  rw [split, findArea_lives small (by omega) (fun d member => (inUse d member).2)
    (fun d member => (inUse d member).1) (fun d member => (unused d member).2)
    (fun d member => (unused d member).1) lined]
  cases found : Interval.firstFit need 1 (num_blocks - 1) (lives.map BMFSEntry.blocks) with
  | some place => exact .free (places ▸ (Interval.firstFit_eq_some_iff lined).mp found)
  | none =>
      have full := places.trans ((Interval.firstFit_eq_none_iff lined).mp found)
      rw [Option.getD_none, staleEnd]
      cases stale : empties.find? fun d => need ≤ num_blocks - 1 - d.fileEnd with
      | none =>
          refine .none full fun t behind => ?_
          obtain ⟨inside, empty, fits⟩ := behind
          have member : e t ∈ empties := by
            rw [emptiesPerm.mem_iff, List.mem_filter]
            exact ⟨List.mem_map.mpr ⟨t, List.mem_range.mpr inside, rfl⟩, by simpa using empty⟩
          have narrow := List.find?_eq_none.mp stale (e t) member
          rw [(unused _ member).1.fileEnd_eq small, decide_eq_true_eq] at narrow
          omega
      | some d =>
          have member := List.mem_of_find?_eq_some stale
          have fits := List.find?_some stale
          obtain ⟨place, empty⟩ := unused d member
          obtain ⟨inside, -⟩ := List.mem_filter.mp (emptiesPerm.mem_iff.mp member)
          obtain ⟨t, number, rfl⟩ := List.mem_map.mp inside
          have ends := place.ends
          rw [decide_eq_true_eq, place.fileEnd_eq small] at fits
          rw [Option.map_some, Option.getD_some, place.fileEnd_eq small]
          exact .stale full ⟨List.mem_range.mp number, empty, by omega⟩

end Place

end SistemasOperativos.Bootloader
