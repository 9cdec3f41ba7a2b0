import SistemasOperativos.Bootloader.BmfsCreate

/-!
# What `create` does to a disk

A disk is well formed if it is formatted and its directory is sound. `create` on a well-formed
disk says that there is no free record or no room, or it adds one record (`create_cases`). The
directory stays sound if the new file overlaps none of those that are left (`Sound.added`).
-/

namespace SistemasOperativos.Bootloader

open SistemasOperativos.Foundation

/-! ## Well-formed disks -/

/-- The records in front of the one that ends the directory. -/
def usedEntries (directory : Nat → UInt8) : Nat :=
  (List.range maxEntries).findIdx fun t => (entry directory t).Ends

/-- `num_blocks`. -/
def Disk.num_blocks (disk : Disk) : Nat := disk.disksize / 2

/-- `entry` of the array `Directory`. -/
def Disk.entry (disk : Disk) : Nat → BMFSEntry := Bootloader.entry disk.directory

/-- The records of the disk in front of the one that ends its directory. -/
def Disk.used (disk : Disk) : Nat := usedEntries disk.directory

/-- A formatted disk of at least 6 MiB, and less than 2³² of them, with a sound directory. -/
structure Disk.WellFormed (disk : Disk) : Prop where
  formatted : disk.Formatted
  large : 6291456 ≤ disk.size
  small : disk.size < 2 ^ 52
  sound : Sound disk.entry disk.num_blocks disk.used

section Used

variable {directory : Nat → UInt8} {used : Nat}

/-- The records in use end at the first one whose name starts with zero. -/
theorem usedEntries_eq (bound : used ≤ maxEntries) (inUse : ∀ t < used, ¬ (entry directory t).Ends)
    (ended : used < maxEntries → (entry directory used).Ends) : usedEntries directory = used := by
  rcases Nat.eq_or_lt_of_le bound with rfl | less
  · have all : usedEntries directory = (List.range maxEntries).length ↔ _ := List.findIdx_eq_length
    rw [List.length_range] at all
    refine all.mpr fun t member => ?_
    exact decide_eq_false (inUse t (List.mem_range.mp member))
  · have inside : used < (List.range maxEntries).length := by rwa [List.length_range]
    refine (List.findIdx_eq inside).mpr ⟨?_, fun t before => ?_⟩
    · rw [List.getElem_range]
      exact decide_eq_true (ended less)
    · rw [List.getElem_range]
      exact decide_eq_false (inUse t before)

/-- The number of records in use of a sound directory. -/
theorem Sound.usedEntries_eq {num_blocks : Nat} (sound : Sound (entry directory) num_blocks used) :
    usedEntries directory = used :=
  Bootloader.usedEntries_eq sound.bound sound.inUse sound.ended

end Used

namespace Disk.WellFormed

variable {disk : Disk}

/-- The size in MiB that `disksize` computes, which does not overflow. -/
theorem disksize_eq (wellFormed : disk.WellFormed) : disk.disksize = disk.size / 1048576 := by
  have small := wellFormed.small
  exact Nat.mod_eq_of_lt (by omega)

/-- The blocks of a well-formed image lie in its file, and their number fits an `int`. -/
theorem num_blocks_le (wellFormed : disk.WellFormed) :
    3 ≤ disk.num_blocks ∧ disk.num_blocks < 2 ^ 31 ∧ disk.num_blocks * blockSize ≤ disk.size := by
  have size := wellFormed.disksize_eq
  have large := wellFormed.large
  have small := wellFormed.small
  unfold num_blocks blockSize
  omega

end Disk.WellFormed

/-! ## Writing the directory -/

section Flush

variable {disk : Disk} {directory : Nat → UInt8}

/-- What is written to the directory is read from it again. -/
theorem Disk.flush_directory {i : Nat} (inside : i < 4096) :
    (disk.flush directory).directory i = directory i := by
  have holds : Holds (disk.flush directory).byte 4096 (loaded directory 0 4096) :=
    holds_stored _ _ _
  have written : (loaded directory 0 4096)[i]? = some (directory i) := by
    have all := holds_loaded directory 0 4096
    cases byte : (loaded directory 0 4096)[i]? with
    | none =>
        rw [List.getElem?_eq_none_iff, length_loaded] at byte
        omega
    | some c =>
        have same := all i c byte
        rw [Nat.zero_add] at same
        rw [same]
  change (disk.flush directory).byte (i + 4096) = directory i
  rw [Nat.add_comm]
  exact holds i _ written

/-- A record of the flushed directory is the one in memory. -/
theorem Disk.flush_entry {t : Nat} (inside : t < maxEntries) :
    (disk.flush directory).entry t = Bootloader.entry directory t := by
  refine entry_congr fun a here => flush_directory ?_
  unfold Interval.Has at here
  unfold maxEntries at inside
  simp only at here
  omega

/-- Flushing the directory leaves the size of the image. -/
theorem Disk.flush_size (large : 8192 ≤ disk.size) : (disk.flush directory).size = disk.size := by
  simp only [flush, fwrite, length_loaded]
  omega

/-- Flushing the directory writes the 4096 bytes of the directory only. -/
theorem Disk.flush_byte {a : Nat} (outside : a < 4096 ∨ 8192 ≤ a) :
    (disk.flush directory).byte a = disk.byte a := by
  refine stored_outside fun there => ?_
  unfold Interval.Has at there
  rw [length_loaded] at there
  simp only at there
  omega

/-- `fwrite` leaves the bytes outside the area it writes. -/
theorem Disk.fwrite_byte {position a : Nat} {bytes : List UInt8}
    (outside : ¬ Interval.Has ⟨position, position + bytes.length⟩ a) :
    (disk.fwrite position bytes).byte a = disk.byte a := stored_outside outside

/-- Bytes that were written behind the directory are read again. -/
theorem Disk.loaded_fwrite {position : Nat} {bytes : List UInt8} {directory : Nat → UInt8}
    (behind : 8192 ≤ position) (fits : position + bytes.length ≤ disk.size) :
    loaded ((disk.fwrite position bytes).flush directory).getc position bytes.length = bytes := by
  have size : (disk.fwrite position bytes).size = disk.size := Nat.max_eq_left fits
  have flushed : ((disk.fwrite position bytes).flush directory).size = disk.size := by
    rw [flush_size (by omega), size]
  have same : loaded ((disk.fwrite position bytes).flush directory).getc position bytes.length =
      loaded (disk.fwrite position bytes).byte position bytes.length := by
    refine loaded_congr fun a here => ?_
    obtain ⟨low, high⟩ := here
    rw [getc, flushed, if_pos (lt_of_lt_of_le high fits), flush_byte (.inr (behind.trans low))]
  rw [same]
  exact loaded_stored disk.byte position bytes

/-- The tag of the disk counts only. -/
theorem Disk.Formatted.congr {other : Disk} (formatted : disk.Formatted)
    (same : ∀ a, 1024 ≤ a → a < 1536 → other.byte a = disk.byte a) : other.Formatted := by
  have tag : other.fread 1024 512 = disk.fread 1024 512 := by
    refine loaded_congr fun a here => ?_
    unfold Interval.Has at here
    simp only at here
    exact same a here.1 (by omega)
  rw [Disk.Formatted, tag]
  exact formatted

/-- Writing a sound directory keeps a disk well formed. -/
theorem Disk.WellFormed.flush (wellFormed : disk.WellFormed) {used : Nat}
    (sound : Sound (Bootloader.entry directory) disk.num_blocks used) :
    (disk.flush directory).WellFormed ∧ (disk.flush directory).used = used := by
  have large := wellFormed.large
  have size : (disk.flush directory).size = disk.size := Disk.flush_size (by omega)
  have blocks : (disk.flush directory).num_blocks = disk.num_blocks := by
    rw [num_blocks, disksize, size]
    rfl
  have written : Sound (disk.flush directory).entry disk.num_blocks used :=
    sound.congr fun t inside => flush_entry inside
  have count : (disk.flush directory).used = used := written.usedEntries_eq
  refine ⟨⟨?_, ?_, ?_, ?_⟩, count⟩
  · exact wellFormed.formatted.congr fun a low high => flush_byte (by omega)
  · rwa [size]
  · rw [size]
    exact wellFormed.small
  · rw [blocks, count]
    exact written

end Flush

/-! ## A record more -/

/-- `create` filled a record. It may be the last one that is seen: if it is the first one of a
directory without an end, the next one gets the mark for the end. -/
structure Added (e e' : Nat → BMFSEntry) (used used' slot place need : Nat)
    (filename : FileName) : Prop where
  free : Sound.FreeSlot e used slot
  count : used' =
    if used < maxEntries then max used (slot + 1) else if slot = 0 then 1 else maxEntries
  new : NewRecord (e' slot) place need filename
  others : ∀ t < used', t ≠ slot → e' t = e t
  ended : used' < maxEntries → (e' used').Ends

section Added

variable {e e' : Nat → BMFSEntry} {num_blocks used used' slot place need : Nat}
  {filename : FileName}

/-- The added record is among the records in use afterwards. -/
theorem Added.slot_lt (added : Added e e' used used' slot place need filename) : slot < used' := by
  have bound := added.free.bound
  rw [added.count]
  split
  · omega
  · split
    · omega
    · omega

/-- Adding a record never makes more than the directory holds. -/
theorem Added.limit (added : Added e e' used used' slot place need filename) :
    used' ≤ maxEntries := by
  have slotBound := added.free.bound
  rw [added.count]
  split
  · omega
  · split
    · decide
    · exact Nat.le_refl _

/-- The other records that are seen were seen before. -/
theorem Added.before (added : Added e e' used used' slot place need filename) {t : Nat}
    (apart : t ≠ slot) (inside : t < used') : t < used := by
  have count := added.count
  have front := added.free.front
  split at count
  · omega
  · split at count
    · omega
    · omega

/-- No record that is seen ends the directory. -/
theorem Added.inUse (added : Added e e' used used' slot place need filename)
    (old : ∀ t < used, ¬ (e t).Ends) : ∀ t < used', ¬ (e' t).Ends := by
  intro t inside
  by_cases here : t = slot
  · rw [here]
    exact added.new.still
  · rw [added.others t inside here]
    exact old t (added.before here inside)

/-- The records that were in use and still are seen. -/
theorem Added.alive (added : Added e e' used used' slot place need filename) {t : Nat}
    (apart : t ≠ slot) (inside : t < used') : Live e' used' t ↔ Live e used t := by
  have same := added.others t inside apart
  have before := added.before apart inside
  rw [Live, Live, same]
  exact ⟨fun live => ⟨before, live.2⟩, fun live => ⟨inside, live.2⟩⟩

/-- A new file that overlaps none of those that are left. -/
theorem Sound.added (sound : Sound e num_blocks used)
    (added : Added e e' used used' slot place need filename) (start : 1 ≤ place)
    (positive : 1 ≤ need) (room : place + need < num_blocks)
    (absent : ∀ t, Live e used t → (e t).name ≠ filename.toCString)
    (apart : ∀ t, Live e used t → t < used' →
      Interval.Disjoint ⟨place, place + need⟩ (e t).blocks) : Sound e' num_blocks used' := by
  have new := added.new
  have blocks : (e' slot).blocks = ⟨place, place + need⟩ := by
    rw [BMFSEntry.blocks, new.start, new.blocks]
  have limit := added.limit
  have left : Filed (fun t => if t < used' then e t else e' slot) (min used used') := by
    refine sound.fewer fun t live => ?_
    obtain ⟨both, filled⟩ := live
    have inside : t < used' := by omega
    simp only [if_pos inside] at filled
    exact ⟨⟨by omega, filled⟩, if_pos inside⟩
  refine ⟨left.replace slot ?_ ⟨filename, new.name⟩ ?_ ?_ ?_, limit, ?_, added.ended, ?_⟩
  · intro t live other
    have inside := live.1
    have old := (added.alive other inside).mp live
    have before := old.1
    refine ⟨⟨by omega, ?_⟩, ?_⟩
    · simp only [if_pos inside]
      exact old.2
    · simp only [if_pos inside]
      exact added.others t inside other
  · rintro t ⟨both, filled⟩ -
    have inside : t < used' := by omega
    simp only [if_pos inside] at filled ⊢
    rw [new.name]
    exact absent t ⟨by omega, filled⟩
  · rintro t ⟨both, filled⟩ -
    have inside : t < used' := by omega
    simp only [if_pos inside] at filled ⊢
    rw [blocks]
    exact (apart t ⟨by omega, filled⟩ inside).symm
  · rw [new.size]
    exact Nat.zero_le _
  · exact added.inUse sound.inUse
  · intro t inside
    by_cases here : t = slot
    · rw [here]
      exact ⟨by rw [new.start]; exact start, by rw [new.blocks]; exact positive,
        by rw [new.start, new.blocks]; exact room⟩
    · rw [added.others t inside here]
      exact sound.placed t (added.before here inside)

end Added

/-! ## The cases of `create` -/

/-- The blocks of a file of a number of MiB. -/
def blocksFor (maxsize : Nat) : Nat := (maxsize + 1) / 2

/-- What the second loop of `create` returns. It sees no record of a directory without an end. -/
structure PlaceFor (e : Nat → BMFSEntry) (num_blocks used need place : Nat) : Prop where
  area : used < maxEntries → AreaFound e num_blocks used need place
  unseen : used = maxEntries → place = if 1 + need < num_blocks then 1 else 0

/-- What `create` does. -/
inductive Created (disk : Disk) (filename : FileName) (need : Nat) : Disk × Outcome → Prop where
  | present {t : Nat} (live : Live disk.entry disk.used t)
      (same : (disk.entry t).name = filename.toCString) :
      Created disk filename need (disk, .alreadyExists)
  | full (absent : ∀ t, Live disk.entry disk.used t → (disk.entry t).name ≠ filename.toCString)
      (last : disk.used = maxEntries) (filled : ∀ t < disk.used, ¬ (disk.entry t).Empty) :
      Created disk filename need (disk, .noFreeEntry)
  | refused {maxsize : Nat}
      (absent : ∀ t, Live disk.entry disk.used t → (disk.entry t).name ≠ filename.toCString)
      (chosen : PlaceFor disk.entry disk.num_blocks disk.used need 0) :
      Created disk filename need (disk, .cannotCreate maxsize)
  | added {directory : Nat → UInt8} {used' slot place : Nat}
      (absent : ∀ t, Live disk.entry disk.used t → (disk.entry t).name ≠ filename.toCString)
      (chosen : PlaceFor disk.entry disk.num_blocks disk.used need place) (positive : place ≠ 0)
      (added : Added disk.entry (Bootloader.entry directory) disk.used used' slot place need
        filename) : Created disk filename need (disk.flush directory, .complete)

section Create

variable {disk : Disk} {filename : FileName} {maxsize : Nat}

/-- A place lies between the first block and the last one. -/
theorem PlaceFor.room {e : Nat → BMFSEntry} {num_blocks used need place : Nat}
    (chosen : PlaceFor e num_blocks used need place) (positive : place ≠ 0)
    (sound : Sound e num_blocks used)
    (large : 3 ≤ num_blocks) : 1 ≤ place ∧ place + need < num_blocks := by
  rcases Nat.eq_or_lt_of_le sound.bound with last | less
  · have start := chosen.unseen last
    split at start
    · omega
    · exact absurd start positive
  · cases chosen.area less with
    | free least =>
        obtain ⟨start, ends, -⟩ := least.1
        exact ⟨start, by omega⟩
    | stale full stale =>
        obtain ⟨-, -, ends⟩ := stale
        exact ⟨by omega, by omega⟩
    | none => exact absurd rfl positive

/-- The directory that `create` writes. -/
theorem Sound.added_directory {directory : Nat → UInt8}
    {num_blocks used slot counted place need : Nat}
    (sound : Sound (entry directory) num_blocks used) (free : FreeSlot (entry directory) used slot)
    (countedEq : counted = if used < maxEntries then used else 0) (startFits : place < 2 ^ 64)
    (blocksFit : need < 2 ^ 64) :
    ∃ used', Added (entry directory)
      (entry (if slot = counted ∧ counted + 1 < maxEntries then
        Function.update (addRecord directory slot place need filename) ((counted + 1) * 64) 0x00
      else addRecord directory slot place need filename)) used used' slot place need filename := by
  have bound := sound.bound
  have front := free.front
  have slotBound := free.bound
  have new : NewRecord (entry (addRecord directory slot place need filename) slot) place need
      filename := entry_addRecord startFits blocksFit
  have others : ∀ t, t ≠ slot →
      entry (addRecord directory slot place need filename) t = entry directory t :=
    fun t apart => entry_addRecord_ne apart
  split
  · rename_i last
    obtain ⟨here, more⟩ := last
    refine ⟨counted + 1, free, ?_, ?_, ?_, ?_⟩
    · split at countedEq
      · rw [if_pos ‹_›]
        omega
      · rw [if_neg ‹_›, if_pos (by omega)]
        omega
    · rw [entry_update (by omega)]
      exact new
    · intro t inside apart
      rw [entry_update (by omega)]
      exact others t apart
    · intro _
      rw [entry_ends, Function.update_self]
  · rename_i inner
    refine ⟨if used < maxEntries then max used (slot + 1) else maxEntries, free, ?_, new,
      fun t _ apart => others t apart, fun less => ?_⟩
    · split at countedEq
      · rw [if_pos ‹_›, if_pos ‹_›]
      · rw [if_neg ‹_›, if_neg ‹_›, if_neg]
        rintro rfl
        exact inner ⟨countedEq.symm, by rw [countedEq]; decide⟩
    · split at countedEq
      · rw [if_pos ‹_›] at less ⊢
        have before : max used (slot + 1) = used := by omega
        rw [before, others used (by omega)]
        exact sound.ended ‹_›
      · rw [if_neg ‹_›] at less
        omega

/-- The second loop on the records that the first one counted. -/
theorem Sound.placeFor {e : Nat → BMFSEntry} {num_blocks used counted need : Nat}
    (sound : Sound e num_blocks used) (small : num_blocks < 2 ^ 31) (three : 3 ≤ num_blocks)
    (countedEq : counted = if used < maxEntries then used else 0) :
    PlaceFor e num_blocks used need
      (findArea num_blocks need (qsort ((List.range counted).map e)) 1) := by
  refine ⟨fun less => ?_, fun last => ?_⟩
  · rw [countedEq, if_pos less]
    exact sound.areaFound small (by omega)
  · have unseen : counted = 0 := by rw [countedEq, if_neg (Nat.not_lt.mpr last.ge)]
    have behind : sub64 num_blocks 1 = num_blocks - 1 := sub64_eq (by omega) (by omega)
    have room : sub64 (num_blocks - 1) 1 = num_blocks - 1 - 1 := sub64_eq (by omega) (by omega)
    rw [unseen, List.range_zero, List.map_nil, qsort, List.mergeSort_nil, findArea, behind, room]
    split
    · rw [if_pos (by omega)]
    · rw [if_neg (by omega)]

/-- On a well-formed image `create` has one of the outcomes of `Created`. -/
theorem Disk.WellFormed.create_cases (wellFormed : disk.WellFormed) :
    Created disk filename (blocksFor maxsize) (create disk filename maxsize) := by
  have sound := wellFormed.sound
  obtain ⟨three, small, -⟩ := wellFormed.num_blocks_le
  have half : (if maxsize % 2 ≠ 0 then maxsize + 1 else maxsize) / 2 = blocksFor maxsize := by
    unfold blocksFor
    split
    · rfl
    · omega
  unfold create
  simp only [half]
  cases found : findfile disk.directory filename with
  | some t =>
      obtain ⟨live, same⟩ := sound.findfile_eq_some_iff.mp found
      exact .present live same
  | none =>
      have absent := sound.findfile_eq_none_iff.mp found
      rcases sound.countFiles_none (Nat.zero_add _) (Nat.zero_le _) (fun t less => by omega) with
        ⟨counting, last, filled⟩ | ⟨slot, counting, free⟩
      · rw [counting]
        exact .full absent last filled
      · rw [counting]
        obtain ⟨counted, countedEq⟩ :
            ∃ counted, counted = if disk.used < maxEntries then disk.used else 0 := ⟨_, rfl⟩
        have chosen : PlaceFor disk.entry disk.num_blocks disk.used (blocksFor maxsize) _ :=
          sound.placeFor small three countedEq
        obtain ⟨start, startEq⟩ : ∃ start, start = findArea disk.num_blocks (blocksFor maxsize)
            (qsort ((List.range counted).map disk.entry)) 1 := ⟨_, rfl⟩
        rw [← countedEq]
        rw [← startEq] at chosen
        simp only [num_blocks, entry] at startEq
        simp only [← startEq]
        split
        · rename_i zero
          exact .refused absent (zero ▸ chosen)
        · rename_i positive
          have room := chosen.room positive sound three
          have startFits : start < 2 ^ 64 := by omega
          have blocksFit : blocksFor maxsize < 2 ^ 64 := by omega
          obtain ⟨used', added⟩ := sound.added_directory free countedEq startFits blocksFit
          exact .added absent chosen positive added

end Create

end SistemasOperativos.Bootloader
