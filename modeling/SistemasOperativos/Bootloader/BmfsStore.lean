import SistemasOperativos.Bootloader.BmfsAdding

/-!
# The disk as a store of files

What a disk is for is a store: files by name, each with its blocks and its contents
(`Disk.files`). `Store.Step` says what the commands may do to a store. On a well-formed disk
`delete`, `write`, `format` and `list` do it.
-/

namespace SistemasOperativos.Bootloader

open SistemasOperativos.Foundation

/-! ## Stores -/

/-- The blocks that a file may fill, and what it holds. -/
structure StoredFile where
  blocks : Nat
  contents : List UInt8

/-- Files by their names. -/
abbrev Store := FileName → Option StoredFile

/-- The row of `list` for a file. -/
def StoredFile.row (file : StoredFile) (filename : FileName) : CString × Nat × Nat :=
  (filename.toCString, file.contents.length, file.blocks * 2)

namespace Disk

variable {disk disk' : Disk}

/-- The bytes of the file of a record. -/
def fileBytes (disk : Disk) (e : BMFSEntry) : List UInt8 :=
  loaded disk.getc (e.StartingBlock * blockSize) e.FileSize

/-- The file of a record. -/
def fileAt (disk : Disk) (t : Nat) : StoredFile :=
  ⟨(disk.entry t).ReservedBlocks, fileBytes disk (disk.entry t)⟩

/-- The files of a disk. -/
def files (disk : Disk) : Store := fun filename =>
  (findfile disk.directory filename).map disk.fileAt

namespace WellFormed

/-- The file of a name is that of the record in use with the name. -/
theorem files_eq_some_iff (wellFormed : disk.WellFormed) {filename : FileName}
    {file : StoredFile} :
    disk.files filename = some file ↔
      ∃ t, Live disk.entry disk.used t ∧ (disk.entry t).name = filename.toCString ∧
        disk.fileAt t = file := by
  rw [files, Option.map_eq_some_iff]
  refine exists_congr fun t => ?_
  rw [wellFormed.sound.findfile_eq_some_iff, and_assoc]
  rfl

/-- A name without a record in use has no file. -/
theorem files_eq_none_iff (wellFormed : disk.WellFormed) {filename : FileName} :
    disk.files filename = none ↔
      ∀ t, Live disk.entry disk.used t → (disk.entry t).name ≠ filename.toCString := by
  rw [files, Option.map_eq_none_iff, wellFormed.sound.findfile_eq_none_iff]
  rfl

/-- Two disks that differ in the file of one name at most. -/
theorem files_update (wellFormed : disk.WellFormed) (wellFormed' : disk'.WellFormed) (slot : Nat)
    {filename : FileName} {file : Option StoredFile}
    (others : ∀ t, t ≠ slot →
      (Live disk'.entry disk'.used t ↔ Live disk.entry disk.used t) ∧
        (Live disk.entry disk.used t →
          (disk'.entry t).name = (disk.entry t).name ∧ disk'.fileAt t = disk.fileAt t))
    (absent : ∀ t, t ≠ slot → Live disk.entry disk.used t →
      (disk.entry t).name ≠ filename.toCString)
    (own : Live disk.entry disk.used slot → (disk.entry slot).name = filename.toCString)
    (here : Live disk'.entry disk'.used slot →
      (disk'.entry slot).name = filename.toCString ∧ some (disk'.fileAt slot) = file)
    (gone : ¬ Live disk'.entry disk'.used slot → file = none) :
    disk'.files = Function.update disk.files filename file := by
  have elsewhere : ∀ t, t ≠ slot → Live disk'.entry disk'.used t →
      (disk'.entry t).name ≠ filename.toCString := by
    intro t apart live
    have old := (others t apart).1.mp live
    rw [((others t apart).2 old).1]
    exact absent t apart old
  funext name
  rcases eq_or_ne name filename with rfl | different
  · rw [Function.update_self]
    by_cases live : Live disk'.entry disk'.used slot
    · obtain ⟨same, fileEq⟩ := here live
      rw [← fileEq]
      exact wellFormed'.files_eq_some_iff.mpr ⟨slot, live, same, rfl⟩
    · rw [gone live, wellFormed'.files_eq_none_iff]
      intro t alive
      refine elsewhere t ?_ alive
      rintro rfl
      exact live alive
  · have names : name.toCString ≠ filename.toCString := by
      intro same
      cases name
      cases filename
      simp_all
    rw [Function.update_of_ne different]
    refine Option.ext fun found => ?_
    rw [wellFormed'.files_eq_some_iff, wellFormed.files_eq_some_iff]
    constructor
    · rintro ⟨t, live, same, rfl⟩
      have apart : t ≠ slot := by
        rintro rfl
        exact names (same.symm.trans (here live).1)
      have old := (others t apart).1.mp live
      obtain ⟨nameEq, fileEq⟩ := (others t apart).2 old
      exact ⟨t, old, nameEq.symm.trans same, fileEq.symm⟩
    · rintro ⟨t, live, same, rfl⟩
      have apart : t ≠ slot := by
        rintro rfl
        exact names (same.symm.trans (own live))
      obtain ⟨nameEq, fileEq⟩ := (others t apart).2 live
      exact ⟨t, (others t apart).1.mpr live, nameEq.trans same, fileEq⟩

/-! ### Files and bytes -/

/-- The bytes of a file lie in its blocks, behind the directory and in front of the end. -/
theorem inside (wellFormed : disk.WellFormed) {t : Nat} (live : Live disk.entry disk.used t) :
    8192 ≤ (disk.entry t).StartingBlock * blockSize ∧
      (disk.entry t).StartingBlock * blockSize + (disk.entry t).FileSize ≤
        ((disk.entry t).StartingBlock + (disk.entry t).ReservedBlocks) * blockSize ∧
      ((disk.entry t).StartingBlock + (disk.entry t).ReservedBlocks) * blockSize ≤ disk.size := by
  obtain ⟨-, -, blocks⟩ := wellFormed.num_blocks_le
  obtain ⟨start, reserved, ends⟩ := wellFormed.sound.placed t live.1
  have sized := wellFormed.sound.sized t live
  unfold blockSize at *
  omega

/-- A file whose record and bytes are as before. -/
theorem fileAt_congr (wellFormed : disk.WellFormed) {t : Nat}
    (live : Live disk.entry disk.used t) (size : disk'.size = disk.size)
    (start : (disk'.entry t).StartingBlock = (disk.entry t).StartingBlock)
    (reserved : (disk'.entry t).ReservedBlocks = (disk.entry t).ReservedBlocks)
    (length : (disk'.entry t).FileSize = (disk.entry t).FileSize)
    (bytes : ∀ a, Interval.Has ⟨(disk.entry t).StartingBlock * blockSize,
      ((disk.entry t).StartingBlock + (disk.entry t).ReservedBlocks) * blockSize⟩ a →
        disk'.byte a = disk.byte a) :
    disk'.fileAt t = disk.fileAt t := by
  obtain ⟨-, fits, -⟩ := wellFormed.inside live
  have same : loaded disk'.getc ((disk.entry t).StartingBlock * blockSize)
      (disk.entry t).FileSize =
        loaded disk.getc ((disk.entry t).StartingBlock * blockSize) (disk.entry t).FileSize := by
    refine loaded_congr fun a has => ?_
    obtain ⟨low, high⟩ := has
    rw [getc, getc, size, bytes a ⟨low, lt_of_lt_of_le high fits⟩]
  rw [fileAt, fileAt, fileBytes, fileBytes, start, reserved, length, same]

/-- Writing the directory changes no bytes of files. -/
theorem fileAt_flush (wellFormed : disk.WellFormed) {directory : Nat → UInt8} {t : Nat}
    (live : Live disk.entry disk.used t)
    (same : Bootloader.entry directory t = disk.entry t) :
    (disk.flush directory).entry t = disk.entry t ∧
      (disk.flush directory).fileAt t = disk.fileAt t := by
  have large := wellFormed.large
  have bound := wellFormed.sound.bound
  obtain ⟨low, -, -⟩ := wellFormed.inside live
  have eq : (disk.flush directory).entry t = disk.entry t :=
    (flush_entry (lt_of_lt_of_le live.1 bound)).trans same
  refine ⟨eq, wellFormed.fileAt_congr live (flush_size (by omega)) ?_ ?_ ?_ ?_⟩
  · rw [eq]
  · rw [eq]
  · rw [eq]
  · intro a has
    exact flush_byte (.inr (low.trans has.1))

/-- The record of one file changes in the directory, and still has its name or is empty. -/
theorem replaceRecord (wellFormed : disk.WellFormed) {directory : Nat → UInt8} {slot : Nat}
    {filename : FileName} (live : Live disk.entry disk.used slot)
    (name : (disk.entry slot).name = filename.toCString)
    (others : ∀ t < maxEntries, t ≠ slot → Bootloader.entry directory t = disk.entry t)
    (sound : Sound (Bootloader.entry directory) disk.num_blocks disk.used)
    {file : Option StoredFile}
    (here : ¬ (Bootloader.entry directory slot).Empty →
      (Bootloader.entry directory slot).name = filename.toCString ∧
        some ((disk.flush directory).fileAt slot) = file)
    (gone : (Bootloader.entry directory slot).Empty → file = none) :
    (disk.flush directory).WellFormed ∧
      (disk.flush directory).files = Function.update disk.files filename file := by
  have bound := wellFormed.sound.bound
  have slotEq : (disk.flush directory).entry slot = Bootloader.entry directory slot :=
    flush_entry (lt_of_lt_of_le live.1 bound)
  obtain ⟨result, used⟩ := wellFormed.flush sound
  refine ⟨result, wellFormed.files_update result slot ?_ ?_ (fun _ => name) ?_ ?_⟩
  · intro t apart
    by_cases inside : t < disk.used
    · have less : t < maxEntries := lt_of_lt_of_le inside bound
      have eq : (disk.flush directory).entry t = disk.entry t :=
        (flush_entry less).trans (others t less apart)
      refine ⟨by rw [Live, Live, used, eq], fun alive => ?_⟩
      obtain ⟨same, file⟩ := wellFormed.fileAt_flush alive (others t less apart)
      exact ⟨by rw [same], file⟩
    · refine ⟨?_, fun alive => absurd alive.1 inside⟩
      rw [Live, Live, used]
      exact ⟨fun alive => absurd alive.1 inside, fun alive => absurd alive.1 inside⟩
  · intro t apart alive same
    exact apart (wellFormed.sound.distinct t slot alive live (same.trans name.symm))
  · intro alive
    obtain ⟨same, file⟩ := here (slotEq ▸ alive.2)
    exact ⟨slotEq ▸ same, file⟩
  · intro dead
    refine gone (by_contra fun filled => dead ⟨used.symm ▸ live.1, ?_⟩)
    rw [slotEq]
    exact filled

/-! ### delete -/

/-- Marking the record of a file deleted takes the file out of the store and keeps the image
well formed. -/
theorem delete (wellFormed : disk.WellFormed) {slot : Nat} {filename : FileName}
    (live : Live disk.entry disk.used slot)
    (name : (disk.entry slot).name = filename.toCString) :
    (disk.flush (Function.update disk.directory (slot * 64) 0x01)).WellFormed ∧
      (disk.flush (Function.update disk.directory (slot * 64) 0x01)).files =
        Function.update disk.files filename none := by
  have sound := wellFormed.sound
  obtain ⟨start, reserved⟩ := entry_update_fields disk.directory slot 0x01
  have empty :
      (Bootloader.entry (Function.update disk.directory (slot * 64) 0x01) slot).Empty := by
    rw [entry_empty, Function.update_self]
  have others : ∀ t < maxEntries, t ≠ slot →
      Bootloader.entry (Function.update disk.directory (slot * 64) 0x01) t = disk.entry t :=
    fun t _ apart => entry_update apart
  have place := sound.placed slot live.1
  refine wellFormed.replaceRecord live name others
    (sound.delete live.1 others empty ⟨?_, ?_, ?_⟩) (absurd empty) fun _ => rfl
  · rw [start]
    exact place.start
  · rw [reserved]
    exact place.reserved
  · rw [start, reserved]
    exact place.ends

/-! ### write -/

/-- Bytes that are written neither to the tag nor to the directory change the files only. -/
theorem fwrite (wellFormed : disk.WellFormed) (position : Nat) (bytes : List UInt8)
    (apart : position + bytes.length ≤ 1024 ∨ 8192 ≤ position)
    (fits : position + bytes.length ≤ disk.size) :
    (disk.fwrite position bytes).WellFormed ∧ (disk.fwrite position bytes).size = disk.size ∧
      (∀ t < maxEntries, (disk.fwrite position bytes).entry t = disk.entry t) ∧
      (disk.fwrite position bytes).used = disk.used := by
  have size : (disk.fwrite position bytes).size = disk.size := Nat.max_eq_left fits
  have front : ∀ a, 1024 ≤ a → a < 8192 →
      (disk.fwrite position bytes).byte a = disk.byte a := by
    intro a low high
    refine fwrite_byte fun there => ?_
    unfold Interval.Has at there
    simp only at there
    omega
  have entries : ∀ t < maxEntries, (disk.fwrite position bytes).entry t = disk.entry t := by
    intro t inside
    refine entry_congr fun a here => front _ (by omega) ?_
    have last := here.2
    unfold maxEntries at inside
    simp only at last
    omega
  have blocks : (disk.fwrite position bytes).num_blocks = disk.num_blocks := by
    rw [num_blocks, disksize, size]
    rfl
  have sound : Sound (disk.fwrite position bytes).entry disk.num_blocks disk.used :=
    wellFormed.sound.congr entries
  have used : (disk.fwrite position bytes).used = disk.used := sound.usedEntries_eq
  refine ⟨⟨?_, ?_, ?_, ?_⟩, size, entries, used⟩
  · exact wellFormed.formatted.congr fun a low high => front a low (by omega)
  · rw [size]
    exact wellFormed.large
  · rw [size]
    exact wellFormed.small
  · rw [blocks, used]
    exact sound

/-- The record of a file that got another size. -/
theorem resizeRecord (wellFormed : disk.WellFormed) {slot size : Nat}
    (live : Live disk.entry disk.used slot)
    (fits : size ≤ (disk.entry slot).ReservedBlocks * blockSize)
    {directory : Nat → UInt8}
    (written : directory = storeNat disk.directory (slot * 64 + 48) 8 size) :
    SameFile (Bootloader.entry directory slot) (disk.entry slot) ∧
      (Bootloader.entry directory slot).FileSize = size ∧
      (∀ t < maxEntries, t ≠ slot → Bootloader.entry directory t = disk.entry t) ∧
      Sound (Bootloader.entry directory) disk.num_blocks disk.used := by
  have sound := wellFormed.sound
  have short : size < 2 ^ 64 := by
    have last := (sound.placed slot live.1).ends
    obtain ⟨-, small, -⟩ := wellFormed.num_blocks_le
    unfold blockSize at fits
    omega
  obtain ⟨same, sizeEq⟩ : SameFile (Bootloader.entry directory slot) (disk.entry slot) ∧
      (Bootloader.entry directory slot).FileSize = size := by
    rw [written]
    exact entry_size short
  have others : ∀ t < maxEntries, t ≠ slot → Bootloader.entry directory t = disk.entry t := by
    intro t inside apart
    rw [written]
    exact entry_storeNat (by omega) apart
  refine ⟨same, sizeEq, others, sound.resize live others same ?_⟩
  rw [sizeEq, same.ReservedBlocks]
  exact fits

/-- Bytes in the blocks of a file change that file only. -/
theorem fwrite_files (wellFormed : disk.WellFormed) {slot : Nat} {filename : FileName}
    (live : Live disk.entry disk.used slot)
    (name : (disk.entry slot).name = filename.toCString) {middle : Disk}
    (written : middle.WellFormed) (size : middle.size = disk.size)
    (entries : ∀ t < maxEntries, middle.entry t = disk.entry t) (used : middle.used = disk.used)
    (bytes : ∀ a, ¬ Interval.Has ⟨(disk.entry slot).StartingBlock * blockSize,
      ((disk.entry slot).StartingBlock + (disk.entry slot).ReservedBlocks) * blockSize⟩ a →
        middle.byte a = disk.byte a) :
    middle.files = Function.update disk.files filename (some (middle.fileAt slot)) := by
  have sound := wellFormed.sound
  have bound := sound.bound
  have lives : ∀ t, Live middle.entry middle.used t ↔ Live disk.entry disk.used t := by
    intro t
    by_cases inside : t < disk.used
    · rw [Live, Live, used, entries t (by omega)]
    · rw [Live, Live, used]
      exact ⟨fun alive => absurd alive.1 inside, fun alive => absurd alive.1 inside⟩
  refine wellFormed.files_update written slot ?_ ?_ (fun _ => name) ?_ ?_
  · intro t apart
    refine ⟨lives t, fun alive => ?_⟩
    have eq := entries t (lt_of_lt_of_le alive.1 bound)
    refine ⟨by rw [eq], wellFormed.fileAt_congr alive size ?_ ?_ ?_ ?_⟩
    · rw [eq]
    · rw [eq]
    · rw [eq]
    · intro a here
      refine bytes a fun there => ?_
      have disjoint := sound.apart t slot alive live apart
      unfold Interval.Has blockSize at here there
      simp only [Interval.Disjoint, BMFSEntry.blocks] at here there disjoint
      omega
  · intro t apart alive same
    exact apart (sound.distinct t slot alive live (same.trans name.symm))
  · intro _
    rw [entries slot (lt_of_lt_of_le live.1 bound)]
    exact ⟨name, rfl⟩
  · exact fun dead => absurd ((lives slot).mpr live) dead

/-- The file of a record is written, and its size. -/
theorem write (wellFormed : disk.WellFormed) {slot : Nat} {filename : FileName}
    {tfile : List UInt8} (live : Live disk.entry disk.used slot)
    (name : (disk.entry slot).name = filename.toCString)
    (fits : tfile.length ≤ (disk.entry slot).ReservedBlocks * blockSize) {directory : Nat → UInt8}
    (resized : directory = storeNat disk.directory (slot * 64 + 48) 8 tfile.length) {middle : Disk}
    (middleEq : middle = disk.fwrite ((disk.entry slot).StartingBlock * blockSize) tfile) :
    (middle.flush directory).WellFormed ∧
      (middle.flush directory).files =
        Function.update disk.files filename (some ⟨(disk.entry slot).ReservedBlocks, tfile⟩) ∧
      (middle.flush directory).used = disk.used ∧
      ∀ t < maxEntries, SameFile ((middle.flush directory).entry t) (disk.entry t) := by
  have sound := wellFormed.sound
  have bound := sound.bound
  obtain ⟨low, -, high⟩ := wellFormed.inside live
  have inFile : (disk.entry slot).StartingBlock * blockSize + tfile.length ≤ disk.size := by
    rw [Nat.add_mul] at high
    omega
  obtain ⟨written, size, entries, used⟩ := wellFormed.fwrite _ tfile (.inr low) inFile
  rw [← middleEq] at written size entries used
  obtain ⟨same, sizeEq, others, kept⟩ := wellFormed.resizeRecord live fits resized
  have slotLess : slot < maxEntries := lt_of_lt_of_le live.1 bound
  have rest : middle.files = Function.update disk.files filename (some (middle.fileAt slot)) := by
    refine wellFormed.fwrite_files live name written size entries used fun a outside => ?_
    rw [middleEq]
    refine fwrite_byte fun there => outside ⟨there.1, lt_of_lt_of_le there.2 ?_⟩
    rw [Nat.add_mul]
    exact Nat.add_le_add_left fits _
  have alive : Live middle.entry middle.used slot := by
    rw [Live, used, entries slot slotLess]
    exact live
  have blocks : middle.num_blocks = disk.num_blocks := by
    rw [num_blocks, num_blocks, disksize, disksize, size]
  have keptMiddle : Sound (Bootloader.entry directory) middle.num_blocks middle.used := by
    rw [blocks, used]
    exact kept
  have nameMiddle : (middle.entry slot).name = filename.toCString := by
    rw [entries slot slotLess]
    exact name
  have othersMiddle : ∀ t < maxEntries, t ≠ slot →
      Bootloader.entry directory t = middle.entry t :=
    fun t inside apart => (others t inside apart).trans (entries t inside).symm
  have contents : (middle.flush directory).fileAt slot =
      ⟨(disk.entry slot).ReservedBlocks, tfile⟩ := by
    rw [fileAt, fileBytes, flush_entry slotLess, same.StartingBlock, same.ReservedBlocks, sizeEq,
      middleEq, loaded_fwrite low inFile]
  obtain ⟨result, files⟩ := written.replaceRecord alive nameMiddle othersMiddle keptMiddle
    (fun _ => ⟨same.name.trans name, congrArg some contents⟩)
    (fun empty => absurd (same.empty.mp empty) live.2)
  obtain ⟨-, usedEq⟩ := written.flush keptMiddle
  refine ⟨result, ?_, usedEq.trans used, fun t inside => ?_⟩
  · rw [files, rest, Function.update_idem]
  · rw [flush_entry inside]
    by_cases here : t = slot
    · rw [here]
      exact same
    · rw [others t inside here]
      exact .refl _

end WellFormed

/-! ### format and list -/

/-- `format` leaves the size of the image. -/
theorem format_size (large : 8192 ≤ disk.size) : (format disk).size = disk.size := by
  have length : (fs_tag ++ List.replicate 508 (0 : UInt8)).length = 512 := by
    rw [List.length_append, List.length_replicate]
    rfl
  have tagged : (disk.fwrite 1024 (fs_tag ++ List.replicate 508 0)).size = disk.size := by
    rw [Disk.fwrite, length]
    exact Nat.max_eq_left (by omega)
  rw [format, flush_size (by omega), tagged]

/-- A formatted disk is well formed and has no files. -/
theorem format_empty (large : 6291456 ≤ disk.size) (small : disk.size < 2 ^ 52) :
    (format disk).WellFormed ∧ ((format disk).files = fun _ => none) ∧ (format disk).used = 0 := by
  have length : (fs_tag ++ List.replicate 508 (0 : UInt8)).length = 512 := by
    rw [List.length_append, List.length_replicate]
    rfl
  have size : (format disk).size = disk.size := format_size (by omega)
  have ends : ∀ t < maxEntries, ((format disk).entry t).Ends := by
    intro t inside
    rw [format, flush_entry inside, entry_ends]
  have nothing : ∀ t, ¬ t < 0 := fun t => Nat.not_lt_zero t
  have filed : Filed (format disk).entry 0 :=
    ⟨fun t live => absurd live.1 (nothing t), fun t _ live => absurd live.1 (nothing t),
      fun t _ live => absurd live.1 (nothing t), fun t live => absurd live.1 (nothing t)⟩
  have sound : Sound (format disk).entry (format disk).num_blocks 0 :=
    ⟨filed, Nat.zero_le _, fun t inside => absurd inside (nothing t), fun less => ends 0 less,
      fun t inside => absurd inside (nothing t)⟩
  have used : (format disk).used = 0 := sound.usedEntries_eq
  have tag : (format disk).fread 1024 512 = fs_tag ++ List.replicate 508 0 := by
    have flushed : (format disk).fread 1024 512 =
        loaded (stored disk.byte 1024 (fs_tag ++ List.replicate 508 0)) 1024 512 := by
      refine loaded_congr fun a here => flush_byte (.inl ?_)
      have last := here.2
      simp only at last
      omega
    rw [flushed]
    have holds := loaded_stored disk.byte 1024 (fs_tag ++ List.replicate 508 0)
    rwa [length] at holds
  have formatted : (format disk).Formatted := by
    rw [Disk.Formatted, tag]
    decide
  have wellFormed : (format disk).WellFormed :=
    ⟨formatted, size ▸ large, size ▸ small, used.symm ▸ sound⟩
  refine ⟨wellFormed, funext fun filename => ?_, used⟩
  rw [wellFormed.files_eq_none_iff]
  intro t live
  have none := live.1
  omega

/-- `list` shows every file once. -/
theorem WellFormed.list (wellFormed : disk.WellFormed) :
    (listLoop disk.directory maxEntries 0).Nodup ∧
      ∀ row, row ∈ listLoop disk.directory maxEntries 0 ↔
        ∃ filename file, disk.files filename = some file ∧ row = file.row filename := by
  have sound := wellFormed.sound
  have rowEq : ∀ t < disk.used, ((disk.entry t).name, (disk.entry t).FileSize,
      (disk.entry t).ReservedBlocks * 2 % 2 ^ 64) =
        ((disk.entry t).name, (disk.fileAt t).contents.length, (disk.fileAt t).blocks * 2) := by
    intro t inside
    have ends := (sound.placed t inside).ends
    obtain ⟨-, small, -⟩ := wellFormed.num_blocks_le
    rw [fileAt, fileBytes, length_loaded, Nat.mod_eq_of_lt (by omega)]
  have rows := sound.listLoop_eq (Nat.zero_add maxEntries) (Nat.zero_le _)
  rw [Nat.sub_zero] at rows
  have alive : ∀ t, t ∈ (List.range' 0 disk.used).filter
      (fun t => ¬ (Bootloader.entry disk.directory t).Empty) ↔ Live disk.entry disk.used t := by
    intro t
    rw [List.mem_filter, List.mem_range'_1, decide_eq_true_eq, Nat.zero_add]
    exact ⟨fun ⟨inside, filled⟩ => ⟨inside.2, filled⟩,
      fun live => ⟨⟨Nat.zero_le t, live.1⟩, live.2⟩⟩
  rw [rows]
  constructor
  · rw [List.nodup_iff_pairwise_ne, List.pairwise_map]
    have numbers : (List.range' 0 disk.used).Nodup := List.nodup_range'
    refine List.Pairwise.imp_of_mem ?_ (numbers.filter _)
    intro t u first second different same
    exact different (sound.distinct t u ((alive t).mp first) ((alive u).mp second)
      (Prod.mk.inj same).1)
  · intro row
    rw [List.mem_map]
    constructor
    · rintro ⟨t, member, rfl⟩
      have live := (alive t).mp member
      obtain ⟨filename, name⟩ := sound.named t live
      refine ⟨filename, disk.fileAt t, wellFormed.files_eq_some_iff.mpr ⟨t, live, name, rfl⟩, ?_⟩
      rw [StoredFile.row, ← name]
      exact rowEq t live.1
    · rintro ⟨filename, file, present, rfl⟩
      obtain ⟨t, live, name, rfl⟩ := wellFormed.files_eq_some_iff.mp present
      refine ⟨t, (alive t).mpr live, ?_⟩
      rw [StoredFile.row, ← name]
      exact rowEq t live.1

end Disk

end SistemasOperativos.Bootloader
