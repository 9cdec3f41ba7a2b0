import SistemasOperativos.Foundation.CString
import SistemasOperativos.Foundation.LittleEndian

/-!
# The file system utility

bmfs.c: the commands on a disk image that has a directory of 64 records and files in blocks of
2 MiB. Each call of the program reads the directory from the image, and a command that changes it
writes it back. A disk image is the bytes of a file; what a local file holds is given with the
command that reads it.

File names are those that a record can hold (`FileName`), and the local files are taken to open.
The loops of `read` and `write` count with an `int`, so of a file of more than 2³¹ bytes they copy
no more than that (`copied`).
-/

namespace SistemasOperativos.Bootloader

open SistemasOperativos.Foundation

/-- Bytes of a block. -/
def blockSize : Nat := 2097152

/-- Records of the directory. -/
def maxEntries : Nat := 64

/-- A name for a record: at most 31 bytes, the first of which does not mark an unused record. -/
structure FileName extends CString where
  inhabited : chars ≠ []
  short : chars.length < 32
  used : chars.head? ≠ some 1

instance : DecidableEq FileName := fun left right =>
  decidable_of_iff (left.toCString = right.toCString) (by
    constructor
    · intro same
      cases left
      cases right
      simpa using same
    · rintro rfl
      rfl)

/-! ## The disk image -/

/-- The file that is the disk: its length and its bytes. -/
structure Disk where
  size : Nat
  byte : Nat → UInt8

namespace Disk

/-- `ftell` at the end of the disk in MiB, as an `unsigned int`. -/
def disksize (disk : Disk) : Nat := disk.size / 1048576 % 2 ^ 32

/-- `fseek` and `fread`. -/
def fread (disk : Disk) (position count : Nat) : List UInt8 := loaded disk.byte position count

/-- `getc`; behind the end it is `EOF`. -/
def getc (disk : Disk) (position : Nat) : UInt8 :=
  if position < disk.size then disk.byte position else 0xFF

/-- `fseek` and `fwrite`. -/
def fwrite (disk : Disk) (position : Nat) (bytes : List UInt8) : Disk where
  size := max disk.size (position + bytes.length)
  byte := stored disk.byte position bytes

/-- The array `Directory` as `main` fills it. -/
def directory (disk : Disk) : Nat → UInt8 := CString.advance disk.byte 4096

/-- The array `Directory` is written to the disk. -/
def flush (disk : Disk) (directory : Nat → UInt8) : Disk :=
  disk.fwrite 4096 (loaded directory 0 4096)

end Disk

/-- `tolower`. -/
def tolower (c : UInt8) : UInt8 := if 65 ≤ c ∧ c ≤ 90 then c + 32 else c

/-- `fs_tag`: "BMFS". -/
def fs_tag : List UInt8 := [0x42, 0x4D, 0x46, 0x53]

/-- The test of `main` for a formatted disk. -/
def Disk.Formatted (disk : Disk) : Prop :=
  (CString.ofBytes (disk.fread 1024 512)).chars.map tolower = fs_tag.map tolower

instance (disk : Disk) : Decidable disk.Formatted := inferInstanceAs (Decidable (_ = _))

/-! ## Records -/

/-- A record of the directory. -/
structure BMFSEntry where
  FileName : Vector UInt8 32
  StartingBlock : Nat
  ReservedBlocks : Nat
  FileSize : Nat
  deriving DecidableEq, Repr

/-- The record at a place of the directory. -/
def entry (directory : Nat → UInt8) (tint : Nat) : BMFSEntry where
  FileName := Vector.ofFn fun i => directory (tint * 64 + i)
  StartingBlock := loadNat directory (tint * 64 + 32) 8
  ReservedBlocks := loadNat directory (tint * 64 + 40) 8
  FileSize := loadNat directory (tint * 64 + 48) 8

namespace BMFSEntry

/-- The record marks the end of the directory. -/
def Ends (e : BMFSEntry) : Prop := e.FileName[0] = 0x00

/-- The record is not used any more. -/
def Empty (e : BMFSEntry) : Prop := e.FileName[0] = 0x01

instance (e : BMFSEntry) : Decidable e.Ends := inferInstanceAs (Decidable (_ = _))

instance (e : BMFSEntry) : Decidable e.Empty := inferInstanceAs (Decidable (_ = _))

/-- The name in the record, as `strcmp` and `printf` see it. -/
def name (e : BMFSEntry) : CString := .ofBytes e.FileName.toList

/-- The block behind those of the file. -/
def fileEnd (e : BMFSEntry) : Nat := (e.StartingBlock + e.ReservedBlocks) % 2 ^ 64

end BMFSEntry

/-- The loop of `findfile` from a record on. -/
def findfileLoop (directory : Nat → UInt8) (filename : FileName) :
    (remaining tint : Nat) → Option Nat
  | 0, _ => none
  | remaining + 1, tint =>
      if (entry directory tint).Ends then none
      else if (entry directory tint).Empty then
        findfileLoop directory filename remaining (tint + 1)
      else if (entry directory tint).name = filename.toCString then some tint
      else findfileLoop directory filename remaining (tint + 1)

/-- `findfile`. -/
def findfile (directory : Nat → UInt8) (filename : FileName) : Option Nat :=
  findfileLoop directory filename maxEntries 0

/-- The loop of `list` from a record on: names, sizes and reserved MiB. -/
def listLoop (directory : Nat → UInt8) : (remaining tint : Nat) → List (CString × Nat × Nat)
  | 0, _ => []
  | remaining + 1, tint =>
      if (entry directory tint).Ends then []
      else if (entry directory tint).Empty then listLoop directory remaining (tint + 1)
      else
        ((entry directory tint).name, (entry directory tint).FileSize,
          (entry directory tint).ReservedBlocks * 2 % 2 ^ 64) ::
          listLoop directory remaining (tint + 1)

/-! ## create -/

/-- Difference of two `unsigned long long`. -/
def sub64 (a b : Nat) : Nat := (a + 2 ^ 64 - b) % 2 ^ 64

/-- `StartingBlockCmp`. The difference is cut to an `int`. -/
def StartingBlockCmp (ea eb : BMFSEntry) : Int :=
  if ea.Empty then 1
  else if eb.Empty then -1
  else Int.bmod (ea.StartingBlock - eb.StartingBlock) (2 ^ 32)

/-- `qsort` with `StartingBlockCmp`, a merge sort. -/
def qsort (entries : List BMFSEntry) : List BMFSEntry :=
  entries.mergeSort fun ea eb => decide (StartingBlockCmp ea eb ≤ 0)

/-- The first loop of `create` from a record on: `num_used_entries` and `first_free_entry`. If no
record ends the directory, `num_used_entries` stays 0. -/
def countFiles (directory : Nat → UInt8) :
    (remaining tint : Nat) → (first_free_entry : Option Nat) → Nat × Option Nat
  | 0, _, first_free_entry => (0, first_free_entry)
  | remaining + 1, tint, first_free_entry =>
      if (entry directory tint).Ends then (tint, some (first_free_entry.getD tint))
      else if (entry directory tint).Empty then
        countFiles directory remaining (tint + 1) (some (first_free_entry.getD tint))
      else countFiles directory remaining (tint + 1) first_free_entry

/-- The second loop of `create`: `new_file_start` for the records that are left, and behind them. -/
def findArea (num_blocks blocks_requested : Nat) : List BMFSEntry → (prev_file_end : Nat) → Nat
  | [], prev_file_end =>
      if blocks_requested ≤ sub64 (sub64 num_blocks 1) prev_file_end then prev_file_end else 0
  | pEntry :: dir_copy, prev_file_end =>
      let this_file_start :=
        if pEntry.Empty then sub64 num_blocks 1 else pEntry.StartingBlock
      if blocks_requested ≤ sub64 this_file_start prev_file_end then prev_file_end
      else findArea num_blocks blocks_requested dir_copy pEntry.fileEnd

/-- `create` fills a record. -/
def addRecord (directory : Nat → UInt8) (slot start blocks : Nat) (filename : FileName) :
    Nat → UInt8 :=
  let directory := storeNat directory (slot * 64 + 32) 8 start
  let directory := storeNat directory (slot * 64 + 40) 8 blocks
  let directory := storeNat directory (slot * 64 + 48) 8 0
  stored directory (slot * 64) (filename.chars ++ [0])

/-- What a command prints at its end. -/
inductive Outcome where
  | complete
  | contents (bytes : List UInt8)
  | rows (rows : List (CString × Nat × Nat))
  | notFormatted
  | formatAborted
  | invalidFileSize
  | alreadyExists
  | noFreeEntry
  | cannotCreate (maxsize : Nat)
  | notFound
  | notEnoughSpace

/-- `create`. -/
def create (disk : Disk) (filename : FileName) (maxsize : Nat) : Disk × Outcome :=
  let directory := disk.directory
  let maxsize := if maxsize % 2 ≠ 0 then maxsize + 1 else maxsize
  match findfile directory filename with
  | some _ => (disk, .alreadyExists)
  | none =>
      let blocks_requested := maxsize / 2
      let num_blocks := disk.disksize / 2
      match countFiles directory maxEntries 0 none with
      | (_, none) => (disk, .noFreeEntry)
      | (num_used_entries, some first_free_entry) =>
          let dir_copy := qsort ((List.range num_used_entries).map (entry directory))
          let new_file_start := findArea num_blocks blocks_requested dir_copy 1
          if new_file_start = 0 then (disk, .cannotCreate maxsize)
          else
            let directory :=
              addRecord directory first_free_entry new_file_start blocks_requested filename
            -- The record that ended the directory is used now, so the next one has to end it.
            let directory :=
              if first_free_entry = num_used_entries ∧ num_used_entries + 1 < maxEntries then
                Function.update directory ((num_used_entries + 1) * 64) 0x00
              else directory
            (disk.flush directory, .complete)

/-! ## The other commands -/

/-- `format`. -/
def format (disk : Disk) : Disk :=
  (disk.fwrite 1024 (fs_tag ++ List.replicate 508 0)).flush fun _ => 0

/-- The counter of a copying loop in the comparison with a size, which makes an
`unsigned long long` of the `int`. -/
def countedAs (tint : Int32) : Nat := (tint.toInt % 2 ^ 64).toNat

/-- How often `for (; tint < size; tint++)` goes round. Behind the largest `int` comes the smallest,
so the counter has had all its values after 2³² rounds. -/
def copyRounds (size : Nat) : (remaining : Nat) → (tint : Int32) → Nat
  | 0, _ => 0
  | remaining + 1, tint =>
      if countedAs tint < size then copyRounds size remaining (tint + 1) + 1 else 0

/-- The number of bytes that `for (tint = 0; tint < size; tint++)` copies. -/
def copied (size : Nat) : Nat := copyRounds size (2 ^ 32) 0

/-- `read`: what it writes to the local file. -/
def read (disk : Disk) (filename : FileName) : Outcome :=
  match findfile disk.directory filename with
  | none => .notFound
  | some slot =>
      let tempentry := entry disk.directory slot
      .contents
        (loaded disk.getc (tempentry.StartingBlock * blockSize) (copied tempentry.FileSize))

/-- `write`, for the bytes of the local file. -/
def write (disk : Disk) (filename : FileName) (tfile : List UInt8) : Disk × Outcome :=
  match findfile disk.directory filename with
  | none => (disk, .notFound)
  | some slot =>
      let tempentry := entry disk.directory slot
      if tempentry.ReservedBlocks * blockSize % 2 ^ 64 < tfile.length then (disk, .notEnoughSpace)
      else
        ((disk.fwrite (tempentry.StartingBlock * blockSize)
            (tfile.take (copied tfile.length))).flush
          (storeNat disk.directory (slot * 64 + 48) 8 tfile.length), .complete)

/-- `delete`. -/
def delete (disk : Disk) (filename : FileName) : Disk × Outcome :=
  match findfile disk.directory filename with
  | none => (disk, .notFound)
  | some slot => (disk.flush (Function.update disk.directory (slot * 64) 0x01), .complete)

/-- The arguments behind the disk. -/
inductive Command where
  | list
  | format (force : Bool)
  | create (filename : FileName) (filesize : Int32)
  | read (filename : FileName)
  | write (filename : FileName) (tfile : List UInt8)
  | delete (filename : FileName)

end SistemasOperativos.Bootloader
