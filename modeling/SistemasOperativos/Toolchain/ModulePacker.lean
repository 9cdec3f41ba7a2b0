import SistemasOperativos.Foundation.ByteMemory

/-!
# The module packer

`buildImage` of ModulePacker/main.c: the image is the kernel file, the number of the other files,
and each of them behind its size. A file is copied in chunks until the end of file is set, which a
read does that comes to fewer bytes than it asked for (`write_file_eq`).
-/

namespace SistemasOperativos.Toolchain

open SistemasOperativos.Foundation

/-- Bytes that are copied at a time. -/
def BUFFER_SIZE : Nat := 128

/-- A file that is read: the bytes left, and whether its end was met. -/
structure FILE where
  rest : List UInt8
  eof : Bool

/-- `fopen` for reading. -/
def fopen (file : List UInt8) : FILE := ⟨file, false⟩

/-- `fread` of single bytes. -/
def fread (count : Nat) (source : FILE) : List UInt8 × FILE :=
  (source.rest.take count, ⟨source.rest.drop count, decide (source.rest.length < count)⟩)

/-- `write_file`: the bytes that were written to `target` before, and those of `source`. -/
def write_file (target : List UInt8) (source : FILE) : List UInt8 :=
  if source.eof then target
  else write_file (target ++ (fread BUFFER_SIZE source).1) (fread BUFFER_SIZE source).2
termination_by if source.eof then 0 else source.rest.length + 1
decreasing_by
  rename_i notEnd
  by_cases last : source.rest.length < BUFFER_SIZE
  · simp [fread, last, notEnd]
  · simp only [fread, last, notEnd, decide_false, Bool.false_eq_true, ↓reduceIte,
      List.length_drop]
    have positive : 0 < BUFFER_SIZE := by decide
    omega

/-- `write_size`: the size, converted to 32 bits. -/
def write_size (target file : List UInt8) : List UInt8 := target ++ wordBytes file.length

/-- The turn of the loop of `buildImage` for a file. -/
def writeModule (target file : List UInt8) : List UInt8 :=
  write_file (write_size target file) (fopen file)

/-- `buildImage` for a kernel and other files. -/
def buildImage (kernel : List UInt8) (extra : List (List UInt8)) : List UInt8 :=
  let target := write_file [] (fopen kernel)
  let extraBinaries := extra.length
  extra.foldl writeModule (target ++ wordBytes extraBinaries)

/-- A file that is not at its end is written to its last byte. -/
theorem write_file_eq (target rest : List UInt8) :
    write_file target ⟨rest, false⟩ = target ++ rest := by
  -- The induction is on the bytes that are left.
  induction size : rest.length using Nat.strong_induction_on generalizing target rest with
  | _ n ih =>
      rw [write_file, if_neg (by simp)]
      simp only [fread]
      by_cases last : rest.length < BUFFER_SIZE
      · rw [decide_eq_true last, write_file, if_pos rfl, List.take_of_length_le (by omega)]
      · have positive : 0 < BUFFER_SIZE := by decide
        rw [decide_eq_false last, ih (rest.drop BUFFER_SIZE).length (by simp; omega) _ _ rfl,
          List.append_assoc, List.take_append_drop]

/-- A module in the image. -/
def packed (file : List UInt8) : List UInt8 := wordBytes file.length ++ file

theorem writeModule_eq (target file : List UInt8) :
    writeModule target file = target ++ packed file := by
  rw [writeModule, write_size, fopen, write_file_eq, packed, List.append_assoc]

/-- The image in its parts. -/
theorem buildImage_eq (kernel : List UInt8) (extra : List (List UInt8)) :
    buildImage kernel extra = kernel ++ (wordBytes extra.length ++ extra.flatMap packed) := by
  have modules : ∀ target, extra.foldl writeModule target = target ++ extra.flatMap packed := by
    induction extra with
    | nil => intro target; exact (List.append_nil target).symm
    | cons file extra ih =>
        intro target
        rw [List.foldl_cons, ih, writeModule_eq, List.flatMap_cons, List.append_assoc]
  rw [buildImage, modules, fopen, write_file_eq, List.nil_append, List.append_assoc]

end SistemasOperativos.Toolchain
