import SistemasOperativos.Toolchain.ModulePacker

/-!
# The module loader

`loadModules` of moduleLoader.c and `memcpy` of lib.c, on a memory that records its loads. What the
loader prints goes through a system call and is left out.

The loader takes the image apart as the packer put it together: each module goes to its target,
whether it is copied by words or by bytes, and nothing behind the image is read
(`loadModules_buildImage`).
-/

namespace SistemasOperativos.Kernel

open SistemasOperativos.Foundation SistemasOperativos.Toolchain

/-- The loop of `memcpy` over words, for the first `i` of them. -/
def copyWords (m : ByteMemory) (destination source : Nat) : Nat → ByteMemory
  | 0 => m
  | i + 1 =>
      let (word, m) := (copyWords m destination source i).loadWord (source + 4 * i)
      m.storeWord (destination + 4 * i) word

/-- The loop of `memcpy` over bytes, for the first `i` of them. -/
def copyBytes (m : ByteMemory) (destination source : Nat) : Nat → ByteMemory
  | 0 => m
  | i + 1 =>
      let (byte, m) := (copyBytes m destination source i).loadByte (source + i)
      m.storeByte (destination + i) byte

/-- `memcpy`: by words if both addresses and the length are multiples of four. -/
def memcpy (m : ByteMemory) (destination source length : Nat) : ByteMemory :=
  if destination % 4 = 0 ∧ source % 4 = 0 ∧ length % 4 = 0 then
    copyWords m destination source (length / 4)
  else copyBytes m destination source length

/-- `readUint32`, with the address behind the integer. -/
def readUint32 (m : ByteMemory) (address : Nat) : Nat × Nat × ByteMemory :=
  let (result, m) := m.loadWord address
  (result, address + 4, m)

/-- `loadModule`, with the address behind the module. -/
def loadModule (m : ByteMemory) (module targetModuleAddress : Nat) : Nat × ByteMemory :=
  let (moduleSize, module, m) := readUint32 m module
  (module + moduleSize, memcpy m targetModuleAddress module moduleSize)

/-- The loop of `loadModules` from `i` on; `none` when it reads behind the array of addresses. -/
def loadLoop (targetModuleAddress : List Nat) :
    (remaining i currentModule : Nat) → ByteMemory → Option ByteMemory
  | 0, _, _, m => some m
  | remaining + 1, i, currentModule, m =>
      (targetModuleAddress[i]?).bind fun target =>
        let (currentModule, m) := loadModule m currentModule target
        loadLoop targetModuleAddress remaining (i + 1) currentModule m

/-- `loadModules`. -/
def loadModules (m : ByteMemory) (payloadStart : Nat) (targetModuleAddress : List Nat) :
    Option ByteMemory :=
  let (moduleCount, currentModule, m) := readUint32 m payloadStart
  loadLoop targetModuleAddress moduleCount 0 currentModule m

/-- The array that `initializeKernelBinary` hands to `loadModules`. -/
def moduleAddresses : List Nat := [0x400000, 0x500000, 0xA00000, 0xC00000, 0xE00000, 0x600000]

/-! ## memcpy -/

section Copy

variable {m : ByteMemory} {destination source : Nat}

/-- The loop over the words copies them. -/
theorem copyWords_copies (i : Nat) (apart : Interval.Apart ⟨source, source + 4 * i⟩
    ⟨destination, destination + 4 * i⟩) :
    m.Copies (copyWords m destination source i) destination source (4 * i) := by
  induction i with
  | zero => exact .zero m destination source
  | succ i ih =>
      have earlier := ih (apart.mono ⟨Nat.le_refl _, by simp only; omega⟩
        ⟨Nat.le_refl _, by simp only; omega⟩)
      exact earlier.append (ByteMemory.copies_word _ _ _) apart

/-- The loop over the bytes copies them. -/
theorem copyBytes_copies (i : Nat) (apart : Interval.Apart ⟨source, source + i⟩
    ⟨destination, destination + i⟩) :
    m.Copies (copyBytes m destination source i) destination source i := by
  induction i with
  | zero => exact .zero m destination source
  | succ i ih =>
      have earlier := ih (apart.mono ⟨Nat.le_refl _, by simp only; omega⟩
        ⟨Nat.le_refl _, by simp only; omega⟩)
      exact earlier.append (ByteMemory.copies_byte _ _ _) apart

/-- `memcpy` copies either way. -/
theorem memcpy_copies {length : Nat} (apart : Interval.Apart ⟨source, source + length⟩
    ⟨destination, destination + length⟩) :
    m.Copies (memcpy m destination source length) destination source length := by
  unfold memcpy
  split
  · rename_i aligned
    have whole : 4 * (length / 4) = length := by omega
    have words := copyWords_copies (m := m) (length / 4) (whole.symm ▸ apart)
    rwa [whole] at words
  · exact copyBytes_copies length apart

end Copy

/-! ## loadModules -/

/-- Where a module goes. -/
def region (place : Nat × List UInt8) : Interval := ⟨place.1, place.1 + place.2.length⟩

/-- `loadModule` copies a module of the image to its target and goes on behind it. -/
theorem loadModule_copies {m : ByteMemory} {address target : Nat} {file : List UInt8}
    (holds : Holds m.byte address (packed file)) (short : file.length < 2 ^ 32)
    (apart : Interval.Apart ⟨address + 4, address + 4 + file.length⟩ (region (target, file))) :
    ∃ m', loadModule m address target = (address + (packed file).length, m') ∧
      m'.byte = copied m.byte target (address + 4) file.length ∧
      m.LoadsFrom m' ⟨address, address + (packed file).length⟩ := by
  obtain ⟨size, -⟩ := Holds.append_iff.mp holds
  have length : (packed file).length = 4 + file.length := List.length_append
  have loaded : (m.loadWord address).1 = file.length := loadUint32_of_holds short size
  have copies := memcpy_copies (m := (m.loadWord address).2) apart
  refine ⟨memcpy (m.loadWord address).2 target (address + 4) file.length, ?_, copies.byte, ?_⟩
  · simp only [loadModule, readUint32, loaded, length]
    rw [Nat.add_assoc]
  · apply ByteMemory.LoadsFrom.trans
    · exact (ByteMemory.loadsFrom_word m address).mono
        ⟨Nat.le_refl _, by simp only [length]; omega⟩
    · exact copies.loads.mono ⟨Nat.le_add_right _ _, by simp only [length]; omega⟩

/-- The loop copies each module that is left in the image to its target. -/
theorem loadLoop_loads (targets : List Nat) {modules : List (List UInt8)} {i address : Nat}
    {m : ByteMemory} (image : Interval) (holds : Holds m.byte address (modules.flatMap packed))
    (short : ∀ file ∈ modules, file.length < 2 ^ 32)
    (enough : modules.length ≤ (targets.drop i).length)
    (within : image.Contains ⟨address, address + (modules.flatMap packed).length⟩)
    (outside : ∀ place ∈ (targets.drop i).zip modules, image.Apart (region place))
    (apart : ((targets.drop i).zip modules).Pairwise fun p q => (region p).Apart (region q)) :
    ∃ m', loadLoop targets modules.length i address m = some m' ∧
      (∀ place ∈ (targets.drop i).zip modules, Holds m'.byte place.1 place.2) ∧
      (∀ a, (∀ place ∈ (targets.drop i).zip modules, ¬ (region place).Has a) →
        m'.byte a = m.byte a) ∧
      m.LoadsFrom m' image := by
  induction modules generalizing i address m with
  | nil => exact ⟨m, rfl, by simp, fun _ _ => rfl, .refl m image⟩
  | cons file modules ih =>
      obtain ⟨target, rest, dropped⟩ := List.exists_cons_of_length_pos
        (Nat.lt_of_lt_of_le (Nat.succ_pos modules.length) enough)
      have here : targets[i]? = some target := by
        rw [← List.head?_drop, dropped, List.head?_cons]
      have behind : targets.drop (i + 1) = rest := by
        rw [← List.drop_drop, dropped, List.drop_one, List.tail_cons]
      rw [dropped] at outside apart enough ⊢
      rw [List.zip_cons_cons] at outside apart ⊢
      obtain ⟨first, others⟩ := List.pairwise_cons.mp apart
      rw [List.flatMap_cons] at holds within
      rw [List.length_append] at within
      obtain ⟨isPacked, packedRest⟩ := Holds.append_iff.mp holds
      have lengthPacked : (packed file).length = 4 + file.length := List.length_append
      have low : image.lo ≤ address := within.1
      have high : address + ((packed file).length + (modules.flatMap packed).length) ≤ image.hi :=
        within.2
      have avoids : image.Apart (region (target, file)) := outside _ List.mem_cons_self
      obtain ⟨m₁, moved, byte, loads⟩ := loadModule_copies isPacked
        (short file List.mem_cons_self)
        (avoids.mono ⟨by simp only; omega, by simp only; omega⟩ ⟨Nat.le_refl _, Nat.le_refl _⟩)
      have kept : ∀ a, ¬ (region (target, file)).Has a → m₁.byte a = m.byte a := by
        intro a notTarget
        rw [byte]
        exact copied_outside notTarget
      -- The rest of the image is not written to.
      have holdsRest : Holds m₁.byte (address + (packed file).length)
          (modules.flatMap packed) := by
        refine packedRest.congr fun a inside => kept a (avoids a ?_)
        unfold Interval.Has at *
        simp only at inside
        omega
      obtain ⟨m', ran, copies, left, loadsRest⟩ := ih holdsRest
        (fun other member => short other (List.mem_cons_of_mem file member))
        (by rw [behind]; simpa using enough) ⟨by simp only; omega, by simp only; omega⟩
        (by rw [behind]; exact fun place member => outside place (List.mem_cons_of_mem _ member))
        (by rw [behind]; exact others)
      rw [behind] at copies left
      refine ⟨m', ?_, ?_, ?_, ?_⟩
      · rw [List.length_cons, loadLoop, here, Option.bind_some, moved]
        exact ran
      · intro place member
        rcases List.mem_cons.mp member with rfl | later
        · have arrived : Holds m₁.byte target file := by
            rw [byte]
            exact Holds.copied (Holds.append_iff.mp isPacked).2
          exact arrived.congr fun a inside => left a fun place member => first place member a inside
        · exact copies place later
      · intro a untouched
        rw [left a fun place member => untouched place (List.mem_cons_of_mem _ member)]
        exact kept a (untouched _ List.mem_cons_self)
      · apply ByteMemory.LoadsFrom.trans (loads.mono ?_) loadsRest
        exact ⟨by simp only; omega, by simp only; omega⟩

/-- For a kernel and at most six modules shorter than 2³¹ bytes, and an image of them somewhere in
memory: if the targets avoid the image and one another, `loadModules`, called with the address
behind the kernel, copies each module to its target, changes nothing else, and loads from the
image behind the kernel only. -/
theorem loadModules_buildImage (kernel : List UInt8) (modules : List (List UInt8))
    (few : modules.length ≤ 6) (short : ∀ file ∈ modules, file.length < 2 ^ 31)
    (targets : List Nat) (six : targets.length = 6) (m : ByteMemory) (base : Nat)
    (there : Holds m.byte base (buildImage kernel modules))
    (outside : ∀ place ∈ targets.zip modules,
      Interval.Apart ⟨base, base + (buildImage kernel modules).length⟩ (region place))
    (apart : (targets.zip modules).Pairwise fun p q => (region p).Apart (region q)) :
    ∃ m', loadModules m (base + kernel.length) targets = some m' ∧
      (∀ (i : Nat) (file : List UInt8) (target : Nat), modules[i]? = some file →
        targets[i]? = some target → Holds m'.byte target file) ∧
      (∀ a, (∀ place ∈ targets.zip modules, ¬ (region place).Has a) → m'.byte a = m.byte a) ∧
      m.LoadsFrom m' ⟨base + kernel.length, base + (buildImage kernel modules).length⟩ := by
  have length : (buildImage kernel modules).length =
      kernel.length + (4 + (modules.flatMap packed).length) := by
    rw [buildImage_eq, List.length_append, List.length_append]
    rfl
  rw [buildImage_eq] at there
  obtain ⟨-, payload⟩ := Holds.append_iff.mp there
  obtain ⟨count, rest⟩ := Holds.append_iff.mp payload
  have moduleCount : (m.loadWord (base + kernel.length)).1 = modules.length :=
    loadUint32_of_holds (by omega) count
  obtain ⟨m', ran, copies, left, loads⟩ := loadLoop_loads targets
    ⟨base + kernel.length, base + (buildImage kernel modules).length⟩
    (i := 0) (m := (m.loadWord (base + kernel.length)).2) rest
    (fun file member => Nat.lt_trans (short file member) (by decide))
    (by rw [List.drop_zero, six]; exact few)
    ⟨Nat.le_add_right _ _, by
      simp only [length, wordBytes, List.length_cons, List.length_nil]
      omega⟩
    (by
      rw [List.drop_zero]
      exact fun place member => (outside place member).mono ⟨Nat.le_add_right _ _, Nat.le_refl _⟩
        ⟨Nat.le_refl _, Nat.le_refl _⟩)
    (by rwa [List.drop_zero])
  rw [List.drop_zero] at copies left
  refine ⟨m', ?_, fun i file target isModule isTarget => ?_, left, ?_⟩
  · simp only [loadModules, readUint32, moduleCount]
    exact ran
  · exact copies (target, file)
      (List.mem_of_getElem? (List.getElem?_zip_eq_some.mpr ⟨isTarget, isModule⟩))
  · apply ByteMemory.LoadsFrom.trans ((ByteMemory.loadsFrom_word m _).mono ?_) loads
    exact ⟨Nat.le_refl _, by simp only [length]; omega⟩

/-- Bytes in a memory of zeros. -/
def memoryOf (address : Nat) (bytes : List UInt8) : ByteMemory :=
  ⟨fun a => (bytes[a - address]?).getD 0, []⟩

/-- Two modules, of which the first one is copied by bytes and the second one by words. -/
theorem loadModules_two_modules :
    ∃ m', loadModules (memoryOf 0x100000 (buildImage [7, 8, 9] [[1, 2, 3, 4, 5], [6, 7, 8, 9]]))
        0x100003 moduleAddresses = some m' ∧
      Holds m'.byte 0x400000 [1, 2, 3, 4, 5] ∧ Holds m'.byte 0x500000 [6, 7, 8, 9] := by
  have length : (buildImage [7, 8, 9] [[1, 2, 3, 4, 5], [6, 7, 8, 9]]).length = 24 := by
    rw [buildImage_eq]
    rfl
  obtain ⟨m', ran, copies, -⟩ := loadModules_buildImage [7, 8, 9] [[1, 2, 3, 4, 5], [6, 7, 8, 9]]
    (by decide) (by decide) moduleAddresses rfl
    (memoryOf 0x100000 (buildImage [7, 8, 9] [[1, 2, 3, 4, 5], [6, 7, 8, 9]])) 0x100000
    (fun index byte inside => by simp [memoryOf, inside])
    (by
      rw [length]
      intro place member a inImage inRegion
      unfold Interval.Has region at *
      simp only [moduleAddresses, List.zip_cons_cons, List.zip_nil_right, List.mem_cons,
        List.not_mem_nil, or_false] at member
      rcases member with rfl | rfl
      · simp only [List.length_cons, List.length_nil] at inImage inRegion
        omega
      · simp only [List.length_cons, List.length_nil] at inImage inRegion
        omega)
    (by
      refine List.pairwise_pair.mpr fun a first second => ?_
      unfold Interval.Has region at *
      simp only [List.length_cons, List.length_nil] at first second
      omega)
  exact ⟨m', ran, copies 0 _ _ rfl rfl, copies 1 _ _ rfl rfl⟩

end SistemasOperativos.Kernel
