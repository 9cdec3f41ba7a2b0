import SistemasOperativos.Foundation.ByteMemory

/-!
# Numbers of any width in byte memory

`loaded` and `stored` take lists of bytes from memory and put them there, `loadNat` and
`storeNat` numbers of a width in bytes, lowest byte first. A number is loaded as it was stored
(`loadNat_storeNat`), and what a store leaves alone is known byte by byte (`stored_outside`), so
that every frame condition is one about intervals.
-/

namespace SistemasOperativos.Foundation

/-- The lowest `width` bytes of a number, lowest first. -/
def littleEndian : (width value : Nat) → List UInt8
  | 0, _ => []
  | width + 1, value => UInt8.ofNat value :: littleEndian width (value / 256)

/-- The number that bytes make up, lowest first. -/
def number : List UInt8 → Nat
  | [] => 0
  | byte :: bytes => byte.toNat + 256 * number bytes

@[simp] theorem length_littleEndian (width value : Nat) :
    (littleEndian width value).length = width := by
  induction width generalizing value with
  | zero => rfl
  | succ width ih => rw [littleEndian, List.length_cons, ih]

/-- The bytes of a number make it up, as far as they go. -/
theorem number_littleEndian (width value : Nat) :
    number (littleEndian width value) = value % 256 ^ width := by
  induction width generalizing value with
  | zero => rw [littleEndian, number, Nat.pow_zero, Nat.mod_one]
  | succ width ih =>
      have power : 256 ^ (width + 1) = 256 * 256 ^ width := Nat.pow_succ'
      rw [littleEndian, number, ih, UInt8.toNat_ofNat', power, Nat.mod_mul]

/-! ## Lists of bytes -/

/-- The `count` bytes from an address on. -/
def loaded (memory : Nat → UInt8) : (address count : Nat) → List UInt8
  | _, 0 => []
  | address, count + 1 => memory address :: loaded memory (address + 1) count

/-- The memory after bytes were put at an address. -/
def stored (memory : Nat → UInt8) (address : Nat) (bytes : List UInt8) : Nat → UInt8 := fun a =>
  if address ≤ a then (bytes[a - address]?).getD (memory a) else memory a

section Bytes

variable {memory other : Nat → UInt8} {address count : Nat} {bytes : List UInt8}

@[simp] theorem length_loaded (memory : Nat → UInt8) (address count : Nat) :
    (loaded memory address count).length = count := by
  induction count generalizing address with
  | zero => rfl
  | succ count ih => rw [loaded, List.length_cons, ih]

/-- Only the bytes at those addresses count. -/
theorem loaded_congr
    (same : ∀ a, Interval.Has ⟨address, address + count⟩ a → other a = memory a) :
    loaded other address count = loaded memory address count := by
  induction count generalizing address with
  | zero => rfl
  | succ count ih =>
      have rest : ∀ a, Interval.Has ⟨address + 1, address + 1 + count⟩ a →
          other a = memory a := by
        intro a inside
        unfold Interval.Has at *
        exact same a (by simp only at *; omega)
      rw [loaded, loaded, ih rest, same address ⟨Nat.le_refl _, by simp only; omega⟩]

/-- The bytes that stand somewhere are loaded from there. -/
theorem Holds.loaded_eq (holds : Holds memory address bytes) :
    loaded memory address bytes.length = bytes := by
  induction bytes generalizing address with
  | nil => rfl
  | cons byte bytes ih =>
      have first : memory address = byte := holds 0 byte rfl
      have parts : Holds memory address ([byte] ++ bytes) := holds
      have rest : Holds memory (address + 1) bytes := (Holds.append_iff.mp parts).2
      rw [List.length_cons, loaded, first, ih rest]

/-- The loaded bytes stand where they were loaded from. -/
theorem holds_loaded (memory : Nat → UInt8) (address count : Nat) :
    Holds memory address (loaded memory address count) := by
  induction count generalizing address with
  | zero => exact .nil memory address
  | succ count ih => exact .cons rfl (ih (address + 1))

/-- Bytes that were put somewhere stand there. -/
theorem holds_stored (memory : Nat → UInt8) (address : Nat) (bytes : List UInt8) :
    Holds (stored memory address bytes) address bytes := by
  intro index byte inside
  rw [stored, if_pos (Nat.le_add_right ..), Nat.add_sub_cancel_left, inside, Option.getD_some]

/-- Elsewhere a store changes nothing. -/
theorem stored_outside {a : Nat} (outside : ¬ Interval.Has ⟨address, address + bytes.length⟩ a) :
    stored memory address bytes a = memory a := by
  rw [stored]
  split
  · rename_i behind
    rw [List.getElem?_eq_none, Option.getD_none]
    unfold Interval.Has at outside
    simp only at outside
    omega
  · rfl

/-- Stored bytes are loaded again. -/
theorem loaded_stored (memory : Nat → UInt8) (address : Nat) (bytes : List UInt8) :
    loaded (stored memory address bytes) address bytes.length = bytes :=
  (holds_stored memory address bytes).loaded_eq

end Bytes

/-! ## Numbers -/

/-- The number of `width` bytes at an address. -/
def loadNat (memory : Nat → UInt8) (address width : Nat) : Nat :=
  number (loaded memory address width)

/-- The memory after a number of `width` bytes was put at an address. -/
def storeNat (memory : Nat → UInt8) (address width value : Nat) : Nat → UInt8 :=
  stored memory address (littleEndian width value)

section Numbers

variable {memory other : Nat → UInt8} {address width value : Nat}

/-- A number only depends on its own bytes. -/
theorem loadNat_congr
    (same : ∀ a, Interval.Has ⟨address, address + width⟩ a → other a = memory a) :
    loadNat other address width = loadNat memory address width :=
  congrArg number (loaded_congr same)

/-- A number is loaded as it was stored. -/
theorem loadNat_storeNat (small : value < 256 ^ width) :
    loadNat (storeNat memory address width value) address width = value := by
  have bytes := loaded_stored memory address (littleEndian width value)
  rw [length_littleEndian] at bytes
  rw [loadNat, storeNat, bytes, number_littleEndian, Nat.mod_eq_of_lt small]

/-- Elsewhere a store changes nothing. -/
theorem storeNat_outside {a : Nat} (outside : ¬ Interval.Has ⟨address, address + width⟩ a) :
    storeNat memory address width value a = memory a :=
  stored_outside (by rwa [length_littleEndian])

/-- Numbers elsewhere are loaded as before. -/
theorem loadNat_storeNat_apart {place size : Nat}
    (apart : Interval.Apart ⟨address, address + width⟩ ⟨place, place + size⟩) :
    loadNat (storeNat memory place size value) address width = loadNat memory address width :=
  loadNat_congr fun a inside => storeNat_outside (apart a inside)

end Numbers

end SistemasOperativos.Foundation
