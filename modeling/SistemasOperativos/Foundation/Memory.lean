import Mathlib.Logic.Function.Basic
import Mathlib.Tactic.Ring

/-!
# Integers in byte memory

A 32-bit integer takes four bytes, lowest first. What is stored at an address is
loaded from there again, and a store leaves the integers alone whose bytes it
does not overlap. Arrays of integers that overlap by single bytes can be told
apart in this memory from arrays that do not.
-/

namespace SistemasOperativos.Foundation

/-- The `index`-th byte of a 32-bit integer. -/
def byteOf (value : Int) (index : Nat) : UInt8 :=
  UInt8.ofNat ((value % 2 ^ 32).toNat / 256 ^ index)

/-- The integer of the four bytes from an address on. -/
def loadInt (memory : Nat → UInt8) (address : Nat) : Int :=
  Int.bmod ((memory address).toNat + 256 * (memory (address + 1)).toNat +
    256 ^ 2 * (memory (address + 2)).toNat + 256 ^ 3 * (memory (address + 3)).toNat) (2 ^ 32)

/-- Store an integer into the four bytes from an address on. -/
def storeInt (memory : Nat → UInt8) (address : Nat) (value : Int) : Nat → UInt8 := fun byte =>
  if address ≤ byte ∧ byte < address + 4 then byteOf value (byte - address) else memory byte

/-- The four bytes at the two addresses do not overlap. -/
def Disjoint4 (a b : Nat) : Prop := a + 4 ≤ b ∨ b + 4 ≤ a

instance (a b : Nat) : Decidable (Disjoint4 a b) := inferInstanceAs (Decidable (_ ∨ _))

variable {memory : Nat → UInt8} {address : Nat}

/-- The four bytes of a stored integer. -/
theorem storeInt_apply (value : Int) {k : Nat} (inside : k < 4) :
    storeInt memory address value (address + k) = byteOf value k := by
  rw [storeInt, if_pos (by omega), Nat.add_sub_cancel_left]

/-- The four bytes of an integer make it up. -/
theorem bytes_sum (value : Int) :
    ((byteOf value 0).toNat + 256 * (byteOf value 1).toNat +
      256 ^ 2 * (byteOf value 2).toNat + 256 ^ 3 * (byteOf value 3).toNat : Int) =
      value % 2 ^ 32 := by
  obtain ⟨bits, bits_eq⟩ : ∃ bits : Nat, value % 2 ^ 32 = bits :=
    ⟨(value % 2 ^ 32).toNat, by omega⟩
  have size : bits < 2 ^ 32 := by omega
  simp only [byteOf, bits_eq, Int.toNat_natCast, UInt8.toNat_ofNat']
  omega

/-- What is stored is loaded again. -/
theorem loadInt_storeInt (value : Int) :
    loadInt (storeInt memory address value) address = Int.bmod value (2 ^ 32) := by
  have first : storeInt memory address value address = byteOf value 0 :=
    storeInt_apply value (k := 0) (by omega)
  have modulus : (2 ^ 32 : Int) = ((2 ^ 32 : Nat) : Int) := by norm_cast
  unfold loadInt
  rw [first, storeInt_apply value (k := 1) (by omega), storeInt_apply value (k := 2) (by omega),
    storeInt_apply value (k := 3) (by omega), bytes_sum, modulus, Int.emod_bmod]

/-- A store leaves the integers alone that it does not overlap. -/
theorem loadInt_storeInt_disjoint (value : Int) {other : Nat} (disjoint : Disjoint4 address other) :
    loadInt (storeInt memory address value) other = loadInt memory other := by
  have outside : ∀ k < 4, storeInt memory address value (other + k) = memory (other + k) := by
    intro k inside
    rw [storeInt, if_neg]
    rcases disjoint with before | behind
    · omega
    · omega
  have first : storeInt memory address value other = memory other := outside 0 (by omega)
  unfold loadInt
  simp only [first, outside 1 (by omega), outside 2 (by omega), outside 3 (by omega)]

end SistemasOperativos.Foundation
