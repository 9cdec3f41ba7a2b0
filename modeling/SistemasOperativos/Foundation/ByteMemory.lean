import SistemasOperativos.Foundation.Interval
import SistemasOperativos.Foundation.Memory

/-!
# Bytes in memory

`Holds` says that a list of bytes stands in a memory from an address on, and `copied` is the
memory after a part of it was copied elsewhere. A copy in several steps is a copy of the whole if
the two places have no address in common (`copied_copied`).

`ByteMemory` also records which addresses are loaded from.
-/

namespace SistemasOperativos.Foundation

/-- No address lies in both intervals. One of them may be empty. -/
def Interval.Apart (a b : Interval) : Prop := ∀ address, a.Has address → ¬ b.Has address

/-- Parts of intervals that are apart are so too. -/
theorem Interval.Apart.mono {a b c d : Interval} (apart : a.Apart b) (first : a.Contains c)
    (second : b.Contains d) : c.Apart d := by
  intro address inside clash
  have within := apart address
  unfold Has Contains at *
  omega

/-- `bytes` stand in a memory from an address on. -/
def Holds (memory : Nat → UInt8) (address : Nat) (bytes : List UInt8) : Prop :=
  ∀ index byte, bytes[index]? = some byte → memory (address + index) = byte

namespace Holds

variable {memory other : Nat → UInt8} {address : Nat} {front back bytes : List UInt8}

/-- Two lists one behind the other. -/
theorem append_iff : Holds memory address (front ++ back) ↔
    Holds memory address front ∧ Holds memory (address + front.length) back := by
  constructor
  · intro holds
    constructor
    · intro index byte inside
      have before := (List.getElem?_eq_some_iff.mp inside).1
      exact holds index byte (by rwa [List.getElem?_append_left before])
    · intro index byte inside
      rw [Nat.add_assoc]
      apply holds
      rwa [List.getElem?_append_right (by omega), Nat.add_sub_cancel_left]
  · rintro ⟨first, second⟩ index byte inside
    by_cases before : index < front.length
    · exact first index byte (by rwa [List.getElem?_append_left before] at inside)
    · rw [List.getElem?_append_right (by omega)] at inside
      have behind := second _ byte inside
      rwa [show address + front.length + (index - front.length) = address + index by omega]
        at behind

/-- No bytes stand anywhere. -/
theorem nil (memory : Nat → UInt8) (address : Nat) : Holds memory address [] :=
  fun _ _ inside => nomatch inside

/-- A byte and those behind it. -/
theorem cons {byte : UInt8} (first : memory address = byte)
    (rest : Holds memory (address + 1) bytes) : Holds memory address (byte :: bytes) := by
  rintro (_ | index) c inside
  · exact first.trans (Option.some.inj inside)
  · rw [show address + (index + 1) = address + 1 + index by omega]
    exact rest index c inside

/-- Only the bytes at those addresses count. -/
theorem congr (holds : Holds memory address bytes)
    (same : ∀ a, Interval.Has ⟨address, address + bytes.length⟩ a → other a = memory a) :
    Holds other address bytes := by
  intro index byte inside
  have below := (List.getElem?_eq_some_iff.mp inside).1
  rw [same _ ⟨by simp only; omega, by simp only; omega⟩]
  exact holds index byte inside

end Holds

/-! ## Copies -/

/-- The memory after `length` bytes were copied. -/
def copied (memory : Nat → UInt8) (destination source length : Nat) : Nat → UInt8 := fun a =>
  if destination ≤ a ∧ a < destination + length then memory (source + (a - destination))
  else memory a

section Copied

variable {memory : Nat → UInt8} {destination source length : Nat}

/-- Copying no bytes changes nothing. -/
@[simp] theorem copied_zero : copied memory destination source 0 = memory := by
  funext a
  rw [copied, if_neg (by omega)]

/-- Outside of its destination a copy changes nothing. -/
theorem copied_outside {a : Nat}
    (outside : ¬ Interval.Has ⟨destination, destination + length⟩ a) :
    copied memory destination source length a = memory a :=
  if_neg outside

/-- The bytes that stood at the source stand at the destination. -/
theorem Holds.copied {bytes : List UInt8} (holds : Holds memory source bytes) :
    Holds (copied memory destination source bytes.length) destination bytes := by
  intro index byte inside
  have below := (List.getElem?_eq_some_iff.mp inside).1
  rw [Foundation.copied, if_pos (by omega), Nat.add_sub_cancel_left]
  exact holds index byte inside

/-- Two copies, one behind the other. -/
theorem copied_copied {more : Nat}
    (apart : Interval.Apart ⟨source, source + (length + more)⟩
      ⟨destination, destination + (length + more)⟩) :
    copied (copied memory destination source length) (destination + length) (source + length) more =
      copied memory destination source (length + more) := by
  funext a
  by_cases second : destination + length ≤ a ∧ a < destination + length + more
  · have stays : ¬ Interval.Has ⟨destination, destination + length⟩
        (source + length + (a - (destination + length))) := by
      intro inside
      unfold Interval.Has at inside
      have clash := apart (source + length + (a - (destination + length)))
      unfold Interval.Has at clash
      simp only at inside clash
      omega
    rw [copied, if_pos second, copied_outside stays, copied, if_pos (by omega)]
    exact congrArg memory (by omega)
  · rw [copied, if_neg second]
    by_cases first : destination ≤ a ∧ a < destination + length
    · rw [copied, if_pos first, copied, if_pos (by omega)]
    · rw [copied, if_neg first, copied, if_neg (by omega)]

end Copied

/-! ## Words -/

/-- The bytes of a 32-bit integer, lowest first. -/
def wordBytes (value : Int) : List UInt8 :=
  [byteOf value 0, byteOf value 1, byteOf value 2, byteOf value 3]

/-- The unsigned integer of the four bytes from an address on. -/
def loadUint32 (memory : Nat → UInt8) (address : Nat) : Nat :=
  (memory address).toNat + 256 * (memory (address + 1)).toNat +
    256 ^ 2 * (memory (address + 2)).toNat + 256 ^ 3 * (memory (address + 3)).toNat

section Words

variable {memory : Nat → UInt8} {address : Nat}

/-- An integer is loaded from its bytes. -/
theorem loadUint32_of_holds {value : Nat} (small : value < 2 ^ 32)
    (holds : Holds memory address (wordBytes value)) : loadUint32 memory address = value := by
  have sum := bytes_sum value
  have first : memory address = byteOf value 0 := holds 0 _ rfl
  have second : memory (address + 1) = byteOf value 1 := holds 1 _ rfl
  have third : memory (address + 2) = byteOf value 2 := holds 2 _ rfl
  have fourth : memory (address + 3) = byteOf value 3 := holds 3 _ rfl
  rw [loadUint32, first, second, third, fourth]
  omega

/-- A word that is loaded has the bytes it was loaded from. -/
theorem byteOf_loadUint32 {index : Nat} (inside : index < 4) :
    byteOf (loadUint32 memory address) index = memory (address + index) := by
  have first := (memory address).toNat_lt
  have second := (memory (address + 1)).toNat_lt
  have third := (memory (address + 2)).toNat_lt
  have fourth := (memory (address + 3)).toNat_lt
  apply UInt8.toNat_inj.mp
  rw [byteOf, loadUint32, UInt8.toNat_ofNat']
  have cases : index = 0 ∨ index = 1 ∨ index = 2 ∨ index = 3 := by omega
  rcases cases with rfl | rfl | rfl | rfl
  · rw [Nat.add_zero address]
    omega
  · omega
  · omega
  · omega

/-- A word that is loaded and stored elsewhere is copied. -/
theorem storeInt_loadUint32 (memory : Nat → UInt8) (destination source : Nat) :
    storeInt memory destination (loadUint32 memory source) =
      copied memory destination source 4 := by
  funext a
  rw [storeInt, copied]
  split
  · exact byteOf_loadUint32 (by omega)
  · rfl

end Words

/-! ## Memory with a record of its loads -/

/-- A memory with the addresses that were loaded from. -/
structure ByteMemory where
  byte : Nat → UInt8
  loaded : List Nat

namespace ByteMemory

/-- Load a byte. -/
def loadByte (m : ByteMemory) (address : Nat) : UInt8 × ByteMemory :=
  (m.byte address, { m with loaded := address :: m.loaded })

/-- Store a byte. -/
def storeByte (m : ByteMemory) (address : Nat) (value : UInt8) : ByteMemory :=
  { m with byte := Function.update m.byte address value }

/-- Load an unsigned integer of 32 bits. -/
def loadWord (m : ByteMemory) (address : Nat) : Nat × ByteMemory :=
  (loadUint32 m.byte address,
    { m with loaded := [address, address + 1, address + 2, address + 3] ++ m.loaded })

/-- Store an integer of 32 bits. -/
def storeWord (m : ByteMemory) (address : Nat) (value : Nat) : ByteMemory :=
  { m with byte := storeInt m.byte address value }

/-- Since `m` only addresses of the interval were loaded from. -/
def LoadsFrom (m m' : ByteMemory) (interval : Interval) : Prop :=
  ∀ address ∈ m'.loaded, address ∈ m.loaded ∨ interval.Has address

/-- `m'` is `m` after a copy. -/
structure Copies (m m' : ByteMemory) (destination source length : Nat) : Prop where
  byte : m'.byte = copied m.byte destination source length
  loads : LoadsFrom m m' ⟨source, source + length⟩

/-! ### What was loaded -/

namespace LoadsFrom

variable {m m' m'' : ByteMemory} {interval other : Interval}

/-- A memory that does not change has loaded nothing new. -/
theorem refl (m : ByteMemory) (interval : Interval) : LoadsFrom m m interval :=
  fun _ member => .inl member

/-- Two steps that load from an area load from it together. -/
theorem trans (first : LoadsFrom m m' interval) (second : LoadsFrom m' m'' interval) :
    LoadsFrom m m'' interval := by
  intro address member
  rcases second address member with before | inside
  · exact first address before
  · exact .inr inside

/-- What loads from an area loads from a larger one. -/
theorem mono (loads : LoadsFrom m m' interval) (within : other.Contains interval) :
    LoadsFrom m m' other := by
  intro address member
  refine (loads address member).imp_right fun inside => ?_
  unfold Interval.Has Interval.Contains at *
  omega

end LoadsFrom

/-! ### Steps of a copy -/

section Copies

variable {m m' m'' : ByteMemory} {destination source length width : Nat}

/-- Copying no bytes changes nothing. -/
theorem Copies.zero (m : ByteMemory) (destination source : Nat) :
    m.Copies m destination source 0 :=
  ⟨copied_zero.symm, .refl m _⟩

/-- A copy and one behind it. -/
theorem Copies.append (first : m.Copies m' destination source length)
    (second : m'.Copies m'' (destination + length) (source + length) width)
    (apart : Interval.Apart ⟨source, source + (length + width)⟩
      ⟨destination, destination + (length + width)⟩) :
    m.Copies m'' destination source (length + width) := by
  constructor
  · rw [second.byte, first.byte, copied_copied apart]
  · apply LoadsFrom.trans
    · exact first.loads.mono ⟨Nat.le_refl _, Nat.add_le_add_left (Nat.le_add_right _ _) _⟩
    · exact second.loads.mono ⟨Nat.le_add_right _ _, Nat.le_of_eq (Nat.add_assoc _ _ _)⟩

/-- A byte that is loaded and stored is copied. -/
theorem copies_byte (m : ByteMemory) (destination source : Nat) :
    m.Copies ((m.loadByte source).2.storeByte destination (m.loadByte source).1)
      destination source 1 := by
  constructor
  · funext a
    change Function.update m.byte destination (m.byte source) a = _
    by_cases here : a = destination
    · subst here
      rw [Function.update_self, copied, if_pos (by omega), Nat.sub_self, Nat.add_zero]
    · rw [Function.update_of_ne here, copied, if_neg (by omega)]
  · intro address member
    refine (List.mem_cons.mp member).symm.imp_right ?_
    rintro rfl
    exact ⟨Nat.le_refl _, Nat.lt_succ_self _⟩

/-- The load of a word. -/
theorem loadsFrom_word (m : ByteMemory) (address : Nat) :
    LoadsFrom m (m.loadWord address).2 ⟨address, address + 4⟩ := by
  intro a member
  refine (List.mem_append.mp member).symm.imp_right fun inside => ?_
  simp only [List.mem_cons, List.not_mem_nil, or_false] at inside
  unfold Interval.Has
  simp only
  omega

/-- So is a word. -/
theorem copies_word (m : ByteMemory) (destination source : Nat) :
    m.Copies ((m.loadWord source).2.storeWord destination (m.loadWord source).1)
      destination source 4 :=
  ⟨storeInt_loadUint32 m.byte destination source, loadsFrom_word m source⟩

end Copies

end ByteMemory

end SistemasOperativos.Foundation
