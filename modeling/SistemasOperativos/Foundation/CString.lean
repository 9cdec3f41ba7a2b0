import Mathlib.Data.List.TakeWhile
import Mathlib.Tactic.Ring

/-!
# Strings in memory

A string is the bytes in front of its terminator, none of which is zero. `CString.byte`
is what is read at an offset from its start: the bytes, the terminator, and the memory
around them, which is arbitrary.
-/

namespace SistemasOperativos.Foundation

/-- The bytes of a string, without the zero behind them. -/
@[ext] structure CString where
  chars : List UInt8
  nonzero : ∀ c ∈ chars, c ≠ 0

namespace CString

instance : DecidableEq CString := fun left right =>
  decidable_of_iff (left.chars = right.chars) CString.ext_iff.symm

/-- The string at the start of some bytes, up to the first zero. -/
def ofBytes (bytes : List UInt8) : CString where
  chars := bytes.takeWhile (· ≠ 0)
  nonzero := fun _ member =>
    of_decide_eq_true (List.mem_takeWhile_imp (p := fun c => decide (c ≠ 0)) member)

/-- The byte at an offset from the start of the string, with the memory around it. -/
def byte (string : CString) (around : Int → UInt8) (offset : Int) : UInt8 :=
  if offset < 0 ∨ string.chars.length < offset then around offset
  else (string.chars[offset.toNat]?).getD 0

/-- The offset belongs to the string or is that of its terminator. -/
def Inside (string : CString) (offset : Int) : Prop :=
  0 ≤ offset ∧ offset ≤ string.chars.length

variable {string : CString} {around : Int → UInt8}

/-- Up to its zero byte a string reads as its characters. -/
theorem byte_of_inside {offset : Nat} (inside : offset ≤ string.chars.length) :
    string.byte around offset = (string.chars[offset]?).getD 0 := by
  rw [byte, if_neg (by omega), Int.toNat_natCast]

/-- The byte behind a part of the string. -/
theorem byte_append {front back : List UInt8} {c : UInt8}
    (chars : string.chars = front ++ c :: back) :
    string.byte around front.length = c := by
  have inside : front.length ≤ string.chars.length := by
    rw [chars, List.length_append]
    omega
  rw [byte_of_inside inside, chars, List.getElem?_append_right (Nat.le_refl _), Nat.sub_self,
    List.getElem?_cons_zero, Option.getD_some]

/-- Behind the characters of a string stands its zero byte. -/
theorem byte_length : string.byte around string.chars.length = 0 := by
  rw [byte_of_inside (Nat.le_refl _), List.getElem?_eq_none (Nat.le_refl _), Option.getD_none]

/-! ## Reading a string in order -/

/-- The string is read up to an offset: `front` is in front of it, `rest` from it on. -/
structure At (string : CString) (offset : Int) (front rest : List UInt8) : Prop where
  chars : string.chars = front ++ rest
  position : offset = front.length

namespace At

variable {offset : Int} {front rest : List UInt8} {c : UInt8}

/-- What is read next is in the string or is its terminator. -/
theorem inside (stands : string.At offset front rest) : string.Inside offset := by
  rw [Inside, stands.position, stands.chars, List.length_append]
  omega

/-- The next character is read. -/
theorem byte_eq (stands : string.At offset front (c :: rest)) : string.byte around offset = c := by
  rw [stands.position]
  exact byte_append stands.chars

/-- The character at a place inside a string is not zero. -/
theorem ne_zero (stands : string.At offset front (c :: rest)) : c ≠ 0 := by
  apply string.nonzero
  rw [stands.chars]
  exact List.mem_append_right front List.mem_cons_self

/-- Behind the last character the terminator is read. -/
theorem terminator (stands : string.At offset front []) : string.byte around offset = 0 := by
  rw [stands.position, ← List.append_nil front, ← stands.chars]
  exact byte_length

/-- One character further on. -/
theorem next (stands : string.At offset front (c :: rest)) :
    string.At (offset + 1) (front ++ [c]) rest := by
  refine ⟨by rw [stands.chars, List.append_assoc]; rfl, ?_⟩
  rw [stands.position, List.length_append, List.length_singleton]
  rfl

end At

/-! ## Memory from the start of a string on -/

/-- The memory from the first of some characters on: they, their terminator, and the bytes
behind it. -/
def cells : List UInt8 → (Nat → UInt8) → Nat → UInt8
  | [], _, 0 => 0
  | [], behind, index + 1 => behind index
  | c :: _, _, 0 => c
  | _ :: chars, behind, index + 1 => cells chars behind index

/-- The memory from a number of bytes further on. -/
def advance (memory : Nat → UInt8) (count : Nat) : Nat → UInt8 := fun index =>
  memory (index + count)

/-- The characters of the string at the start of a memory, which end where its first zero is. -/
def text (memory : Nat → UInt8) : Nat → Option UInt8
  | 0 => if memory 0 = 0 then none else some (memory 0)
  | index + 1 => if memory 0 = 0 then none else text (advance memory 1) index

variable {memory : Nat → UInt8}

/-- The string is empty where memory starts with a terminator. -/
theorem text_eq_nil : (text memory = fun index => ([] : List UInt8)[index]?) ↔ memory 0 = 0 := by
  constructor
  · intro empty
    by_contra goes
    have first := congrFun empty 0
    rw [text, if_neg goes] at first
    exact nomatch first
  · intro ended
    funext index
    cases index <;> exact if_pos ended

/-- The string starts with a character where that is the first byte and no terminator, and goes on
with what starts behind it. -/
theorem text_eq_cons {c : UInt8} {chars : List UInt8} :
    (text memory = fun index => (c :: chars)[index]?) ↔
      memory 0 ≠ 0 ∧ memory 0 = c ∧ text (advance memory 1) = fun index => chars[index]? := by
  constructor
  · intro whole
    have first := congrFun whole 0
    have goes : memory 0 ≠ 0 := by
      intro ended
      rw [text, if_pos ended] at first
      exact nomatch first
    rw [text, if_neg goes] at first
    refine ⟨goes, Option.some.inj first, funext fun index => ?_⟩
    have next := congrFun whole (index + 1)
    rwa [text, if_neg goes] at next
  · rintro ⟨goes, first, tail⟩
    funext index
    cases index with
    | zero => exact (if_neg goes).trans (congrArg some first)
    | succ index => exact (if_neg goes).trans (congrFun tail index)

/-- Advancing over the front of a buffer leaves the buffer of the rest. -/
theorem advance_cells (front back : List UInt8) (behind : Nat → UInt8) :
    advance (cells (front ++ back) behind) front.length = cells back behind := by
  induction front with
  | nil => rfl
  | cons c front rest => exact rest

/-- The string at the start of a memory is the one that lies there. -/
theorem text_cells {chars : List UInt8} (nonzero : ∀ c ∈ chars, c ≠ 0) (behind : Nat → UInt8) :
    text (cells chars behind) = fun index => chars[index]? := by
  funext index
  induction chars generalizing index with
  | nil => cases index <;> rfl
  | cons c chars rest =>
      have first : c ≠ 0 := nonzero c List.mem_cons_self
      cases index with
      | zero => exact if_neg first
      | succ index =>
          have tail := rest (fun d member => nonzero d (List.mem_cons_of_mem c member)) index
          exact (if_neg first).trans tail

/-- The first characters of a string, all of them if it ends earlier. -/
def take (string : CString) (count : Nat) : CString where
  chars := string.chars.take count
  nonzero := fun c member => string.nonzero c (List.mem_of_mem_take member)

end CString

end SistemasOperativos.Foundation
