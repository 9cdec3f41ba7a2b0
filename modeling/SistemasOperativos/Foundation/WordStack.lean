import SistemasOperativos.Foundation.LittleEndian
import Mathlib.Logic.Function.Basic

/-!
# A stack of words in byte memory

Words of eight bytes pushed on a stack that grows to lower addresses, and register files that
are pushed and popped word by word. `HoldsWords` names the words from an address on, the one
pushed last first. Popping registers in an order gives each of them the word that stands for it
(`HoldsWords.popped`), whatever was in it before.
-/

namespace SistemasOperativos.Foundation

/-- The bytes of words, one behind the other. -/
def wordsBytes (words : List UInt64) : List UInt8 :=
  words.flatMap fun word => littleEndian 8 word.toNat

/-- The word at an address. -/
def loadWord (memory : Nat → UInt8) (address : Nat) : UInt64 :=
  UInt64.ofNat (loadNat memory address 8)

/-- The memory after a word was put at an address. -/
def storeWord (memory : Nat → UInt8) (address : Nat) (word : UInt64) : Nat → UInt8 :=
  storeNat memory address 8 word.toNat

/-- Words stand in memory from an address on. -/
def HoldsWords (memory : Nat → UInt8) (address : Nat) (words : List UInt64) : Prop :=
  Holds memory address (wordsBytes words)

@[simp] theorem length_wordsBytes (words : List UInt64) :
    (wordsBytes words).length = 8 * words.length := by
  induction words with
  | nil => rfl
  | cons word words ih =>
      have parts : wordsBytes (word :: words) = littleEndian 8 word.toNat ++ wordsBytes words :=
        List.flatMap_cons
      rw [parts, List.length_append, length_littleEndian, ih, List.length_cons]
      omega

namespace HoldsWords

variable {memory other : Nat → UInt8} {address : Nat} {word : UInt64}
  {words front back : List UInt64}

/-- Words one behind the other stand next to each other. -/
theorem append_iff : HoldsWords memory address (front ++ back) ↔
    HoldsWords memory address front ∧ HoldsWords memory (address + 8 * front.length) back := by
  have parts : wordsBytes (front ++ back) = wordsBytes front ++ wordsBytes back :=
    List.flatMap_append
  rw [HoldsWords, parts, Holds.append_iff, length_wordsBytes]
  rfl

/-- The first word stands below the others. -/
theorem cons_iff : HoldsWords memory address (word :: words) ↔
    HoldsWords memory address [word] ∧ HoldsWords memory (address + 8) words := by
  rw [← List.singleton_append, append_iff]
  rfl

/-- A word that stands somewhere is loaded from there. -/
theorem loadWord_eq (holds : HoldsWords memory address (word :: words)) :
    loadWord memory address = word := by
  have first : Holds memory address (littleEndian 8 word.toNat) := by
    have alone := (cons_iff.mp holds).1
    rwa [HoldsWords, wordsBytes, List.flatMap_singleton] at alone
  have bytes := first.loaded_eq
  rw [length_littleEndian] at bytes
  have fits : word.toNat < 256 ^ 8 := word.toNat_lt
  rw [loadWord, loadNat, bytes, number_littleEndian, Nat.mod_eq_of_lt fits, UInt64.ofNat_toNat]

/-- Only the bytes of the words count. -/
theorem congr (holds : HoldsWords memory address words)
    (same : ∀ a, Interval.Has ⟨address, address + 8 * words.length⟩ a → other a = memory a) :
    HoldsWords other address words :=
  Holds.congr holds (by rwa [length_wordsBytes])

/-- A word is put in front of others. -/
theorem push (holds : HoldsWords memory (address + 8) words) :
    HoldsWords (storeWord memory address word) address (word :: words) := by
  refine cons_iff.mpr ⟨?_, holds.congr fun a inside => storeNat_outside fun clash => ?_⟩
  · have bytes := holds_stored memory address (littleEndian 8 word.toNat)
    rwa [HoldsWords, wordsBytes, List.flatMap_singleton]
  · unfold Interval.Has at inside clash
    simp only at inside clash
    omega

/-- Words that were put somewhere stand there. -/
theorem stored (memory : Nat → UInt8) (address : Nat) (words : List UInt64) :
    HoldsWords (stored memory address (wordsBytes words)) address words :=
  holds_stored memory address (wordsBytes words)

end HoldsWords

/-! ## Pushing and popping -/

/-- Memory and a stack pointer after words were pushed one after the other. -/
def pushWords : (memory : Nat → UInt8) → (rsp : Nat) → List UInt64 → (Nat → UInt8) × Nat
  | memory, rsp, [] => (memory, rsp)
  | memory, rsp, word :: words => pushWords (storeWord memory (rsp - 8) word) (rsp - 8) words

section Stack

variable {memory : Nat → UInt8} {rsp : Nat} {words below front back : List UInt64}

/-- The stack pointer goes down by the size of the words. -/
theorem pushWords_rsp : (pushWords memory rsp words).2 = rsp - 8 * words.length := by
  induction words generalizing memory rsp with
  | nil => rfl
  | cons word words ih =>
      rw [pushWords, ih, List.length_cons]
      omega

/-- Pushing changes nothing but the bytes of the words. -/
theorem pushWords_outside (room : 8 * words.length ≤ rsp) {a : Nat}
    (outside : ¬ Interval.Has ⟨rsp - 8 * words.length, rsp⟩ a) :
    (pushWords memory rsp words).1 a = memory a := by
  induction words generalizing memory rsp with
  | nil => rfl
  | cons word words ih =>
      rw [List.length_cons] at room outside
      unfold Interval.Has at outside
      simp only at outside
      have rest : ¬ Interval.Has ⟨rsp - 8 - 8 * words.length, rsp - 8⟩ a := by
        unfold Interval.Has
        simp only
        omega
      rw [pushWords, ih (by omega) rest]
      refine storeNat_outside ?_
      unfold Interval.Has
      simp only
      omega

/-- Words pushed stand on the stack, the last one first, above those there were. -/
theorem HoldsWords.pushWords (holds : HoldsWords memory rsp below) (words : List UInt64)
    (room : 8 * words.length ≤ rsp) :
    HoldsWords (pushWords memory rsp words).1 (rsp - 8 * words.length)
      (words.reverse ++ below) := by
  induction words generalizing memory rsp below with
  | nil => exact holds
  | cons word words ih =>
      rw [List.length_cons] at room ⊢
      have first : HoldsWords memory (rsp - 8 + 8) below := by
        rwa [Nat.sub_add_cancel (by omega)]
      have pushed : HoldsWords (storeWord memory (rsp - 8) word) (rsp - 8) (word :: below) :=
        first.push
      have rest := ih pushed (by omega)
      rw [List.reverse_cons, List.append_assoc, List.singleton_append]
      rwa [show rsp - 8 * (words.length + 1) = rsp - 8 - 8 * words.length by omega]

end Stack

/-! ## Single bytes -/

/-- The memory after bytes were written one after the other. -/
def writeBytes (memory : Nat → UInt8) (writes : List (Nat × UInt8)) : Nat → UInt8 :=
  writes.foldl (fun memory write => Function.update memory write.1 write.2) memory

/-- Writes to other addresses leave a byte. -/
theorem writeBytes_outside {memory : Nat → UInt8} {writes : List (Nat × UInt8)} {a : Nat}
    (outside : ∀ write ∈ writes, write.1 ≠ a) : writeBytes memory writes a = memory a := by
  induction writes generalizing memory with
  | nil => rfl
  | cons write writes ih =>
      have first : write.1 ≠ a := outside write List.mem_cons_self
      have rest : writeBytes (Function.update memory write.1 write.2) writes a =
          Function.update memory write.1 write.2 a :=
        ih fun other member => outside other (List.mem_cons_of_mem _ member)
      exact rest.trans (Function.update_of_ne first.symm ..)

/-! ## Register files -/

/-- The registers after those of an order were popped from an address on. -/
def popRegisters {Register : Type} [DecidableEq Register] (memory : Nat → UInt8) :
    (rsp : Nat) → (general : Register → UInt64) → List Register → Register → UInt64
  | _, general, [] => general
  | rsp, general, register :: order =>
      popRegisters memory (rsp + 8)
        (Function.update general register (loadWord memory rsp)) order

/-- Each register of the order gets the word that stands for it. -/
theorem HoldsWords.popped {Register : Type} [DecidableEq Register] {memory : Nat → UInt8}
    {rsp : Nat} {order : List Register} {saved : Register → UInt64}
    (holds : HoldsWords memory rsp (order.map saved)) (general : Register → UInt64)
    (register : Register) : popRegisters memory rsp general order register =
      if register ∈ order then saved register else general register := by
  induction order generalizing rsp general with
  | nil => rfl
  | cons first order ih =>
      rw [List.map_cons] at holds
      rw [popRegisters, holds.loadWord_eq, ih (cons_iff.mp holds).2]
      by_cases later : register ∈ order
      · rw [if_pos later, if_pos (List.mem_cons_of_mem _ later)]
      · rw [if_neg later, Function.update_apply]
        by_cases here : register = first
        · rw [if_pos here, if_pos (here ▸ List.mem_cons_self), here]
        · rw [if_neg here, if_neg fun member => (List.mem_cons.mp member).elim here later]

end SistemasOperativos.Foundation
