import SistemasOperativos.Foundation.ByteMemory
import SistemasOperativos.Foundation.Numeral

/-!
# Numbers on the console

`uintToBase` of naiveConsole.c. A first loop writes the remainders of the divisions upwards, so
the last digit stands first, and a second loop turns the text around. `ncPrintBase` gives it a
buffer of 64 bytes, which is one too few for 64 binary digits and their terminator
(`uintToBase_writes_iff`).
-/

namespace SistemasOperativos.Kernel

open SistemasOperativos.Foundation

/-- Size of `buffer`. -/
def ncBufferSize : Nat := 64

/-- The memory from a buffer on, with the offsets that were written to. -/
structure CharBuffer where
  char : Nat → UInt8
  written : List Nat

namespace CharBuffer

/-- Write a character. -/
def set (buffer : CharBuffer) (offset : Nat) (c : UInt8) : CharBuffer :=
  ⟨Function.update buffer.char offset c, offset :: buffer.written⟩

end CharBuffer

/-- `(remainder < 10) ? remainder + '0' : remainder + 'A' - 10`. -/
def remainderChar (remainder : UInt32) : UInt8 :=
  if remainder < 10 then (remainder + 48).toUInt8 else (remainder + 65 - 10).toUInt8

/-- The first loop of `uintToBase`, with a bound on its turns: the value of `p` behind it, the
number of digits and the buffer. -/
def divideLoop (base : UInt32) :
    (fuel : Nat) → (value : UInt64) → (p : Nat) → (digits : UInt32) → CharBuffer →
      Option (Nat × UInt32 × CharBuffer)
  | 0, _, _, _, _ => none
  | fuel + 1, value, p, digits, buffer =>
      let remainder := (value % base.toUInt64).toUInt32
      let buffer := buffer.set p (remainderChar remainder)
      if value / base.toUInt64 = 0 then some (p + 1, digits + 1, buffer)
      else divideLoop base fuel (value / base.toUInt64) (p + 1) (digits + 1) buffer

/-- The second loop of `uintToBase`. -/
def reverseLoop (buffer : CharBuffer) (p1 p2 : Nat) : CharBuffer :=
  if p1 < p2 then
    let tmp := buffer.char p1
    let buffer := buffer.set p1 (buffer.char p2)
    let buffer := buffer.set p2 tmp
    reverseLoop buffer (p1 + 1) (p2 - 1)
  else buffer
termination_by p2 - p1

/-- `uintToBase`: the number of digits and the buffer. -/
def uintToBase (fuel : Nat) (value : UInt64) (buffer : CharBuffer) (base : UInt32) :
    Option (UInt32 × CharBuffer) :=
  (divideLoop base fuel value 0 0 buffer).map fun (p, digits, buffer) =>
    (digits, reverseLoop (buffer.set p 0) 0 (p - 1))

/-! ## The loop of divisions -/

/-- The character of a digit. -/
def digitChar (d : Nat) : UInt8 := if d < 10 then UInt8.ofNat (48 + d) else UInt8.ofNat (55 + d)

/-- The character of a remainder is its digit. -/
theorem remainderChar_eq {remainder : UInt32} {d : Nat} (digit : remainder.toNat = d)
    (small : d < 36) : remainderChar remainder = digitChar d := by
  have eachDigit : ∀ d < 36, remainderChar (UInt32.ofNat d) = digitChar d := by decide
  have number : remainder = UInt32.ofNat d := by
    apply UInt32.toNat_inj.mp
    rw [UInt32.toNat_ofNat_of_lt' (Nat.lt_trans small (by decide)), digit]
  rw [number, eachDigit d small]

/-- The written offsets are those from before and some of an interval. -/
def CharBuffer.WritesIn (before after : CharBuffer) (interval : Interval) : Prop :=
  ∀ offset, offset ∈ after.written ↔ offset ∈ before.written ∨ interval.Has offset

namespace CharBuffer.WritesIn

variable {before middle after : CharBuffer} {lo mid hi : Nat}

theorem set (buffer : CharBuffer) (offset : Nat) (c : UInt8) :
    buffer.WritesIn (buffer.set offset c) ⟨offset, offset + 1⟩ := by
  intro other
  have single : Interval.Has ⟨offset, offset + 1⟩ other ↔ other = offset := by
    unfold Interval.Has
    simp only
    omega
  rw [single, or_comm]
  exact List.mem_cons

/-- Writes to an interval and to one behind it. -/
theorem append (first : before.WritesIn middle ⟨lo, mid⟩) (second : middle.WritesIn after ⟨mid, hi⟩)
    (lower : lo ≤ mid) (upper : mid ≤ hi) : before.WritesIn after ⟨lo, hi⟩ := by
  intro offset
  have both : Interval.Has ⟨lo, hi⟩ offset ↔
      Interval.Has ⟨lo, mid⟩ offset ∨ Interval.Has ⟨mid, hi⟩ offset := by
    unfold Interval.Has
    simp only
    omega
  rw [second offset, first offset, both, or_assoc]

end CharBuffer.WritesIn

section Divide

variable {base : UInt32} {value : UInt64}

/-- The quotient of the machine words is that of the numbers. -/
theorem toNat_quotient (value : UInt64) (base : UInt32) :
    (value / base.toUInt64).toNat = value.toNat / base.toNat := by
  rw [UInt64.toNat_div, UInt32.toNat_toUInt64]

/-- The remainder of the machine words is that of the numbers. -/
theorem toNat_remainder (value : UInt64) (positive : 0 < base.toNat) :
    (value % base.toUInt64).toUInt32.toNat = value.toNat % base.toNat := by
  have below := Nat.mod_lt value.toNat positive
  have bound := base.toNat_lt
  rw [UInt64.toNat_toUInt32, UInt64.toNat_mod, UInt32.toNat_toUInt64, Nat.mod_eq_of_lt (by omega)]

/-- The loop writes the digits, the last one first. -/
theorem divideLoop_writes (twoOrMore : 2 ≤ base.toNat) (few : base.toNat ≤ 36) {fuel : Nat}
    (fits : value.toNat < base.toNat ^ fuel) (positive : 0 < fuel) (p : Nat) (digits : UInt32)
    (buffer : CharBuffer) :
    ∃ after, divideLoop base fuel value p digits buffer =
        some (p + (numeral base.toNat value.toNat).length,
          digits + UInt32.ofNat (numeral base.toNat value.toNat).length, after) ∧
      Holds after.char p ((numeral base.toNat value.toNat).reverse.map digitChar) ∧
      (∀ offset < p, after.char offset = buffer.char offset) ∧
      buffer.WritesIn after ⟨p, p + (numeral base.toNat value.toNat).length⟩ := by
  induction fuel generalizing value p digits buffer with
  | zero => omega
  | succ fuel ih =>
      have quotient := toNat_quotient value base
      have lastDigit : remainderChar (value % base.toUInt64).toUInt32 =
          digitChar (value.toNat % base.toNat) :=
        remainderChar_eq (toNat_remainder value (by omega))
          (Nat.lt_of_lt_of_le (Nat.mod_lt _ (by omega)) few)
      rw [divideLoop, lastDigit]
      by_cases one : value.toNat < base.toNat
      · have done : value / base.toUInt64 = 0 := by
          apply UInt64.toNat_inj.mp
          rw [quotient, Nat.div_eq_of_lt one]
          rfl
        simp only [done, ↓reduceIte]
        rw [numeral_of_lt one, Nat.mod_eq_of_lt one]
        refine ⟨_, rfl, ?_, ?_, ?_⟩
        · exact Holds.cons (Function.update_self ..) (Holds.nil _ _)
        · intro offset before
          exact Function.update_of_ne (Nat.ne_of_lt before) _ _
        · exact .set buffer p _
      · have more : value / base.toUInt64 ≠ 0 := by
          intro zero
          rw [zero] at quotient
          have some := Nat.div_pos (Nat.le_of_not_lt one) (by omega : 0 < base.toNat)
          have none : 0 = value.toNat / base.toNat := quotient
          omega
        have below : (value / base.toUInt64).toNat < base.toNat ^ fuel := by
          rw [quotient]
          exact Nat.div_lt_of_lt_mul (by rwa [Nat.pow_succ, Nat.mul_comm] at fits)
        have turnsLeft : 0 < fuel := by
          rcases fuel with - | fuel
          · rw [zero_add, pow_one] at fits
            omega
          · exact Nat.zero_lt_succ fuel
        simp only [more, ↓reduceIte]
        obtain ⟨after, ran, holds, kept, writes⟩ := ih below turnsLeft (p + 1) (digits + 1)
          (buffer.set p (digitChar (value.toNat % base.toNat)))
        rw [quotient] at ran holds writes
        rw [numeral_of_le (by omega) (Nat.le_of_not_lt one)]
        have length : p + (numeral base.toNat (value.toNat / base.toNat) ++
              [value.toNat % base.toNat]).length =
            p + 1 + (numeral base.toNat (value.toNat / base.toNat)).length := by
          rw [List.length_append, List.length_singleton]
          omega
        refine ⟨after, ?_, ?_, ?_, ?_⟩
        · rw [ran, length, List.length_append, List.length_singleton, UInt32.ofNat_add,
            UInt32.add_assoc, UInt32.add_comm 1]
          rfl
        · rw [List.reverse_append, List.reverse_singleton, List.singleton_append, List.map_cons]
          refine Holds.cons ?_ holds
          rw [kept p (Nat.lt_succ_self p)]
          exact Function.update_self ..
        · intro offset before
          rw [kept offset (Nat.lt_succ_of_lt before)]
          exact Function.update_of_ne (Nat.ne_of_lt before) _ _
        · rw [length]
          exact (CharBuffer.WritesIn.set buffer p _).append writes (by omega) (by omega)

end Divide

/-! ## The loop that turns the text around -/

/-- The characters from `p1` to `p2` stand in the opposite order. -/
theorem reverseLoop_char (buffer : CharBuffer) (p1 p2 i : Nat) :
    (reverseLoop buffer p1 p2).char i =
      if p1 ≤ i ∧ i ≤ p2 then buffer.char (p1 + p2 - i) else buffer.char i := by
  induction buffer, p1, p2 using reverseLoop.induct with
  | case1 buffer p1 p2 more tmp first second ih =>
      have low : second.char p1 = buffer.char p2 :=
        (Function.update_of_ne (Nat.ne_of_lt more) _ _).trans (Function.update_self ..)
      have high : second.char p2 = buffer.char p1 := Function.update_self ..
      have others : ∀ k, k ≠ p1 → k ≠ p2 → second.char k = buffer.char k := by
        intro k notLow notHigh
        exact (Function.update_of_ne notHigh _ _).trans (Function.update_of_ne notLow _ _)
      rw [reverseLoop, if_pos more]
      refine ih.trans ?_
      by_cases inner : p1 + 1 ≤ i ∧ i ≤ p2 - 1
      · rw [if_pos inner, if_pos (by omega), others _ (by omega) (by omega)]
        exact congrArg buffer.char (by omega)
      · rw [if_neg inner]
        by_cases first : i = p1
        · rw [first, low, if_pos (by omega), Nat.add_sub_cancel_left]
        · by_cases last : i = p2
          · rw [last, high, if_pos (by omega), Nat.add_sub_cancel]
          · rw [others i first last, if_neg (by omega)]
  | case2 buffer p1 p2 done =>
      rw [reverseLoop, if_neg done]
      split
      · rename_i between
        rw [show p1 + p2 - i = i by omega]
      · rfl

/-- Nothing else is written to. -/
theorem reverseLoop_written (buffer : CharBuffer) (p1 p2 : Nat) :
    (∀ offset ∈ buffer.written, offset ∈ (reverseLoop buffer p1 p2).written) ∧
    ∀ offset ∈ (reverseLoop buffer p1 p2).written,
      offset ∈ buffer.written ∨ p1 ≤ offset ∧ offset ≤ p2 := by
  induction buffer, p1, p2 using reverseLoop.induct with
  | case1 buffer p1 p2 more tmp first second ih =>
      rw [reverseLoop, if_pos more]
      obtain ⟨kept, within⟩ := ih
      constructor
      · intro offset member
        exact kept offset (List.mem_cons_of_mem _ (List.mem_cons_of_mem _ member))
      · intro offset member
        rcases within offset member with swapped | inner
        · rcases List.mem_cons.mp swapped with rfl | swapped
          · exact .inr ⟨Nat.le_of_lt more, Nat.le_refl _⟩
          · rcases List.mem_cons.mp swapped with rfl | old
            · exact .inr ⟨Nat.le_refl _, Nat.le_of_lt more⟩
            · exact .inl old
        · exact .inr (by omega)
  | case2 buffer p1 p2 done =>
      rw [reverseLoop, if_neg done]
      exact ⟨fun _ member => member, fun _ member => .inl member⟩

/-- A text is turned around. -/
theorem reverseLoop_holds {buffer : CharBuffer} {text : List UInt8}
    (holds : Holds buffer.char 0 text) :
    Holds (reverseLoop buffer 0 (text.length - 1)).char 0 text.reverse := by
  intro index byte inside
  have below : index < text.length := by
    simpa using (List.getElem?_eq_some_iff.mp inside).1
  rw [reverseLoop_char, if_pos (by omega)]
  rw [List.getElem?_reverse below] at inside
  have opposite := holds _ byte inside
  rwa [show 0 + (text.length - 1) - (0 + index) = 0 + (text.length - 1 - index) by omega]

/-! ## uintToBase -/

section Convert

variable {base : UInt32} {value : UInt64}

/-- The buffer gets the digits, the first one first, and a terminator, and nothing else is written
to. -/
theorem uintToBase_writes (twoOrMore : 2 ≤ base.toNat) (few : base.toNat ≤ 36) {fuel : Nat}
    (fits : value.toNat < base.toNat ^ fuel) (positive : 0 < fuel) (buffer : CharBuffer) :
    ∃ after, uintToBase fuel value buffer base =
        some (UInt32.ofNat (numeral base.toNat value.toNat).length, after) ∧
      Holds after.char 0 ((numeral base.toNat value.toNat).map digitChar ++ [0]) ∧
      buffer.WritesIn after ⟨0, (numeral base.toNat value.toNat).length + 1⟩ := by
  obtain ⟨middle, ran, holds, -, writes⟩ := divideLoop_writes twoOrMore few fits positive 0 0 buffer
  have isNumeral := numeral_isNumeral (by omega : 1 < base.toNat) value.toNat
  have some : 0 < (numeral base.toNat value.toNat).length :=
    List.length_pos_of_ne_nil isNumeral.nonempty
  have length : ((numeral base.toNat value.toNat).reverse.map digitChar).length =
      (numeral base.toNat value.toNat).length := by
    rw [List.length_map, List.length_reverse]
  rw [Nat.zero_add] at ran writes
  have ended : Holds (middle.set (numeral base.toNat value.toNat).length 0).char 0
      ((numeral base.toNat value.toNat).reverse.map digitChar) := by
    refine holds.congr fun offset inside => Function.update_of_ne (Nat.ne_of_lt ?_) _ _
    rw [length, Nat.zero_add] at inside
    exact inside.2
  have turned := reverseLoop_holds ended
  rw [length, ← List.map_reverse, List.reverse_reverse] at turned
  refine ⟨_, ?_, Holds.append_iff.mpr ⟨turned, Holds.cons ?_ (Holds.nil _ _)⟩, fun offset => ?_⟩
  · rw [uintToBase, ran, UInt32.zero_add]
    rfl
  · rw [List.length_map, reverseLoop_char, if_neg (by omega), Nat.zero_add]
    exact Function.update_self ..
  · obtain ⟨kept, within⟩ := reverseLoop_written
      (middle.set (numeral base.toNat value.toNat).length 0) 0
      ((numeral base.toNat value.toNat).length - 1)
    have terminated := writes.append (.set middle _ 0) (Nat.zero_le _) (Nat.le_succ _)
    rw [← terminated offset]
    constructor
    · intro member
      rcases within offset member with before | swapped
      · exact before
      · exact (terminated offset).mpr (.inr ⟨Nat.zero_le _, by simp only; omega⟩)
    · exact kept offset

/-- `digits` characters and a terminator stand in the buffer, and they are the numeral of `value`
in the base. -/
def Represents (base : UInt32) (value : UInt64) (digits : UInt32) (buffer : CharBuffer) : Prop :=
  ∃ text, IsNumeral base.toNat value.toNat text ∧ digits.toNat = text.length ∧
    Holds buffer.char 0 (text.map digitChar ++ [0])

/-- For every value and every base from 2 to 36, `uintToBase` writes the numeral of the value and
returns its length. It stays inside the buffer of `ncPrintBase` unless the base is 2 and the value
has 64 digits. -/
theorem uintToBase_writes_iff (value : UInt64) (base : UInt32) (twoOrMore : 2 ≤ base.toNat)
    (few : base.toNat ≤ 36) (char : Nat → UInt8) (fuel : Nat) (enough : 64 ≤ fuel) :
    ∃ digits after, uintToBase fuel value ⟨char, []⟩ base = some (digits, after) ∧
      Represents base value digits after ∧
      ((∀ offset ∈ after.written, offset < ncBufferSize) ↔
        ¬ (base = 2 ∧ 2 ^ 63 ≤ value.toNat)) := by
  have bound := value.toNat_lt
  have fits : value.toNat < base.toNat ^ 64 :=
    Nat.lt_of_lt_of_le bound (Nat.pow_le_pow_left twoOrMore 64)
  have longest := (numeral_length_le_iff (by omega : 1 < base.toNat) (by decide : 0 < 64)).mpr fits
  obtain ⟨after, ran, holds, writes⟩ := uintToBase_writes twoOrMore few
    (Nat.lt_of_lt_of_le fits (Nat.pow_le_pow_right (by omega) enough)) (by omega) ⟨char, []⟩
  refine ⟨_, after, ran, ⟨_, numeral_isNumeral (by omega) _, ?_, holds⟩, ?_⟩
  · rw [UInt32.toNat_ofNat_of_lt' (Nat.lt_of_le_of_lt longest (by decide))]
  · have inside : (∀ offset ∈ after.written, offset < ncBufferSize) ↔
        (numeral base.toNat value.toNat).length ≤ 63 := by
      constructor
      · intro below
        have last : (numeral base.toNat value.toNat).length ∈ after.written :=
          (writes _).mpr (.inr ⟨Nat.zero_le _, Nat.lt_succ_self _⟩)
        exact Nat.le_of_lt_succ (below _ last)
      · intro short offset member
        rcases (writes offset).mp member with none | within
        · exact absurd none List.not_mem_nil
        · exact Nat.lt_of_lt_of_le within.2 (Nat.succ_le_succ short)
    rw [inside, numeral_length_le_iff (by omega) (by decide)]
    by_cases binary : base = 2
    · rw [binary]
      have two : (2 : UInt32).toNat = 2 := rfl
      rw [two, ← Nat.not_le]
      exact not_congr (and_iff_right rfl).symm
    · have notTwo : base.toNat ≠ 2 := fun two => binary (UInt32.toNat_inj.mp two)
      have ternary : 3 ^ 63 ≤ base.toNat ^ 63 := Nat.pow_le_pow_left (by omega) 63
      exact iff_of_true (by omega) fun both => binary both.1

/-- 255 has two digits in base 16, which fit. -/
theorem uintToBase_ff :
    ∃ digits after, uintToBase 64 255 ⟨fun _ => 0, []⟩ 16 = some (digits, after) ∧
      Represents 16 255 digits after ∧ ∀ offset ∈ after.written, offset < ncBufferSize := by
  obtain ⟨digits, after, ran, represents, inside⟩ :=
    uintToBase_writes_iff 255 16 (by decide) (by decide) (fun _ => 0) 64 (Nat.le_refl _)
  exact ⟨digits, after, ran, represents, inside.mpr (by decide)⟩

/-- The terminator of 2⁶³ in base 2 is written behind the buffer. -/
theorem uintToBase_past_buffer :
    ∃ after, uintToBase 64 0x8000000000000000 ⟨fun _ => 0, []⟩ 2 = some (64, after) ∧
      64 ∈ after.written ∧ ¬ ∀ offset ∈ after.written, offset < ncBufferSize := by
  have value : (0x8000000000000000 : UInt64).toNat = 2 ^ 63 := rfl
  obtain ⟨after, ran, -, writes⟩ := uintToBase_writes (by decide : 2 ≤ (2 : UInt32).toNat)
    (by decide) (by decide : (0x8000000000000000 : UInt64).toNat < (2 : UInt32).toNat ^ 64)
    (by decide) ⟨fun _ => 0, []⟩
  have upper := (numeral_length_le_iff (n := 2 ^ 63) (by decide : 1 < 2)
    (by decide : 0 < 64)).mpr (by decide)
  have lower := (numeral_length_le_iff (n := 2 ^ 63) (by decide : 1 < 2)
    (by decide : 0 < 63)).not.mpr (by decide)
  have digits : (numeral (2 : UInt32).toNat (0x8000000000000000 : UInt64).toNat).length = 64 :=
    Nat.le_antisymm upper (Nat.lt_of_not_le lower)
  rw [digits] at ran writes
  have terminator : 64 ∈ after.written := (writes 64).mpr (.inr ⟨by decide, by decide⟩)
  exact ⟨after, ran, terminator, fun below => Nat.lt_irrefl _ (below 64 terminator)⟩

end Convert

end SistemasOperativos.Kernel
