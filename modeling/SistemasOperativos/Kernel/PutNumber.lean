import SistemasOperativos.Foundation.Numeral
import Mathlib.Logic.Function.Basic

/-!
# Printing a number

`putNumber` of stdio.c. The remainders of the divisions by ten are stored upwards in a
buffer of 20 bytes and printed downwards, behind the sign. The sign is changed in 32 bits,
where the smallest number has no opposite: it stays negative, and so do its remainders
(`putNumber_decimal_iff`).

The copies of this function in the userland differ in the allocator that the buffer is
from.
-/

namespace SistemasOperativos.Kernel

open SistemasOperativos.Foundation

/-- The character of a digit. -/
def digitCode (d : Nat) : UInt8 := UInt8.ofNat (48 + d)

/-- `n + '0'`, converted to a character. -/
def toDigit (n : Int32) : UInt8 := (n + 48).toInt8.toUInt8

/-- The first loop of `putNumber`, with the cells of the buffer that are left. The pointer
into the buffer is `size` cells behind its start. -/
def storeDigits : Nat → Int32 → (Nat → UInt8) → Nat → Option (Int32 × (Nat → UInt8) × Nat)
  | 0, _, _, _ => none
  | cells + 1, n, buffer, size =>
      if n / 10 = 0 then some (n, buffer, size)
      else
        storeDigits cells (n / 10) (Function.update buffer size (toDigit (n % 10))) (size + 1)

/-- The second loop: the cells below `size`, from the last one on. -/
def printDigits (buffer : Nat → UInt8) : Nat → List UInt8
  | 0 => []
  | size + 1 => buffer size :: printDigits buffer size

/-- `putNumber`: the characters that it prints, or `none` if they do not fit into the
buffer. -/
def putNumber (n : Int32) : Option (List UInt8) :=
  let sign := if n < 0 then [45] else []
  let n := if n < 0 then -n else n
  (storeDigits 20 n (fun _ => 0) 0).map fun stored =>
    sign ++
      printDigits (Function.update stored.2.1 stored.2.2 (toDigit stored.1)) (stored.2.2 + 1)

/-- A text is the decimal form of a number: a sign for the negative ones only, and the
numeral of its absolute value. -/
def IsDecimal (text : List UInt8) (n : Int) : Prop :=
  ∃ digits, IsNumeral 10 n.natAbs digits ∧
    text = (if n < 0 then [45] else []) ++ digits.map digitCode

/-- The decimal form of a number. -/
def decimal (n : Int) : List UInt8 :=
  (if n < 0 then [45] else []) ++ (numeral 10 n.natAbs).map digitCode

theorem decimal_isDecimal (n : Int) : IsDecimal (decimal n) n :=
  ⟨numeral 10 n.natAbs, numeral_isNumeral (by decide) _, rfl⟩

/-- The character of a digit. -/
theorem toDigit_eq {n : Int32} {d : Nat} (digit : n.toInt = d) (one : d < 10) :
    toDigit n = digitCode d := by
  have eachDigit : ∀ d < 10, toDigit (Int32.ofNat d) = digitCode d := by decide
  have number : n = Int32.ofNat d := by
    apply Int32.toInt_inj.mp
    rw [Int32.toInt_ofNat_of_lt (by omega), digit]
  rw [number, eachDigit d one]

/-- The quotient of the machine words is that of the numbers. -/
theorem toInt_div_ten {n : Int32} {value : Nat} (nonnegative : n.toInt = value) :
    (n / 10).toInt = (value / 10 : Nat) := by
  rw [Int32.toInt_div_of_ne_right n 10 (by decide), nonnegative]
  rfl

/-- The remainder of the machine words is that of the numbers. -/
theorem toInt_mod_ten {n : Int32} {value : Nat} (nonnegative : n.toInt = value) :
    (n % 10).toInt = (value % 10 : Nat) := by
  rw [Int32.toInt_mod, nonnegative]
  rfl

/-- What is stored above a part of the buffer is printed before it. -/
theorem printDigits_update (buffer : Nat → UInt8) (size : Nat) (c : UInt8) :
    printDigits (Function.update buffer size c) (size + 1) = c :: printDigits buffer size := by
  have below : ∀ count ≤ size,
      printDigits (Function.update buffer size c) count = printDigits buffer count := by
    intro count
    induction count with
    | zero => intro _; rfl
    | succ count ih =>
        intro inside
        rw [printDigits, printDigits, ih (by omega), Function.update_of_ne (by omega)]
  rw [printDigits, below size (Nat.le_refl size), Function.update_self]

/-- The loop stores the numeral of a number that is not negative. -/
theorem storeDigits_numeral {cells : Nat} {n : Int32} {value : Nat}
    (nonnegative : n.toInt = value) (fits : value < 10 ^ cells) (positive : 0 < cells)
    (buffer : Nat → UInt8) (size : Nat) :
    ∃ stored, storeDigits cells n buffer size = some stored ∧
      printDigits (Function.update stored.2.1 stored.2.2 (toDigit stored.1)) (stored.2.2 + 1) =
        (numeral 10 value).map digitCode ++ printDigits buffer size := by
  induction cells generalizing n value buffer size with
  | zero => omega
  | succ cells ih =>
      have quotient := toInt_div_ten nonnegative
      rw [storeDigits]
      by_cases last : value < 10
      · have zero : n / 10 = 0 := by
          apply Int32.toInt_inj.mp
          rw [quotient, Nat.div_eq_of_lt last]
          rfl
        refine ⟨_, if_pos zero, ?_⟩
        rw [printDigits_update, toDigit_eq nonnegative last, numeral_of_lt last]
        rfl
      · have more : n / 10 ≠ 0 := by
          intro zero
          rw [zero] at quotient
          have none : (0 : Int) = (value / 10 : Nat) := quotient
          omega
        have below : value / 10 < 10 ^ cells := by
          rw [Nat.pow_succ] at fits
          omega
        have cellsLeft : 0 < cells := by
          rcases cells with - | cells
          · simp at below
            omega
          · exact Nat.zero_lt_succ cells
        rw [if_neg more]
        obtain ⟨stored, ran, prints⟩ := ih quotient below cellsLeft
          (Function.update buffer size (toDigit (n % 10))) (size + 1)
        refine ⟨stored, ran, ?_⟩
        rw [prints, printDigits_update,
          toDigit_eq (toInt_mod_ten nonnegative) (Nat.mod_lt value (by decide)),
          numeral_of_le (by decide) (by omega : 10 ≤ value), List.map_append, List.append_assoc]
        rfl

/-- The smallest number is printed with characters below the digits. -/
theorem putNumber_minValue :
    putNumber Int32.minValue = some [45, 46, 47, 44, 41, 44, 40, 45, 42, 44, 40] := by
  decide +kernel

/-- Every other number is printed in its decimal form. -/
theorem putNumber_eq_decimal {n : Int32} (notSmallest : n ≠ Int32.minValue) :
    putNumber n = some (decimal n.toInt) := by
  have low := n.le_toInt
  have high := n.toInt_lt
  have aboveLow : n.toInt ≠ -2147483648 := fun smallest =>
    notSmallest (Int32.toInt_inj.mp smallest)
  have negative : n < 0 ↔ n.toInt < 0 := Int32.lt_iff_toInt_lt
  have absolute : (if n < 0 then -n else n).toInt = (n.toInt.natAbs : Nat) := by
    split
    · rename_i below
      rw [negative] at below
      rw [Int32.toInt_neg, Int.bmod_eq_of_le (by omega) (by omega)]
      omega
    · rename_i above
      rw [negative] at above
      omega
  obtain ⟨stored, ran, prints⟩ := storeDigits_numeral absolute
    (by omega : n.toInt.natAbs < 10 ^ 20) (by decide) (fun _ => 0) 0
  simp only [putNumber]
  rw [ran, Option.map_some, prints, decimal]
  simp only [negative, printDigits, List.append_nil]

/-- What is printed for it has a character that is no digit behind the sign. -/
theorem minValue_not_decimal (n : Int) :
    ¬ IsDecimal [45, 46, 47, 44, 41, 44, 40, 45, 42, 44, 40] n := by
  rintro ⟨digits, isNumeral, written⟩
  have dot : (46 : UInt8) ∈ digits.map digitCode := by
    have member : (46 : UInt8) ∈ (if n < 0 then [45] else []) ++ digits.map digitCode := by
      rw [← written]
      decide
    rcases List.mem_append.mp member with sign | digit
    · split at sign
      · exact absurd (List.mem_singleton.mp sign) (by decide)
      · exact absurd sign List.not_mem_nil
    · exact digit
  obtain ⟨d, member, code⟩ := List.mem_map.mp dot
  have notDot : ∀ d < 10, digitCode d ≠ 46 := by decide
  exact notDot d (isNumeral.digit d member) code

/-- A number is printed in its decimal form unless it is the smallest one. -/
theorem putNumber_decimal_iff (n : Int32) :
    (∃ text, putNumber n = some text ∧ IsDecimal text n.toInt) ↔ n ≠ Int32.minValue := by
  constructor
  · rintro ⟨text, printed, isDecimal⟩ smallest
    rw [smallest, putNumber_minValue] at printed
    cases printed
    exact minValue_not_decimal _ isDecimal
  · intro notSmallest
    exact ⟨_, putNumber_eq_decimal notSmallest, decimal_isDecimal _⟩

/-- The smallest number is printed without a single digit. -/
theorem putNumber_smallest :
    putNumber (-2147483648) = some [45, 46, 47, 44, 41, 44, 40, 45, 42, 44, 40] ∧
      ¬ IsDecimal [45, 46, 47, 44, 41, 44, 40, 45, 42, 44, 40] (-2147483648) :=
  ⟨putNumber_minValue, minValue_not_decimal _⟩

example : putNumber (-120) = some [45, 49, 50, 48] := by decide +kernel

end SistemasOperativos.Kernel
