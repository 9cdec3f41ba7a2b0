import Mathlib.Data.Nat.Digits.Lemmas
import Mathlib.Tactic.Ring

/-!
# Numerals

The numeral of a number in a base, most significant digit first: `IsNumeral` says that it
has no leading zero and evaluates to the number, and `numeral` is one. A loop of divisions
comes upon the digits from the other end; `numeral_of_lt` and `numeral_of_le` are the two
equations that it goes by.
-/

namespace SistemasOperativos.Foundation

/-- `digits`, most significant first, is the numeral of `value` in a base. -/
structure IsNumeral (base value : Nat) (digits : List Nat) : Prop where
  digit : ∀ d ∈ digits, d < base
  nonempty : digits ≠ []
  leading : 1 < digits.length → digits.head? ≠ some 0
  value : Nat.ofDigits base digits.reverse = value

/-- The numeral of a number; that of zero is one zero. -/
def numeral (base n : Nat) : List Nat := if n = 0 then [0] else (Nat.digits base n).reverse

/-- The numeral of a number is a numeral with that value. -/
theorem numeral_isNumeral {base : Nat} (twoOrMore : 1 < base) (n : Nat) :
    IsNumeral base n (numeral base n) := by
  unfold numeral
  split
  · rename_i zero
    exact ⟨by simp; omega, by simp, by simp, by simp [zero]⟩
  · rename_i positive
    have nonempty : Nat.digits base n ≠ [] := Nat.digits_ne_nil_iff_ne_zero.mpr positive
    refine ⟨fun d member => ?_, by simpa using nonempty, fun _ => ?_, ?_⟩
    · exact Nat.digits_lt_base twoOrMore (List.mem_reverse.mp member)
    · rw [List.head?_reverse, List.getLast?_eq_some_getLast nonempty]
      intro zero
      exact Nat.getLast_digit_ne_zero base positive (Option.some.inj zero)
    · rw [List.reverse_reverse, Nat.ofDigits_digits]

/-- One digit. -/
theorem numeral_of_lt {base n : Nat} (one : n < base) : numeral base n = [n] := by
  unfold numeral
  split
  · rename_i zero
    rw [zero]
  · rename_i positive
    rw [Nat.digits_of_lt base n positive one, List.reverse_singleton]

/-- The last digit is the remainder, and the others are the numeral of the quotient. -/
theorem numeral_of_le {base n : Nat} (twoOrMore : 1 < base) (more : base ≤ n) :
    numeral base n = numeral base (n / base) ++ [n % base] := by
  have quotient : n / base ≠ 0 := Nat.ne_of_gt (Nat.div_pos more (by omega))
  rw [numeral, numeral, if_neg (by omega), if_neg quotient,
    Nat.digits_def' twoOrMore (by omega), List.reverse_cons]

/-- How many digits a number has. -/
theorem numeral_length_le_iff {base n count : Nat} (twoOrMore : 1 < base) (some : 0 < count) :
    (numeral base n).length ≤ count ↔ n < base ^ count := by
  unfold numeral
  split
  · rename_i zero
    have positive : 0 < base ^ count := Nat.pow_pos (by omega)
    rw [List.length_singleton, zero]
    omega
  · rw [List.length_reverse]
    exact Nat.digits_length_le_iff twoOrMore n

end SistemasOperativos.Foundation
