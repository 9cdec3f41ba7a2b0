import SistemasOperativos.Foundation.CString

/-!
# Comparison of strings

`strcmp` and `strcmpN` of `stdio.c`, which the kernel and every program of the userland hold a
copy of. The order they compute is the lexicographic order of the characters, which are signed
bytes (`strcmp_eq`), and the first `number` characters of two strings compare as the strings cut
there do (`strcmpN_eq`).
-/

namespace SistemasOperativos.Kernel

open Foundation

/-- A character as the subtraction of two of them reads it: `char` is signed. -/
def charValue (c : UInt8) : Int := c.toInt8.toInt

/-- `strcmp`: the first string by its characters from `str1` up to the terminator, the second by
the memory from `str2` on, of which the loop reads no more than the terminator. -/
def strcmp : List UInt8 → (Nat → UInt8) → Int
  | [], str2 => if str2 0 = 0 then 0 else -1
  | c :: str1, str2 =>
    if str2 0 ≠ 0 then
      if charValue c - charValue (str2 0) > 0 then 1
      else if charValue c - charValue (str2 0) < 0 then -1
      else strcmp str1 fun index => str2 (index + 1)
    else 1

/-- `strcmpN`, which stops after `number` characters. -/
def strcmpN : List UInt8 → (Nat → UInt8) → Int → Int
  | [], str2, number => if number = 0 then 0 else if str2 0 = 0 then 0 else -1
  | c :: str1, str2, number =>
    if str2 0 ≠ 0 ∧ number ≠ 0 then
      if charValue c - charValue (str2 0) > 0 then 1
      else if charValue c - charValue (str2 0) < 0 then -1
      else strcmpN str1 (fun index => str2 (index + 1)) (number - 1)
    else if number = 0 then 0
    else 1

/-! ## The order of the strings -/

/-- Characters are ordered by their signed values. -/
abbrev charOrder : UInt8 → UInt8 → Ordering := compareOn charValue

theorem charValue_injective {left right : UInt8} (same : charValue left = charValue right) :
    left = right := by
  have bytes : left.toInt8 = right.toInt8 := Int8.toInt_inj.mp same
  rw [← left.toUInt8_toInt8, bytes, right.toUInt8_toInt8]

instance : Std.LawfulEqCmp charOrder where
  eq_of_compare := fun equal => charValue_injective (Std.LawfulEqOrd.eq_of_compare equal)

/-- The numbers the two functions answer for the outcomes of a comparison. -/
def answer : Ordering → Int
  | .lt => -1
  | .eq => 0
  | .gt => 1

theorem answer_eq_zero {order : Ordering} : answer order = 0 ↔ order = .eq := by
  cases order <;> decide

theorem answer_swap (order : Ordering) : answer order.swap = -answer order := by
  cases order <;> rfl

theorem answer_nonpos {order : Ordering} : answer order ≤ 0 ↔ order.isLE = true := by
  cases order <;> decide

/-- Two characters differ as the order of them says. -/
theorem charOrder_cases (c d : UInt8) (greater less equal : Int) :
    (if charValue c - charValue d > 0 then greater
      else if charValue c - charValue d < 0 then less
      else equal) =
    match charOrder c d with
    | .lt => less
    | .eq => equal
    | .gt => greater := by
  cases order : charOrder c d with
  | lt =>
      have less := Int.compare_eq_lt.mp order
      rw [if_neg (by omega), if_pos (by omega)]
  | eq =>
      have equal := Int.compare_eq_eq.mp order
      rw [if_neg (by omega), if_neg (by omega)]
  | gt =>
      have greater := Int.compare_eq_gt.mp order
      rw [if_pos (by omega)]

/-- `strcmp` compares the characters of its two strings in order. -/
theorem strcmp_eq (left : List UInt8) {right : List UInt8} (behind : Nat → UInt8)
    (nonzero : ∀ c ∈ right, c ≠ 0) :
    strcmp left (CString.cells right behind) = answer (List.compareLex charOrder left right) := by
  induction left generalizing right with
  | nil =>
      cases right with
      | nil => rfl
      | cons d right => exact if_neg (nonzero d List.mem_cons_self)
  | cons c left rest =>
      cases right with
      | nil => rfl
      | cons d right =>
          have tail := rest fun e member => nonzero e (List.mem_cons_of_mem d member)
          have step : strcmp (c :: left) (CString.cells (d :: right) behind) =
              if charValue c - charValue d > 0 then 1
              else if charValue c - charValue d < 0 then -1
              else strcmp left (CString.cells right behind) :=
            if_pos (nonzero d List.mem_cons_self)
          rw [step, charOrder_cases, List.compareLex_cons_cons, tail]
          cases charOrder c d <;> rfl

/-- `strcmpN` answers what `strcmp` does for the first `number` characters of the strings,
wherever these lie. -/
theorem strcmpN_eq (left : List UInt8) {right : List UInt8} (behind other : Nat → UInt8)
    (number : Nat) (nonzero : ∀ c ∈ right, c ≠ 0) :
    strcmpN left (CString.cells right behind) number =
      strcmp (left.take number) (CString.cells (right.take number) other) := by
  induction left generalizing right number with
  | nil =>
      cases number with
      | zero => rfl
      | succ number =>
          rw [strcmpN, if_neg (by omega)]
          cases right <;> rfl
  | cons c left rest =>
      cases number with
      | zero => exact if_neg (fun both => both.2 rfl)
      | succ number =>
          cases right with
          | nil => rfl
          | cons d right =>
              have tail := rest number fun e member => nonzero e (List.mem_cons_of_mem d member)
              have counted : ((number + 1 : Nat) : Int) - 1 = number := by omega
              have step : strcmpN (c :: left) (CString.cells (d :: right) behind)
                    (number + 1 : Nat) =
                  if charValue c - charValue d > 0 then 1
                  else if charValue c - charValue d < 0 then -1
                  else strcmpN left (CString.cells right behind) ((number + 1 : Nat) - 1) :=
                if_pos ⟨nonzero d List.mem_cons_self, by omega⟩
              rw [step, counted, tail]
              exact (if_pos (nonzero d List.mem_cons_self)).symm

/-- `strcmp` finds a word in memory if and only if the string that starts there is this word,
also where nothing is known about what was written there. -/
theorem strcmp_eq_zero_iff_text {word : List UInt8} {memory : Nat → UInt8} :
    strcmp word memory = 0 ↔ CString.text memory = fun index => word[index]? := by
  induction word generalizing memory with
  | nil =>
      rw [strcmp, CString.text_eq_nil]
      by_cases ended : memory 0 = 0
      · simp [ended]
      · simp [ended]
  | cons c word rest =>
      have step : strcmp (c :: word) memory = 0 ↔
          memory 0 ≠ 0 ∧ charOrder c (memory 0) = .eq ∧
            strcmp word (CString.advance memory 1) = 0 := by
        rw [strcmp, charOrder_cases]
        by_cases ended : memory 0 = 0
        · rw [if_neg (not_not_intro ended)]
          exact ⟨fun one => absurd one (by decide), fun goes => absurd ended goes.1⟩
        · rw [if_pos ended, and_iff_right ended]
          cases charOrder c (memory 0) with
          | eq => exact (and_iff_right rfl).symm
          | lt =>
              have notZero : (-1 : Int) ≠ 0 := by decide
              exact ⟨fun zero => absurd zero notZero, fun both => nomatch both.1⟩
          | gt =>
              have notZero : (1 : Int) ≠ 0 := by decide
              exact ⟨fun zero => absurd zero notZero, fun both => nomatch both.1⟩
      rw [step, Std.LawfulEqCmp.compare_eq_iff_eq, rest, CString.text_eq_cons]
      exact ⟨fun ⟨goes, first, tail⟩ => ⟨goes, first.symm, tail⟩,
        fun ⟨goes, first, tail⟩ => ⟨goes, first.symm, tail⟩⟩

/-- `strcmp` finds a string equal to itself alone. -/
theorem strcmp_eq_zero {word : List UInt8} {string : CString} {behind : Nat → UInt8} :
    strcmp word (CString.cells string.chars behind) = 0 ↔ word = string.chars := by
  rw [strcmp_eq word behind string.nonzero, answer_eq_zero, Std.LawfulEqCmp.compare_eq_iff_eq]

/-- `strcmpN` with the length of a word finds the strings that start with it. -/
theorem strcmpN_eq_zero {word : List UInt8} {string : CString} {behind : Nat → UInt8}
    {number : Int} (counted : number = word.length) :
    strcmpN word (CString.cells string.chars behind) number = 0 ↔ word <+: string.chars := by
  rw [counted, strcmpN_eq word behind behind word.length string.nonzero, List.take_length,
    List.prefix_iff_eq_take]
  exact @strcmp_eq_zero word (string.take word.length) behind

/-- `strcmp` is a total order of the strings, whatever memory they lie in, and `strcmpN` is the
order of what its number of characters leaves of them. -/
theorem strcmp_order (a b c : CString) (behind other : Nat → UInt8) (number : Nat) :
    (strcmp a.chars (CString.cells b.chars behind) = 0 ↔ a = b) ∧
    strcmp a.chars (CString.cells b.chars behind) =
      -strcmp b.chars (CString.cells a.chars other) ∧
    (strcmp a.chars (CString.cells b.chars behind) ≤ 0 →
      strcmp b.chars (CString.cells c.chars other) ≤ 0 →
      strcmp a.chars (CString.cells c.chars other) ≤ 0) ∧
    strcmpN a.chars (CString.cells b.chars behind) number =
      strcmp (a.take number).chars (CString.cells (b.take number).chars other) := by
  have compared : ∀ (left right : CString) (memory : Nat → UInt8),
      strcmp left.chars (CString.cells right.chars memory) =
        answer (List.compareLex charOrder left.chars right.chars) :=
    fun left right memory => strcmp_eq left.chars memory right.nonzero
  refine ⟨?_, ?_, ?_, strcmpN_eq a.chars behind other number b.nonzero⟩
  · rw [compared, answer_eq_zero, Std.LawfulEqCmp.compare_eq_iff_eq, CString.ext_iff]
  · have swapped : List.compareLex charOrder a.chars b.chars =
        (List.compareLex charOrder b.chars a.chars).swap := Std.OrientedCmp.eq_swap
    rw [compared, compared, swapped, answer_swap]
  · rw [compared, compared, compared, answer_nonpos, answer_nonpos, answer_nonpos]
    exact Std.TransCmp.isLE_trans

end SistemasOperativos.Kernel
