import Mathlib.Data.Nat.Digits.Lemmas
import SistemasOperativos.Bootloader.BmfsSession

/-!
# Making a disk image

`initialize` of bmfs.c: the disk size from the command line, an image of zeros that is formatted,
and the start of the system in front of the first block of files. The file operations are taken
to succeed.
-/

namespace SistemasOperativos.Bootloader

open SistemasOperativos.Foundation SistemasOperativos.Semantics

/-! ## The disk size -/

/-- `minimumDiskSize`. -/
def minimumDiskSize : Nat := 6 * 1024 * 1024

/-- What is wrong with the string of the disk size. -/
inductive SizeError where
  | tooLarge
  | notNumeric
  | invalid
  | tooSmall
  deriving DecidableEq, Repr

/-- `isdigit`. -/
def isdigit (ch : UInt8) : Prop := 48 ≤ ch ∧ ch ≤ 57

instance (ch : UInt8) : Decidable (isdigit ch) := inferInstanceAs (Decidable (_ ∧ _))

/-- `toupper`. -/
def toupper (c : UInt8) : UInt8 := if 97 ≤ c ∧ c ≤ 122 then c - 32 else c

/-- `diskSizeFactor` of a unit. -/
def diskSizeFactor (ch : UInt8) : Option Nat :=
  if toupper ch = 75 then some 1
  else if toupper ch = 77 then some 2
  else if toupper ch = 71 then some 3
  else if toupper ch = 84 then some 4
  else if toupper ch = 80 then some 5
  else none

/-- The loop over the characters of the size, from the character at place `i` on: the number and
the factor of its unit. -/
def sizeLoop : List UInt8 → (i diskSize : Nat) → Except SizeError (Nat × Nat)
  | [], _, diskSize => .ok (diskSize, 0)
  | ch :: size, i, diskSize =>
      if isdigit ch then
        if diskSize * 10 % 2 ^ 64 > diskSize then
          sizeLoop size (i + 1) ((diskSize * 10 + (ch - 48).toNat) % 2 ^ 64)
        else if diskSize = 0 then sizeLoop size (i + 1) (ch - 48).toNat
        else .error .tooLarge
      else if i = 0 then .error .notNumeric
      else
        match diskSizeFactor ch with
        | none => .error .invalid
        | some factor => if size = [] then .ok (diskSize, factor) else .error .invalid

/-- The loop that multiplies by the unit. -/
def scaleLoop : (factor diskSize : Nat) → Except SizeError Nat
  | 0, diskSize => .ok diskSize
  | factor + 1, diskSize =>
      if diskSize * 1024 % 2 ^ 64 > diskSize then scaleLoop factor (diskSize * 1024 % 2 ^ 64)
      else .error .tooLarge

/-- The size of the disk that a string asks for. -/
def diskSize (size : CString) : Except SizeError Nat := do
  let (number, factor) ← sizeLoop size.chars 0 0
  let bytes ← if number > 0 then scaleLoop factor number else .ok number
  if bytes < minimumDiskSize then .error .tooSmall else .ok bytes

/-- The number of decimal digits. -/
def decimal (digits : List UInt8) : Nat :=
  digits.foldl (fun n ch => n * 10 + (ch - 48).toNat) 0

/-- A number of digits, and a unit behind it or none. -/
inductive SizeString : (digits : List UInt8) → (factor : Nat) → List UInt8 → Prop where
  | bytes {digits : List UInt8} (numeric : ∀ ch ∈ digits, isdigit ch) :
      SizeString digits 0 digits
  | units {digits : List UInt8} {ch : UInt8} {factor : Nat} (nonempty : digits ≠ [])
      (numeric : ∀ ch ∈ digits, isdigit ch) (other : ¬ isdigit ch)
      (unit : diskSizeFactor ch = some factor) : SizeString digits factor (digits ++ [ch])

section Size

variable {digits size : List UInt8} {i n factor : Nat}

/-- The number of further digits behind a number. -/
def decimalFrom (n : Nat) (digits : List UInt8) : Nat :=
  digits.foldl (fun n ch => n * 10 + (ch - 48).toNat) n

/-- Appending digits never makes a number smaller. -/
theorem le_decimalFrom (n : Nat) (digits : List UInt8) : n ≤ decimalFrom n digits := by
  induction digits generalizing n with
  | nil => exact Nat.le_refl n
  | cons ch digits ih =>
      have more := ih (n * 10 + (ch - 48).toNat)
      change n ≤ decimalFrom (n * 10 + (ch - 48).toNat) digits
      omega

/-- A number of 64 bits may be reduced before its digits are appended. -/
theorem decimalFrom_mod (n : Nat) (digits : List UInt8) :
    decimalFrom (n % 2 ^ 64) digits % 2 ^ 64 = decimalFrom n digits % 2 ^ 64 := by
  induction digits generalizing n with
  | nil => exact Nat.mod_mod n _
  | cons ch digits ih =>
      change decimalFrom (n % 2 ^ 64 * 10 + (ch - 48).toNat) digits % 2 ^ 64 =
        decimalFrom (n * 10 + (ch - 48).toNat) digits % 2 ^ 64
      rw [← ih, ← ih (n * 10 + (ch - 48).toNat)]
      congr 2
      omega

/-- A digit is at most 9. -/
theorem digit_le {ch : UInt8} (digit : isdigit ch) : (ch - 48).toNat ≤ 9 := by
  obtain ⟨low, high⟩ := digit
  rw [UInt8.toNat_sub_of_le ch 48 low]
  have last : ch.toNat ≤ 57 := UInt8.le_iff_toNat_le.mp high
  exact Nat.sub_le_sub_right last 48

/-- Digits of a number below 2⁶⁴ are read. -/
theorem sizeLoop_digits (numeric : ∀ ch ∈ digits, isdigit ch)
    (fits : decimalFrom n digits < 2 ^ 64) :
    sizeLoop (digits ++ size) i n = sizeLoop size (i + digits.length) (decimalFrom n digits) := by
  induction digits generalizing i n with
  | nil => rfl
  | cons ch digits ih =>
      have digit := numeric ch List.mem_cons_self
      have step := le_decimalFrom (n * 10 + (ch - 48).toNat) digits
      change decimalFrom (n * 10 + (ch - 48).toNat) digits < 2 ^ 64 at fits
      have rest : sizeLoop (digits ++ size) (i + 1) (n * 10 + (ch - 48).toNat) =
          sizeLoop size (i + 1 + digits.length)
            (decimalFrom (n * 10 + (ch - 48).toNat) digits) :=
        ih (fun other member => numeric other (List.mem_cons_of_mem ch member)) fits
      have count : i + (ch :: digits).length = i + 1 + digits.length := by
        rw [List.length_cons]
        omega
      change sizeLoop (ch :: (digits ++ size)) i n =
        sizeLoop size (i + (ch :: digits).length) (decimalFrom (n * 10 + (ch - 48).toNat) digits)
      rw [sizeLoop, if_pos digit, count, Nat.mod_eq_of_lt (by omega : n * 10 < 2 ^ 64)]
      split
      · rw [Nat.mod_eq_of_lt (by omega : n * 10 + (ch - 48).toNat < 2 ^ 64)]
        exact rest
      · have zero : n = 0 := by omega
        rw [if_pos zero]
        rwa [zero, Nat.zero_mul, Nat.zero_add] at rest ⊢

/-- What was read is a number, cut to 64 bits, and a unit behind it or none. -/
theorem sizeLoop_eq_ok {number : Nat} (result : sizeLoop size i n = .ok (number, factor))
    (small : n < 2 ^ 64) :
    ∃ digits rest, size = digits ++ rest ∧ (∀ ch ∈ digits, isdigit ch) ∧
      number = decimalFrom n digits % 2 ^ 64 ∧
      (rest = [] ∧ factor = 0 ∨ ∃ ch, rest = [ch] ∧ 0 < i + digits.length ∧ ¬ isdigit ch ∧
        diskSizeFactor ch = some factor) := by
  induction size generalizing i n with
  | nil =>
      obtain ⟨rfl, rfl⟩ := Prod.mk.inj (Except.ok.inj result)
      exact ⟨[], [], rfl, by simp, (Nat.mod_eq_of_lt small).symm, .inl ⟨rfl, rfl⟩⟩
  | cons ch size ih =>
      rw [sizeLoop] at result
      split at result
      · rename_i digit
        have next : ∃ m, sizeLoop size (i + 1) m = .ok (number, factor) ∧ m < 2 ^ 64 ∧
            m = (n * 10 + (ch - 48).toNat) % 2 ^ 64 := by
          have last := digit_le digit
          split at result
          · exact ⟨_, result, Nat.mod_lt _ (by decide), rfl⟩
          · split at result
            · rename_i zero
              exact ⟨_, result, by omega, by omega⟩
            · cases result
        obtain ⟨m, read, bound, value⟩ := next
        obtain ⟨digits, rest, rfl, numeric, numberEq, unit⟩ := ih read bound
        refine ⟨ch :: digits, rest, rfl, ?_, ?_, ?_⟩
        · intro other member
          rcases List.mem_cons.mp member with rfl | inside
          · exact digit
          · exact numeric other inside
        · rw [numberEq, value, decimalFrom_mod]
          rfl
        · refine unit.imp_right fun ⟨last, same, behind, other, found⟩ => ?_
          exact ⟨last, same, by rw [List.length_cons]; omega, other, found⟩
      · rename_i other
        split at result
        · cases result
        · rename_i behind
          split at result
          · cases result
          · rename_i found
            split at result
            · rename_i last
              obtain ⟨rfl, rfl⟩ := Prod.mk.inj (Except.ok.inj result)
              refine ⟨[], [ch], by rw [last]; rfl, by simp, (Nat.mod_eq_of_lt small).symm,
                .inr ⟨ch, rfl, by omega, other, found⟩⟩
            · cases result

/-- Multiplication by a unit is exact below 2⁶⁴. -/
theorem scaleLoop_eq (positive : 0 < n) (fits : n * 1024 ^ factor < 2 ^ 64) :
    scaleLoop factor n = .ok (n * 1024 ^ factor) := by
  induction factor generalizing n with
  | zero => rw [scaleLoop, Nat.pow_zero, Nat.mul_one]
  | succ factor ih =>
      have power : n * 1024 ^ (factor + 1) = n * 1024 * 1024 ^ factor := by
        rw [Nat.pow_succ', Nat.mul_assoc]
      have one : 1 ≤ 1024 ^ factor := Nat.one_le_pow _ _ (by decide)
      rw [power] at fits ⊢
      have small : n * 1024 < 2 ^ 64 := lt_of_le_of_lt (Nat.le_mul_of_pos_right _ one) fits
      rw [scaleLoop, Nat.mod_eq_of_lt small, if_pos (by omega)]
      exact ih (by omega) fits

/-- The loop over the unit multiplies by 1024 once for each factor. -/
theorem scaleLoop_eq_ok {bytes : Nat} (result : scaleLoop factor n = .ok bytes)
    (small : n < 2 ^ 64) : bytes = n * 1024 ^ factor % 2 ^ 64 := by
  induction factor generalizing n with
  | zero =>
      rw [scaleLoop] at result
      rw [← Except.ok.inj result, Nat.pow_zero, Nat.mul_one, Nat.mod_eq_of_lt small]
  | succ factor ih =>
      rw [scaleLoop] at result
      split at result
      · have power : n * 1024 * 1024 ^ factor = n * 1024 ^ (factor + 1) := by
          rw [Nat.mul_assoc, ← Nat.pow_succ']
        rw [ih result (Nat.mod_lt _ (by decide)), Nat.mod_mul_mod, power]
      · cases result

/-- Such a string is read. -/
theorem SizeString.read (shape : SizeString digits factor size) (fits : decimal digits < 2 ^ 64) :
    sizeLoop size 0 0 = .ok (decimal digits, factor) := by
  cases shape with
  | bytes numeric =>
      have read : sizeLoop (digits ++ []) 0 0 = sizeLoop [] (0 + digits.length) (decimal digits) :=
        sizeLoop_digits numeric fits
      rw [List.append_nil] at read
      exact read
  | units nonempty numeric other unit =>
      have some : 0 + digits.length ≠ 0 := by
        rw [Nat.zero_add]
        exact fun zero => nonempty (List.eq_nil_of_length_eq_zero zero)
      rw [sizeLoop_digits numeric fits, sizeLoop, if_neg other, if_neg some, unit]
      rfl

/-- The string that was read. -/
theorem sizeString_of_sizeLoop {number : Nat} (result : sizeLoop size 0 0 = .ok (number, factor)) :
    ∃ digits, SizeString digits factor size ∧ number = decimal digits % 2 ^ 64 := by
  obtain ⟨digits, rest, rfl, numeric, numberEq, unit⟩ := sizeLoop_eq_ok result (by decide)
  refine ⟨digits, ?_, numberEq⟩
  rcases unit with ⟨rfl, rfl⟩ | ⟨ch, rfl, behind, other, unit⟩
  · rw [List.append_nil]
    exact .bytes numeric
  · refine .units ?_ numeric other unit
    rintro rfl
    exact absurd behind (by decide)

/-- A size that is accepted. -/
theorem diskSize_eq_ok {size : CString} {bytes : Nat} (result : diskSize size = .ok bytes) :
    ∃ digits factor, SizeString digits factor size.chars ∧ minimumDiskSize ≤ bytes ∧
      bytes = decimal digits * 1024 ^ factor % 2 ^ 64 := by
  unfold diskSize at result
  cases read : sizeLoop size.chars 0 0 with
  | error error =>
      rw [read] at result
      cases result
  | ok parsed =>
      obtain ⟨number, factor⟩ := parsed
      obtain ⟨digits, shape, numberEq⟩ := sizeString_of_sizeLoop read
      rw [read] at result
      refine ⟨digits, factor, shape, ?_⟩
      simp only [bind, Except.bind] at result
      split at result
      · cases scaling : scaleLoop factor number with
        | error error =>
            rw [scaling] at result
            cases result
        | ok scaled =>
            rw [scaling] at result
            simp only at result
            split at result
            · cases result
            · rename_i large
              obtain rfl := Except.ok.inj result
              refine ⟨Nat.not_lt.mp large, ?_⟩
              rw [scaleLoop_eq_ok scaling (by rw [numberEq]; exact Nat.mod_lt _ (by decide)),
                numberEq, Nat.mod_mul_mod]
      · rename_i zero
        have small : number < minimumDiskSize := by
          unfold minimumDiskSize
          omega
        rw [if_pos small] at result
        cases result

/-- A size below 2⁶⁴. -/
theorem SizeString.diskSize_eq {size : CString} (shape : SizeString digits factor size.chars)
    (fits : decimal digits * 1024 ^ factor < 2 ^ 64) :
    diskSize size =
      if decimal digits * 1024 ^ factor < minimumDiskSize then .error .tooSmall
      else .ok (decimal digits * 1024 ^ factor) := by
  have number : decimal digits < 2 ^ 64 :=
    lt_of_le_of_lt (Nat.le_mul_of_pos_right _ (Nat.pow_pos (by decide))) fits
  unfold diskSize
  rw [shape.read number]
  simp only [bind, Except.bind]
  split
  · rename_i positive
    rw [scaleLoop_eq positive fits]
  · rename_i zero
    have nothing : decimal digits = 0 := by omega
    rw [nothing, Nat.zero_mul]

/-- A size that is accepted is a number with a unit or none, cut to 64 bits and large enough, and
every such size below 2⁶⁴ is taken for what it is. -/
theorem diskSize_spec (size : CString) :
    (∀ bytes, diskSize size = .ok bytes → ∃ digits factor,
      SizeString digits factor size.chars ∧ minimumDiskSize ≤ bytes ∧
        bytes = decimal digits * 1024 ^ factor % 2 ^ 64) ∧
      ∀ digits factor, SizeString digits factor size.chars →
        decimal digits * 1024 ^ factor < 2 ^ 64 →
          diskSize size =
            if decimal digits * 1024 ^ factor < minimumDiskSize then .error .tooSmall
            else .ok (decimal digits * 1024 ^ factor) :=
  ⟨fun _ result => diskSize_eq_ok result, fun _ _ shape fits => shape.diskSize_eq fits⟩

end Size

/-! ## The image -/

/-- `bufferSize`. -/
def bufferSize : Nat := 50 * 1024

section Image

variable {disk : Disk} {position : Nat} {source : List UInt8}

end Image

end SistemasOperativos.Bootloader
