import SistemasOperativos.Kernel.PrintFormat

/-!
# What a format describes

In the text of a format the conversions are replaced by their arguments, and a percent
sign that begins none is copied together with the character behind it (`formatted`). The
loop of `printFF` prints a percent sign in place of that character and goes on waiting for
a conversion. In a row of percent signs this is the same, one character later; behind it
only a conversion is understood, and only after an odd number of them. `Converts` is this
condition on the format, and `printFF_formatted` says that it is the right one.
-/

namespace SistemasOperativos.Kernel

open SistemasOperativos.Foundation

/-- The place in a row of percent signs: outside, behind an odd number of them, or behind
an even one. -/
inductive Percents where
  | outside
  | odd
  | even
  deriving DecidableEq, Repr

/-- Every row of percent signs ends the format, or it is odd and a conversion follows. -/
def runsConvert : Percents → List UInt8 → Bool
  | _, [] => true
  | .outside, c :: rest => runsConvert (if c = 37 then .odd else .outside) rest
  | .odd, c :: rest =>
      if c = 37 then runsConvert .even rest
      else (c = 100 || c = 115) && runsConvert .outside rest
  | .even, c :: rest => c = 37 && runsConvert .odd rest

/-- The number of conversions with the character `kind`. -/
def conversions (kind : UInt8) : FormatState → List UInt8 → Nat
  | _, [] => 0
  | .LETTER, c :: rest => conversions kind (if c = 37 then .FORMAT else .LETTER) rest
  | .FORMAT, c :: rest => (if c = kind then 1 else 0) + conversions kind .LETTER rest

namespace PrintCall

/-- The text of a format, with the numbers written by `number`. -/
def formattedWith (call : PrintCall) (number : Int32 → List UInt8) :
    FormatState → Nat → Nat → List UInt8 → List UInt8
  | .LETTER, _, _, [] => []
  | .FORMAT, _, _, [] => [37]
  | .LETTER, s, n, c :: rest =>
      if c = 37 then call.formattedWith number .FORMAT s n rest
      else c :: call.formattedWith number .LETTER s n rest
  | .FORMAT, s, n, c :: rest =>
      if c = 100 then
        (call.n.map fun numbers => number (numbers n)).getD [] ++
          call.formattedWith number .LETTER s (n + 1) rest
      else if c = 115 then
        (call.s.map fun strings => (strings s).chars).getD [] ++
          call.formattedWith number .LETTER (s + 1) n rest
      else 37 :: c :: call.formattedWith number .LETTER s n rest

/-- The text of a format, with the numbers in their decimal form. -/
def formatted (call : PrintCall) : List UInt8 :=
  call.formattedWith (fun v => decimal v.toInt) .LETTER 0 0 call.format.chars

/-- There are arguments for the conversions. -/
def Enough (call : PrintCall) (state : FormatState) (rest : List UInt8) : Prop :=
  (0 < conversions 100 state rest → call.n ≠ none) ∧
    (0 < conversions 115 state rest → call.s ≠ none)

/-- The argument arrays are long enough for the format. -/
def LongEnough (call : PrintCall) : Prop := call.Enough .LETTER call.format.chars

/-- None of the numbers that are converted is the smallest one. -/
def NoSmallest (call : PrintCall) : Prop :=
  ∀ numbers, call.n = some numbers →
    ∀ k < conversions 100 .LETTER call.format.chars, numbers k ≠ Int32.minValue

/-- `printFF` ends and prints the text of its format. -/
def PrintsFormatted (call : PrintCall) : Prop :=
  ∃ fuel final, call.printFF fuel = some final ∧ final.output = call.formatted

/-- The condition on the format: on its rows of percent signs, and for the empty one on
the byte in front of it. -/
def Converts (format : CString) (around : Int → UInt8) : Prop :=
  runsConvert .outside format.chars ∧ (format.chars = [] → around (-1) ≠ 37)

/-- The last character is the one of the rest behind the first. -/
theorem trailing_cons (before c : UInt8) (rest : List UInt8) :
    trailing before (c :: rest) = trailing c rest := by
  rw [trailing, trailing, List.getLast?_cons, Option.getD_some]

/-! ## Formats that are understood -/

/-- The characters that `putNumber` prints. -/
def numberCode (v : Int32) : List UInt8 := (putNumber v).getD []

variable {call : PrintCall}

/-- A `%d` prints the next number. -/
theorem printed_number {numbers : Nat → Int32} (array : call.n = some numbers) (s n : Nat)
    (rest : List UInt8) :
    call.printed .FORMAT s n (100 :: rest) =
      (call.printed .LETTER s (n + 1) rest).map (numberCode (numbers n) ++ ·) := by
  simp [printed, convert, array, numberCode]

/-- A `%s` prints the next string. -/
theorem printed_string {strings : Nat → CString} (array : call.s = some strings) (s n : Nat)
    (rest : List UInt8) :
    call.printed .FORMAT s n (115 :: rest) =
      (call.printed .LETTER (s + 1) n rest).map ((strings s).chars ++ ·) := by
  simp [printed, convert, array]

/-- Any other character is lost. -/
theorem printed_other {c : UInt8} (notNumber : c ≠ 100) (notString : c ≠ 115) (s n : Nat)
    (rest : List UInt8) :
    call.printed .FORMAT s n (c :: rest) =
      (call.printed .FORMAT s n rest).map (37 :: ·) := by
  simp [printed, convert, notNumber, notString]

/-- The state of the loop in a row of percent signs. -/
def loopState : Percents → FormatState
  | .outside => .LETTER
  | .odd | .even => .FORMAT

/-- The state of the text there. -/
def textState : Percents → FormatState
  | .outside | .even => .LETTER
  | .odd => .FORMAT

/-- What the loop has still to print there. -/
def late : Percents → List UInt8
  | .outside | .odd => []
  | .even => [37]

/-- Arguments that are enough are enough for fewer conversions. -/
theorem Enough.of_conversions {state next : FormatState} {rest tail : List UInt8}
    (enough : call.Enough state rest)
    (fewer : ∀ kind, conversions kind next tail ≤ conversions kind state rest) :
    call.Enough next tail :=
  ⟨fun more => enough.1 (Nat.lt_of_lt_of_le more (fewer 100)),
    fun more => enough.2 (Nat.lt_of_lt_of_le more (fewer 115))⟩

/-- What the loop prints is what is described, if the format is understood. -/
theorem printed_formatted {percents : Percents} {rest : List UInt8}
    (converts : runsConvert percents rest) (enough : call.Enough (textState percents) rest)
    {before : UInt8} (row : before = 37 ↔ percents ≠ .outside) (s n : Nat) :
    ∃ out, call.printed (loopState percents) s n rest = some out ∧
      out ++ trailing before rest =
        late percents ++ call.formattedWith numberCode (textState percents) s n rest := by
  induction rest generalizing percents before s n with
  | nil =>
      cases percents <;> refine ⟨[], rfl, ?_⟩ <;>
        simp_all [trailing, late, formattedWith, textState]
  | cons c rest ih =>
      rw [trailing_cons]
      cases percents with
      | outside =>
          have tail : call.Enough (if c = 37 then .FORMAT else .LETTER) rest :=
            enough.of_conversions fun _ => Nat.le_refl _
          simp only [loopState, textState, printed, formattedWith, late, List.nil_append]
          by_cases percent : c = 37
          · rw [if_pos percent] at tail ⊢
            rw [if_pos percent, percent]
            rw [runsConvert, if_pos percent] at converts
            exact @ih .odd converts tail 37 (by decide) s n
          · rw [if_neg percent] at tail ⊢
            rw [if_neg percent]
            rw [runsConvert, if_neg percent] at converts
            obtain ⟨out, prints, same⟩ :=
              @ih .outside converts tail c (by simpa using percent) s n
            simp only [loopState] at prints
            exact ⟨c :: out, by rw [prints, Option.map_some],
              congrArg (c :: ·) same⟩
      | odd =>
          have tail : call.Enough .LETTER rest :=
            enough.of_conversions fun kind => Nat.le_add_left _ _
          simp only [loopState, textState, formattedWith, late, List.nil_append]
          rw [runsConvert] at converts
          by_cases percent : c = 37
          · subst percent
            rw [if_pos rfl] at converts
            obtain ⟨out, prints, same⟩ :=
              @ih .even converts tail 37 (by decide) s n
            simp only [loopState] at prints
            refine ⟨37 :: out, ?_, congrArg (37 :: ·) same⟩
            rw [printed_other (by decide) (by decide), prints, Option.map_some]
          · rw [if_neg percent, Bool.and_eq_true, Bool.or_eq_true, decide_eq_true_eq,
              decide_eq_true_eq] at converts
            obtain ⟨number | string, further⟩ := converts
            · subst number
              obtain ⟨numbers, array⟩ := Option.ne_none_iff_exists'.mp
                (enough.1 (Nat.lt_of_lt_of_le Nat.zero_lt_one (Nat.le_add_right _ _)))
              obtain ⟨out, prints, same⟩ :=
                @ih .outside further tail 100 (by decide) s (n + 1)
              simp only [loopState] at prints
              refine ⟨numberCode (numbers n) ++ out, ?_, ?_⟩
              · rw [printed_number array, prints, Option.map_some]
              · rw [if_pos rfl, array, Option.map_some, Option.getD_some, List.append_assoc, same]
                rfl
            · subst string
              obtain ⟨strings, array⟩ := Option.ne_none_iff_exists'.mp
                (enough.2 (Nat.lt_of_lt_of_le Nat.zero_lt_one (Nat.le_add_right _ _)))
              obtain ⟨out, prints, same⟩ :=
                @ih .outside further tail 115 (by decide) (s + 1) n
              simp only [loopState] at prints
              refine ⟨(strings s).chars ++ out, ?_, ?_⟩
              · rw [printed_string array, prints, Option.map_some]
              · rw [if_neg (by decide), if_pos rfl, array, Option.map_some, Option.getD_some,
                  List.append_assoc, same]
                rfl
      | even =>
          rw [runsConvert, Bool.and_eq_true, decide_eq_true_eq] at converts
          obtain ⟨rfl, further⟩ := converts
          have tail : call.Enough .FORMAT rest := enough.of_conversions fun _ => Nat.le_refl _
          obtain ⟨out, prints, same⟩ := @ih .odd further tail 37 (by decide) s n
          refine ⟨37 :: out, ?_, congrArg (37 :: ·) same⟩
          simp only [loopState] at prints ⊢
          rw [printed_other (by decide) (by decide), prints, Option.map_some]

/-! ## Numbers -/

/-- `putNumber` prints as many characters as the decimal has. -/
theorem numberCode_length (v : Int32) : (numberCode v).length = (decimal v.toInt).length := by
  by_cases smallest : v = Int32.minValue
  · have value : Int32.minValue.toInt = -2147483648 := rfl
    rw [smallest, numberCode, putNumber_minValue, value]
    simp [decimal, numeral]
  · rw [numberCode, putNumber_eq_decimal smallest, Option.getD_some]

/-- `putNumber` prints the decimal, but for the smallest number. -/
theorem numberCode_eq_iff (v : Int32) : numberCode v = decimal v.toInt ↔ v ≠ Int32.minValue := by
  constructor
  · rintro same rfl
    rw [numberCode, putNumber_minValue, Option.getD_some] at same
    apply minValue_not_decimal Int32.minValue.toInt
    rw [same]
    exact decimal_isDecimal _
  · intro notSmallest
    rw [numberCode, putNumber_eq_decimal notSmallest, Option.getD_some]

/-- Two ways of writing numbers with the same lengths give the same text if and only if
they agree on the numbers that are converted. -/
theorem formattedWith_eq_iff {first second : Int32 → List UInt8}
    (lengths : ∀ v, (first v).length = (second v).length) (state : FormatState) (s n : Nat)
    (rest : List UInt8) :
    call.formattedWith first state s n rest = call.formattedWith second state s n rest ↔
      ∀ numbers, call.n = some numbers → ∀ k < conversions 100 state rest,
        first (numbers (n + k)) = second (numbers (n + k)) := by
  induction rest generalizing state s n with
  | nil => cases state <;> simp [formattedWith, conversions]
  | cons c rest ih =>
      cases state with
      | LETTER =>
          rw [formattedWith, formattedWith, conversions]
          by_cases percent : c = 37
          · rw [if_pos percent, if_pos percent, if_pos percent]
            exact ih .FORMAT s n
          · rw [if_neg percent, if_neg percent, if_neg percent, List.cons.injEq,
              eq_self, true_and]
            exact ih .LETTER s n
      | FORMAT =>
          rw [formattedWith, formattedWith, conversions]
          by_cases number : c = 100
          · rw [if_pos number, if_pos number, if_pos number]
            cases array : call.n with
            | none =>
                have tail := ih .LETTER s (n + 1)
                simp only [array] at tail ⊢
                simpa using tail
            | some numbers =>
                have tail := ih .LETTER s (n + 1)
                simp only [array, Option.some.injEq, forall_eq', Option.map_some,
                  Option.getD_some] at tail ⊢
                have shifted : ∀ k, n + 1 + k = n + (k + 1) := fun k => by omega
                simp only [shifted] at tail
                constructor
                · intro same k less
                  obtain ⟨here, further⟩ := List.append_inj same (lengths _)
                  cases k with
                  | zero => exact here
                  | succ k => exact tail.mp further k (by omega)
                · intro all
                  have here : first (numbers n) = second (numbers n) := all 0 (by omega)
                  rw [here, tail.mpr fun k less => all (k + 1) (by omega)]
          · rw [if_neg number, if_neg number, if_neg number, Nat.zero_add]
            by_cases string : c = 115
            · rw [if_pos string, if_pos string, List.append_cancel_left_eq]
              exact ih .LETTER (s + 1) n
            · rw [if_neg string, if_neg string]
              simp only [List.cons.injEq, true_and]
              exact ih .LETTER s n

/-- A format that is understood is printed up to its numbers. -/
theorem printsFormatted_iff (converts : Converts call.format call.around)
    (enough : call.LongEnough) : call.PrintsFormatted ↔ call.NoSmallest := by
  obtain ⟨out, prints, same⟩ : ∃ out, call.printed .LETTER 0 0 call.format.chars = some out ∧
      out ++ trailing (call.around (-1)) call.format.chars =
        call.formattedWith numberCode .LETTER 0 0 call.format.chars := by
    rcases chars : call.format.chars with - | ⟨c, rest⟩
    · have before : call.around (-1) ≠ 37 := converts.2 chars
      exact ⟨[], rfl, by simp [trailing, before, formattedWith]⟩
    · -- the byte in front of the format does not count
      have runs := converts.1
      have arguments := enough
      unfold LongEnough at arguments
      rw [chars] at runs arguments
      rw [trailing_cons, ← trailing_cons 0]
      exact @printed_formatted _ .outside _ runs arguments _ (by decide) 0 0
  obtain ⟨final, ran, output, -⟩ := printFF_ends prints
  have numbers : call.formattedWith numberCode .LETTER 0 0 call.format.chars = call.formatted ↔
      call.NoSmallest := by
    rw [formatted, formattedWith_eq_iff numberCode_length]
    simp only [numberCode_eq_iff, Nat.zero_add]
    rfl
  rw [← numbers, ← same, ← output]
  constructor
  · rintro ⟨fuel, other, ranAgain, text⟩
    rw [printFF_unique ran ranAgain]
    exact text
  · intro text
    exact ⟨_, final, ran, text⟩

/-! ## Formats that are not understood -/

/-- Arguments whose conversions all begin with the character of a digit. -/
def probe (format : CString) (around : Int → UInt8) (one : Bool) : PrintCall where
  format := format
  around := around
  s := some fun _ => CString.ofBytes (if one then [49] else [48])
  n := some fun _ => if one then 1 else 0

/-- That character. -/
def probed (one : Bool) : UInt8 := if one then 49 else 48

variable {format : CString} {around : Int → UInt8}

/-- A `%d` prints one character of the probe. -/
theorem probe_number (one : Bool) (s n : Nat) (rest : List UInt8) :
    (probe format around one).printed .FORMAT s n (100 :: rest) =
      ((probe format around one).printed .LETTER s (n + 1) rest).map (probed one :: ·) := by
  have code : numberCode (if one then 1 else 0) = [probed one] := by cases one <;> decide
  rw [printed_number rfl, code]
  rfl

/-- A `%s` prints one character of the probe. -/
theorem probe_string (one : Bool) (s n : Nat) (rest : List UInt8) :
    (probe format around one).printed .FORMAT s n (115 :: rest) =
      ((probe format around one).printed .LETTER (s + 1) n rest).map (probed one :: ·) := by
  rw [printed_string rfl]
  cases one <;> rfl

/-- Waiting for a conversion, the loop prints one of two characters next, or none. -/
theorem probe_next (one : Bool) {s n : Nat} {before : UInt8} (notPercent : before ≠ 37)
    {rest out : List UInt8}
    (prints : (probe format around one).printed .FORMAT s n rest = some out) {c : UInt8}
    {tail : List UInt8} (next : out ++ trailing before rest = c :: tail) :
    c = 37 ∨ c = probed one := by
  cases rest with
  | nil =>
      cases prints
      simp [trailing, notPercent] at next
  | cons d rest =>
      by_cases number : d = 100
      · rw [number, probe_number] at prints
        obtain ⟨out, -, rfl⟩ := Option.map_eq_some_iff.mp prints
        exact .inr (List.cons.inj next).1.symm
      · by_cases string : d = 115
        · rw [string, probe_string] at prints
          obtain ⟨out, -, rfl⟩ := Option.map_eq_some_iff.mp prints
          exact .inr (List.cons.inj next).1.symm
        · rw [printed_other number string] at prints
          obtain ⟨out, -, rfl⟩ := Option.map_eq_some_iff.mp prints
          exact .inl (List.cons.inj next).1.symm

/-- With the probe every format prints something. -/
theorem probe_prints (one : Bool) (state : FormatState) (s n : Nat) (rest : List UInt8) :
    ∃ out, (probe format around one).printed state s n rest = some out := by
  have stuck := @printed_none_iff (probe format around one) s n rest
  have given : (probe format around one).s ≠ none := by simp [probe]
  apply Option.ne_none_iff_exists'.mp
  intro none
  cases state with
  | LETTER => exact given (stuck.1.mp none).1
  | FORMAT => exact given (stuck.2.mp none).1

/-- A character that was lost is not printed next for both arguments. -/
theorem probe_lost {c : UInt8} (percent : c ≠ 37) (s n : Nat) (rest : List UInt8)
    (texts : Bool → List UInt8)
    (same : ∀ one out, (probe format around one).printed .FORMAT s n rest = some out →
      out ++ trailing c rest = c :: texts one) : False := by
  have digit : ∀ one, c = probed one := by
    intro one
    obtain ⟨out, prints⟩ := @probe_prints format around one .FORMAT s n rest
    rcases probe_next one percent prints (same one out prints) with sign | digit
    · exact absurd sign percent
    · exact digit
  exact absurd ((digit true).symm.trans (digit false)) (by decide)

/-- The decimal of the probe's numbers is its character. -/
theorem decimal_probe (one : Bool) :
    decimal (if one then (1 : Int32) else 0).toInt = [probed one] := by
  have zero : (0 : Int32).toInt = 0 := rfl
  have unit : (1 : Int32).toInt = 1 := rfl
  cases one <;> simp [decimal, numeral, digitCode, probed, zero, unit]

/-- What the probes describe behind a conversion to a number. -/
theorem probe_formatted_number (one : Bool) (s n : Nat) (rest : List UInt8) :
    (probe format around one).formattedWith (fun v => decimal v.toInt) .FORMAT s n
        (100 :: rest) =
      probed one :: (probe format around one).formattedWith (fun v => decimal v.toInt) .LETTER
        s (n + 1) rest := by
  rw [formattedWith, if_pos rfl]
  simp only [probe, Option.map_some, Option.getD_some]
  rw [decimal_probe]
  rfl

/-- A `%s` of the formatted text is one character of the probe. -/
theorem probe_formatted_string (one : Bool) (s n : Nat) (rest : List UInt8) :
    (probe format around one).formattedWith (fun v => decimal v.toInt) .FORMAT s n
        (115 :: rest) =
      probed one :: (probe format around one).formattedWith (fun v => decimal v.toInt) .LETTER
        (s + 1) n rest := by
  rw [formattedWith, if_neg (by decide), if_pos rfl]
  cases one <;> rfl

/-- If both probes print what is described, the format is understood. -/
theorem runsConvert_of_probes {percents : Percents} {rest : List UInt8} {before : UInt8}
    (s n : Nat)
    (same : ∀ one out,
      (probe format around one).printed (loopState percents) s n rest = some out →
      out ++ trailing before rest = late percents ++
        (probe format around one).formattedWith (fun v => decimal v.toInt) (textState percents)
          s n rest) :
    runsConvert percents rest := by
  induction rest generalizing percents before s n with
  | nil => cases percents <;> rfl
  | cons c rest ih =>
      simp only [trailing_cons] at same
      cases percents with
      | outside =>
          simp only [loopState, textState, late, List.nil_append] at same
          rw [runsConvert]
          by_cases percent : c = 37
          · subst percent
            apply @ih .odd _ s n
            intro one out prints
            exact same one out prints
          · rw [if_neg percent]
            apply @ih .outside _ s n
            intro one out prints
            simp only [loopState] at prints
            have whole := same one (c :: out)
              (by rw [printed, if_neg percent, prints, Option.map_some])
            rw [formattedWith, if_neg percent] at whole
            exact (List.cons.inj whole).2
      | odd =>
          simp only [loopState, textState, late, List.nil_append] at same
          rw [runsConvert]
          by_cases percent : c = 37
          · subst percent
            apply @ih .even _ s n
            intro one out prints
            simp only [loopState] at prints
            have whole := same one (37 :: out)
              (by rw [printed_other (by decide) (by decide), prints, Option.map_some])
            exact (List.cons.inj whole).2
          · rw [if_neg percent]
            by_cases number : c = 100
            · subst number
              apply @ih .outside _ s (n + 1)
              intro one out prints
              simp only [loopState] at prints
              have whole := same one (probed one :: out)
                (by rw [probe_number, prints, Option.map_some])
              rw [probe_formatted_number] at whole
              exact (List.cons.inj whole).2
            · by_cases string : c = 115
              · subst string
                apply @ih .outside _ (s + 1) n
                intro one out prints
                simp only [loopState] at prints
                have whole := same one (probed one :: out)
                  (by rw [probe_string, prints, Option.map_some])
                rw [probe_formatted_string] at whole
                exact (List.cons.inj whole).2
              · refine (@probe_lost format around c percent s n rest
                  (fun one => (probe format around one).formattedWith
                    (fun v => decimal v.toInt) .LETTER s n rest) ?_).elim
                intro one out prints
                have whole := same one (37 :: out)
                  (by rw [printed_other number string, prints, Option.map_some])
                rw [formattedWith, if_neg number, if_neg string] at whole
                exact (List.cons.inj whole).2
      | even =>
          simp only [loopState, textState, late] at same
          rw [runsConvert]
          by_cases percent : c = 37
          · subst percent
            apply @ih .odd _ s n
            intro one out prints
            simp only [loopState] at prints
            have whole := same one (37 :: out)
              (by rw [printed_other (by decide) (by decide), prints, Option.map_some])
            exact (List.cons.inj whole).2
          · -- the loop owes a percent sign and prints something else, or loses the character
            have sign : ∀ one, probed one ≠ 37 := by decide
            by_cases number : c = 100
            · obtain ⟨out, prints⟩ := @probe_prints format around true .LETTER s (n + 1) rest
              have whole := same true (probed true :: out)
                (by rw [number, probe_number, prints, Option.map_some])
              exact absurd (List.cons.inj whole).1 (sign true)
            · by_cases string : c = 115
              · obtain ⟨out, prints⟩ := @probe_prints format around true .LETTER (s + 1) n rest
                have whole := same true (probed true :: out)
                  (by rw [string, probe_string, prints, Option.map_some])
                exact absurd (List.cons.inj whole).1 (sign true)
              · refine (@probe_lost format around c percent s n rest
                  (fun one => (probe format around one).formattedWith
                    (fun v => decimal v.toInt) .LETTER s n rest) ?_).elim
                intro one out prints
                have whole := same one (37 :: out)
                  (by rw [printed_other number string, prints, Option.map_some])
                rw [formattedWith, if_neg percent] at whole
                exact (List.cons.inj whole).2

/-- The text of a format is printed for all arguments, up to the smallest number, if and
only if the format is understood; and for an understood one it is printed if and only if
the smallest number is not converted. -/
theorem printFF_formatted (format : CString) (around : Int → UInt8) :
    ((∀ s n, LongEnough ⟨format, around, s, n⟩ → NoSmallest ⟨format, around, s, n⟩ →
        PrintsFormatted ⟨format, around, s, n⟩) ↔ Converts format around) ∧
      ∀ s n, LongEnough ⟨format, around, s, n⟩ → Converts format around →
        (PrintsFormatted ⟨format, around, s, n⟩ ↔ NoSmallest ⟨format, around, s, n⟩) := by
  have understood : ∀ s n, LongEnough ⟨format, around, s, n⟩ → Converts format around →
      (PrintsFormatted ⟨format, around, s, n⟩ ↔ NoSmallest ⟨format, around, s, n⟩) :=
    fun s n enough converts => printsFormatted_iff converts enough
  refine ⟨⟨fun prints => ?_, fun converts s n enough => (understood s n enough converts).mpr⟩,
    understood⟩
  have same : ∀ one out, (probe format around one).printed .LETTER 0 0 format.chars = some out →
      out ++ trailing (around (-1)) format.chars = (probe format around one).formatted := by
    intro one out printed
    obtain ⟨final, ran, output, -⟩ := printFF_ends printed
    have notSmallest : ∀ one : Bool, (if one then 1 else 0) ≠ Int32.minValue := by decide
    obtain ⟨fuel, other, ranAgain, text⟩ :=
      prints (probe format around one).s (probe format around one).n
        ⟨fun _ => by simp [probe], fun _ => by simp [probe]⟩
        (by
          intro numbers array k _
          obtain rfl := Option.some.inj array
          exact notSmallest one)
    rw [printFF_unique ranAgain ran] at text
    exact output.symm.trans text
  refine ⟨@runsConvert_of_probes format around .outside _ _ 0 0 same, fun empty percent => ?_⟩
  have nothing := same true [] (by rw [empty]; rfl)
  rw [formatted, probe] at nothing
  simp [empty, trailing, percent, formattedWith] at nothing

/-- An unknown conversion, without arguments. -/
def unknownConversion : PrintCall where
  format := CString.ofBytes [37, 120]
  around := fun _ => 0
  s := none
  n := none

/-- Its character is not printed. -/
theorem printFF_loses_character :
    unknownConversion.LongEnough ∧ unknownConversion.NoSmallest ∧
      (unknownConversion.printFF 3).map (fun final => final.output) = some [37] ∧
      unknownConversion.formatted = [37, 120] ∧ ¬ unknownConversion.PrintsFormatted := by
  have printed : (unknownConversion.printFF 3).map (fun final => final.output) = some [37] := by
    decide
  have text : unknownConversion.formatted = [37, 120] := by decide
  refine ⟨⟨fun more => absurd more (by decide), fun more => absurd more (by decide)⟩,
    fun numbers array => absurd array (by simp [unknownConversion]), printed, text, ?_⟩
  rintro ⟨fuel, other, ran, same⟩
  obtain ⟨final, ended, output⟩ := Option.map_eq_some_iff.mp printed
  rw [printFF_unique ran ended, text, output] at same
  exact absurd same (by decide)

end PrintCall

end SistemasOperativos.Kernel
