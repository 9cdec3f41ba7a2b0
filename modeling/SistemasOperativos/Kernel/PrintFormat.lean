import SistemasOperativos.Foundation.CString
import SistemasOperativos.Kernel.PutNumber

/-!
# Formatted output

`printFF` of stdio.c. The loop reads one character of the format at a time and is in one of
two states; `printed` is its output by recursion over the format, and `none` where the loop
does not come on. It does not at a conversion to a string without an argument
(`printed_none_iff`), and behind its end it reads the character in front of the pointer,
also for the empty format (`printFF_ends_iff`).

The format, the strings and the array of numbers are in memory; `none` is NULL.
-/

namespace SistemasOperativos.Kernel

open SistemasOperativos.Foundation

/-- `LETTER` and `FORMAT`. -/
inductive FormatState where
  | LETTER
  | FORMAT
  deriving DecidableEq, Repr

/-- The arguments of `printFF`, and the memory around the format. -/
structure PrintCall where
  format : CString
  around : Int → UInt8
  s : Option (Nat → CString)
  n : Option (Nat → Int32)

/-- The variables of the loop: how far the three pointers were moved, the characters that
were printed, and the offsets at which the format was read. -/
structure PrintState where
  state : FormatState
  format : Int
  s : Nat
  n : Nat
  output : List UInt8
  reads : List Int

namespace PrintCall

/-- The output of a conversion with an argument, and the arguments that are used then. -/
def convert (call : PrintCall) (c : UInt8) (s n : Nat) : Option (List UInt8 × Nat × Nat) :=
  if c = 100 then call.n.map fun numbers => ((putNumber (numbers n)).getD [], s, n + 1)
  else if c = 115 then call.s.map fun strings => ((strings s).chars, s + 1, n)
  else none

/-- One iteration of the loop. -/
def step (call : PrintCall) (current : PrintState) : PrintState :=
  let c := call.format.byte call.around current.format
  match current.state with
  | .LETTER =>
      if c = 37 then { current with state := .FORMAT, format := current.format + 1 }
      else { current with output := current.output ++ [c], format := current.format + 1 }
  | .FORMAT =>
      match call.convert c current.s current.n with
      | some (text, s, n) =>
          { current with
            state := .LETTER, format := current.format + 1, s, n,
            output := current.output ++ text }
      | none =>
          -- for a string without an argument neither branch is taken
          if c = 115 then current
          else { current with output := current.output ++ [37], format := current.format + 1 }

/-- The loop, with at most `fuel` tests of its condition. -/
def loop (call : PrintCall) : Nat → PrintState → Option PrintState
  | 0, _ => none
  | fuel + 1, current =>
      let current := { current with reads := current.reads ++ [current.format] }
      if call.format.byte call.around current.format = 0 then some current
      else loop call fuel (call.step current)

/-- `printFF`; `none` when the loop has not ended after `fuel` tests. -/
def printFF (call : PrintCall) (fuel : Nat) : Option PrintState :=
  (call.loop fuel ⟨.LETTER, 0, 0, 0, [], []⟩).map fun ended =>
    let ended := { ended with reads := ended.reads ++ [ended.format - 1] }
    if call.format.byte call.around (ended.format - 1) = 37 then
      { ended with output := ended.output ++ [37] }
    else ended

/-- What the loop prints for the rest of the format, or `none` if it does not end. -/
def printed (call : PrintCall) : FormatState → Nat → Nat → List UInt8 → Option (List UInt8)
  | _, _, _, [] => some []
  | .LETTER, s, n, c :: rest =>
      if c = 37 then call.printed .FORMAT s n rest
      else (call.printed .LETTER s n rest).map (c :: ·)
  | .FORMAT, s, n, c :: rest =>
      match call.convert c s n with
      | some (text, s, n) => (call.printed .LETTER s n rest).map (text ++ ·)
      | none => if c = 115 then none else (call.printed .FORMAT s n rest).map (37 :: ·)

/-- The last test prints the percent sign at the end of the format. -/
def trailing (before : UInt8) (rest : List UInt8) : List UInt8 :=
  if rest.getLast?.getD before = 37 then [37] else []

/-! ## The loop and its output -/

variable {call : PrintCall}

theorem loop_succ (fuel : Nat) (current : PrintState) :
    call.loop (fuel + 1) current =
      if call.format.byte call.around current.format = 0 then
        some { current with reads := current.reads ++ [current.format] }
      else
        call.loop fuel
          (call.step { current with reads := current.reads ++ [current.format] }) := rfl

/-- The loop has one result. -/
theorem loop_unique {fuel more : Nat} {current first second : PrintState}
    (ended : call.loop fuel current = some first)
    (endedAgain : call.loop more current = some second) : first = second := by
  induction fuel generalizing more current with
  | zero => cases ended
  | succ fuel ih =>
      cases more with
      | zero => cases endedAgain
      | succ more =>
          rw [loop_succ] at ended endedAgain
          split at ended
          · rename_i terminator
            rw [if_pos terminator] at endedAgain
            rw [← Option.some.inj ended, ← Option.some.inj endedAgain]
          · rename_i character
            rw [if_neg character] at endedAgain
            exact ih ended endedAgain

/-- The loop stands behind a part of the format and has read the offsets up to there. -/
structure Behind (call : PrintCall) (current : PrintState) (front rest : List UInt8) : Prop where
  format : call.format.chars = front ++ rest
  position : current.format = front.length
  reads : ∀ offset ∈ current.reads, call.format.Inside offset

namespace Behind

variable {current : PrintState} {front rest : List UInt8} {c : UInt8}

/-- The format stands at the place it is read from. -/
theorem stands (behind : call.Behind current front rest) :
    call.format.At current.format front rest :=
  ⟨behind.format, behind.position⟩

/-- The test of the condition reads one more character. -/
theorem read (behind : call.Behind current front rest) :
    call.Behind { current with reads := current.reads ++ [current.format] } front rest := by
  refine ⟨behind.format, behind.position, fun offset member => ?_⟩
  rcases List.mem_append.mp member with earlier | now
  · exact behind.reads offset earlier
  · exact List.mem_singleton.mp now ▸ behind.stands.inside

/-- The next character. -/
theorem next (behind : call.Behind current front (c :: rest)) (state : FormatState)
    (s n : Nat) (output : List UInt8) :
    call.Behind ⟨state, current.format + 1, s, n, output, current.reads⟩ (front ++ [c]) rest :=
  ⟨behind.stands.next.chars, behind.stands.next.position, behind.reads⟩

end Behind

/-- An iteration changes nothing, or it goes on to the next character with what it
printed. -/
theorem step_cases {current : PrintState} {front rest : List UInt8} {c : UInt8}
    (behind : call.Behind current front (c :: rest)) :
    (call.step current = current ∧
      call.printed current.state current.s current.n (c :: rest) = none) ∨
    ∃ text, call.Behind (call.step current) (front ++ [c]) rest ∧
      (call.step current).output = current.output ++ text ∧
      call.printed current.state current.s current.n (c :: rest) =
        (call.printed (call.step current).state (call.step current).s (call.step current).n
          rest).map (text ++ ·) := by
  have here : call.format.byte call.around current.format = c := behind.stands.byte_eq
  cases current with
  | mk state format s n output reads =>
      cases state with
      | LETTER =>
          right
          simp only [step, here, printed]
          by_cases percent : c = 37
          · rw [if_pos percent, if_pos percent]
            refine ⟨[], behind.next _ _ _ _, (List.append_nil _).symm, ?_⟩
            simp only [List.nil_append, Option.map_id']
          · rw [if_neg percent, if_neg percent]
            exact ⟨[c], behind.next _ _ _ _, rfl, rfl⟩
      | FORMAT =>
          simp only [step, here, printed]
          cases call.convert c s n with
          | some conversion => exact .inr ⟨conversion.1, behind.next _ _ _ _, rfl, rfl⟩
          | none =>
              dsimp only
              by_cases string : c = 115
              · rw [if_pos string, if_pos string]
                exact .inl ⟨rfl, rfl⟩
              · rw [if_neg string, if_neg string]
                exact .inr ⟨[37], behind.next _ _ _ _, rfl, rfl⟩

/-- Where `printed` has an output, the loop ends with it at the end of the format. -/
theorem loop_ends {current : PrintState} {front rest out : List UInt8}
    (behind : call.Behind current front rest)
    (prints : call.printed current.state current.s current.n rest = some out) :
    ∃ final, call.loop (rest.length + 1) current = some final ∧
      final.output = current.output ++ out ∧
      call.Behind final call.format.chars [] := by
  induction rest generalizing current front out with
  | nil =>
      have whole : call.format.chars = front := by rw [behind.format, List.append_nil]
      have terminator : call.format.byte call.around current.format = 0 :=
        behind.stands.terminator
      have silent : out = [] := by
        cases state : current.state <;> rw [state] at prints <;>
          exact (Option.some.inj prints).symm
      refine ⟨_, by rw [loop_succ, if_pos terminator], ?_, ?_⟩
      · rw [silent, List.append_nil]
      · rw [whole]
        exact behind.read
  | cons c rest ih =>
      have character : call.format.byte call.around current.format ≠ 0 := by
        rw [behind.stands.byte_eq]
        exact behind.stands.ne_zero
      rcases step_cases behind.read with ⟨-, stuck⟩ | ⟨text, after, output, goes⟩
      · rw [stuck] at prints
        cases prints
      · rw [goes] at prints
        obtain ⟨tail, further, rfl⟩ := Option.map_eq_some_iff.mp prints
        obtain ⟨final, ran, written, ending⟩ := ih after further
        refine ⟨final, ?_, ?_, ending⟩
        · rw [List.length_cons, loop_succ, if_neg character]
          exact ran
        · rw [written, output, List.append_assoc]

/-- Where it has none, the loop does not end. -/
theorem loop_stuck {current : PrintState} {front rest : List UInt8}
    (behind : call.Behind current front rest)
    (stuck : call.printed current.state current.s current.n rest = none) (fuel : Nat) :
    call.loop fuel current = none := by
  induction fuel generalizing current front rest with
  | zero => rfl
  | succ fuel ih =>
      cases rest with
      | nil => cases state : current.state <;> rw [state] at stuck <;> cases stuck
      | cons c rest =>
          have character : call.format.byte call.around current.format ≠ 0 := by
            rw [behind.stands.byte_eq]
            exact behind.stands.ne_zero
          rw [loop_succ, if_neg character]
          rcases step_cases behind.read with ⟨same, -⟩ | ⟨text, after, -, goes⟩
          · rw [same]
            exact ih behind.read stuck
          · rw [goes] at stuck
            exact ih after (Option.map_eq_none_iff.mp stuck)

/-- At the start nothing has been read. -/
theorem start_behind (call : PrintCall) :
    call.Behind ⟨.LETTER, 0, 0, 0, [], []⟩ [] call.format.chars :=
  ⟨rfl, rfl, fun _ none => absurd none List.not_mem_nil⟩

/-- The byte in front of the terminator. -/
theorem byte_last (call : PrintCall) :
    call.format.byte call.around (call.format.chars.length - 1) =
      call.format.chars.getLast?.getD (call.around (-1)) := by
  rcases List.eq_nil_or_concat call.format.chars with empty | ⟨front, c, whole⟩
  · rw [empty, CString.byte, if_pos (by rw [List.length_nil]; omega)]
    rfl
  · rw [List.concat_eq_append] at whole
    have length : ((call.format.chars.length : Int) - 1) = front.length := by
      rw [whole, List.length_append, List.length_singleton]
      omega
    rw [length, CString.byte_append whole, whole, List.getLast?_concat, Option.getD_some]

/-- What `printFF` prints, and what of the format it reads. -/
theorem printFF_ends {out : List UInt8}
    (prints : call.printed .LETTER 0 0 call.format.chars = some out) :
    ∃ final, call.printFF (call.format.chars.length + 1) = some final ∧
      final.output = out ++ trailing (call.around (-1)) call.format.chars ∧
      ((∀ offset ∈ final.reads, call.format.Inside offset) ↔ call.format.chars ≠ []) := by
  obtain ⟨ended, ran, output, behind⟩ := loop_ends call.start_behind prints
  have position := behind.position
  refine ⟨_, by rw [printFF, ran, Option.map_some], ?_, ?_⟩
  · dsimp only
    rw [position, byte_last, trailing]
    split
    · rw [output]
      rfl
    · rw [output, List.append_nil]
      rfl
  · have reads : ∀ test : Prop, ∀ _ : Decidable test,
        (if test then
          { ended with
            reads := ended.reads ++ [ended.format - 1], output := ended.output ++ [37] }
        else { ended with reads := ended.reads ++ [ended.format - 1] }).reads =
          ended.reads ++ [ended.format - 1] := by
      intro test _
      split <;> rfl
    rw [reads, position]
    constructor
    · intro inside empty
      have first := inside _ (List.mem_append_right _ List.mem_cons_self)
      rw [empty, CString.Inside, List.length_nil] at first
      omega
    · intro nonempty offset member
      rcases List.mem_append.mp member with earlier | last
      · exact behind.reads offset earlier
      · have positive := List.length_pos_iff.mpr nonempty
        rw [List.mem_singleton.mp last, CString.Inside]
        omega

/-- Where nothing is printed, `printFF` does not end. -/
theorem printFF_stuck (stuck : call.printed .LETTER 0 0 call.format.chars = none) (fuel : Nat) :
    call.printFF fuel = none := by
  rw [printFF, loop_stuck call.start_behind stuck fuel, Option.map_none]

/-- More fuel gives the same result. -/
theorem printFF_unique {fuel more : Nat} {first second : PrintState}
    (ended : call.printFF fuel = some first) (endedAgain : call.printFF more = some second) :
    first = second := by
  obtain ⟨current, ran, rfl⟩ := Option.map_eq_some_iff.mp ended
  obtain ⟨again, ranAgain, rfl⟩ := Option.map_eq_some_iff.mp endedAgain
  rw [loop_unique ran ranAgain]

/-! ## Where the loop does not end -/

/-- A percent sign is followed by an s, with no conversion to a number in between. -/
def Waits (call : PrintCall) (rest : List UInt8) : Prop :=
  ∃ middle back, rest = middle ++ 115 :: back ∧ (call.n ≠ none → 100 ∉ middle)

/-- Some percent sign is. -/
def WaitsSomewhere (call : PrintCall) (rest : List UInt8) : Prop :=
  ∃ front back, rest = front ++ 37 :: back ∧ call.Waits back

theorem waits_cons {c : UInt8} {rest : List UInt8} (other : c ≠ 115)
    (converted : ¬ (c = 100 ∧ call.n ≠ none)) : call.Waits (c :: rest) ↔ call.Waits rest := by
  constructor
  · rintro ⟨middle, back, whole, free⟩
    cases middle with
    | nil => exact absurd (List.cons.inj whole).1 other
    | cons d middle =>
        exact ⟨middle, back, (List.cons.inj whole).2,
          fun given member => free given (List.mem_cons_of_mem _ member)⟩
  · rintro ⟨middle, back, rfl, free⟩
    refine ⟨c :: middle, back, rfl, fun given member => ?_⟩
    rcases List.mem_cons.mp member with number | later
    · exact converted ⟨number.symm, given⟩
    · exact free given later

/-- A number does not wait if there are numbers. -/
theorem not_waits_number {rest : List UInt8} (given : call.n ≠ none) :
    ¬ call.Waits (100 :: rest) := by
  rintro ⟨middle, back, whole, free⟩
  cases middle with
  | nil => exact absurd (List.cons.inj whole).1 (by decide)
  | cons d middle =>
      rw [← (List.cons.inj whole).1] at free
      exact free given List.mem_cons_self

theorem waitsSomewhere_cons {c : UInt8} {rest : List UInt8} :
    call.WaitsSomewhere (c :: rest) ↔ c = 37 ∧ call.Waits rest ∨ call.WaitsSomewhere rest := by
  constructor
  · rintro ⟨front, back, whole, waits⟩
    cases front with
    | nil =>
        obtain ⟨percent, rfl⟩ := List.cons.inj whole
        exact .inl ⟨percent, waits⟩
    | cons d front => exact .inr ⟨front, back, (List.cons.inj whole).2, waits⟩
  · rintro (⟨rfl, waits⟩ | ⟨front, back, rfl, waits⟩)
    · exact ⟨[], rest, rfl, waits⟩
    · exact ⟨c :: front, back, rfl, waits⟩

/-- The loop waits for ever at a string without an argument. -/
theorem printed_none_iff (s n : Nat) (rest : List UInt8) :
    (call.printed .LETTER s n rest = none ↔ call.s = none ∧ call.WaitsSomewhere rest) ∧
    (call.printed .FORMAT s n rest = none ↔
      call.s = none ∧ (call.Waits rest ∨ call.WaitsSomewhere rest)) := by
  induction rest generalizing s n with
  | nil =>
      constructor <;> simp [printed, Waits, WaitsSomewhere]
  | cons c rest ih =>
      constructor
      · rw [waitsSomewhere_cons, printed]
        by_cases percent : c = 37
        · rw [if_pos percent, (ih s n).2]
          simp only [percent, true_and]
        · rw [if_neg percent, Option.map_eq_none_iff, (ih s n).1]
          simp only [percent, false_and, false_or]
      · rw [waitsSomewhere_cons]
        by_cases converted : c = 100 ∧ call.n ≠ none
        · obtain ⟨rfl, given⟩ := converted
          obtain ⟨numbers, array⟩ := Option.ne_none_iff_exists'.mp given
          have conversion : call.convert 100 s n =
              some ((putNumber (numbers n)).getD [], s, n + 1) := by
            rw [convert, if_pos rfl, array, Option.map_some]
          simp only [printed, conversion]
          rw [Option.map_eq_none_iff, (ih s (n + 1)).1]
          simp [not_waits_number given]
        · by_cases string : c = 115
          · subst string
            cases array : call.s with
            | none =>
                have waits : call.Waits (115 :: rest) := ⟨[], rest, rfl, fun _ => List.not_mem_nil⟩
                simp [printed, convert, array, waits]
            | some strings => simp [printed, convert, array, (ih (s + 1) n).1]
          · have literal : call.convert c s n = none := by
              unfold convert
              split
              · rename_i number
                rw [not_and, not_not] at converted
                rw [converted number, Option.map_none]
              · rfl
            simp only [printed, literal, if_neg string]
            rw [Option.map_eq_none_iff, (ih s n).2, waits_cons string converted]
            tauto

/-- `printFF` ends, having read the format up to its terminator only, if and only if the
format is not empty and no string is waited for in vain. -/
theorem printFF_ends_iff (call : PrintCall) :
    (∃ fuel final, call.printFF fuel = some final ∧
        ∀ offset ∈ final.reads, call.format.Inside offset) ↔
      call.format.chars ≠ [] ∧ ¬ (call.s = none ∧ call.WaitsSomewhere call.format.chars) := by
  rw [← (printed_none_iff 0 0 call.format.chars).1]
  cases prints : call.printed .LETTER 0 0 call.format.chars with
  | none =>
      simp [printFF_stuck prints]
  | some out =>
      obtain ⟨final, ran, -, inside⟩ := printFF_ends prints
      rw [← inside]
      constructor
      · rintro ⟨fuel, other, ranAgain, reads⟩
        rw [printFF_unique ran ranAgain]
        exact ⟨reads, by simp⟩
      · rintro ⟨reads, -⟩
        exact ⟨_, final, ran, reads⟩

end PrintCall

end SistemasOperativos.Kernel
