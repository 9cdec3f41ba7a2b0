import SistemasOperativos.Kernel.PrintFormat

/-!
# Formatted input

`scanFF` of stdio.c, one iteration of one of its loops at a time: the loop over the format,
the loop that reads characters for as long as they are those of the format, and the loop
that reads a line into a string. A conversion to a number is printed, as in `printFF`.

The loop over the format goes on from a percent sign at a conversion with an argument only;
at anything else it stays for ever (`scanFF_progress_iff`).

The characters are those that `getchar` returns, which passes over zeros. The strings are
separate buffers, whose bytes are in the state; where and what it read and wrote is recorded.
-/

namespace SistemasOperativos.Kernel

open SistemasOperativos.Foundation

/-- The characters that `getchar` returns, one after another. -/
structure Keys where
  char : Nat → UInt8
  nonzero : ∀ k, char k ≠ 0

/-- Some characters, and then newlines. -/
def Keys.ofList (typed : List UInt8) : Keys where
  char := fun k => if (typed[k]?).getD 10 = 0 then 10 else (typed[k]?).getD 10
  nonzero := fun k => by
    split
    · decide
    · assumption

/-- Where `scanFF` is: at the condition of its loop, in the loop on a character of the
format, in the loop on a line, or behind its end. -/
inductive ScanPoint where
  | format
  | letter
  | line
  | returned
  deriving DecidableEq, Repr

/-- The variables of `scanFF`, how many characters were read, the bytes of the buffers,
and what was done so far: the numbers that were printed, the offsets at which the format was
read and the cells of the buffers that were written. -/
structure ScanState where
  point : ScanPoint
  state : FormatState
  format : Int
  indexS : Nat
  n : Nat
  bufferindex : Int
  string : Int
  consumed : Nat
  buffers : Nat → Int → UInt8
  output : List UInt8
  reads : List Int
  stores : List (Nat × Int)

namespace ScanState

/-- The state at the call. `bufferindex` is not initialised. -/
def start (bufferindex : Int) (buffers : Nat → Int → UInt8) : ScanState where
  point := .format
  state := .LETTER
  format := 0
  indexS := 0
  n := 0
  bufferindex := bufferindex
  string := 0
  consumed := 0
  buffers := buffers
  output := []
  reads := []
  stores := []

/-- `*string = c`, in the buffer that was taken last. -/
def store (current : ScanState) (c : UInt8) : ScanState :=
  { current with
    buffers := Function.update current.buffers (current.indexS - 1)
      (Function.update (current.buffers (current.indexS - 1)) current.string c)
    stores := current.stores ++ [(current.indexS - 1, current.string)] }

/-- Read `*format`. -/
def read (current : ScanState) : ScanState :=
  { current with reads := current.reads ++ [current.format] }

/-- The end of the line. -/
def endLine (current : ScanState) : ScanState :=
  { current.store 0 with point := .format, state := .LETTER, format := current.format + 1 }

/-- The character `c` of a line: backspace (8), newline (10), or anything else. -/
def readLine (current : ScanState) (c : UInt8) : ScanState :=
  if c = 10 then current.endLine
  else if c = 8 then
    if current.bufferindex ≠ 0 then
      { current with string := current.string - 1, bufferindex := current.bufferindex - 1 }
    else current
  else if current.bufferindex = 100 then current.endLine
  else
    { current.store c with
      string := current.string + 1, bufferindex := current.bufferindex + 1 }

/-- The value that `scanFF` returns. -/
def result (current : ScanState) : Nat := if current.bufferindex = 100 then 1 else 0

end ScanState

namespace PrintCall

/-- One iteration of a loop of `scanFF`. Of the argument `s` counts whether it is NULL. -/
def scanStep (call : PrintCall) (keys : Keys) (current : ScanState) : ScanState :=
  let c := call.format.byte call.around current.format
  let key := keys.char current.consumed
  match current.point with
  | .format =>
      let read := current.read
      if c = 0 then { read with point := .returned }
      else
        match current.state with
        | .LETTER =>
            if c = 37 then { read with state := .FORMAT, format := current.format + 1 }
            else { read with point := .letter }
        | .FORMAT =>
            if c = 100 ∧ call.n ≠ none then
              { read with
                state := .LETTER
                format := current.format + 1
                n := current.n + 1
                output := current.output ++
                  (call.n.bind fun numbers => putNumber (numbers current.n)).getD [] }
            else if c = 115 ∧ call.s ≠ none then
              { read with
                point := .line, indexS := current.indexS + 1, string := 0, bufferindex := 0 }
            else read
  | .letter =>
      let read := current.read
      if key = c then { read with consumed := current.consumed + 1 }
      else
        { read with
          consumed := current.consumed + 1, point := .format, format := current.format + 1 }
  | .line => { current with consumed := current.consumed + 1 }.readLine key
  | .returned => current

/-- The state after some iterations. -/
def scan (call : PrintCall) (keys : Keys) (current : ScanState) (steps : Nat) : ScanState :=
  (call.scanStep keys)^[steps] current

/-- A character of the input was read, or the format was advanced. -/
def Progress (before after : ScanState) : Prop :=
  before.consumed < after.consumed ∨ before.format < after.format

/-- From every state of the run on there is progress again, or the end, and the format was
read up to its terminator only. -/
def ScansOn (call : PrintCall) (keys : Keys) (start : ScanState) : Prop :=
  ∀ steps,
    (∃ more, (call.scan keys start (steps + more)).point = .returned ∨
      Progress (call.scan keys start steps) (call.scan keys start (steps + more))) ∧
    ∀ offset ∈ (call.scan keys start steps).reads, call.format.Inside offset

/-- A conversion has its argument. -/
def HasArgument (call : PrintCall) (c : UInt8) : Prop :=
  c = 100 ∧ call.n ≠ none ∨ c = 115 ∧ call.s ≠ none

/-- Behind every percent sign stands a conversion with its argument, or the end of the
format. -/
def Understood (call : PrintCall) : FormatState → List UInt8 → Prop
  | _, [] => True
  | .LETTER, c :: rest => call.Understood (if c = 37 then .FORMAT else .LETTER) rest
  | .FORMAT, c :: rest => call.HasArgument c ∧ call.Understood .LETTER rest

variable {call : PrintCall} {keys : Keys}

/-! ## One iteration -/

section Step

variable {current : ScanState}

/-- At the terminator of the format `scanFF` returns. -/
theorem scanStep_end (here : current.point = .format)
    (terminator : call.format.byte call.around current.format = 0) :
    call.scanStep keys current = { current.read with point := .returned } := by
  simp only [scanStep, here, terminator, if_true]

/-- A percent sign starts a conversion. -/
theorem scanStep_percent (here : current.point = .format) (state : current.state = .LETTER)
    (percent : call.format.byte call.around current.format = 37) :
    call.scanStep keys current =
      { current.read with state := .FORMAT, format := current.format + 1 } := by
  simp only [scanStep, here, percent, state]
  rfl

/-- Another character of the format waits for a key. -/
theorem scanStep_literal (here : current.point = .format) (state : current.state = .LETTER)
    (character : call.format.byte call.around current.format ≠ 0)
    (percent : call.format.byte call.around current.format ≠ 37) :
    call.scanStep keys current = { current.read with point := .letter } := by
  simp only [scanStep, here, state, if_neg character, if_neg percent]

/-- `%d` prints the next number and goes on behind it. -/
theorem scanStep_number (here : current.point = .format) (state : current.state = .FORMAT)
    (number : call.format.byte call.around current.format = 100 ∧ call.n ≠ none) :
    call.scanStep keys current =
      { current.read with
        state := .LETTER
        format := current.format + 1
        n := current.n + 1
        output := current.output ++
          (call.n.bind fun numbers => putNumber (numbers current.n)).getD [] } := by
  have character : call.format.byte call.around current.format ≠ 0 := by
    rw [number.1]
    decide
  simp only [scanStep, here, state, if_neg character, if_pos number]

/-- `%s` waits for a line. -/
theorem scanStep_string (here : current.point = .format) (state : current.state = .FORMAT)
    (string : call.format.byte call.around current.format = 115 ∧ call.s ≠ none) :
    call.scanStep keys current =
      { current.read with
        point := .line, indexS := current.indexS + 1, string := 0, bufferindex := 0 } := by
  have character : call.format.byte call.around current.format ≠ 0 := by
    rw [string.1]
    decide
  have number : ¬ (call.format.byte call.around current.format = 100 ∧ call.n ≠ none) := by
    rw [string.1]
    exact fun both => absurd both.1 (by decide)
  simp only [scanStep, here, state, if_neg character, if_neg number, if_pos string]

/-- Without an argument for it, a conversion changes nothing. -/
theorem scanStep_unknown (here : current.point = .format) (state : current.state = .FORMAT)
    (character : call.format.byte call.around current.format ≠ 0)
    (unknown : ¬ call.HasArgument (call.format.byte call.around current.format)) :
    call.scanStep keys current = current.read := by
  rw [HasArgument, not_or] at unknown
  simp only [scanStep, here, state, if_neg character, if_neg unknown.1, if_neg unknown.2]

/-- A key that differs from the format is skipped with the character of the format. -/
theorem scanStep_differs (here : current.point = .letter)
    (differs : keys.char current.consumed ≠ call.format.byte call.around current.format) :
    call.scanStep keys current =
      { current.read with
        consumed := current.consumed + 1, point := .format, format := current.format + 1 } := by
  simp only [scanStep, here, if_neg differs]

/-- Inside a line every key is read. -/
theorem scanStep_line (here : current.point = .line) :
    call.scanStep keys current =
      { current with consumed := current.consumed + 1 }.readLine
        (keys.char current.consumed) := by
  simp only [scanStep, here]

end Step

/-! ## Formats that are understood -/

/-- What is ahead of the loop that is running. -/
def Ahead (call : PrintCall) (current : ScanState) (rest : List UInt8) : Prop :=
  match current.point with
  | .format => call.Understood current.state rest
  | .letter => current.state = .LETTER ∧ ∃ c back, rest = c :: back ∧ call.Understood .LETTER back
  | .line => ∃ c back, rest = c :: back ∧ call.Understood .LETTER back
  | .returned => True

/-- The format is understood from where it is read, and was read up to there. -/
structure Scanning (call : PrintCall) (current : ScanState) (front rest : List UInt8) :
    Prop where
  format : call.format.chars = front ++ rest
  position : current.format = front.length
  reads : ∀ offset ∈ current.reads, call.format.Inside offset
  ahead : call.Ahead current rest

namespace Scanning

variable {current : ScanState} {front rest : List UInt8} {c : UInt8}

/-- The format stands at the place it is read from. -/
theorem stands (scanning : call.Scanning current front rest) :
    call.format.At current.format front rest :=
  ⟨scanning.format, scanning.position⟩

/-- A step reads the format inside its text and terminator. -/
theorem inside (scanning : call.Scanning current front rest) :
    ∀ offset ∈ current.read.reads, call.format.Inside offset := by
  intro offset member
  rcases List.mem_append.mp member with earlier | now
  · exact scanning.reads offset earlier
  · exact List.mem_singleton.mp now ▸ scanning.stands.inside

/-- The loop over the format: it ends, goes on, or begins one of the other loops. -/
theorem step_format (scanning : call.Scanning current front rest)
    (here : current.point = .format) :
    (∃ front rest, call.Scanning (call.scanStep keys current) front rest) ∧
      ((call.scanStep keys current).point = .returned ∨
        Progress current (call.scanStep keys current) ∨
        ((call.scanStep keys current).point = .letter ∨
          (call.scanStep keys current).point = .line) ∧
          (call.scanStep keys current).consumed = current.consumed) := by
  have ahead := scanning.ahead
  simp only [Ahead, here] at ahead
  cases rest with
  | nil =>
      have terminator : call.format.byte call.around current.format = 0 :=
        scanning.stands.terminator
      rw [scanStep_end here terminator]
      exact ⟨⟨front, [], scanning.format, scanning.position, scanning.inside, trivial⟩, .inl rfl⟩
  | cons c rest =>
      have character : call.format.byte call.around current.format = c :=
        scanning.stands.byte_eq
      have notEnd := scanning.stands.ne_zero
      cases state : current.state with
      | LETTER =>
          rw [state, Understood] at ahead
          by_cases percent : c = 37
          · rw [if_pos percent] at ahead
            rw [scanStep_percent here state (by rw [character, percent])]
            have next := scanning.stands.next
            refine ⟨⟨front ++ [c], rest, next.chars, next.position, scanning.inside, ?_⟩,
              .inr (.inl (.inr ?_))⟩
            · simp only [Ahead, ScanState.read, here]
              exact ahead
            · dsimp only
              omega
          · rw [if_neg percent] at ahead
            rw [scanStep_literal here state (by rwa [character]) (by rwa [character])]
            exact ⟨⟨front, c :: rest, scanning.format, scanning.position, scanning.inside,
              state, c, rest, rfl, ahead⟩, .inr (.inr ⟨.inl rfl, rfl⟩)⟩
      | FORMAT =>
          rw [state, Understood] at ahead
          obtain ⟨argument, further⟩ := ahead
          by_cases number : c = 100 ∧ call.n ≠ none
          · rw [scanStep_number here state (by rwa [character])]
            have next := scanning.stands.next
            refine ⟨⟨front ++ [c], rest, next.chars, next.position, scanning.inside, ?_⟩,
              .inr (.inl (.inr ?_))⟩
            · simp only [Ahead, ScanState.read, here]
              exact further
            · dsimp only
              omega
          · have string : c = 115 ∧ call.s ≠ none := argument.resolve_left number
            rw [scanStep_string here state (by rwa [character])]
            exact ⟨⟨front, c :: rest, scanning.format, scanning.position, scanning.inside,
              c, rest, rfl, further⟩, .inr (.inr ⟨.inr rfl, rfl⟩)⟩

/-- The loop on a character of the format reads one more character. -/
theorem step_letter (scanning : call.Scanning current front rest)
    (here : current.point = .letter) :
    (∃ front rest, call.Scanning (call.scanStep keys current) front rest) ∧
      (call.scanStep keys current).consumed = current.consumed + 1 := by
  have ahead := scanning.ahead
  simp only [Ahead, here] at ahead
  obtain ⟨state, c, back, rfl, further⟩ := ahead
  have character : call.format.byte call.around current.format = c := scanning.stands.byte_eq
  by_cases same : keys.char current.consumed = c
  · have next : call.scanStep keys current =
        { current.read with consumed := current.consumed + 1 } := by
      simp only [scanStep, here, character, if_pos same]
    rw [next]
    refine ⟨⟨front, c :: back, scanning.format, scanning.position, scanning.inside, ?_⟩, rfl⟩
    simp only [Ahead, ScanState.read, here]
    exact ⟨state, c, back, rfl, further⟩
  · rw [scanStep_differs here (by rwa [character])]
    refine ⟨⟨front ++ [c], back, scanning.stands.next.chars, scanning.stands.next.position,
      scanning.inside, ?_⟩, rfl⟩
    simp only [Ahead, ScanState.read, state]
    exact further

/-- So does the loop on a line. -/
theorem step_line (scanning : call.Scanning current front rest)
    (here : current.point = .line) :
    (∃ front rest, call.Scanning (call.scanStep keys current) front rest) ∧
      (call.scanStep keys current).consumed = current.consumed + 1 := by
  have ahead := scanning.ahead
  simp only [Ahead, here] at ahead
  obtain ⟨c, back, rfl, further⟩ := ahead
  rw [scanStep_line here]
  generalize keys.char current.consumed = key
  have ended : (∃ front rest, call.Scanning
      { current with consumed := current.consumed + 1 }.endLine front rest) :=
    ⟨front ++ [c], back, scanning.stands.next.chars, scanning.stands.next.position,
      scanning.reads, further⟩
  have stays : ∀ after : ScanState, after.point = .line → after.format = current.format →
      after.reads = current.reads → ∃ front rest, call.Scanning after front rest := by
    intro after line format reads
    refine ⟨front, c :: back, scanning.format, by rw [format, scanning.position], ?_, ?_⟩
    · rw [reads]
      exact scanning.reads
    · simp only [Ahead, line]
      exact ⟨c, back, rfl, further⟩
  unfold ScanState.readLine
  split
  · exact ⟨ended, rfl⟩
  · split
    · split
      · exact ⟨stays _ here rfl rfl, rfl⟩
      · exact ⟨stays _ here rfl rfl, rfl⟩
    · split
      · exact ⟨ended, rfl⟩
      · exact ⟨stays _ here rfl rfl, rfl⟩

/-- A step stays inside the format. -/
theorem step (scanning : call.Scanning current front rest) :
    ∃ front rest, call.Scanning (call.scanStep keys current) front rest := by
  cases here : current.point with
  | format => exact (scanning.step_format here).1
  | letter => exact (scanning.step_letter here).1
  | line => exact (scanning.step_line here).1
  | returned =>
      refine ⟨front, rest, ?_⟩
      simp only [scanStep, here]
      exact scanning

/-- So do all steps of a run. -/
theorem steps (scanning : call.Scanning current front rest) (keys : Keys) (count : Nat) :
    ∃ front rest, call.Scanning (call.scan keys current count) front rest := by
  induction count with
  | zero => exact ⟨front, rest, scanning⟩
  | succ count ih =>
      obtain ⟨front, rest, before⟩ := ih
      rw [scan, Function.iterate_succ_apply']
      exact before.step

/-- There is progress within two iterations. -/
theorem progress (scanning : call.Scanning current front rest) (keys : Keys) :
    ∃ more, (call.scan keys current more).point = .returned ∨
      Progress current (call.scan keys current more) := by
  have reads : ∀ {state : ScanState} {front rest : List UInt8},
      call.Scanning state front rest → state.point = .letter ∨ state.point = .line →
      (call.scanStep keys state).consumed = state.consumed + 1 := by
    intro state front rest scans point
    rcases point with letter | line
    · exact (scans.step_letter letter).2
    · exact (scans.step_line line).2
  cases here : current.point with
  | format =>
      obtain ⟨⟨front, rest, next⟩, ended | moved | ⟨inner, same⟩⟩ := scanning.step_format here
      · exact ⟨1, .inl ended⟩
      · exact ⟨1, .inr moved⟩
      · refine ⟨2, .inr (.inl ?_)⟩
        have consumed := reads next inner
        rw [same] at consumed
        exact Nat.lt_of_lt_of_eq (Nat.lt_succ_self _) consumed.symm
  | letter => exact ⟨1, .inr (.inl (Nat.lt_of_lt_of_eq (Nat.lt_succ_self _)
      (reads scanning (.inl here)).symm))⟩
  | line => exact ⟨1, .inr (.inl (Nat.lt_of_lt_of_eq (Nat.lt_succ_self _)
      (reads scanning (.inr here)).symm))⟩
  | returned => exact ⟨0, .inl here⟩

end Scanning

/-- Steps followed by more steps. -/
theorem scan_add (current : ScanState) (steps more : Nat) :
    call.scan keys current (steps + more) = call.scan keys (call.scan keys current steps) more := by
  rw [scan, Nat.add_comm, Function.iterate_add_apply]
  rfl

/-- A format that is understood is read from its beginning. -/
theorem start_scanning (understood : call.Understood .LETTER call.format.chars)
    (bufferindex : Int) (buffers : Nat → Int → UInt8) :
    call.Scanning (.start bufferindex buffers) [] call.format.chars :=
  ⟨rfl, rfl, fun _ none => absurd none List.not_mem_nil, understood⟩

/-- `scanFF` gets on with a format that is understood. -/
theorem scansOn_of_understood (understood : call.Understood .LETTER call.format.chars)
    (bufferindex : Int) (buffers : Nat → Int → UInt8) :
    call.ScansOn keys (.start bufferindex buffers) := by
  intro steps
  obtain ⟨front, rest, scanning⟩ :=
    (start_scanning understood bufferindex buffers).steps keys steps
  refine ⟨?_, scanning.reads⟩
  obtain ⟨more, progress⟩ := scanning.progress keys
  exact ⟨more, by rw [scan_add]; exact progress⟩

/-! ## Formats that are not -/

/-- The loop stands at a conversion without an argument. -/
structure Stuck (call : PrintCall) (current : ScanState) : Prop where
  point : current.point = .format
  state : current.state = .FORMAT
  character : call.format.byte call.around current.format ≠ 0
  unknown : ¬ call.HasArgument (call.format.byte call.around current.format)

/-- There it stays. -/
theorem Stuck.stays {current : ScanState} (stuck : call.Stuck current) (keys : Keys)
    (more : Nat) :
    call.Stuck (call.scan keys current more) ∧
      (call.scan keys current more).consumed = current.consumed ∧
      (call.scan keys current more).format = current.format := by
  induction more with
  | zero => exact ⟨stuck, rfl, rfl⟩
  | succ more ih =>
      obtain ⟨here, consumed, format⟩ := ih
      rw [scan, Function.iterate_succ_apply']
      rw [← scan, scanStep_unknown here.point here.state here.character here.unknown]
      exact ⟨⟨here.point, here.state, here.character, here.unknown⟩, consumed, format⟩

/-- A run that comes to it does not come on. -/
theorem Stuck.not_scansOn {start : ScanState} {keys : Keys} {steps : Nat}
    (stuck : call.Stuck (call.scan keys start steps)) : ¬ call.ScansOn keys start := by
  intro scansOn
  obtain ⟨more, ended | progress⟩ := (scansOn steps).1
  · rw [scan_add, (stuck.stays keys more).1.point] at ended
    cases ended
  · obtain ⟨-, consumed, format⟩ := stuck.stays keys more
    rw [scan_add] at progress
    rcases progress with read | advanced
    · omega
    · omega

/-- The input from a character on. -/
def Types (keys : Keys) (first : Nat) (typed : List UInt8) : Prop :=
  ∀ k c, typed[k]? = some c → keys.char (first + k) = c

/-- The characters of a list are typed in order. -/
theorem types_ofList {typed : List UInt8} (nonzero : ∀ c ∈ typed, c ≠ 0) :
    Types (Keys.ofList typed) 0 typed := by
  intro k c read
  have char : (typed[0 + k]?).getD 10 = c := by rw [Nat.zero_add, read, Option.getD_some]
  simp only [Keys.ofList, char]
  exact if_neg (nonzero c (List.mem_of_getElem? read))

/-- The first character is typed first, and the others behind it. -/
theorem Types.tail {first : Nat} {c : UInt8} {typed : List UInt8}
    (types : Types keys first (c :: typed)) :
    keys.char first = c ∧ Types keys (first + 1) typed := by
  refine ⟨types 0 c rfl, fun k d member => ?_⟩
  rw [Nat.add_assoc, Nat.add_comm 1 k]
  exact types (k + 1) d member

/-- A format that is not understood is read up to such a conversion, for some input. -/
theorem reaches_stuck {rest front : List UInt8} {current : ScanState}
    (stands : call.format.At current.format front rest) (here : current.point = .format)
    (bad : ¬ call.Understood current.state rest) :
    ∃ typed : List UInt8, (∀ c ∈ typed, c ≠ 0) ∧
      ∀ keys, Types keys current.consumed typed →
        ∃ steps, call.Stuck (call.scan keys current steps) := by
  induction rest generalizing front current with
  | nil => cases state : current.state <;> rw [state] at bad <;> exact absurd trivial bad
  | cons c rest ih =>
      have character : call.format.byte call.around current.format = c := stands.byte_eq
      have notEnd := stands.ne_zero
      cases state : current.state with
      | LETTER =>
          rw [state, Understood] at bad
          by_cases percent : c = 37
          · rw [if_pos percent] at bad
            obtain ⟨typed, nonzero, reaches⟩ := @ih (front ++ [c])
              { current.read with state := .FORMAT, format := current.format + 1 }
              stands.next here bad
            refine ⟨typed, nonzero, fun keys types => ?_⟩
            obtain ⟨steps, stuck⟩ := reaches keys types
            refine ⟨steps + 1, ?_⟩
            rw [scan, Function.iterate_succ_apply,
              scanStep_percent here state (by rw [character, percent])]
            exact stuck
          · rw [if_neg percent] at bad
            obtain ⟨typed, nonzero, reaches⟩ := @ih (front ++ [c])
              { ({ current.read with point := .letter } : ScanState).read with
                consumed := current.consumed + 1, point := .format,
                format := current.format + 1 }
              stands.next rfl (by dsimp only [ScanState.read]; rwa [state])
            -- a key that is not the character ends the loop on it
            obtain ⟨key, keyNonzero, differs⟩ : ∃ key : UInt8, key ≠ 0 ∧ key ≠ c := by
              by_cases newline : c = 10
              · exact ⟨11, by decide, by rw [newline]; decide⟩
              · exact ⟨10, by decide, Ne.symm newline⟩
            refine ⟨key :: typed, ?_, fun keys types => ?_⟩
            · intro d member
              rcases List.mem_cons.mp member with rfl | later
              · exact keyNonzero
              · exact nonzero d later
            · obtain ⟨first, further⟩ := types.tail
              obtain ⟨steps, stuck⟩ := reaches keys further
              refine ⟨steps + 2, ?_⟩
              rw [scan, Function.iterate_succ_apply, Function.iterate_succ_apply,
                scanStep_literal here state (by rwa [character]) (by rwa [character]),
                scanStep_differs rfl (by
                  dsimp only [ScanState.read]
                  rwa [first, character])]
              exact stuck
      | FORMAT =>
          rw [state, Understood] at bad
          by_cases argument : call.HasArgument c
          · have tail : ¬ call.Understood .LETTER rest := fun good => bad ⟨argument, good⟩
            by_cases number : c = 100 ∧ call.n ≠ none
            · obtain ⟨typed, nonzero, reaches⟩ := @ih (front ++ [c])
                { current.read with
                  state := .LETTER
                  format := current.format + 1
                  n := current.n + 1
                  output := current.output ++
                    (call.n.bind fun numbers => putNumber (numbers current.n)).getD [] }
                stands.next here tail
              refine ⟨typed, nonzero, fun keys types => ?_⟩
              obtain ⟨steps, stuck⟩ := reaches keys types
              refine ⟨steps + 1, ?_⟩
              rw [scan, Function.iterate_succ_apply,
                scanStep_number here state (by rwa [character])]
              exact stuck
            · have string : c = 115 ∧ call.s ≠ none := argument.resolve_left number
              -- an empty line
              obtain ⟨typed, nonzero, reaches⟩ := @ih (front ++ [c])
                ({ current.read with
                  point := .line, indexS := current.indexS + 1, string := 0, bufferindex := 0,
                  consumed := current.consumed + 1 } : ScanState).endLine
                stands.next rfl tail
              refine ⟨10 :: typed, ?_, fun keys types => ?_⟩
              · intro d member
                rcases List.mem_cons.mp member with rfl | later
                · decide
                · exact nonzero d later
              · obtain ⟨first, further⟩ := types.tail
                obtain ⟨steps, stuck⟩ := reaches keys further
                refine ⟨steps + 2, ?_⟩
                rw [scan, Function.iterate_succ_apply, Function.iterate_succ_apply,
                  scanStep_string here state (by rwa [character]), scanStep_line rfl]
                dsimp only [ScanState.read]
                rw [first, ScanState.readLine, if_pos rfl]
                exact stuck
          · refine ⟨[], fun _ none => absurd none List.not_mem_nil, fun keys _ => ⟨0, ?_⟩⟩
            exact ⟨here, state, by rwa [scan, Function.iterate_zero, id, character],
              by rwa [scan, Function.iterate_zero, id, character]⟩

/-- `scanFF` always comes on, whatever is typed, if and only if its format is understood. -/
theorem scanFF_progress_iff (call : PrintCall) :
    (∀ keys bufferindex buffers, call.ScansOn keys (.start bufferindex buffers)) ↔
      call.Understood .LETTER call.format.chars := by
  constructor
  · intro scansOn
    by_contra bad
    obtain ⟨typed, nonzero, reaches⟩ := @reaches_stuck call call.format.chars []
      (.start 0 fun _ _ => 0) ⟨rfl, rfl⟩ rfl bad
    obtain ⟨steps, stuck⟩ := reaches (Keys.ofList typed) (types_ofList nonzero)
    exact stuck.not_scansOn (scansOn _ 0 fun _ _ => 0)
  · intro understood keys bufferindex buffers
    exact scansOn_of_understood understood bufferindex buffers

/-- When `printFF` ends and `scanFF` comes on, and both read their format up to its
terminator only. -/
theorem formats_end_iff (call : PrintCall) :
    ((∃ fuel final, call.printFF fuel = some final ∧
        ∀ offset ∈ final.reads, call.format.Inside offset) ↔
      call.format.chars ≠ [] ∧ ¬ (call.s = none ∧ call.WaitsSomewhere call.format.chars)) ∧
    ((∀ keys bufferindex buffers, call.ScansOn keys (.start bufferindex buffers)) ↔
      call.Understood .LETTER call.format.chars) :=
  ⟨printFF_ends_iff call, scanFF_progress_iff call⟩

/-- Without arguments: the format of a string is printed for ever, of the empty format the
byte in front of it is read, and an unknown conversion is scanned for ever. -/
theorem formats_do_not_end :
    (∀ fuel, printFF ⟨CString.ofBytes [37, 115], fun _ => 0, none, none⟩ fuel = none) ∧
    (printFF ⟨CString.ofBytes [], fun _ => 0, none, none⟩ 1).map (fun final => final.reads) =
      some [0, -1] ∧
    ¬ ScansOn ⟨CString.ofBytes [37, 120], fun _ => 0, none, none⟩ (Keys.ofList [])
      (.start 0 fun _ _ => 0) := by
  refine ⟨printFF_stuck rfl, by decide, ?_⟩
  have stuck : Stuck ⟨CString.ofBytes [37, 120], fun _ => 0, none, none⟩
      (scan ⟨CString.ofBytes [37, 120], fun _ => 0, none, none⟩ (Keys.ofList [])
        (.start 0 fun _ _ => 0) 1) :=
    ⟨rfl, rfl, by decide, by simp [HasArgument]⟩
  exact stuck.not_scansOn

end PrintCall

end SistemasOperativos.Kernel
