import SistemasOperativos.Kernel.ScanFormat

/-!
# A typed line

`scanFF` with the format of one string, as the shell and the editor call it; their copies
of stdio.c are the same here. What is typed is edited by its backspaces, and the line ends
at a newline or at the character behind the hundredth. The result is 1 when the counter is
100 at the end, so also for lines of exactly this length, and a line that was too long at
some time stays cut where it was. The buffer of the editor has 30 bytes, which nothing
tests for. `scanFF_line_iff` says for which lines this makes no difference.
-/

namespace SistemasOperativos.Userland

open SistemasOperativos.Foundation SistemasOperativos.Kernel SistemasOperativos.Kernel.PrintCall

/-- The line with one more key. -/
def editKey (kept : List UInt8) (c : UInt8) : List UInt8 :=
  if c = 8 then kept.dropLast else kept ++ [c]

/-- The line after some keys: every backspace takes back the character before it. -/
def edited (kept keys : List UInt8) : List UInt8 := keys.foldl editKey kept

/-- The bytes of a buffer from its start on are those of a text and its terminator. -/
def HoldsString (memory : Int → UInt8) (text : List UInt8) : Prop :=
  (∀ (k : Nat) c, text[k]? = some c → memory k = c) ∧ memory text.length = 0

/-- The call for one line. -/
def lineCall (around : Int → UInt8) (strings : Nat → CString) (n : Option (Nat → Int32)) :
    PrintCall where
  format := CString.ofBytes [37, 115]
  around := around
  s := some strings
  n := n

/-- `scanFF` returned with the edited line, cut at 100 characters, in a buffer of `cap`
bytes, and says whether it was cut. -/
structure LineScanned (cap : Nat) (typed : List UInt8) (final : ScanState) : Prop where
  returned : final.point = .returned
  text : HoldsString (final.buffers 0) ((edited [] typed).take 100)
  result : final.result = if 100 < (edited [] typed).length then 1 else 0
  stores : ∀ cell ∈ final.stores, 0 ≤ cell.2 ∧ cell.2 < cap

/-- The condition on what is typed: the line fits into the buffer at all times, with its
terminator at the end, and it is never longer than 100 characters and not as long at the
end; or it becomes longer, is longer at the end, and has then the same 100 characters as
when it first was. -/
def GoesWell (cap : Nat) (typed : List UInt8) : Prop :=
  (∀ n, min (edited [] (typed.take n)).length 100 ≤ cap) ∧
    ((∀ n, (edited [] (typed.take n)).length ≤ 100) ∧
        (edited [] typed).length ≠ 100 ∧ (edited [] typed).length < cap ∨
      (∃ n, 100 < (edited [] (typed.take n)).length ∧
        (∀ m < n, (edited [] (typed.take m)).length ≤ 100) ∧
        (edited [] typed).take 100 = (edited [] (typed.take n)).take 100) ∧
        100 < (edited [] typed).length ∧ 100 < cap)

/-! ## The loop on the keys -/

/-- The characters in the buffer when the loop ends. -/
def lineLoop : List UInt8 → List UInt8 → List UInt8
  | kept, [] => kept
  | kept, c :: keys =>
      if c = 8 then lineLoop kept.dropLast keys
      else if kept.length = 100 then kept
      else lineLoop (kept ++ [c]) keys

/-- The loop writes into the first `cap` bytes only. -/
def Fits (cap : Nat) : List UInt8 → List UInt8 → Prop
  | kept, [] => kept.length < cap
  | kept, c :: keys =>
      if c = 8 then Fits cap kept.dropLast keys
      else if kept.length = 100 then kept.length < cap
      else kept.length < cap ∧ Fits cap (kept ++ [c]) keys

@[simp] theorem edited_nil (kept : List UInt8) : edited kept [] = kept := rfl

theorem edited_cons (kept : List UInt8) (c : UInt8) (keys : List UInt8) :
    edited kept (c :: keys) = edited (if c = 8 then kept.dropLast else kept ++ [c]) keys := rfl

/-- A line that is never too long is stored as it is. -/
theorem lineLoop_eq {kept keys : List UInt8}
    (short : ∀ n, (edited kept (keys.take n)).length ≤ 100) :
    lineLoop kept keys = edited kept keys := by
  induction keys generalizing kept with
  | nil => rfl
  | cons c keys ih =>
      have shorter : ∀ n, (edited (if c = 8 then kept.dropLast else kept ++ [c])
          (keys.take n)).length ≤ 100 := fun n => by
        rw [← edited_cons, ← List.take_succ_cons]
        exact short (n + 1)
      rw [lineLoop, edited_cons]
      by_cases backspace : c = 8
      · rw [if_pos backspace] at shorter ⊢
        rw [if_pos backspace]
        exact ih shorter
      · rw [if_neg backspace] at shorter ⊢
        have room := shorter 0
        rw [List.take_zero, edited_nil, List.length_append, List.length_singleton] at room
        rw [if_neg backspace, if_neg (by omega)]
        exact ih shorter

/-- Otherwise it is cut where it is first too long. -/
theorem lineLoop_exceeds {kept keys : List UInt8} {n : Nat} (within : kept.length ≤ 100)
    (exceeds : 100 < (edited kept (keys.take n)).length)
    (first : ∀ m < n, (edited kept (keys.take m)).length ≤ 100) :
    lineLoop kept keys = (edited kept (keys.take n)).take 100 := by
  induction keys generalizing kept n with
  | nil =>
      rw [List.take_nil, edited_nil] at exceeds
      omega
  | cons c keys ih =>
      cases n with
      | zero =>
          rw [List.take_zero, edited_nil] at exceeds
          omega
      | succ n =>
          have firstTail : ∀ m < n, (edited (if c = 8 then kept.dropLast else kept ++ [c])
              (keys.take m)).length ≤ 100 := fun m less => by
            rw [← edited_cons, ← List.take_succ_cons]
            exact first (m + 1) (by omega)
          rw [List.take_succ_cons, edited_cons] at exceeds ⊢
          rw [lineLoop]
          by_cases backspace : c = 8
          · rw [if_pos backspace] at exceeds firstTail ⊢
            rw [if_pos backspace]
            exact ih (by rw [List.length_dropLast]; omega) exceeds firstTail
          · rw [if_neg backspace] at exceeds firstTail ⊢
            rw [if_neg backspace]
            by_cases full : kept.length = 100
            · rw [if_pos full]
              cases n with
              | zero =>
                  rw [List.take_zero, edited_nil, List.take_append_of_le_length (by omega),
                    List.take_of_length_le (by omega)]
              | succ n =>
                  have long := firstTail 0 (Nat.zero_lt_succ n)
                  rw [List.take_zero, edited_nil, List.length_append,
                    List.length_singleton] at long
                  omega
            · rw [if_neg full]
              refine ih ?_ exceeds firstTail
              rw [List.length_append, List.length_singleton]
              omega

/-- The line fits at all times, and with its terminator at the end. -/
theorem fits_iff {cap : Nat} {kept keys : List UInt8} (within : kept.length ≤ 100)
    (room : kept.length ≤ cap) :
    Fits cap kept keys ↔
      (∀ n, min (edited kept (keys.take n)).length 100 ≤ cap) ∧
        (lineLoop kept keys).length < cap := by
  induction keys generalizing kept with
  | nil =>
      simp only [Fits, lineLoop, List.take_nil, edited_nil]
      constructor
      · intro less
        exact ⟨fun _ => by omega, less⟩
      · exact And.right
  | cons c keys ih =>
      have split : (∀ n, min (edited kept ((c :: keys).take n)).length 100 ≤ cap) ↔
          ∀ n, min (edited (if c = 8 then kept.dropLast else kept ++ [c])
            (keys.take n)).length 100 ≤ cap := by
        constructor
        · intro all n
          have later := all (n + 1)
          rwa [List.take_succ_cons, edited_cons] at later
        · intro all n
          cases n with
          | zero =>
              rw [List.take_zero, edited_nil]
              omega
          | succ n =>
              rw [List.take_succ_cons, edited_cons]
              exact all n
      rw [split, Fits, lineLoop]
      by_cases backspace : c = 8
      · rw [if_pos backspace, if_pos backspace, if_pos backspace]
        have shorter : kept.dropLast.length ≤ kept.length := by
          rw [List.length_dropLast]
          omega
        exact ih (by omega) (by omega)
      · rw [if_neg backspace, if_neg backspace, if_neg backspace]
        have longer : (kept ++ [c]).length = kept.length + 1 := by
          rw [List.length_append, List.length_singleton]
        by_cases full : kept.length = 100
        · rw [if_pos full, if_pos full]
          constructor
          · intro less
            exact ⟨fun _ => by omega, less⟩
          · exact And.right
        · rw [if_neg full, if_neg full]
          constructor
          · rintro ⟨less, fits⟩
            exact (ih (by omega) (by omega)).mp fits
          · rintro ⟨all, last⟩
            have here := all 0
            rw [List.take_zero, edited_nil] at here
            exact ⟨by omega, (ih (by omega) (by omega)).mpr ⟨all, last⟩⟩

/-- When the loop stores the edited line, says rightly that it was cut, and stays inside
the buffer. -/
theorem goesWell_iff (cap : Nat) (typed : List UInt8) :
    lineLoop [] typed = (edited [] typed).take 100 ∧
        ((lineLoop [] typed).length = 100 ↔ 100 < (edited [] typed).length) ∧
        Fits cap [] typed ↔
      GoesWell cap typed := by
  rw [fits_iff (by decide) (Nat.zero_le _), GoesWell]
  by_cases short : ∀ n, (edited [] (typed.take n)).length ≤ 100
  · have whole := short typed.length
    rw [List.take_length] at whole
    rw [lineLoop_eq short, List.take_of_length_le whole]
    constructor
    · rintro ⟨-, counter, room, last⟩
      exact ⟨room, .inl ⟨short, by omega, last⟩⟩
    · rintro ⟨room, ⟨-, notFull, last⟩ | ⟨-, long, -⟩⟩
      · exact ⟨rfl, by omega, room, last⟩
      · omega
  · push Not at short
    have exceeds := Nat.find_spec short
    have first : ∀ m < Nat.find short, (edited [] (typed.take m)).length ≤ 100 :=
      fun m less => Nat.le_of_not_lt (Nat.find_min short less)
    have cut := lineLoop_exceeds (by decide) exceeds first
    have length : (lineLoop [] typed).length = 100 := by
      rw [cut, List.length_take]
      omega
    constructor
    · rintro ⟨same, counter, room, last⟩
      refine ⟨room, .inr ⟨⟨Nat.find short, exceeds, first, ?_⟩, counter.mp length, by omega⟩⟩
      rw [← same, cut]
    · rintro ⟨room, ⟨never, -, -⟩ | ⟨⟨n, exceedsHere, firstHere, same⟩, long, inside⟩⟩
      · have now := never (Nat.find short)
        omega
      · refine ⟨?_, ⟨fun _ => long, fun _ => length⟩, room, by omega⟩
        rw [same]
        exact lineLoop_exceeds (by decide) exceedsHere firstHere

/-! ## The run -/

/-- `scanFF` is in the loop on the line, with some characters in the buffer. -/
structure Typing (current : ScanState) (kept : List UInt8) : Prop where
  point : current.point = .line
  format : current.format = 1
  buffer : current.indexS = 1
  bufferindex : current.bufferindex = kept.length
  string : current.string = kept.length
  holds : ∀ (k : Nat) c, kept[k]? = some c → current.buffers 0 k = c

/-- The writes are inside a buffer of `cap` bytes. -/
def InsideBuffer (cap : Nat) (current : ScanState) : Prop :=
  ∀ cell ∈ current.stores, 0 ≤ cell.2 ∧ cell.2 < cap

theorem insideBuffer_store {cap : Nat} {current : ScanState} {length : Nat}
    (string : current.string = length) (c : UInt8) :
    InsideBuffer cap (current.store c) ↔ InsideBuffer cap current ∧ length < cap := by
  simp only [InsideBuffer, ScanState.store, List.mem_append, List.mem_singleton]
  constructor
  · intro inside
    have last := inside _ (.inr rfl)
    dsimp only at last
    exact ⟨fun cell member => inside cell (.inl member), by omega⟩
  · rintro ⟨inside, less⟩ cell (member | rfl)
    · exact inside cell member
    · dsimp only
      omega

variable {around : Int → UInt8} {strings : Nat → CString} {n : Option (Nat → Int32)}
  {keys : Keys}

/-- A character behind the others in the buffer. -/
theorem Typing.store_holds {current : ScanState} {kept : List UInt8}
    (typing : Typing current kept) (c : UInt8) :
    (∀ (k : Nat) d, kept[k]? = some d → (current.store c).buffers 0 k = d) ∧
      (current.store c).buffers 0 kept.length = c := by
  have buffers : (current.store c).buffers 0 =
      Function.update (current.buffers 0) kept.length c := by
    simp only [ScanState.store, typing.buffer, typing.string, Nat.sub_self,
      Function.update_self]
  rw [buffers]
  refine ⟨fun k d read => ?_, Function.update_self _ _ _⟩
  have inside := (List.getElem?_eq_some_iff.mp read).1
  rw [Function.update_of_ne (by omega)]
  exact typing.holds k d read

/-- A backspace takes the last character from the buffer, if there is one. -/
theorem Typing.erase {current : ScanState} {kept : List UInt8} (typing : Typing current kept)
    (some : kept ≠ []) :
    Typing
      { current with
        consumed := current.consumed + 1, string := current.string - 1,
        bufferindex := current.bufferindex - 1 } kept.dropLast := by
  have positive := List.length_pos_iff.mpr some
  have bufferindex := typing.bufferindex
  have string := typing.string
  refine ⟨typing.point, typing.format, typing.buffer, ?_, ?_, fun k d read => ?_⟩
  · rw [List.length_dropLast]
    dsimp only
    omega
  · rw [List.length_dropLast]
    dsimp only
    omega
  · apply typing.holds
    rw [List.getElem?_dropLast] at read
    split at read
    · exact read
    · cases read

/-- Another key is a character behind the others. -/
theorem Typing.extend {current : ScanState} {kept : List UInt8} (typing : Typing current kept)
    (c : UInt8) :
    Typing
      { ({ current with consumed := current.consumed + 1 } : ScanState).store c with
        string := current.string + 1, bufferindex := current.bufferindex + 1 }
      (kept ++ [c]) := by
  obtain ⟨before, here⟩ := typing.store_holds c
  have longer : (kept ++ [c]).length = kept.length + 1 := by
    rw [List.length_append, List.length_singleton]
  have bufferindex := typing.bufferindex
  have string := typing.string
  refine ⟨typing.point, typing.format, typing.buffer, ?_, ?_, fun k d read => ?_⟩
  · dsimp only
    omega
  · dsimp only
    omega
  · rcases Nat.lt_or_ge k kept.length with earlier | last
    · exact before k d (by rwa [List.getElem?_append_left earlier] at read)
    · have bound := (List.getElem?_eq_some_iff.mp read).1
      obtain rfl : k = kept.length := by omega
      rw [List.getElem?_concat_length] at read
      exact here.trans (Option.some.inj read)

/-- The end of a line is the end of the format. -/
theorem line_ends {current : ScanState} {kept : List UInt8} (typing : Typing current kept)
    (cap : Nat)
    (ends : (lineCall around strings n).scanStep keys current =
      { current with consumed := current.consumed + 1 }.endLine) :
    ∃ steps, ((lineCall around strings n).scan keys current steps).point = .returned ∧
      HoldsString (((lineCall around strings n).scan keys current steps).buffers 0) kept ∧
      ((lineCall around strings n).scan keys current steps).bufferindex = kept.length ∧
      (InsideBuffer cap ((lineCall around strings n).scan keys current steps) ↔
        InsideBuffer cap current ∧ kept.length < cap) := by
  let ended : ScanState := ({ current with consumed := current.consumed + 1 } : ScanState).endLine
  have position : ended.format = 2 := by
    change current.format + 1 = 2
    rw [typing.format]
    rfl
  have terminator : (lineCall around strings n).format.byte around ended.format = 0 := by
    rw [position]
    exact @CString.byte_length (CString.ofBytes [37, 115]) around
  refine ⟨2, ?_⟩
  rw [scan, Function.iterate_succ_apply, Function.iterate_succ_apply, ends,
    Function.iterate_zero, id, scanStep_end rfl terminator]
  exact ⟨rfl, typing.store_holds 0, typing.bufferindex, insideBuffer_store typing.string 0⟩

/-- The loop on the line does what `lineLoop` does with the keys up to the newline. -/
theorem line_scanned {typed kept : List UInt8} {current : ScanState}
    (typing : Typing current kept) (types : Types keys current.consumed (typed ++ [10]))
    (oneLine : 10 ∉ typed) (cap : Nat) :
    ∃ steps, ((lineCall around strings n).scan keys current steps).point = .returned ∧
      HoldsString (((lineCall around strings n).scan keys current steps).buffers 0)
        (lineLoop kept typed) ∧
      ((lineCall around strings n).scan keys current steps).bufferindex =
        (lineLoop kept typed).length ∧
      (InsideBuffer cap ((lineCall around strings n).scan keys current steps) ↔
        InsideBuffer cap current ∧ Fits cap kept typed) := by
  induction typed generalizing current kept with
  | nil =>
      apply line_ends typing cap
      rw [scanStep_line typing.point, (types.tail).1, ScanState.readLine, if_pos rfl]
  | cons c typed ih =>
      obtain ⟨key, further⟩ := types.tail
      rw [List.mem_cons, not_or] at oneLine
      obtain ⟨notNewline, oneLine⟩ := oneLine
      have step := @scanStep_line (lineCall around strings n) keys current typing.point
      rw [key, ScanState.readLine, if_neg (Ne.symm notNewline)] at step
      -- what the next state is for, if the line goes on from it
      have goesOn : ∀ (next : ScanState) (kept : List UInt8),
          (lineCall around strings n).scanStep keys current = next → Typing next kept →
          next.consumed = current.consumed + 1 →
          ∃ steps, ((lineCall around strings n).scan keys current steps).point = .returned ∧
            HoldsString (((lineCall around strings n).scan keys current steps).buffers 0)
              (lineLoop kept typed) ∧
            ((lineCall around strings n).scan keys current steps).bufferindex =
              (lineLoop kept typed).length ∧
            (InsideBuffer cap ((lineCall around strings n).scan keys current steps) ↔
              InsideBuffer cap next ∧ Fits cap kept typed) := by
        intro next kept stepped typing consumed
        obtain ⟨steps, ran⟩ := ih typing (by rwa [consumed]) oneLine
        refine ⟨steps + 1, ?_⟩
        have shifted : (lineCall around strings n).scan keys current (steps + 1) =
            (lineCall around strings n).scan keys next steps := by
          rw [scan, Function.iterate_succ_apply, stepped]
          rfl
        rw [shifted]
        exact ran
      rw [lineLoop, Fits]
      by_cases backspace : c = 8
      · rw [if_pos backspace] at step
        rw [if_pos backspace, if_pos backspace]
        by_cases empty : kept = []
        · subst empty
          have zero : ¬ current.bufferindex ≠ 0 := by
            rw [typing.bufferindex]
            decide
          rw [if_neg zero] at step
          exact goesOn { current with consumed := current.consumed + 1 } [] step
            ⟨typing.point, typing.format, typing.buffer, typing.bufferindex, typing.string,
              typing.holds⟩ rfl
        · have positive := List.length_pos_iff.mpr empty
          rw [if_pos (by rw [typing.bufferindex]; omega)] at step
          exact goesOn
            { current with
              consumed := current.consumed + 1, string := current.string - 1,
              bufferindex := current.bufferindex - 1 } kept.dropLast step (typing.erase empty) rfl
      · rw [if_neg backspace] at step
        rw [if_neg backspace, if_neg backspace]
        by_cases full : kept.length = 100
        · rw [if_pos full, if_pos full]
          rw [if_pos (by rw [typing.bufferindex, full]; rfl)] at step
          exact line_ends typing cap step
        · rw [if_neg full, if_neg full]
          rw [if_neg (by rw [typing.bufferindex]; omega)] at step
          obtain ⟨steps, returned, holds, counter, inside⟩ :=
            goesOn _ (kept ++ [c]) step (typing.extend c) rfl
          refine ⟨steps, returned, holds, counter, inside.trans ?_⟩
          rw [← and_assoc]
          exact and_congr_left' (insideBuffer_store typing.string c)

/-- After the two characters of the format `scanFF` is in the loop on the line. -/
theorem start_typing (bufferindex : Int) (buffers : Nat → Int → UInt8) :
    Typing ((lineCall around strings n).scan keys (.start bufferindex buffers) 2) [] ∧
      ((lineCall around strings n).scan keys (.start bufferindex buffers) 2).consumed = 0 ∧
      ((lineCall around strings n).scan keys (.start bufferindex buffers) 2).stores = [] := by
  have percent := @scanStep_percent (lineCall around strings n) keys (.start bufferindex buffers)
    rfl rfl rfl
  rw [scan, Function.iterate_succ_apply, Function.iterate_succ_apply, Function.iterate_zero, id,
    percent, scanStep_string rfl rfl ⟨rfl, Option.some_ne_none _⟩]
  exact ⟨⟨rfl, rfl, rfl, rfl, rfl, fun _ _ none => by cases none⟩, rfl, rfl⟩

/-- A run that returned stays as it is. -/
theorem returned_unique {call : PrintCall} {start : ScanState} {first second : Nat}
    (returned : (call.scan keys start first).point = .returned)
    (returnedAgain : (call.scan keys start second).point = .returned) :
    call.scan keys start first = call.scan keys start second := by
  have stays : ∀ {state : ScanState}, state.point = .returned →
      ∀ more, call.scan keys state more = state := by
    intro state ended more
    have fixed : call.scanStep keys state = state := by simp only [scanStep, ended]
    exact Function.iterate_fixed fixed more
  rcases Nat.le_total first second with before | before
  · obtain ⟨more, rfl⟩ := Nat.exists_eq_add_of_le before
    rw [scan_add, stays returned]
  · obtain ⟨more, rfl⟩ := Nat.exists_eq_add_of_le before
    rw [scan_add, stays returnedAgain]

/-- A buffer holds one string. -/
theorem holdsString_unique {memory : Int → UInt8} {first second : List UInt8}
    (holds : HoldsString memory first) (holdsAgain : HoldsString memory second)
    (nonzero : ∀ c ∈ first, c ≠ 0) (nonzeroAgain : ∀ c ∈ second, c ≠ 0) : first = second := by
  -- behind the shorter one stands its terminator
  have notShorter : ∀ {first second : List UInt8}, HoldsString memory first →
      HoldsString memory second → (∀ c ∈ second, c ≠ 0) → second.length ≤ first.length := by
    intro first second holds holdsAgain nonzeroAgain
    by_contra shorter
    have inside : first.length < second.length := by omega
    have read := List.getElem?_eq_getElem inside
    have zero := (holdsAgain.1 _ _ read).symm.trans holds.2
    exact nonzeroAgain _ (List.getElem_mem inside) zero
  have length : first.length = second.length :=
    Nat.le_antisymm (notShorter holdsAgain holds nonzero) (notShorter holds holdsAgain nonzeroAgain)
  apply List.ext_getElem length
  intro k inside insideAgain
  rw [← holds.1 k _ (List.getElem?_eq_getElem inside),
    holdsAgain.1 k _ (List.getElem?_eq_getElem insideAgain)]

theorem mem_lineLoop {kept typed : List UInt8} {c : UInt8} (member : c ∈ lineLoop kept typed) :
    c ∈ kept ∨ c ∈ typed := by
  induction typed generalizing kept with
  | nil => exact .inl member
  | cons d typed ih =>
      rw [lineLoop] at member
      split at member
      · exact (ih member).imp List.mem_of_mem_dropLast (List.mem_cons_of_mem d)
      · split at member
        · exact .inl member
        · rcases ih member with stored | later
          · rcases List.mem_append.mp stored with before | here
            · exact .inl before
            · rw [List.mem_singleton.mp here]
              exact .inr List.mem_cons_self
          · exact .inr (List.mem_cons_of_mem d later)

theorem mem_edited {kept typed : List UInt8} {c : UInt8} (member : c ∈ edited kept typed) :
    c ∈ kept ∨ c ∈ typed := by
  induction typed generalizing kept with
  | nil => exact .inl member
  | cons d typed ih =>
      rw [edited_cons] at member
      rcases ih member with stored | later
      · split at stored
        · exact .inl (List.mem_of_mem_dropLast stored)
        · rcases List.mem_append.mp stored with before | here
          · exact .inl before
          · rw [List.mem_singleton.mp here]
            exact .inr List.mem_cons_self
      · exact .inr (List.mem_cons_of_mem d later)

/-- What is typed has no zeros. -/
theorem types_nonzero {typed : List UInt8} (types : Types keys 0 (typed ++ [10])) :
    ∀ c ∈ typed, c ≠ 0 := by
  intro c member
  obtain ⟨k, inside, rfl⟩ := List.getElem_of_mem member
  have key := types k typed[k]
    (by rw [List.getElem?_append_left inside, List.getElem?_eq_getElem inside])
  rw [← key]
  exact keys.nonzero _

/-- `scanFF` stores the edited line, cut at 100 characters and inside the buffer, and says
whether it was cut, if and only if the condition holds. -/
theorem scanFF_line_iff (around : Int → UInt8) (strings : Nat → CString)
    (n : Option (Nat → Int32)) (bufferindex : Int) (buffers : Nat → Int → UInt8) (cap : Nat)
    {keys : Keys} {typed : List UInt8} (types : Types keys 0 (typed ++ [10]))
    (oneLine : 10 ∉ typed) :
    (∃ steps, LineScanned cap typed
        ((lineCall around strings n).scan keys (.start bufferindex buffers) steps)) ↔
      GoesWell cap typed := by
  obtain ⟨typing, consumed, stores⟩ :=
    @start_typing around strings n keys bufferindex buffers
  obtain ⟨more, returned, holds, counter, inside⟩ :=
    line_scanned typing (by rwa [consumed]) oneLine cap
  rw [← scan_add] at returned holds counter inside
  have nothing : InsideBuffer cap
      ((lineCall around strings n).scan keys (.start bufferindex buffers) 2) := by
    intro cell member
    rw [stores] at member
    exact absurd member List.not_mem_nil
  have nonzero := types_nonzero types
  rw [← goesWell_iff]
  constructor
  · rintro ⟨steps, ended, text, result, room⟩
    rw [returned_unique ended returned] at text result room
    refine ⟨?_, ?_, (inside.mp room).2⟩
    · apply holdsString_unique holds text
      · intro c member
        exact nonzero c ((mem_lineLoop member).resolve_left List.not_mem_nil)
      · intro c member
        exact nonzero c ((mem_edited (List.mem_of_mem_take member)).resolve_left List.not_mem_nil)
    · rw [ScanState.result, counter] at result
      split at result <;> split at result <;> omega
  · rintro ⟨text, counts, room⟩
    refine ⟨2 + more, returned, by rwa [← text], ?_, inside.mpr ⟨nothing, room⟩⟩
    rw [ScanState.result, counter]
    split
    · rename_i full
      rw [if_pos (counts.mp (by omega))]
    · rename_i notFull
      rw [if_neg fun long => notFull (by rw [counts.mpr long]; rfl)]

/-- The run of a call for one line, with a buffer of zeros. -/
def typesLine (typed : List UInt8) (steps : Nat) : ScanState :=
  (lineCall (fun _ => 0) (fun _ => CString.ofBytes []) none).scan
    (Keys.ofList (typed ++ [10])) (.start 0 fun _ _ => 0) steps

/-- A line with a backspace is stored as it was corrected. -/
theorem scanFF_line_corrected :
    ∃ steps, LineScanned 30 [97, 98, 8, 99] (typesLine [97, 98, 8, 99] steps) := by
  have short : ∀ n, (edited [] ([97, 98, 8, 99].take n)).length ≤ 4 := by
    intro n
    match n with
    | 0 | 1 | 2 | 3 => decide
    | n + 4 =>
        have whole : ([97, 98, 8, 99] : List UInt8).take (n + 4) = [97, 98, 8, 99] :=
          List.take_of_length_le (Nat.le_add_left 4 n)
        rw [whole]
        decide
  have goesWell : GoesWell 30 [97, 98, 8, 99] := by
    refine ⟨fun n => ?_, .inl ⟨fun n => ?_, by decide, by decide⟩⟩
    · exact (Nat.min_le_left ..).trans ((short n).trans (by decide))
    · exact (short n).trans (by decide)
  exact (scanFF_line_iff (fun _ => 0) (fun _ => CString.ofBytes []) none 0 (fun _ _ => 0) 30
    (types_ofList (by simp)) (by simp)).mpr goesWell

/-- A line of 100 characters is taken for a longer one, and one of 31 is written behind the
buffer of the editor. -/
theorem scanFF_line_fails :
    (typesLine (List.replicate 100 97) 104).point = .returned ∧
      (typesLine (List.replicate 100 97) 104).result = 1 ∧
      (edited [] (List.replicate 100 97)).length = 100 ∧
      (¬ ∃ steps, LineScanned 2500 (List.replicate 100 97)
        (typesLine (List.replicate 100 97) steps)) ∧
      (typesLine (List.replicate 31 97) 35).point = .returned ∧
      (0, 30) ∈ (typesLine (List.replicate 31 97) 35).stores ∧
      ¬ ∃ steps, LineScanned 30 (List.replicate 31 97)
        (typesLine (List.replicate 31 97) steps) := by
  have returned : (typesLine (List.replicate 100 97) 104).point = .returned := by
    decide +kernel
  have one : (typesLine (List.replicate 100 97) 104).result = 1 := by decide +kernel
  have length : (edited [] (List.replicate 100 97)).length = 100 := by decide +kernel
  have ended : (typesLine (List.replicate 31 97) 35).point = .returned := by decide +kernel
  have behind : (0, 30) ∈ (typesLine (List.replicate 31 97) 35).stores := by decide +kernel
  refine ⟨returned, one, length, ?_, ended, behind, ?_⟩
  · rintro ⟨steps, scanned⟩
    have result := scanned.result
    rw [typesLine, returned_unique scanned.returned returned, ← typesLine, one, length] at result
    exact absurd result (by decide)
  · rintro ⟨steps, scanned⟩
    have stores := scanned.stores
    rw [typesLine, returned_unique scanned.returned ended, ← typesLine] at stores
    exact absurd (stores _ behind).2 (by decide)

end SistemasOperativos.Userland
