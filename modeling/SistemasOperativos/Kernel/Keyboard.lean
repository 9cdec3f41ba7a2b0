import SistemasOperativos.Semantics.Run

/-!
# The keyboard

`keyboardHandlerC` of keyboard.c and its table. The code that is read is the row of the
table, also where there is no such row: the codes of released keys are negative numbers.
The row is tested for a character in its first column, whatever column is sent, and one
flag stands for two shift keys. `keyboard_inBounds_iff` says for which codes all of this
goes well.

The memory around the table is a parameter. The characters of the table are numbers, as
in the rows that are written with characters in the source.
-/

namespace SistemasOperativos.Kernel

open SistemasOperativos.Semantics

def NOCHAR : Int8 := -1

def LEFT_SHIFT_MAKE : Int8 := 0x2A

def RIGHT_SHIFT_MAKE : Int8 := 0x36

def CAPS_LOCK : Int8 := 0x3A

def LEFT_SHIFT_BREAK : Int8 := 0xAA

def RIGHT_SHIFT_BREAK : Int8 := 0xB6

/-- A character of the table. -/
def key (c : Char) : Int8 := Int8.ofNat c.toNat

/-- The table: a code, and what its key is alone, with shift, with caps, and with both. -/
def kbd_EN : List (List Int8) :=
  [[0x00, NOCHAR, NOCHAR, NOCHAR, NOCHAR],
    [0x01, NOCHAR, NOCHAR, NOCHAR, NOCHAR], -- esc
    [0x02, key '1', key '!', key '1', key '!'],
    [0x03, key '2', key '@', key '2', key '@'],
    [0x04, key '3', key '#', key '3', key '#'],
    [0x05, key '4', key '$', key '4', key '$'],
    [0x06, key '5', key '%', key '5', key '%'],
    [0x07, key '6', key '^', key '6', key '^'],
    [0x08, key '7', key '&', key '7', key '&'],
    [0x09, key '8', key '*', key '8', key '*'],
    [0x0A, key '9', key '(', key '9', key '('],
    [0x0B, key '0', key ')', key '0', key ')'],
    [0x0C, key '-', key '_', key '-', key '_'],
    [0x0D, key '=', key '+', key '=', key '+'],
    [0x0E, 8, 8, 8, 8], -- backspace
    [0x0F, 9, 9, 9, 9], -- tab
    [0x10, key 'q', key 'Q', key 'Q', key 'q'],
    [0x11, key 'w', key 'W', key 'W', key 'w'],
    [0x12, key 'e', key 'E', key 'E', key 'e'],
    [0x13, key 'r', key 'R', key 'R', key 'r'],
    [0x14, key 't', key 'T', key 'T', key 't'],
    [0x15, key 'y', key 'Y', key 'Y', key 'y'],
    [0x16, key 'u', key 'U', key 'U', key 'u'],
    [0x17, key 'i', key 'I', key 'I', key 'i'],
    [0x18, key 'o', key 'O', key 'O', key 'o'],
    [0x19, key 'p', key 'P', key 'P', key 'p'],
    [0x1a, 91, 123, 91, 123], -- brackets and braces
    [0x1b, 93, 125, 93, 125],
    [0x1c, 10, 10, 10, 10], -- enter
    [0x1d, NOCHAR, NOCHAR, NOCHAR, NOCHAR], -- left ctrl
    [0x1e, key 'a', key 'A', key 'A', key 'a'],
    [0x1f, key 's', key 'S', key 'S', key 's'],
    [0x20, key 'd', key 'D', key 'D', key 'd'],
    [0x21, key 'f', key 'F', key 'F', key 'f'],
    [0x22, key 'g', key 'G', key 'G', key 'g'],
    [0x23, key 'h', key 'H', key 'H', key 'h'],
    [0x24, key 'j', key 'J', key 'J', key 'j'],
    [0x25, key 'k', key 'K', key 'K', key 'k'],
    [0x26, key 'l', key 'L', key 'L', key 'l'],
    [0x27, key ';', key ':', key ';', key ':'],
    [0x28, 39, 34, 39, 34], -- quotes
    [0x29, 96, 126, 96, 126],
    [0x2a, LEFT_SHIFT_MAKE, LEFT_SHIFT_MAKE, LEFT_SHIFT_MAKE, LEFT_SHIFT_MAKE],
    [0x2b, 92, 124, NOCHAR, 124], -- backslash and bar
    [0x2c, key 'z', key 'Z', key 'Z', key 'z'],
    [0x2d, key 'x', key 'X', key 'X', key 'x'],
    [0x2e, key 'c', key 'C', key 'C', key 'c'],
    [0x2f, key 'v', key 'V', key 'V', key 'v'],
    [0x30, key 'b', key 'B', key 'B', key 'b'],
    [0x31, key 'n', key 'N', key 'N', key 'n'],
    [0x32, key 'm', key 'M', key 'M', key 'm'],
    [0x33, key ',', key '<', key ',', key '<'],
    [0x34, key '.', key '>', key '.', key '>'],
    [0x35, key '/', key '?', key '/', key '?'],
    [0x36, RIGHT_SHIFT_MAKE, RIGHT_SHIFT_MAKE, RIGHT_SHIFT_MAKE, RIGHT_SHIFT_MAKE],
    [0x37, key '*', NOCHAR, NOCHAR, NOCHAR], -- keypad
    [0x38, NOCHAR, NOCHAR, NOCHAR, NOCHAR], -- left alt
    [0x39, key ' ', key ' ', key ' ', key ' '],
    [0x3a, CAPS_LOCK, CAPS_LOCK, CAPS_LOCK, CAPS_LOCK],
    [0x3b, NOCHAR, NOCHAR, NOCHAR, NOCHAR], -- f1
    [0x3c, NOCHAR, NOCHAR, NOCHAR, NOCHAR],
    [0x3d, NOCHAR, NOCHAR, NOCHAR, NOCHAR],
    [0x3e, NOCHAR, NOCHAR, NOCHAR, NOCHAR],
    [0x3f, NOCHAR, NOCHAR, NOCHAR, NOCHAR],
    [0x40, NOCHAR, NOCHAR, NOCHAR, NOCHAR],
    [0x41, NOCHAR, NOCHAR, NOCHAR, NOCHAR],
    [0x42, NOCHAR, NOCHAR, NOCHAR, NOCHAR],
    [0x43, NOCHAR, NOCHAR, NOCHAR, NOCHAR],
    [0x44, NOCHAR, NOCHAR, NOCHAR, NOCHAR], -- f10
    [0x45, NOCHAR, NOCHAR, NOCHAR, NOCHAR], -- num
    [0x46, NOCHAR, NOCHAR, NOCHAR, NOCHAR], -- scroll
    [0x47, key '7', NOCHAR, NOCHAR, NOCHAR], -- keypad
    [0x48, NOCHAR, NOCHAR, NOCHAR, NOCHAR],
    [0x49, key '9', NOCHAR, NOCHAR, NOCHAR],
    [0x4a, key '-', NOCHAR, NOCHAR, NOCHAR],
    [0x4b, NOCHAR, NOCHAR, NOCHAR, NOCHAR],
    [0x4c, key '5', NOCHAR, NOCHAR, NOCHAR],
    [0x4d, NOCHAR, NOCHAR, NOCHAR, NOCHAR],
    [0x4e, key '+', NOCHAR, NOCHAR, NOCHAR],
    [0x4f, key '1', NOCHAR, NOCHAR, NOCHAR],
    [0x50, NOCHAR, NOCHAR, NOCHAR, NOCHAR],
    [0x51, key '3', NOCHAR, NOCHAR, NOCHAR],
    [0x52, key '0', NOCHAR, NOCHAR, NOCHAR],
    [0x53, key '.', NOCHAR, NOCHAR, NOCHAR],
    [0x57, NOCHAR, NOCHAR, NOCHAR, NOCHAR], -- f11
    [0x58, NOCHAR, NOCHAR, NOCHAR, NOCHAR]] -- f12

/-- The static variables of keyboard.c, and what was done so far: the rows of the table
that were read, the characters given to `putTerminalBuffer` and the calls of
`restartSHELL`. -/
structure Keyboard where
  shift : Bool
  caps : Bool
  lookups : List Int
  delivered : List Int8
  restarts : Nat

namespace Keyboard

/-- The initial values. -/
def initial : Keyboard where
  shift := false
  caps := false
  lookups := []
  delivered := []
  restarts := 0

/-- A code is the number of a row. -/
def InTable (c : Int8) : Prop := 0 ≤ c.toInt ∧ c.toInt < kbd_EN.length

instance (c : Int8) : Decidable (InTable c) := inferInstanceAs (Decidable (_ ∧ _))

/-- An entry of the table. -/
def entry (c : Int8) (column : Nat) : Int8 :=
  (((kbd_EN[c.toInt.toNat]?).getD [])[column]?).getD NOCHAR

/-- `kbd_EN[c][column]`. What is read outside of the table is `outside`. -/
def lookup (outside : Int → Nat → Int8) (c : Int8) (column : Nat) : Int8 :=
  if InTable c then entry c column else outside c.toInt column

/-- The column that is sent. -/
def column (caps shift : Bool) : Nat :=
  if caps ∧ shift then 4
  else if caps then 3
  else if shift then 2
  else 1

def keyboardHandlerC (outside : Int → Nat → Int8) (keyboard : Keyboard) (c : Int8) : Keyboard :=
  if c = CAPS_LOCK then { keyboard with caps := !keyboard.caps }
  else if c = LEFT_SHIFT_MAKE ∨ c = RIGHT_SHIFT_MAKE then { keyboard with shift := true }
  else if c = LEFT_SHIFT_BREAK ∨ c = RIGHT_SHIFT_BREAK then { keyboard with shift := false }
  else
    let toSend := lookup outside c 1
    let looked := { keyboard with lookups := keyboard.lookups ++ [c.toInt] }
    let restarted :=
      if looked.shift ∧ c = 0x3b then { looked with restarts := looked.restarts + 1 } else looked
    if c &&& 0x80 = 0 ∧ toSend ≠ NOCHAR then
      { restarted with
        delivered := restarted.delivered ++
          [lookup outside c (column restarted.caps restarted.shift)] }
    else restarted

end Keyboard

/-- The keyboard, and which of the shift keys are down. -/
structure KeyboardRun where
  keyboard : Keyboard
  leftDown : Bool
  rightDown : Bool

namespace KeyboardRun

open Keyboard

def initial : KeyboardRun := ⟨.initial, false, false⟩

/-- The code that the keyboard sends for a key that is pressed or released. -/
def step (outside : Int → Nat → Int8) (state : KeyboardRun) (c : Int8) : KeyboardRun where
  keyboard := state.keyboard.keyboardHandlerC outside c
  leftDown :=
    if c = LEFT_SHIFT_MAKE then true
    else if c = LEFT_SHIFT_BREAK then false
    else state.leftDown
  rightDown :=
    if c = RIGHT_SHIFT_MAKE then true
    else if c = RIGHT_SHIFT_BREAK then false
    else state.rightDown

/-- The state after a list of codes. -/
def after (outside : Int → Nat → Int8) (state : KeyboardRun) (codes : List Int8) : KeyboardRun :=
  codes.foldl (step outside) state

/-- Only rows of the table were read, no `NOCHAR` was sent, and the flag says whether a
shift key is down. -/
structure InBounds (state : KeyboardRun) : Prop where
  lookups : ∀ row ∈ state.keyboard.lookups, 0 ≤ row ∧ row < kbd_EN.length
  delivered : NOCHAR ∉ state.keyboard.delivered
  shift : state.keyboard.shift = (state.leftDown || state.rightDown)

/-- The keys of the keypad that have a character only alone. -/
def keypadKeys : List Int8 := [0x37, 0x47, 0x49, 0x4a, 0x4c, 0x4e, 0x4f, 0x51, 0x52, 0x53]

/-- The key has a character alone and none with these flags: the backslash with caps and
without shift, and the keypad with either. -/
def Loses (c : Int8) (caps shift : Bool) : Prop :=
  c = 0x2b ∧ caps ∧ ¬ shift ∨ c ∈ keypadKeys ∧ (caps ∨ shift)

instance (c : Int8) (caps shift : Bool) : Decidable (Loses c caps shift) :=
  inferInstanceAs (Decidable (_ ∨ _))

/-- The condition on a code: it is one that changes a flag or the number of a row, its key
does not lose its character, and it does not release a shift key while the other one is
down. -/
structure Accepted (state : KeyboardRun) (c : Int8) : Prop where
  row : c = LEFT_SHIFT_BREAK ∨ c = RIGHT_SHIFT_BREAK ∨ InTable c
  character : ¬ Loses c state.keyboard.caps state.keyboard.shift
  left : ¬ (c = LEFT_SHIFT_BREAK ∧ state.rightDown)
  right : ¬ (c = RIGHT_SHIFT_BREAK ∧ state.leftDown)

/-- The rows of the table have nonnegative codes, and what they lose is `Loses`. -/
theorem entry_column : ∀ n < 86, ∀ caps shift,
    Int8.ofNat n &&& 0x80 = 0 ∧
      ((entry (Int8.ofNat n) 1 ≠ NOCHAR ∧ entry (Int8.ofNat n) (column caps shift) = NOCHAR) ↔
        Loses (Int8.ofNat n) caps shift) := by
  decide +kernel

theorem code_eq_ofNat {c : Int8} (inTable : InTable c) : ∃ n < 86, c = Int8.ofNat n := by
  obtain ⟨first, last⟩ := inTable
  have length : (kbd_EN.length : Int) = 86 := rfl
  obtain ⟨n, code⟩ := Int.eq_ofNat_of_zero_le first
  refine ⟨n, by omega, ?_⟩
  apply Int8.toInt_inj.mp
  rw [Int8.toInt_ofNat_of_lt (by omega), code]

/-! ## One code -/

/-- The indices after the key that locks capitals. -/
theorem caps_inBounds_iff (outside : Int → Nat → Int8) {state : KeyboardRun}
    (fits : InBounds state) :
    InBounds (state.step outside CAPS_LOCK) ↔ Accepted state CAPS_LOCK := by
  constructor
  · intro _
    exact ⟨by decide, by simp [Loses, CAPS_LOCK, keypadKeys], fun both => absurd both.1 (by decide),
      fun both => absurd both.1 (by decide)⟩
  · intro _
    exact ⟨fits.lookups, fits.delivered, fits.shift⟩

/-- The indices after a shift key went down. -/
theorem make_inBounds_iff (outside : Int → Nat → Int8) {state : KeyboardRun} {c : Int8}
    (fits : InBounds state) (make : c = LEFT_SHIFT_MAKE ∨ c = RIGHT_SHIFT_MAKE) :
    InBounds (state.step outside c) ↔ Accepted state c := by
  constructor
  · intro _
    rcases make with rfl | rfl
    · exact ⟨by decide, by simp [Loses, LEFT_SHIFT_MAKE, keypadKeys],
        fun both => absurd both.1 (by decide), fun both => absurd both.1 (by decide)⟩
    · exact ⟨by decide, by simp [Loses, RIGHT_SHIFT_MAKE, keypadKeys],
        fun both => absurd both.1 (by decide), fun both => absurd both.1 (by decide)⟩
  · intro _
    rcases make with rfl | rfl
    · exact ⟨fits.lookups, fits.delivered, rfl⟩
    · exact ⟨fits.lookups, fits.delivered, (Bool.or_true _).symm⟩

/-- The flag is off, so the other shift key has to be up. -/
theorem break_inBounds_iff (outside : Int → Nat → Int8) {state : KeyboardRun} {c : Int8}
    (fits : InBounds state) (release : c = LEFT_SHIFT_BREAK ∨ c = RIGHT_SHIFT_BREAK) :
    InBounds (state.step outside c) ↔ Accepted state c := by
  rcases release with rfl | rfl
  · constructor
    · intro after
      have flag : false = (false || state.rightDown) := after.shift
      refine ⟨.inl rfl, by simp [Loses, LEFT_SHIFT_BREAK, keypadKeys], ?_,
        fun both => absurd both.1 (by decide)⟩
      rintro ⟨-, down⟩
      rw [down] at flag
      cases flag
    · intro accepted
      have up : state.rightDown = false := by simpa using accepted.left
      refine ⟨fits.lookups, fits.delivered, ?_⟩
      change false = (false || state.rightDown)
      rw [up]
      rfl
  · constructor
    · intro after
      have flag : false = (state.leftDown || false) := after.shift
      refine ⟨.inr (.inl rfl), by simp [Loses, RIGHT_SHIFT_BREAK, keypadKeys],
        fun both => absurd both.1 (by decide), ?_⟩
      rintro ⟨-, down⟩
      rw [down] at flag
      cases flag
    · intro accepted
      have up : state.leftDown = false := by simpa using accepted.right
      refine ⟨fits.lookups, fits.delivered, ?_⟩
      change false = (state.leftDown || false)
      rw [up]
      rfl

/-- What the handler does with the code of another key. -/
theorem handler_key (outside : Int → Nat → Int8) (keyboard : Keyboard) {c : Int8}
    (notCaps : c ≠ CAPS_LOCK) (notMake : ¬ (c = LEFT_SHIFT_MAKE ∨ c = RIGHT_SHIFT_MAKE))
    (notBreak : ¬ (c = LEFT_SHIFT_BREAK ∨ c = RIGHT_SHIFT_BREAK)) :
    (keyboard.keyboardHandlerC outside c).shift = keyboard.shift ∧
      (keyboard.keyboardHandlerC outside c).lookups = keyboard.lookups ++ [c.toInt] ∧
      (keyboard.keyboardHandlerC outside c).delivered =
        if c &&& 0x80 = 0 ∧ lookup outside c 1 ≠ NOCHAR then
          keyboard.delivered ++ [lookup outside c (column keyboard.caps keyboard.shift)]
        else keyboard.delivered := by
  unfold keyboardHandlerC
  rw [if_neg notCaps, if_neg notMake, if_neg notBreak]
  dsimp only
  by_cases asked : keyboard.shift = true ∧ c = 0x3b
  · rw [if_pos asked]
    split <;> exact ⟨rfl, rfl, rfl⟩
  · rw [if_neg asked]
    split <;> exact ⟨rfl, rfl, rfl⟩

/-- The indices after any other key. -/
theorem key_inBounds_iff (outside : Int → Nat → Int8) {state : KeyboardRun} {c : Int8}
    (fits : InBounds state) (notCaps : c ≠ CAPS_LOCK)
    (notMake : ¬ (c = LEFT_SHIFT_MAKE ∨ c = RIGHT_SHIFT_MAKE))
    (notBreak : ¬ (c = LEFT_SHIFT_BREAK ∨ c = RIGHT_SHIFT_BREAK)) :
    InBounds (state.step outside c) ↔ Accepted state c := by
  obtain ⟨shift, lookups, delivered⟩ :=
    handler_key outside state.keyboard notCaps notMake notBreak
  push Not at notMake notBreak
  have left : (state.step outside c).leftDown = state.leftDown := by
    simp only [step, if_neg notMake.1, if_neg notBreak.1]
  have right : (state.step outside c).rightDown = state.rightDown := by
    simp only [step, if_neg notMake.2, if_neg notBreak.2]
  -- in the table, the test and what is sent are entries of it
  have sends : InTable c → (NOCHAR ∉ (state.step outside c).keyboard.delivered ↔
      ¬ Loses c state.keyboard.caps state.keyboard.shift) := by
    intro inTable
    obtain ⟨n, row, code⟩ := code_eq_ofNat inTable
    obtain ⟨nonnegative, loses⟩ :=
      entry_column n row state.keyboard.caps state.keyboard.shift
    rw [← code] at nonnegative loses
    rw [← loses]
    simp only [step, delivered, lookup, if_pos inTable, nonnegative, true_and]
    split
    · rename_i hasCharacter
      simp [hasCharacter, fits.delivered, eq_comm]
    · rename_i none
      simp [none, fits.delivered]
  constructor
  · intro after
    have inTable : InTable c := by
      apply after.lookups
      simp only [step, lookups]
      exact List.mem_append_right _ List.mem_cons_self
    exact ⟨.inr (.inr inTable), (sends inTable).mp after.delivered,
      fun both => notBreak.1 both.1, fun both => notBreak.2 both.1⟩
  · intro accepted
    have inTable : InTable c := by
      rcases accepted.row with released | released | inTable
      · exact absurd released notBreak.1
      · exact absurd released notBreak.2
      · exact inTable
    refine ⟨?_, (sends inTable).mpr accepted.character, ?_⟩
    · simp only [step, lookups]
      intro row member
      rcases List.mem_append.mp member with earlier | here
      · exact fits.lookups row earlier
      · rw [List.mem_singleton.mp here]
        exact inTable
    · rw [left, right, ← fits.shift]
      exact shift

/-- One scan code keeps the indices inside exactly if it is accepted. -/
theorem step_inBounds_iff (outside : Int → Nat → Int8) {state : KeyboardRun}
    (fits : InBounds state) (c : Int8) :
    InBounds (state.step outside c) ↔ Accepted state c := by
  by_cases caps : c = CAPS_LOCK
  · rw [caps]
    exact caps_inBounds_iff outside fits
  by_cases make : c = LEFT_SHIFT_MAKE ∨ c = RIGHT_SHIFT_MAKE
  · exact make_inBounds_iff outside fits make
  by_cases release : c = LEFT_SHIFT_BREAK ∨ c = RIGHT_SHIFT_BREAK
  · exact break_inBounds_iff outside fits release
  · exact key_inBounds_iff outside fits caps make release

/-! ## Any codes -/

/-- A list of scan codes keeps the indices inside exactly if each is accepted. -/
theorem run_inBounds_iff (outside : Int → Nat → Int8) {state : KeyboardRun}
    (fits : InBounds state) (codes : List Int8) :
    (∀ n, InBounds (state.after outside (codes.take n))) ↔
      Along (fun state c => some (step outside state c)) Accepted state codes := by
  induction codes generalizing state with
  | nil =>
      constructor
      · intro _
        trivial
      · intro _ n
        rw [List.take_nil]
        exact fits
  | cons c codes ih =>
      constructor
      · intro inBounds
        have next : InBounds (state.step outside c) := inBounds 1
        exact ⟨(step_inBounds_iff outside fits c).mp next,
          (ih next).mp fun n => inBounds (n + 1)⟩
      · rintro ⟨here, along⟩ n
        have next := (step_inBounds_iff outside fits c).mpr here
        cases n with
        | zero => exact fits
        | succ n => exact (ih next).mpr along n

/-- From the start on, everything goes well after every code that is read if and only if
each of them meets the condition. -/
theorem keyboard_inBounds_iff (outside : Int → Nat → Int8) (codes : List Int8) :
    (∀ n, InBounds (initial.after outside (codes.take n))) ↔
      Along (fun state c => some (step outside state c)) Accepted initial codes := by
  apply run_inBounds_iff
  refine ⟨fun _ none => absurd none List.not_mem_nil, ?_, rfl⟩
  exact List.not_mem_nil

/-- A released letter is looked up in front of the table, the backslash with caps sends
`NOCHAR`, and of two shift keys one is released. -/
theorem keyboard_leaves_bounds :
    let outside := fun (_ : Int) (_ : Nat) => (0 : Int8)
    (initial.after outside [0x1e, 0x9e]).keyboard.lookups = [30, -98] ∧
      ¬ InBounds (initial.after outside [0x1e, 0x9e]) ∧
      (initial.after outside [0x3a, 0x2b]).keyboard.delivered = [NOCHAR] ∧
      ¬ InBounds (initial.after outside [0x3a, 0x2b]) ∧
      (initial.after outside [0x2a, 0x36, 0xaa]).keyboard.shift = false ∧
      (initial.after outside [0x2a, 0x36, 0xaa]).rightDown = true ∧
      ¬ InBounds (initial.after outside [0x2a, 0x36, 0xaa]) := by
  intro outside
  have looked : (initial.after outside [0x1e, 0x9e]).keyboard.lookups = [30, -98] := by
    decide +kernel
  have sent : (initial.after outside [0x3a, 0x2b]).keyboard.delivered = [NOCHAR] := by
    decide +kernel
  have off : (initial.after outside [0x2a, 0x36, 0xaa]).keyboard.shift = false := rfl
  have down : (initial.after outside [0x2a, 0x36, 0xaa]).rightDown = true := rfl
  refine ⟨looked, fun fits => ?_, sent, fun fits => ?_, off, down, fun fits => ?_⟩
  · have inside := (fits.lookups (-98) (by simp [looked])).1
    omega
  · exact fits.delivered (by simp [sent])
  · have flag := fits.shift
    rw [off, down, Bool.or_true] at flag
    cases flag

end KeyboardRun

end SistemasOperativos.Kernel
