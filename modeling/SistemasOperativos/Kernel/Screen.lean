import SistemasOperativos.Kernel.Terminal

/-!
# The cursor of the screen

The part of video.c that writes at the cursor, and the calls that lead to it. A line
ends at the last column, which `forwardCursor` finds by a test for equality. Two calls
bring the cursor to where this test does not help: `changeStartModule` takes the column
behind the last one, and after `sys_call_clearC` the cursor is left of the margin, where
a backspace moves it out of the screen (`cursor_leaves_screen`). Without them it stays on
the screen, and every line ends (`cursor_stays_on_screen`).

The attributes and the display memory are left out: no function of the cursor reads them.
-/

namespace SistemasOperativos.Kernel

open SistemasOperativos.Semantics

def WIDTH : Int := 80

def HEIGHT : Int := 25

/-- The position of the cursor and the margin. -/
structure Cursor where
  i : Int
  j : Int
  iStartModule : Int
  jStartModule : Int
  deriving DecidableEq, Repr

/-- The static variables of video.c. What `video` says outside of the screen is arbitrary. -/
structure Screen extends Cursor where
  video : Int → Int → UInt8

/-- The initial values. -/
def Cursor.initial : Cursor where
  i := 0
  j := 3
  iStartModule := 0
  jStartModule := 3

/-- The cursor is on the screen, below its first three rows. -/
structure Cursor.OnScreen (cursor : Cursor) : Prop where
  left : 0 ≤ cursor.i
  right : cursor.i < 80
  top : 3 ≤ cursor.j
  bottom : cursor.j < 25

def validPosition (f c : Int) : Bool := !decide (HEIGHT ≤ f ∨ WIDTH ≤ c ∨ f < 0 ∨ c < 0)

namespace Screen

/-- Write a character into the array. -/
def setVideo (screen : Screen) (f c : Int) (a : UInt8) : Screen :=
  { screen with video := Function.update screen.video f (Function.update (screen.video f) c a) }

def printChar (screen : Screen) (f c : Int) (a : UInt8) : Screen :=
  if validPosition f c = false then screen else screen.setVideo f c a

def clearPosition (screen : Screen) (f c : Int) : Screen :=
  if validPosition f c = false then screen else screen.setVideo f c 32

def clearRow (screen : Screen) (f : Int) : Screen :=
  (List.range WIDTH.toNat).foldl (fun screen (k : Nat) => screen.clearPosition f k) screen

def copyRow (screen : Screen) (source target : Int) : Screen :=
  (List.range WIDTH.toNat).foldl
    (fun screen (k : Nat) =>
      (screen.setVideo target k (screen.video source k)).clearPosition source k)
    screen

def scroll (screen : Screen) : Screen :=
  let copied := (List.range (HEIGHT - (screen.jStartModule + 1)).toNat).foldl
    (fun rows (n : Nat) =>
      let auxf := screen.jStartModule + 1 + (n : Int)
      rows.copyRow auxf (auxf - 1))
    screen
  let cleared := copied.clearRow (HEIGHT - 1)
  { cleared with j := HEIGHT - 1, i := cleared.iStartModule }

def forwardCursor (screen : Screen) : Screen :=
  if screen.i = WIDTH - 1 then
    if screen.j = HEIGHT - 1 then screen.scroll
    else { screen with j := screen.j + 1, i := screen.iStartModule }
  else { screen with i := screen.i + 1 }

def putChar (screen : Screen) (a : UInt8) : Screen :=
  (screen.printChar screen.j screen.i a).forwardCursor

/-- The loop of `lineJump`, up to the row `aux`, with at most `fuel` steps. -/
def lineJumpLoop : Nat → Int → Screen → Option Screen
  | 0, _, _ => none
  | fuel + 1, aux, screen =>
      if screen.j = aux then some screen else lineJumpLoop fuel aux screen.forwardCursor

/-- `lineJump`; `none` when its loop does not end. The steps up to the last column, the
one over it and the last test of the loop are enough, and where they are not no number
of steps is (`lineJumpLoop_right`). -/
def lineJump (screen : Screen) : Option Screen :=
  if screen.j = HEIGHT - 1 then some screen.scroll
  else lineJumpLoop ((WIDTH - screen.i).toNat + 1) (screen.j + 1) screen

/-- `backInLine`. At the margin both of its branches do nothing. -/
def backInLine (screen : Screen) : Screen :=
  if screen.i = screen.iStartModule then screen else { screen with i := screen.i - 1 }

def setCursor (screen : Screen) (f c : Int) : Screen :=
  if validPosition f c = false then screen else { screen with i := c, j := f }

def changeStartModule (screen : Screen) (f c : Int) : Screen :=
  if f < 0 ∨ WIDTH < f ∨ c < 3 ∨ HEIGHT < c then screen
  else { screen with jStartModule := c, iStartModule := f, i := f }

def sys_call_clearC (screen : Screen) : Screen :=
  ((List.range 23).foldl (fun screen (n : Nat) => screen.clearRow (25 - n)) screen).setCursor 3 0

/-- The calls of the echo. -/
def perform (screen : Screen) : ScreenCall → Option Screen
  | .backInLine => some screen.backInLine
  | .putChar a => some (screen.putChar a)
  | .lineJump => screen.lineJump

/-! ## What the functions do to the cursor -/

@[simp] theorem setVideo_cursor (screen : Screen) (f c : Int) (a : UInt8) :
    (screen.setVideo f c a).toCursor = screen.toCursor := rfl

/-- `printChar` does not move the cursor. -/
@[simp] theorem printChar_cursor (screen : Screen) (f c : Int) (a : UInt8) :
    (screen.printChar f c a).toCursor = screen.toCursor := by
  unfold printChar
  split <;> rfl

/-- `clearPosition` does not move the cursor. -/
@[simp] theorem clearPosition_cursor (screen : Screen) (f c : Int) :
    (screen.clearPosition f c).toCursor = screen.toCursor := by
  unfold clearPosition
  split <;> rfl

/-- A loop whose body leaves the cursor leaves it. -/
theorem foldl_cursor {body : Screen → Nat → Screen}
    (kept : ∀ screen n, (body screen n).toCursor = screen.toCursor) (screen : Screen)
    (indices : List Nat) : (indices.foldl body screen).toCursor = screen.toCursor := by
  induction indices generalizing screen with
  | nil => rfl
  | cons n indices ih => rw [List.foldl_cons, ih, kept]

/-- Clearing a row does not move the cursor. -/
@[simp] theorem clearRow_cursor (screen : Screen) (f : Int) :
    (screen.clearRow f).toCursor = screen.toCursor :=
  foldl_cursor (fun screen n => clearPosition_cursor screen f n) _ _

/-- Copying a row does not move the cursor. -/
@[simp] theorem copyRow_cursor (screen : Screen) (source target : Int) :
    (screen.copyRow source target).toCursor = screen.toCursor :=
  foldl_cursor (fun screen n => by rw [clearPosition_cursor, setVideo_cursor]) _ _

/-- `scroll` leaves the cursor at the margin of the last row. -/
theorem scroll_cursor (screen : Screen) :
    screen.scroll.toCursor =
      { screen.toCursor with i := screen.iStartModule, j := 24 } := by
  have copied := foldl_cursor (fun rows (n : Nat) => copyRow_cursor rows
    (screen.jStartModule + 1 + (n : Int)) (screen.jStartModule + 1 + (n : Int) - 1)) screen
    (List.range (HEIGHT - (screen.jStartModule + 1)).toNat)
  simp only [scroll, HEIGHT] at copied ⊢
  rw [clearRow_cursor, copied]
  rfl

/-- Behind the last column comes the margin of the next row, or of the last one. -/
theorem forwardCursor_cursor (screen : Screen) :
    screen.forwardCursor.toCursor =
      if screen.i = 79 then
        { screen.toCursor with
          i := screen.iStartModule, j := if screen.j = 24 then 24 else screen.j + 1 }
      else { screen.toCursor with i := screen.i + 1 } := by
  simp only [forwardCursor, WIDTH, HEIGHT]
  norm_num
  split
  · split
    · exact scroll_cursor screen
    · rfl
  · rfl

/-- `sys_call_clearC` puts the cursor below the header. -/
theorem sys_call_clearC_cursor (screen : Screen) :
    screen.sys_call_clearC.toCursor = { screen.toCursor with i := 0, j := 3 } := by
  have cleared := foldl_cursor (fun screen (n : Nat) => clearRow_cursor screen (25 - n)) screen
    (List.range 23)
  have valid : validPosition 3 0 = true := by decide
  simp only [sys_call_clearC, setCursor, valid, Bool.true_eq_false, if_false]
  rw [cleared]

/-- `backInLine` moves the cursor back to the margin at most. -/
theorem backInLine_cursor (screen : Screen) :
    screen.backInLine.toCursor =
      if screen.i = screen.iStartModule then screen.toCursor
      else { screen.toCursor with i := screen.i - 1 } := by
  unfold backInLine
  split <;> rfl

/-- `changeStartModule` sets the margin if it accepts the arguments. -/
theorem changeStartModule_cursor (screen : Screen) (f c : Int) :
    (screen.changeStartModule f c).toCursor =
      if f < 0 ∨ 80 < f ∨ c < 3 ∨ 25 < c then screen.toCursor
      else { screen.toCursor with jStartModule := c, iStartModule := f, i := f } := by
  unfold changeStartModule
  split <;> rename_i test <;> simp only [WIDTH, HEIGHT] at test
  · rw [if_pos test]
  · rw [if_neg test]

/-- From a column of the screen on, the loop ends in the next row. -/
theorem lineJumpLoop_ends (fuel : Nat) {screen : Screen} (column : screen.i < 80)
    (row : screen.j ≠ 24) (enough : (80 - screen.i).toNat + 1 ≤ fuel) :
    ∃ after, lineJumpLoop fuel (screen.j + 1) screen = some after ∧
      after.toCursor =
        { screen.toCursor with i := screen.iStartModule, j := screen.j + 1 } := by
  induction fuel generalizing screen with
  | zero => omega
  | succ fuel ih =>
      have moved := forwardCursor_cursor screen
      rw [lineJumpLoop, if_neg (by omega)]
      by_cases last : screen.i = 79
      · rw [if_pos last, if_neg row] at moved
        obtain ⟨more, rfl⟩ : ∃ more, fuel = more + 1 := ⟨fuel - 1, by omega⟩
        refine ⟨screen.forwardCursor, ?_, moved⟩
        rw [lineJumpLoop, if_pos (by rw [moved])]
      · rw [if_neg last] at moved
        have ended := @ih screen.forwardCursor
        rw [moved] at ended
        exact ended (by dsimp only; omega) row (by dsimp only; omega)

/-- Right of the last column it does not end. -/
theorem lineJumpLoop_right (fuel : Nat) {screen : Screen} (column : 80 ≤ screen.i) :
    lineJumpLoop fuel (screen.j + 1) screen = none := by
  induction fuel generalizing screen with
  | zero => rfl
  | succ fuel ih =>
      have moved := forwardCursor_cursor screen
      rw [if_neg (by omega)] at moved
      have further := @ih screen.forwardCursor
      rw [moved] at further
      rw [lineJumpLoop, if_neg (by omega)]
      exact further (by dsimp only; omega)

/-- `lineJump` goes to the margin of the next row, or of the last one. -/
theorem lineJump_ends {screen : Screen} (column : screen.i < 80) :
    ∃ after, screen.lineJump = some after ∧
      after.toCursor = { screen.toCursor with
        i := screen.iStartModule, j := if screen.j = 24 then 24 else screen.j + 1 } := by
  by_cases last : screen.j = 24
  · refine ⟨screen.scroll, by simp [lineJump, HEIGHT, last], ?_⟩
    rw [scroll_cursor, if_pos last]
  · obtain ⟨after, looped, cursor⟩ := lineJumpLoop_ends _ column last (le_refl _)
    refine ⟨after, ?_, by rw [cursor, if_neg last]⟩
    simpa [lineJump, HEIGHT, WIDTH, last] using looped

end Screen

/-- The cursor and the margin are on the screen. -/
structure Cursor.Inside (cursor : Cursor) : Prop extends OnScreen cursor where
  marginLeft : 0 ≤ cursor.iStartModule
  marginRight : cursor.iStartModule < 80

namespace Cursor.Inside

variable {screen : Screen}

/-- `putChar` keeps the cursor inside. -/
theorem putChar (inside : screen.toCursor.Inside) (a : UInt8) :
    (screen.putChar a).toCursor.Inside := by
  obtain ⟨⟨left, right, top, bottom⟩, marginLeft, marginRight⟩ := inside
  rw [Screen.putChar, Screen.forwardCursor_cursor, Screen.printChar_cursor]
  split
  · refine ⟨⟨marginLeft, marginRight, ?_, ?_⟩, marginLeft, marginRight⟩ <;> dsimp only <;>
      split <;> omega
  · exact ⟨⟨by dsimp only; omega, by dsimp only; omega, top, bottom⟩, marginLeft, marginRight⟩

/-- `lineJump` ends and keeps the cursor inside. -/
theorem lineJump (inside : screen.toCursor.Inside) :
    ∃ after, screen.lineJump = some after ∧ after.toCursor.Inside := by
  obtain ⟨⟨left, right, top, bottom⟩, marginLeft, marginRight⟩ := inside
  obtain ⟨after, jumped, cursor⟩ := Screen.lineJump_ends right
  refine ⟨after, jumped, ?_⟩
  rw [cursor]
  refine ⟨⟨marginLeft, marginRight, ?_, ?_⟩, marginLeft, marginRight⟩ <;> dsimp only <;>
    split <;> omega

/-- `backInLine` keeps the cursor inside, but at the left edge beside a margin further right. -/
theorem backInLine (inside : screen.toCursor.Inside)
    (notLeft : screen.i = 0 → screen.iStartModule = 0) :
    screen.backInLine.toCursor.Inside := by
  obtain ⟨⟨left, right, top, bottom⟩, marginLeft, marginRight⟩ := inside
  rw [Screen.backInLine_cursor]
  split
  · exact ⟨⟨left, right, top, bottom⟩, marginLeft, marginRight⟩
  · exact ⟨⟨by dsimp only; omega, by dsimp only; omega, top, bottom⟩, marginLeft, marginRight⟩

/-- A blank that was printed behind the margin, or in front of it, can be taken back. -/
theorem backspace (inside : screen.toCursor.Inside)
    (notLeft : screen.i = 0 → screen.iStartModule = 0) :
    ((screen.backInLine.putChar 32).backInLine).toCursor.Inside := by
  have back := inside.backInLine notLeft
  refine (back.putChar 32).backInLine ?_
  obtain ⟨⟨left, right, -, -⟩, marginLeft, marginRight⟩ := back
  rw [Screen.putChar, Screen.forwardCursor_cursor, Screen.printChar_cursor]
  split
  · exact id
  · intro zero
    dsimp only at zero
    omega

end Cursor.Inside

/-- The terminal and the screen. -/
structure ScreenRun where
  terminal : Terminal
  screen : Screen

/-- The calls of the keyboard and of the system calls that reach the cursor, and those
that the buffer and the echo depend on. -/
inductive ScreenAction where
  | putChar (a : UInt8)
  | lineJump
  | putTerminalBuffer (c : UInt8)
  | getTerminalBuffer (length : UInt32)
  | setEcho (isEcho : Bool)
  | changeStartModule (f c : Int)
  | sys_call_clearC
  deriving DecidableEq

namespace ScreenRun

/-- One call; `none` when a loop in it does not end. -/
def step (state : ScreenRun) : ScreenAction → Option ScreenRun
  | .putChar a => some { state with screen := state.screen.putChar a }
  | .lineJump => state.screen.lineJump.map fun screen => { state with screen }
  | .putTerminalBuffer c =>
      let calls := if state.terminal.isBufferFull then [] else state.terminal.echo c
      (run Screen.perform state.screen calls).map fun screen =>
        ⟨state.terminal.putTerminalBuffer c, screen⟩
  | .getTerminalBuffer length =>
      some { state with terminal := (state.terminal.getTerminalBuffer length.toNat).1 }
  | .setEcho isEcho => some { state with terminal := state.terminal.setEcho isEcho }
  | .changeStartModule f c => some { state with screen := state.screen.changeStartModule f c }
  | .sys_call_clearC => some { state with screen := state.screen.sys_call_clearC }

/-- The condition on a step: `changeStartModule` does not take the column behind the last
one, and no backspace is echoed in the first column when this is left of the margin. -/
def StaysOnScreen (state : ScreenRun) : ScreenAction → Prop
  | .changeStartModule f c => ¬ (f = 80 ∧ 3 ≤ c ∧ c ≤ 25)
  | .putTerminalBuffer c =>
      ¬ (c = 8 ∧ ¬ state.terminal.isBufferFull ∧ state.screen.i = 0 ∧
        state.screen.iStartModule ≠ 0)
  | _ => True

instance (state : ScreenRun) (action : ScreenAction) : Decidable (state.StaysOnScreen action) :=
  match action with
  | .putChar _ | .lineJump | .putTerminalBuffer _ | .getTerminalBuffer _ | .setEcho _
  | .changeStartModule _ _ | .sys_call_clearC => by
      unfold StaysOnScreen
      infer_instance

/-- What the echo of a character does. -/
theorem echo_inside {state : ScreenRun} (inside : state.screen.toCursor.Inside) (c : UInt8)
    (notLeft : c = 8 → state.screen.i = 0 → state.screen.iStartModule = 0) :
    ∃ after, run Screen.perform state.screen (state.terminal.echo c) = some after ∧
      after.toCursor.Inside := by
  simp only [Terminal.echo]
  split
  · rename_i backspace
    exact ⟨_, rfl, inside.backspace (notLeft backspace)⟩
  · split
    · obtain ⟨after, jumped, kept⟩ := inside.lineJump
      exact ⟨after, by simp [run, Screen.perform, jumped], kept⟩
    · split
      · exact ⟨_, rfl, inside.putChar c⟩
      · exact ⟨_, rfl, inside⟩

/-- A step that meets the condition ends, with the cursor and the margin on the screen. -/
theorem step_inside {state : ScreenRun} {action : ScreenAction}
    (inside : state.screen.toCursor.Inside) (stays : state.StaysOnScreen action) :
    ∃ next, state.step action = some next ∧ next.screen.toCursor.Inside := by
  cases action with
  | putChar a => exact ⟨_, rfl, inside.putChar a⟩
  | lineJump =>
      obtain ⟨after, jumped, kept⟩ := inside.lineJump
      exact ⟨{ state with screen := after }, by simp [step, jumped], kept⟩
  | putTerminalBuffer c =>
      by_cases full : state.terminal.isBufferFull
      · refine ⟨⟨state.terminal.putTerminalBuffer c, state.screen⟩, ?_, inside⟩
        simp [step, full]
      · obtain ⟨after, echoed, kept⟩ := echo_inside inside c fun backspace zero => by
          by_contra margin
          exact stays ⟨backspace, full, zero, margin⟩
        refine ⟨⟨state.terminal.putTerminalBuffer c, after⟩, ?_, kept⟩
        simp [step, full, echoed]
  | getTerminalBuffer length => exact ⟨_, rfl, inside⟩
  | setEcho isEcho => exact ⟨_, rfl, inside⟩
  | changeStartModule f c =>
      refine ⟨_, rfl, ?_⟩
      obtain ⟨⟨left, right, top, bottom⟩, marginLeft, marginRight⟩ := inside
      simp only [StaysOnScreen] at stays
      dsimp only
      rw [Screen.changeStartModule_cursor]
      split
      · exact ⟨⟨left, right, top, bottom⟩, marginLeft, marginRight⟩
      · rename_i accepted
        have first : 0 ≤ f := by omega
        have last : f < 80 := by omega
        exact ⟨⟨first, last, top, bottom⟩, first, last⟩
  | sys_call_clearC =>
      refine ⟨_, rfl, ?_⟩
      dsimp only
      rw [Screen.sys_call_clearC_cursor]
      exact ⟨⟨by simp, by simp, by simp, by simp⟩, inside.marginLeft, inside.marginRight⟩

/-- A step that stays on the screen keeps the cursor inside. -/
theorem inside_step (state : ScreenRun) (action : ScreenAction) (next : ScreenRun)
    (inside : state.screen.toCursor.Inside) (stays : state.StaysOnScreen action)
    (stepped : state.step action = some next) : next.screen.toCursor.Inside := by
  obtain ⟨after, ended, kept⟩ := step_inside inside stays
  rw [stepped] at ended
  obtain rfl := Option.some.inj ended
  exact kept

/-- In every run whose steps meet the condition the cursor stays on the screen, every
next call that meets it ends, and `lineJump` ends at the margin of the next row, or of
the last one. -/
theorem cursor_stays_on_screen {start final : ScreenRun} {actions : List ScreenAction}
    (begins : start.screen.toCursor = .initial)
    (stays : Along step StaysOnScreen start actions)
    (ran : run step start actions = some final) :
    final.screen.toCursor.OnScreen ∧
      (∀ action, final.StaysOnScreen action → (final.step action).isSome) ∧
      ∃ after, final.screen.lineJump = some after ∧
        after.i = final.screen.iStartModule ∧
        after.j = if final.screen.j = HEIGHT - 1 then HEIGHT - 1 else final.screen.j + 1 := by
  have initial : start.screen.toCursor.Inside := by
    rw [begins]
    exact ⟨⟨by decide, by decide, by decide, by decide⟩, by decide, by decide⟩
  have inside : final.screen.toCursor.Inside :=
    Along.invariant inside_step initial stays ran
  refine ⟨inside.toOnScreen, fun action here => ?_, ?_⟩
  · obtain ⟨next, ended, -⟩ := step_inside inside here
    rw [ended]
    rfl
  · obtain ⟨after, jumped, cursor⟩ := Screen.lineJump_ends inside.right
    exact ⟨after, jumped, congrArg Cursor.i cursor, congrArg Cursor.j cursor⟩

/-- The terminal and the screen after the initialisation. -/
def blankScreen : ScreenRun where
  terminal := TerminalRun.zeroedTerminal.terminalInitializeC
  screen := { Cursor.initial with video := fun _ _ => 0 }

/-- A module gets the right half of the screen and its name is typed, corrected and ended. -/
def typesName : List ScreenAction :=
  [.changeStartModule 40 3, .putTerminalBuffer 104, .putTerminalBuffer 8, .putTerminalBuffer 105,
    .lineJump, .putChar 62]

theorem typesName_stays_on_screen : ∃ final, run step blankScreen typesName = some final ∧
    (final.screen.i, final.screen.j) = (41, 4) ∧ final.screen.toCursor.OnScreen := by
  have result : (run step blankScreen typesName).map
      (fun final => (final.screen.i, final.screen.j)) = some (41, 4) := by
    decide +kernel
  obtain ⟨final, ran, position⟩ := Option.map_eq_some_iff.mp result
  exact ⟨final, ran, position, (cursor_stays_on_screen rfl (by decide +kernel) ran).1⟩

/-- The cursor leaves the screen to the right, from where `lineJump` does not end, and to
the left. -/
theorem cursor_leaves_screen :
    (∃ final, run step blankScreen [.changeStartModule 80 3] = some final ∧
      final.screen.i = 80 ∧ ¬ final.screen.toCursor.OnScreen ∧
      ∀ fuel, Screen.lineJumpLoop fuel (final.screen.j + 1) final.screen = none) ∧
    ∃ final, run step blankScreen
        [.changeStartModule 40 3, .sys_call_clearC, .putTerminalBuffer 8] = some final ∧
      final.screen.i = -1 ∧ ¬ final.screen.toCursor.OnScreen := by
  constructor
  · refine ⟨_, rfl, rfl, ?_, ?_⟩
    · intro onScreen
      exact absurd onScreen.right (by decide)
    · intro fuel
      exact Screen.lineJumpLoop_right fuel (by decide)
  · have result : (run step blankScreen
        [.changeStartModule 40 3, .sys_call_clearC, .putTerminalBuffer 8]).map
          (fun final => final.screen.i) = some (-1) := by
      decide +kernel
    obtain ⟨final, ran, column⟩ := Option.map_eq_some_iff.mp result
    refine ⟨final, ran, column, fun onScreen => ?_⟩
    have left := onScreen.left
    rw [column] at left
    exact absurd left (by decide)

end ScreenRun

end SistemasOperativos.Kernel
