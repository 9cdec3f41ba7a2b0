import SistemasOperativos.Kernel.Screen

/-!
# The rows of the screen

What the functions of video.c do to the array `video`, cell by cell. `clearRow`,
`copyRow` and `scroll` go over the columns and rows one after another and in place;
`clearRow_video`, `copyRow_video` and `scroll_video` say what comes out of it.

The three rows above the cursor belong to the header. Nothing tests for them: they are
kept because the cursor never gets above the fourth row and no margin above it is
accepted (`header_kept`).
-/

namespace SistemasOperativos.Kernel

open SistemasOperativos.Semantics

namespace Screen

/-- A character is stored at its place only. -/
theorem setVideo_video (screen : Screen) (f c : Int) (a : UInt8) (row column : Int) :
    (screen.setVideo f c a).video row column =
      if row = f ∧ column = c then a else screen.video row column := by
  by_cases sameRow : row = f
  · subst sameRow
    by_cases sameColumn : column = c <;> simp [setVideo, Function.update, sameColumn]
  · simp [setVideo, Function.update, sameRow]

/-- `validPosition` accepts the places of the screen. -/
theorem validPosition_iff (f c : Int) :
    validPosition f c = true ↔ (0 ≤ f ∧ f < 25) ∧ 0 ≤ c ∧ c < 80 := by
  have test : validPosition f c = !decide (25 ≤ f ∨ 80 ≤ c ∨ f < 0 ∨ c < 0) := rfl
  rw [test, Bool.not_eq_true', decide_eq_false_iff_not]
  omega

/-- `printChar` stores at its place, if that is one of the screen. -/
theorem printChar_video (screen : Screen) (f c : Int) (a : UInt8) (row column : Int) :
    (screen.printChar f c a).video row column =
      if (row = f ∧ column = c) ∧ validPosition f c then a else screen.video row column := by
  unfold printChar
  by_cases valid : validPosition f c = true
  · simp [valid, setVideo_video]
  · simp [valid]

/-- `clearPosition` prints a blank. -/
theorem clearPosition_eq_printChar (screen : Screen) (f c : Int) :
    screen.clearPosition f c = screen.printChar f c 32 := rfl

/-- The first `count` steps of `clearRow`. -/
theorem clearPositions_video (screen : Screen) {f : Int} (onScreen : 0 ≤ f ∧ f < 25)
    {count : Nat} (columns : count ≤ 80) (row column : Int) :
    ((List.range count).foldl (fun screen (k : Nat) => screen.clearPosition f k) screen).video
        row column =
      if row = f ∧ 0 ≤ column ∧ column < count then 32 else screen.video row column := by
  induction count with
  | zero => simp
  | succ count ih =>
      have valid : validPosition f count = true :=
        (validPosition_iff f count).mpr ⟨onScreen, by omega⟩
      rw [List.range_succ, List.foldl_append, List.foldl_cons, List.foldl_nil,
        clearPosition_eq_printChar, printChar_video, ih (by omega)]
      simp only [valid, and_true]
      split
      · rw [if_pos (by omega)]
      · split
        · rw [if_pos (by omega)]
        · rw [if_neg (by omega)]

/-- `clearRow` leaves a row of spaces. -/
theorem clearRow_video (screen : Screen) {f : Int} (onScreen : 0 ≤ f ∧ f < 25)
    (row column : Int) :
    (screen.clearRow f).video row column =
      if row = f ∧ 0 ≤ column ∧ column < 80 then 32 else screen.video row column :=
  clearPositions_video screen onScreen (le_refl _) row column

/-- A loop whose body leaves a row leaves it. -/
theorem foldl_row {body : Screen → Nat → Screen} {row : Int} {indices : List Nat}
    (kept : ∀ screen, ∀ n ∈ indices, (body screen n).video row = screen.video row)
    (screen : Screen) : (indices.foldl body screen).video row = screen.video row := by
  induction indices generalizing screen with
  | nil => rfl
  | cons n indices ih =>
      rw [List.foldl_cons, ih fun screen m member => kept screen m (List.mem_cons_of_mem _ member)]
      exact kept screen n List.mem_cons_self

/-- `printChar` leaves the other rows. -/
theorem printChar_row (screen : Screen) {f row : Int} (different : row ≠ f) (c : Int)
    (a : UInt8) : (screen.printChar f c a).video row = screen.video row := by
  funext column
  rw [printChar_video, if_neg (by omega)]

/-- On the screen or not, `clearRow` leaves the other rows. -/
theorem clearRow_row (screen : Screen) {f row : Int} (different : row ≠ f) :
    (screen.clearRow f).video row = screen.video row :=
  foldl_row (fun screen n _ => printChar_row screen different n 32) screen

/-- The first `count` steps of `copyRow`. -/
theorem copyCells_video (screen : Screen) {source target : Int}
    (onScreen : 0 ≤ source ∧ source < 25) (apart : source ≠ target) {count : Nat}
    (columns : count ≤ 80) (row column : Int) :
    ((List.range count).foldl (fun screen (k : Nat) =>
        (screen.setVideo target k (screen.video source k)).clearPosition source k) screen).video
        row column =
      if 0 ≤ column ∧ column < count then
        if row = target then screen.video source column
        else if row = source then 32
        else screen.video row column
      else screen.video row column := by
  induction count generalizing row column with
  | zero => rw [if_neg (by omega)]; rfl
  | succ count ih =>
      have valid : validPosition source count = true :=
        (validPosition_iff source count).mpr ⟨onScreen, by omega⟩
      rw [List.range_succ, List.foldl_append, List.foldl_cons, List.foldl_nil,
        clearPosition_eq_printChar, printChar_video, setVideo_video, ih (by omega),
        ih (by omega)]
      simp only [valid, and_true]
      by_cases here : column = count
      · subst here
        rw [if_neg (by omega : ¬ (0 ≤ (count : Int) ∧ (count : Int) < count)),
          if_neg (by omega : ¬ (0 ≤ (count : Int) ∧ (count : Int) < count)),
          if_pos (by omega : 0 ≤ (count : Int) ∧ (count : Int) < (count + 1 : Nat))]
        by_cases copied : row = target
        · simp [copied, apart.symm]
        · simp [copied]
      · have further : (0 ≤ column ∧ column < (count + 1 : Nat)) ↔
            (0 ≤ column ∧ column < count) := by omega
        simp only [here, and_false, if_false, further]

/-- `copyRow` moves a row and leaves spaces. -/
theorem copyRow_video (screen : Screen) {source target : Int}
    (onScreen : 0 ≤ source ∧ source < 25) (apart : source ≠ target) (row column : Int) :
    (screen.copyRow source target).video row column =
      if 0 ≤ column ∧ column < 80 then
        if row = target then screen.video source column
        else if row = source then 32
        else screen.video row column
      else screen.video row column :=
  copyCells_video screen onScreen apart (le_refl _) row column

/-- The first `count` steps of the loop of `scroll`, from the margin `top` on. -/
theorem copyRows_video (screen : Screen) {top : Int} (onScreen : 0 ≤ top) {count : Nat}
    (rows : top + count < 25) (row column : Int) :
    ((List.range count).foldl (fun rows (n : Nat) =>
        let auxf := top + 1 + (n : Int)
        rows.copyRow auxf (auxf - 1)) screen).video row column =
      if 0 ≤ column ∧ column < 80 then
        if top ≤ row ∧ row < top + count then screen.video (row + 1) column
        else if row = top + count ∧ 0 < count then 32
        else screen.video row column
      else screen.video row column := by
  induction count generalizing row column with
  | zero => simp
  | succ count ih =>
      rw [List.range_succ, List.foldl_append, List.foldl_cons, List.foldl_nil]
      dsimp only
      rw [copyRow_video _ (by omega) (by omega), ih (by omega), ih (by omega)]
      by_cases inside : 0 ≤ column ∧ column < 80
      · simp only [inside, and_self, if_true]
        by_cases last : row = top + 1 + count - 1
        · rw [if_pos last, if_neg (by omega), if_neg (by omega), if_pos (by omega), last]
          congr 1
          omega
        · rw [if_neg last]
          by_cases cleared : row = top + 1 + count
          · rw [if_pos cleared, if_neg (by omega), if_pos (by omega)]
          · rw [if_neg cleared]
            by_cases moved : top ≤ row ∧ row < top + count
            · rw [if_pos moved, if_pos (by omega)]
            · rw [if_neg moved, if_neg (by omega), if_neg (by omega), if_neg (by omega)]
      · simp only [inside, if_false]

/-- `scroll` moves the rows below the margin up and clears the last one. -/
theorem scroll_video (screen : Screen) (margin : 0 ≤ screen.jStartModule) (row column : Int) :
    screen.scroll.video row column =
      if 0 ≤ column ∧ column < 80 then
        if row = 24 then 32
        else if screen.jStartModule ≤ row ∧ row < 24 then screen.video (row + 1) column
        else screen.video row column
      else screen.video row column := by
  have cleared : screen.scroll.video =
      (((List.range (25 - (screen.jStartModule + 1)).toNat).foldl (fun rows (n : Nat) =>
        let auxf := screen.jStartModule + 1 + (n : Int)
        rows.copyRow auxf (auxf - 1)) screen).clearRow 24).video := rfl
  rw [cleared, clearRow_video _ (by decide)]
  by_cases last : row = 24 ∧ 0 ≤ column ∧ column < 80
  · rw [if_pos last, if_pos last.2, if_pos last.1]
  · rw [if_neg last]
    by_cases below : screen.jStartModule < 25
    · rw [copyRows_video screen margin (by omega)]
      by_cases inside : 0 ≤ column ∧ column < 80
      · rw [if_pos inside, if_pos inside, if_neg (by omega : ¬ row = 24)]
        by_cases moved : screen.jStartModule ≤ row ∧ row < 24
        · rw [if_pos (by omega), if_pos moved]
        · rw [if_neg (by omega), if_neg (by omega), if_neg moved]
      · rw [if_neg inside, if_neg inside]
    · have none : (25 - (screen.jStartModule + 1)).toNat = 0 := by omega
      rw [none]
      split
      · rw [if_neg (by omega), if_neg (by omega)]
        rfl
      · rfl

/-- The three rows above the cursor are those of the screen `original`, and the cursor
and the margin are below them. -/
structure HeaderKept (original screen : Screen) : Prop where
  header : ∀ row, row < 3 → screen.video row = original.video row
  top : 3 ≤ screen.j
  bottom : screen.j < 25
  margin : 3 ≤ screen.jStartModule

namespace HeaderKept

variable {original screen : Screen}

/-- Printing below the header keeps it. -/
theorem printChar (kept : HeaderKept original screen) {f : Int} (below : 3 ≤ f) (c : Int)
    (a : UInt8) : HeaderKept original (screen.printChar f c a) := by
  have cursor := printChar_cursor screen f c a
  refine ⟨fun row above => ?_, ?_, ?_, ?_⟩
  · rw [printChar_row screen (by omega), kept.header row above]
  · rw [cursor]
    exact kept.top
  · rw [cursor]
    exact kept.bottom
  · rw [cursor]
    exact kept.margin

/-- `scroll` keeps the header. -/
theorem scroll (kept : HeaderKept original screen) : HeaderKept original screen.scroll := by
  have margin := kept.margin
  have cursor := scroll_cursor screen
  refine ⟨fun row above => ?_, ?_, ?_, ?_⟩
  · rw [← kept.header row above]
    funext column
    rw [scroll_video screen (by omega), if_neg (by omega : ¬ row = 24),
      if_neg (by omega : ¬ (screen.jStartModule ≤ row ∧ row < 24)), ite_self]
  · rw [cursor]
    exact (by decide : (3 : Int) ≤ 24)
  · rw [cursor]
    exact (by decide : (24 : Int) < 25)
  · rw [cursor]
    exact margin

/-- `forwardCursor` keeps the header. -/
theorem forwardCursor (kept : HeaderKept original screen) :
    HeaderKept original screen.forwardCursor := by
  have top := kept.top
  have bottom := kept.bottom
  unfold Screen.forwardCursor HEIGHT
  split
  · split
    · exact kept.scroll
    · exact ⟨kept.header, by dsimp only; omega, by dsimp only; omega, kept.margin⟩
  · exact ⟨kept.header, top, bottom, kept.margin⟩

/-- The loop of `lineJump`, ended or not, after any number of its steps. -/
theorem forwardCursors (kept : HeaderKept original screen) (steps : Nat) :
    HeaderKept original (Screen.forwardCursor^[steps] screen) := by
  induction steps with
  | zero => exact kept
  | succ steps ih =>
      rw [Function.iterate_succ_apply']
      exact ih.forwardCursor

/-- `putChar` keeps the header. -/
theorem putChar (kept : HeaderKept original screen) (a : UInt8) :
    HeaderKept original (screen.putChar a) :=
  (kept.printChar kept.top screen.i a).forwardCursor

/-- The loop of `lineJump` keeps the header. -/
theorem lineJumpLoop (kept : HeaderKept original screen) {fuel : Nat} {aux : Int}
    {after : Screen} (looped : Screen.lineJumpLoop fuel aux screen = some after) :
    HeaderKept original after := by
  induction fuel generalizing screen with
  | zero => cases looped
  | succ fuel ih =>
      rw [Screen.lineJumpLoop] at looped
      split at looped
      · cases looped
        exact kept
      · exact ih kept.forwardCursor looped

/-- `lineJump` keeps the header. -/
theorem lineJump (kept : HeaderKept original screen) {after : Screen}
    (jumped : screen.lineJump = some after) : HeaderKept original after := by
  unfold Screen.lineJump at jumped
  split at jumped
  · cases jumped
    exact kept.scroll
  · exact kept.lineJumpLoop jumped

/-- `backInLine` keeps the header. -/
theorem backInLine (kept : HeaderKept original screen) :
    HeaderKept original screen.backInLine := by
  unfold Screen.backInLine
  split
  · exact kept
  · exact ⟨kept.header, kept.top, kept.bottom, kept.margin⟩

/-- `changeStartModule` keeps the header. -/
theorem changeStartModule (kept : HeaderKept original screen) (f c : Int) :
    HeaderKept original (screen.changeStartModule f c) := by
  unfold Screen.changeStartModule
  split
  · exact kept
  · exact ⟨kept.header, kept.top, kept.bottom, by dsimp only; omega⟩

/-- `sys_call_clearC` keeps the header. -/
theorem sys_call_clearC (kept : HeaderKept original screen) :
    HeaderKept original screen.sys_call_clearC := by
  have cursor := sys_call_clearC_cursor screen
  have cleared : screen.sys_call_clearC.video =
      ((List.range 23).foldl (fun screen (n : Nat) => screen.clearRow (25 - n)) screen).video := rfl
  refine ⟨fun row above => ?_, ?_, ?_, ?_⟩
  · rw [cleared, ← kept.header row above]
    apply foldl_row
    intro screen n member
    have bound := List.mem_range.mp member
    exact clearRow_row screen (by omega)
  · rw [cursor]
  · rw [cursor]
    exact (by decide : (3 : Int) < 25)
  · rw [cursor]
    exact kept.margin

/-- Every call on the screen keeps the header. -/
theorem perform (call : ScreenCall) (after : Screen) (kept : HeaderKept original screen)
    (performed : screen.perform call = some after) : HeaderKept original after := by
  cases call with
  | backInLine =>
      cases performed
      exact kept.backInLine
  | putChar a =>
      cases performed
      exact kept.putChar a
  | lineJump => exact kept.lineJump performed

end HeaderKept

end Screen

namespace ScreenRun

/-- No call writes into the header, whatever its arguments are. -/
theorem step_headerKept {original : Screen} (state : ScreenRun) (action : ScreenAction)
    (next : ScreenRun) (kept : original.HeaderKept state.screen)
    (stepped : state.step action = some next) : original.HeaderKept next.screen := by
  cases action with
  | putChar a =>
      cases stepped
      exact kept.putChar a
  | lineJump =>
      obtain ⟨after, jumped, rfl⟩ := Option.map_eq_some_iff.mp stepped
      exact kept.lineJump jumped
  | putTerminalBuffer c =>
      obtain ⟨after, echoed, rfl⟩ := Option.map_eq_some_iff.mp stepped
      exact run_invariant (fun _ call after kept => kept.perform call after) kept echoed
  | getTerminalBuffer length =>
      cases stepped
      exact kept
  | setEcho isEcho =>
      cases stepped
      exact kept
  | changeStartModule f c =>
      cases stepped
      exact kept.changeStartModule f c
  | sys_call_clearC =>
      cases stepped
      exact kept.sys_call_clearC

/-- In every run from the fourth row on the three rows above it stay as they were, also
after any number of steps of a `lineJump` that does not end. -/
theorem header_kept {start final : ScreenRun} {actions : List ScreenAction}
    (row : start.screen.j = 3) (margin : start.screen.jStartModule = 3)
    (ran : run step start actions = some final) :
    ∀ f c : Int, 0 ≤ f ∧ f < 3 → 0 ≤ c ∧ c < WIDTH →
      final.screen.video f c = start.screen.video f c ∧
        ∀ steps, (Screen.forwardCursor^[steps] final.screen).video f c =
          start.screen.video f c := by
  have initial : start.screen.HeaderKept start.screen :=
    ⟨fun _ _ => rfl, by omega, by omega, by omega⟩
  have kept := run_invariant step_headerKept initial ran
  intro f c inHeader _
  refine ⟨congrFun (kept.header f inHeader.2) c, fun steps => ?_⟩
  exact congrFun ((kept.forwardCursors steps).header f inHeader.2) c

/-- A margin below the last row, a line behind it, and a backspace left of the margin. -/
def usesMargins : List ScreenAction :=
  [.changeStartModule 79 25, .putTerminalBuffer 65, .lineJump, .setEcho false,
    .sys_call_clearC, .putTerminalBuffer 8, .changeStartModule 5 0]

theorem header_kept_usesMargins : ∃ final, run step blankScreen usesMargins = some final ∧
    final.screen.i = -1 ∧ final.screen.video 2 79 = 0 := by
  have result : (run step blankScreen usesMargins).map (fun final => final.screen.i) =
      some (-1) := by
    decide +kernel
  obtain ⟨final, ran, column⟩ := Option.map_eq_some_iff.mp result
  exact ⟨final, ran, column, (header_kept rfl rfl ran 2 79 (by decide) (by decide)).1⟩

end ScreenRun

end SistemasOperativos.Kernel
