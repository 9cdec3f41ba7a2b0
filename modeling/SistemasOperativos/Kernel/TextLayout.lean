import SistemasOperativos.Foundation.Wrapping
import SistemasOperativos.Kernel.ScreenRows

/-!
# A text on the screen

`sys_call_writeC` on a cleared screen. The cursor breaks the rows where it is: at the
last column, with the walk of `lineJump` over the cells up to it, and with `scroll` in
the last row. What is on the screen after any text is nevertheless the end of the text
laid out in rows of 80 characters, and the cursor stands behind its last character
(`written_text_is_shown`).
-/

namespace SistemasOperativos.Kernel

open SistemasOperativos.Foundation SistemasOperativos.Semantics

namespace Screen

/-- `clear`. -/
def clear (screen : Screen) : Screen :=
  (List.range HEIGHT.toNat).foldl (fun screen (f : Nat) =>
    (List.range WIDTH.toNat).foldl (fun screen (c : Nat) => screen.setVideo f c 32) screen) screen

/-- One step of the loop of `sys_call_writeC`. -/
def writeChar (screen : Screen) (c : UInt8) : Option Screen :=
  if c = 10 then screen.lineJump else some (screen.putChar c)

/-- `sys_call_writeC` for the `length` characters from `msg` on. Only the standard output
is written to. -/
def sys_call_writeC (screen : Screen) (stdout : UInt32) (msg : List UInt8) : Option Screen :=
  if stdout = 0 then run writeChar screen msg else some screen

/-- `clear` is `clearRow` for every row. -/
theorem clear_eq_clearRow (screen : Screen) :
    screen.clear = (List.range 25).foldl (fun screen (f : Nat) => screen.clearRow f) screen := by
  apply List.foldl_ext
  intro screen f row
  apply List.foldl_ext
  intro screen c column
  have inside : validPosition f c = true := by
    have below := List.mem_range.mp row
    have left := List.mem_range.mp column
    simp only [HEIGHT, WIDTH] at below left
    exact (validPosition_iff f c).mpr (by omega)
  rw [clearPosition, if_neg (by rw [inside]; decide)]

theorem clear_cursor (screen : Screen) : screen.clear.toCursor = screen.toCursor := by
  rw [clear_eq_clearRow]
  exact foldl_cursor (fun screen n => clearRow_cursor screen n) _ _

/-- The first `count` rows that are cleared. -/
theorem clearRows_video (screen : Screen) {count : Nat} (rows : count ≤ 25)
    (row column : Int) :
    ((List.range count).foldl (fun screen (f : Nat) => screen.clearRow f) screen).video
        row column =
      if (0 ≤ row ∧ row < count) ∧ 0 ≤ column ∧ column < 80 then 32
      else screen.video row column := by
  induction count with
  | zero => rw [if_neg (by omega)]; rfl
  | succ count ih =>
      rw [List.range_succ, List.foldl_append, List.foldl_cons, List.foldl_nil,
        clearRow_video _ (by omega), ih (by omega)]
      split
      · rw [if_pos (by omega)]
      · split
        · rw [if_pos (by omega)]
        · rw [if_neg (by omega)]

/-- A cursor that is not in the last cell moves without a change of the screen. -/
theorem forwardCursor_video {screen : Screen} (row : screen.j ≠ 24) :
    screen.forwardCursor.video = screen.video := by
  unfold forwardCursor HEIGHT
  split
  · rw [if_neg (by omega)]
  · rfl

/-- So does `lineJump` above the last row. -/
theorem lineJumpLoop_video {fuel : Nat} {screen after : Screen} (row : screen.j ≠ 24)
    (looped : lineJumpLoop fuel (screen.j + 1) screen = some after) :
    after.video = screen.video := by
  induction fuel generalizing screen with
  | zero => cases looped
  | succ fuel ih =>
      rw [lineJumpLoop, if_neg (by omega)] at looped
      have moved := forwardCursor_cursor screen
      rw [← forwardCursor_video row]
      by_cases last : screen.i = 79
      · rw [if_pos last, if_neg row] at moved
        have below : screen.forwardCursor.j = screen.j + 1 := by rw [moved]
        cases fuel with
        | zero => cases looped
        | succ fuel =>
            rw [lineJumpLoop, if_pos below] at looped
            cases looped
            rfl
      · rw [if_neg last] at moved
        have same : screen.forwardCursor.j = screen.j := by rw [moved]
        rw [← same] at looped row
        exact ih row looped

/-- What the end of a row does, by a newline or behind the last column. -/
structure RowEnds (screen after : Screen) : Prop where
  cursor : after.toCursor =
    { screen.toCursor with
      i := screen.iStartModule, j := if screen.j = 24 then 24 else screen.j + 1 }
  video : after.video = if screen.j = 24 then screen.scroll.video else screen.video

theorem forwardCursor_rowEnds {screen : Screen} (last : screen.i = 79) :
    RowEnds screen screen.forwardCursor := by
  have moved := forwardCursor_cursor screen
  rw [if_pos last] at moved
  refine ⟨moved, ?_⟩
  by_cases bottom : screen.j = 24
  · simp only [forwardCursor, WIDTH, HEIGHT, last, bottom]
    rfl
  · rw [if_neg bottom, forwardCursor_video bottom]

theorem lineJump_rowEnds {screen : Screen} (column : screen.i < 80) :
    ∃ after, screen.lineJump = some after ∧ RowEnds screen after := by
  obtain ⟨after, jumped, cursor⟩ := lineJump_ends column
  refine ⟨after, jumped, cursor, ?_⟩
  by_cases bottom : screen.j = 24
  · have scrolled : screen.lineJump = some screen.scroll := by simp [lineJump, HEIGHT, bottom]
    rw [jumped] at scrolled
    rw [if_pos bottom, Option.some.inj scrolled]
  · have looped : lineJumpLoop ((WIDTH - screen.i).toNat + 1) (screen.j + 1) screen =
        some after := by
      simpa [lineJump, HEIGHT, bottom] using jumped
    rw [if_neg bottom]
    exact lineJumpLoop_video bottom looped

/-- The rows below the header show the end of a text. -/
def ShowsRows (screen : Screen) (text : Wrapped UInt8) : Prop :=
  ∀ row column : Nat, row < 22 → column < 80 →
    screen.video (3 + row) column = text.shown 32 22 row column

/-- The cursor is behind the last character of a text, with the default margins. -/
def AtEnd (screen : Screen) (text : Wrapped UInt8) : Prop :=
  screen.toCursor =
    { Cursor.initial with i := text.last.length, j := 3 + (min text.complete.length 21 : Nat) }

/-- The screen after a text was written. -/
structure Shows (screen : Screen) (text : Wrapped UInt8) : Prop where
  rows : screen.ShowsRows text
  cursor : screen.AtEnd text
  inside : text.last.length < 80

theorem ShowsRows.printChar {screen : Screen} {text : Wrapped UInt8}
    (shows : screen.ShowsRows text) (cursor : screen.AtEnd text)
    (inside : text.last.length < 80) (c : UInt8) :
    (screen.printChar screen.j screen.i c).ShowsRows (text.append c) := by
  intro row column low left
  have i : screen.i = text.last.length := congrArg Cursor.i cursor
  have j : screen.j = 3 + (min text.complete.length 21 : Nat) := congrArg Cursor.j cursor
  have valid : validPosition screen.j screen.i = true :=
    (validPosition_iff _ _).mpr (by omega)
  rw [printChar_video, Wrapped.shown_append (by decide), shows row column low left]
  simp only [valid, and_true]
  split
  · rw [if_pos (by omega)]
  · rw [if_neg (by omega)]

/-- The end of a row is a new row of the text. -/
theorem Shows.newRow {screen after : Screen} {text : Wrapped UInt8}
    (shows : screen.ShowsRows text) (margin : screen.jStartModule = 3)
    (left : screen.iStartModule = 0)
    (row : screen.j = 3 + (min text.complete.length 21 : Nat))
    (ends : RowEnds screen after) : after.Shows text.newRow := by
  have rows := text.rows_length
  refine ⟨fun row column low inside => ?_, ?_, Nat.zero_lt_succ 79⟩
  · rw [ends.video]
    by_cases bottom : screen.j = 24
    · rw [if_pos bottom, scroll_video screen (by omega), if_pos (by omega), margin,
        Wrapped.shown_newRow_full (by decide) (by omega) low]
      by_cases last : row = 21
      · rw [if_pos (by omega), if_pos last]
      · rw [if_neg (by omega), if_pos (by omega), if_neg (by omega),
          ← shows (row + 1) column (by omega) inside]
        congr 1
    · rw [if_neg bottom, Wrapped.shown_newRow (by omega)]
      exact shows row column low inside
  · have complete : text.newRow.complete.length = text.complete.length + 1 := rows
    have below : (if screen.j = 24 then (24 : Int) else screen.j + 1) =
        3 + (min (text.complete.length + 1) 21 : Nat) := by
      split <;> omega
    rw [AtEnd, ends.cursor, complete, below]
    simp only [Cursor.initial, margin, left, Wrapped.newRow, List.length_nil, Nat.cast_zero]

/-- One character. -/
theorem Shows.writeChar {screen : Screen} {text : Wrapped UInt8} (shows : screen.Shows text)
    (c : UInt8) :
    ∃ after, screen.writeChar c = some after ∧ after.Shows (text.write 10 80 c) := by
  have i : screen.i = text.last.length := congrArg Cursor.i shows.cursor
  have j : screen.j = 3 + (min text.complete.length 21 : Nat) := congrArg Cursor.j shows.cursor
  have margin : screen.jStartModule = 3 := congrArg Cursor.jStartModule shows.cursor
  have left : screen.iStartModule = 0 := congrArg Cursor.iStartModule shows.cursor
  have inside := shows.inside
  unfold Screen.writeChar Wrapped.write
  by_cases newline : c = 10
  · rw [if_pos newline, if_pos newline]
    obtain ⟨after, jumped, ends⟩ := @lineJump_rowEnds screen (by omega)
    exact ⟨after, jumped, Shows.newRow shows.rows margin left j ends⟩
  · rw [if_neg newline, if_neg newline]
    refine ⟨_, rfl, ?_⟩
    have printed := shows.rows.printChar shows.cursor inside c
    have cursor := printChar_cursor screen screen.j screen.i c
    unfold putChar
    generalize screen.printChar screen.j screen.i c = before at printed cursor
    by_cases full : text.last.length + 1 = 80
    · rw [if_pos full]
      -- the character behind the last column of the row ends it
      refine Shows.newRow printed ?_ ?_ ?_ (forwardCursor_rowEnds ?_) <;> rw [cursor]
      · exact margin
      · exact left
      · exact j
      · omega
    · rw [if_neg full]
      have more : (text.append c).last.length = text.last.length + 1 := List.length_append
      have column : ¬ before.i = 79 := by
        rw [cursor]
        omega
      have moved := forwardCursor_cursor before
      rw [if_neg column, cursor] at moved
      have same : before.forwardCursor.video = before.video := by
        unfold forwardCursor WIDTH
        rw [if_neg (by omega)]
      refine ⟨fun row column low inside => ?_, ?_, by omega⟩
      · rw [same]
        exact printed row column low inside
      · rw [AtEnd, moved, shows.cursor, more]
        rfl

/-- The cleared screen shows the text without characters. -/
theorem clear_shows (screen : Screen) (cursor : screen.toCursor = Cursor.initial) :
    screen.clear.Shows Wrapped.empty := by
  refine ⟨fun row column low left => ?_, ?_, by decide⟩
  · rw [clear_eq_clearRow, clearRows_video screen (le_refl _), if_pos (by omega),
      Wrapped.shown_eq]
    rcases row with - | row <;> rfl
  · rw [AtEnd, clear_cursor, cursor]
    rfl

/-- After any text. -/
theorem Shows.writeChars {screen : Screen} {text : Wrapped UInt8} (shows : screen.Shows text)
    (msg : List UInt8) :
    ∃ after, run Screen.writeChar screen msg = some after ∧
      after.Shows (msg.foldl (Wrapped.write 10 80) text) := by
  induction msg generalizing screen text with
  | nil => exact ⟨screen, rfl, shows⟩
  | cons c msg ih =>
      obtain ⟨next, written, here⟩ := shows.writeChar c
      obtain ⟨after, ran, ending⟩ := ih here
      exact ⟨after, run_cons_eq_some.mpr ⟨next, written, ran⟩, ending⟩

/-- Below the header the screen shows the last 22 rows of the text, or all of them and
blank ones, and the cursor is at its end. -/
theorem written_text_is_shown (video : Int → Int → UInt8) (msg : List UInt8) :
    ∃ after, sys_call_writeC (clear ⟨.initial, video⟩) 0 msg = some after ∧
      (∀ row column : Nat, row < 22 → column < 80 →
        after.video (3 + row) column =
          ((((wrap 10 80 msg).bottom 22)[row]?.getD [])[column]?).getD 32) ∧
      after.i = (wrap 10 80 msg).last.length ∧
      after.j = 3 + (min ((wrap 10 80 msg).rows.length - 1) 21 : Nat) := by
  obtain ⟨after, ran, shows⟩ := (clear_shows ⟨.initial, video⟩ rfl).writeChars msg
  refine ⟨after, by rw [sys_call_writeC, if_pos rfl, ran], shows.rows,
    congrArg Cursor.i shows.cursor, ?_⟩
  rw [Wrapped.rows_length, Nat.add_sub_cancel]
  exact congrArg Cursor.j shows.cursor

end Screen

end SistemasOperativos.Kernel
