import Mathlib.Data.List.Basic
import Mathlib.Tactic.Ring

/-!
# Texts in rows of a fixed width

A text is laid out in rows: a new one begins behind every newline, and behind every
character that fills its row. `Wrapped.shown` is what a window over the last rows shows
of it, with blanks where there is no text. A character that is appended changes one cell
of the window (`shown_append`), and a new row moves the window on once it is full
(`shown_newRow_full`).
-/

namespace SistemasOperativos.Foundation

universe u

variable {α : Type u}

/-- There is nothing behind the last element of a list. -/
theorem getElem?_behind {xs : List α} (x : α) {n : Nat} (behind : xs.length < n) :
    (xs ++ [x])[n]? = none := by
  apply List.getElem?_eq_none
  simp only [List.length_append, List.length_singleton]
  omega

/-- A text in rows: the complete ones, and the one at its end. -/
structure Wrapped (α : Type u) where
  complete : List (List α)
  last : List α

namespace Wrapped

/-- A text without characters has one row. -/
def empty : Wrapped α := ⟨[], []⟩

def rows (text : Wrapped α) : List (List α) := text.complete ++ [text.last]

def append (text : Wrapped α) (c : α) : Wrapped α := { text with last := text.last ++ [c] }

def newRow (text : Wrapped α) : Wrapped α := ⟨text.rows, []⟩

/-- The text with one more character. -/
def write [DecidableEq α] (newline : α) (width : Nat) (text : Wrapped α) (c : α) : Wrapped α :=
  if c = newline then text.newRow
  else if text.last.length + 1 = width then (text.append c).newRow
  else text.append c

/-- The last `count` rows of the text, or all of them. -/
def bottom (count : Nat) (text : Wrapped α) : List (List α) :=
  text.rows.drop (text.rows.length - count)

/-- What a window of `count` rows shows of the text in a row and a column. -/
def shown (blank : α) (count : Nat) (text : Wrapped α) (row column : Nat) : α :=
  ((((text.bottom count)[row]?).getD [])[column]?).getD blank

/-- A wrapped text has one row more than complete ones. -/
theorem rows_length (text : Wrapped α) : text.rows.length = text.complete.length + 1 := by
  simp [rows]

/-- A new row is an empty one at the end. -/
theorem rows_newRow (text : Wrapped α) : text.newRow.rows = text.rows ++ [[]] := rfl

variable {blank : α} {count : Nat} {text : Wrapped α}

/-- The rows that the window shows, counted from the first row of the text. -/
theorem shown_eq (row column : Nat) :
    text.shown blank count row column =
      ((text.rows[text.rows.length - count + row]?.getD [])[column]?).getD blank := by
  rw [shown, bottom, List.getElem?_drop]

/-- A character is shown at the end of the last row. -/
theorem shown_append (visible : 0 < count) (c : α) (row column : Nat) :
    (text.append c).shown blank count row column =
      if row = min text.complete.length (count - 1) ∧ column = text.last.length then c
      else text.shown blank count row column := by
  rw [shown_eq, shown_eq, rows_length, rows_length]
  simp only [append, rows]
  by_cases lastRow : text.complete.length + 1 - count + row = text.complete.length
  · have here : row = min text.complete.length (count - 1) := by omega
    rw [lastRow, List.getElem?_concat_length, List.getElem?_concat_length]
    simp only [here, true_and, Option.getD_some]
    rcases Nat.lt_trichotomy column text.last.length with before | rfl | behind
    · rw [if_neg (by omega), List.getElem?_append_left before]
    · rw [if_pos rfl, List.getElem?_concat_length, Option.getD_some]
    · rw [if_neg (by omega), getElem?_behind c behind,
        List.getElem?_eq_none (Nat.le_of_lt behind)]
  · rw [if_neg (by omega)]
    rcases Nat.lt_or_gt_of_ne lastRow with before | behind
    · rw [List.getElem?_append_left before, List.getElem?_append_left before]
    · rw [getElem?_behind _ behind, getElem?_behind _ behind]

/-- While the window has room a new row shows nothing. -/
theorem shown_newRow (room : text.rows.length < count) (row column : Nat) :
    text.newRow.shown blank count row column = text.shown blank count row column := by
  rw [shown_eq, shown_eq, rows_newRow, List.length_append, List.length_singleton]
  have top : text.rows.length + 1 - count = text.rows.length - count := by omega
  rw [top]
  rcases Nat.lt_trichotomy (text.rows.length - count + row) text.rows.length
    with before | last | behind
  · rw [List.getElem?_append_left before]
  · rw [last, List.getElem?_concat_length, List.getElem?_eq_none (Nat.le_refl _)]
    rfl
  · rw [getElem?_behind _ behind, List.getElem?_eq_none (Nat.le_of_lt behind)]

/-- The full window moves on, and its last row is blank. -/
theorem shown_newRow_full (visible : 0 < count) (full : count ≤ text.rows.length)
    {row : Nat} (inside : row < count) (column : Nat) :
    text.newRow.shown blank count row column =
      if row = count - 1 then blank else text.shown blank count (row + 1) column := by
  rw [shown_eq, shown_eq, rows_newRow, List.length_append, List.length_singleton]
  by_cases last : row = count - 1
  · have behind : text.rows.length + 1 - count + row = text.rows.length := by omega
    rw [if_pos last, behind, List.getElem?_concat_length]
    rfl
  · have moved : text.rows.length + 1 - count + row = text.rows.length - count + (row + 1) := by
      omega
    rw [if_neg last, moved, List.getElem?_append_left (by omega)]

end Wrapped

/-- Lay out a text. -/
def wrap [DecidableEq α] (newline : α) (width : Nat) (text : List α) : Wrapped α :=
  text.foldl (Wrapped.write newline width) Wrapped.empty

/-- A newline behind a full row leaves an empty one. -/
example : (wrap 0 3 [1, 2, 3, 0, 4]).rows = [[1, 2, 3], [], [4]] := by decide

end SistemasOperativos.Foundation
