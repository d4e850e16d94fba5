import Mathlib.Data.List.Basic

/-!
# A row of a terminal

The row that the cursor is in, cut at the cursor.  A character is put over what is under the
cursor, a backspace only moves the cursor, and a new line starts an empty row.
-/

/-- The row of the cursor, in front of it and from it on. -/
structure TerminalRow where
  before : List Char
  behind : List Char
deriving DecidableEq, Repr

namespace TerminalRow

def empty : TerminalRow := ⟨[], []⟩

def put (row : TerminalRow) (c : Char) : TerminalRow :=
  if c = '\n' then empty
  else if c = '\x08' then
    match row.before.getLast? with
    | some last => ⟨row.before.dropLast, last :: row.behind⟩
    | none => row
  else ⟨row.before ++ [c], row.behind.tail⟩

def write (row : TerminalRow) (text : List Char) : TerminalRow := text.foldl put row

/-- The row shows a text, with the cursor behind it. -/
def Shows (row : TerminalRow) (text : List Char) : Prop :=
  row.before = text ∧ ∀ c ∈ row.behind, c = ' '

theorem write_append (row : TerminalRow) (s t : List Char) :
    row.write (s ++ t) = (row.write s).write t := List.foldl_append

theorem shows_empty : empty.Shows [] := ⟨rfl, List.forall_mem_nil _⟩

/-- A line that is ended leaves an empty row. -/
theorem write_line (row : TerminalRow) (text : List Char) : row.write (text ++ ['\n']) = empty := by
  rw [write_append]
  rfl

/-- Lines that are ended leave an empty row. -/
theorem write_lines {α : Type*} (text : α → List Char) (lines : List α) :
    empty.write (lines.flatMap fun line => text line ++ ['\n']) = empty := by
  induction lines with
  | nil => rfl
  | cons line lines ih => rw [List.flatMap_cons, write_append, write_line, ih]

namespace Shows

variable {row : TerminalRow} {text : List Char}

/-- A character goes behind the text. -/
theorem put (h : row.Shows text) {c : Char} (hline : c ≠ '\n') (hback : c ≠ '\x08') :
    (row.put c).Shows (text ++ [c]) := by
  rw [TerminalRow.put, if_neg hline, if_neg hback]
  exact ⟨congrArg (· ++ [c]) h.1, fun d hd => h.2 d (List.mem_of_mem_tail hd)⟩

/-- A text goes behind the text. -/
theorem write (h : row.Shows text) {more : List Char}
    (hmore : ∀ c ∈ more, c ≠ '\n' ∧ c ≠ '\x08') : (row.write more).Shows (text ++ more) := by
  induction more generalizing row text with
  | nil => rwa [List.append_nil]
  | cons c more ih =>
      obtain ⟨⟨hline, hback⟩, hrest⟩ := List.forall_mem_cons.mp hmore
      have hnext := ih (h.put hline hback) hrest
      rwa [List.append_assoc, List.singleton_append] at hnext

/-- Back, a blank and back again: the last character is gone. -/
theorem rubOut (h : row.Shows text) (hne : text ≠ []) :
    (row.write ['\x08', ' ', '\x08']).Shows text.dropLast := by
  obtain ⟨before, behind⟩ := row
  obtain ⟨rfl, hblank⟩ := h
  have hback : TerminalRow.put ⟨before, behind⟩ '\x08' =
      ⟨before.dropLast, before.getLast hne :: behind⟩ := by
    rw [TerminalRow.put, if_neg (by decide), if_pos rfl, List.getLast?_eq_getLast_of_ne_nil hne]
  have hover : TerminalRow.put ⟨before.dropLast, before.getLast hne :: behind⟩ ' ' =
      ⟨before.dropLast ++ [' '], behind⟩ := by
    rw [TerminalRow.put, if_neg (by decide), if_neg (by decide)]
    rfl
  have hagain : TerminalRow.put ⟨before.dropLast ++ [' '], behind⟩ '\x08' =
      ⟨before.dropLast, ' ' :: behind⟩ := by
    rw [TerminalRow.put, if_neg (by decide), if_pos rfl]
    simp
  rw [TerminalRow.write, List.foldl_cons, List.foldl_cons, List.foldl_cons, List.foldl_nil, hback,
    hover, hagain]
  exact ⟨rfl, List.forall_mem_cons.mpr ⟨rfl, hblank⟩⟩

end Shows

end TerminalRow
