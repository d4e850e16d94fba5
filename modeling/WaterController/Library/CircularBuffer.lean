import Mathlib.Data.List.Rotate
import WaterController.Library.Ring

/-!
# Circular buffers

A row of cells that is written round and round.  The cells in use, in their order in
memory, are what was written last, with its newer part in front of its older part
(`Holds`).  So they are what was written last, rotated (`Holds.isRotated`).
-/

namespace Circular

variable {α : Type*} {capacity : Nat}

/-- A circular buffer with a fixed number of cells. -/
structure Buffer (α : Type*) (capacity : Nat) where
  cells : List α
  /-- How many cells are in use. -/
  len : Nat
  /-- The cell that is written next. -/
  pos : Nat
  length_cells : cells.length = capacity
  len_le : len ≤ capacity
  pos_lt : pos < capacity

namespace Buffer

/-- Cells that all have one value, with none in use. -/
def filled (x : α) (hpos : 0 < capacity) : Buffer α capacity where
  cells := List.replicate capacity x
  len := 0
  pos := 0
  length_cells := List.length_replicate
  len_le := Nat.zero_le capacity
  pos_lt := hpos

/-- Write the next cell. -/
def push (b : Buffer α capacity) (x : α) : Buffer α capacity where
  cells := b.cells.set b.pos x
  len := if b.len < capacity then b.len + 1 else b.len
  pos := (b.pos + 1) % capacity
  length_cells := by rw [List.length_set, b.length_cells]
  len_le := by
    have hle := b.len_le
    split <;> omega
  pos_lt := Nat.mod_lt _ (Nat.zero_lt_of_lt b.pos_lt)

theorem cells_push (b : Buffer α capacity) (x : α) : (b.push x).cells = b.cells.set b.pos x := rfl

theorem len_push (b : Buffer α capacity) (x : α) :
    (b.push x).len = if b.len < capacity then b.len + 1 else b.len := rfl

theorem pos_push (b : Buffer α capacity) (x : α) : (b.push x).pos = (b.pos + 1) % capacity := rfl

/-- The cells in use. -/
def held (b : Buffer α capacity) : List α := b.cells.take b.len

theorem length_held (b : Buffer α capacity) : b.held.length = b.len := by
  rw [held, List.length_take, b.length_cells, Nat.min_eq_left b.len_le]

end Buffer

/-- The buffer has what came last of a list. -/
inductive Holds (b : Buffer α capacity) (xs : List α) : Prop where
  /-- It is not full, and what it has is in order. -/
  | filling (hlen : b.len < capacity) (hpos : b.pos = b.len)
      (hheld : b.cells.take b.len = xs.rtake capacity)
  /-- It is full, and the newer part is in front of the older part. -/
  | full (hlen : b.len = capacity) (newer older : List α) (hpos : b.pos = newer.length)
      (hcells : b.cells = newer ++ older) (hlast : xs.rtake capacity = older ++ newer)

namespace Holds

/-- A buffer with no cell in use has nothing. -/
theorem filled (x : α) (hpos : 0 < capacity) : Holds (Buffer.filled x hpos) [] :=
  by
  refine .filling hpos rfl ?_
  rw [List.rtake_nil]
  rfl

/-- A full buffer that is written from its first cell on. -/
theorem of_pos_zero {b : Buffer α capacity} {xs : List α} (hlen : b.len = capacity)
    (hpos : b.pos = 0) (hcells : b.cells = xs.rtake capacity) : Holds b xs :=
  .full hlen [] (xs.rtake capacity) hpos hcells (List.append_nil _).symm

/-- A write adds at the end, and lets what is oldest go when the buffer is full. -/
theorem push {b : Buffer α capacity} {xs : List α} (h : Holds b xs) (x : α) :
    Holds (b.push x) (xs ++ [x]) := by
  have hcap : 0 < capacity := Nat.zero_lt_of_lt b.pos_lt
  have hpush := Ring.push_rtake hcap xs x
  cases h with
  | filling hlen hpos hheld =>
      have hshort : (xs.rtake capacity).length = b.len := by
        rw [← hheld]
        exact b.length_held
      rw [Ring.push, if_neg (by omega)] at hpush
      have hlen' : (b.push x).len = b.len + 1 := if_pos hlen
      have hcells' : (b.push x).cells.take (b.len + 1) = (xs ++ [x]).rtake capacity := by
        rw [Buffer.cells_push, hpos, ← hpush, ← hheld,
          List.take_succ_eq_append_getElem (by rw [List.length_set, b.length_cells]; exact hlen),
          List.take_set_of_le (Nat.le_refl _), List.getElem_set_self]
      rcases Nat.lt_or_ge (b.len + 1) capacity with hmore | hdone
      · refine .filling (by omega) ?_ (by rw [hlen', hcells'])
        rw [hlen', Buffer.pos_push, hpos]
        exact Nat.mod_eq_of_lt hmore
      -- the write used the last cell
      · have hlast : b.len + 1 = capacity := by omega
        refine of_pos_zero (by omega) ?_ ?_
        · rw [Buffer.pos_push, hpos, hlast]
          exact Nat.mod_self capacity
        · rw [← hcells', hlast, List.take_of_length_le (b.push x).length_cells.le]
  | full hlen newer older hpos hcells hlast =>
      have hlen' : (b.push x).len = capacity := by
        rw [Buffer.len_push, if_neg (by omega), hlen]
      have hsum : newer.length + older.length = capacity := by
        rw [← List.length_append, ← hcells, b.length_cells]
      have hlt := b.pos_lt
      cases older with
      | nil =>
          rw [List.length_nil] at hsum
          omega
      | cons oldest older =>
          have hcells' : (b.push x).cells = newer ++ [x] ++ older := by
            rw [Buffer.cells_push, hcells, hpos, List.set_append_right _ _ (Nat.le_refl _),
              Nat.sub_self, List.set_cons_zero, List.append_assoc, List.singleton_append]
          rw [Ring.push, if_pos (by rw [hlast, List.length_append]; omega), hlast,
            List.cons_append, List.tail_cons, List.append_assoc] at hpush
          rcases Nat.lt_or_ge (newer.length + 1) capacity with hmore | hdone
          · refine .full hlen' (newer ++ [x]) older ?_ hcells' hpush.symm
            rw [Buffer.pos_push, hpos, List.length_append, List.length_singleton]
            exact Nat.mod_eq_of_lt hmore
          -- the write used the last cell
          · rw [List.length_cons] at hsum
            obtain rfl : older = [] := List.length_eq_zero_iff.mp (by omega)
            refine of_pos_zero hlen' ?_ ?_
            · rw [Buffer.pos_push, hpos, show newer.length + 1 = capacity by omega]
              exact Nat.mod_self capacity
            · rw [hcells', ← hpush, List.append_nil, List.nil_append]

/-- The cells in use are what came last, from some place on. -/
theorem isRotated {b : Buffer α capacity} {xs : List α} (h : Holds b xs) :
    b.held.IsRotated (xs.rtake capacity) := by
  cases h with
  | filling hlen hpos hheld =>
      rw [Buffer.held, hheld]
  | full hlen newer older hpos hcells hlast =>
      rw [Buffer.held, hlen, List.take_of_length_le b.length_cells.le, hcells, hlast]
      exact List.isRotated_append

end Holds

end Circular
