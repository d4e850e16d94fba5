import Mathlib.Data.List.Basic
import Mathlib.Tactic.Common

/-!
# Bytes by address

Bytes that are put in a row from an address on.  They are there afterwards, and every other
address has what it had.
-/

namespace ByteMemory

/-- The memory with the bytes from an address on. -/
def put (mem : Nat → UInt8) (a : Nat) : List UInt8 → Nat → UInt8
  | [] => mem
  | b :: bs => put (fun i => if i = a then b else mem i) (a + 1) bs

/-- The bytes are in the memory from an address on. -/
def Holds (mem : Nat → UInt8) (a : Nat) (bytes : List UInt8) : Prop :=
  ∀ j (h : j < bytes.length), mem (a + j) = bytes.get ⟨j, h⟩

variable {mem : Nat → UInt8} {a : Nat}

@[simp] theorem put_nil : put mem a [] = mem := rfl

/-- Bytes behind bytes are put behind them. -/
theorem put_append (bs cs : List UInt8) :
    put mem a (bs ++ cs) = put (put mem a bs) (a + bs.length) cs := by
  induction bs generalizing mem a with
  | nil => rfl
  | cons b bs ih =>
      rw [List.cons_append, put, put, ih, List.length_cons, Nat.add_assoc, Nat.add_comm 1]

theorem put_outside {bs : List UInt8} {i : Nat} (hi : i < a ∨ a + bs.length ≤ i) :
    put mem a bs i = mem i := by
  induction bs generalizing mem a with
  | nil => rfl
  | cons b bs ih =>
      rw [List.length_cons] at hi
      rw [put, ih (by omega), if_neg (by omega)]

theorem holds_put (bs : List UInt8) : Holds (put mem a bs) a bs := by
  induction bs generalizing mem a with
  | nil => exact fun j hj => absurd hj (Nat.not_lt_zero j)
  | cons b bs ih =>
      intro j hj
      rw [put]
      cases j with
      | zero =>
          rw [put_outside (.inl (by omega))]
          exact if_pos rfl
      | succ j =>
          rw [show a + (j + 1) = a + 1 + j by omega]
          exact ih j (Nat.lt_of_succ_lt_succ hj)

/-- Each address has what was put there, or what it had. -/
theorem put_apply (bs : List UInt8) (i : Nat) :
    put mem a bs i = if a ≤ i ∧ i < a + bs.length then bs.getD (i - a) 0 else mem i := by
  by_cases hi : a ≤ i ∧ i < a + bs.length
  · obtain ⟨j, rfl⟩ := Nat.exists_eq_add_of_le hi.1
    have hj : j < bs.length := by omega
    rw [if_pos hi, Nat.add_sub_cancel_left, List.getD_eq_getElem?_getD, List.getElem?_eq_getElem hj]
    exact holds_put bs j hj
  · rw [if_neg hi]
    exact put_outside (by omega)

theorem Holds.congr {mem' : Nat → UInt8} {bytes : List UInt8} (h : Holds mem a bytes)
    (hsame : ∀ i, a ≤ i → i < a + bytes.length → mem' i = mem i) : Holds mem' a bytes := by
  intro j hj
  rw [hsame (a + j) (Nat.le_add_right a j) (Nat.add_lt_add_left hj a)]
  exact h j hj

end ByteMemory
