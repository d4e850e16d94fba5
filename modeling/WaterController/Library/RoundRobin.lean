import Mathlib.Data.List.Rotate
import Mathlib.Tactic.Common

/-!
# Turns in a list

A scheduler that serves the entries of a list in turn keeps the position of the next one,
and starts over behind the end of the list.  In as many turns as there are entries each
entry has one turn, wherever the scheduler starts (`count_turns_mul`).
-/

namespace RoundRobin

variable {α : Type*}

/-- The entries that have the next `m` turns, from a position on. -/
def turns (xs : List α) : Nat → Nat → List α
  | _, 0 => []
  | i, m + 1 => xs[i % xs.length]?.toList ++ turns xs (i % xs.length + 1) m

theorem turns_succ {xs : List α} {i : Nat} (h : i % xs.length < xs.length) (m : Nat) :
    turns xs i (m + 1) = xs[i % xs.length] :: turns xs (i % xs.length + 1) m := by
  rw [turns, List.getElem?_eq_getElem h]
  rfl

theorem turns_mod (xs : List α) (i m : Nat) : turns xs (i % xs.length) m = turns xs i m := by
  cases m with
  | zero => rfl
  | succ m => rw [turns, turns, Nat.mod_mod]

theorem turns_add (xs : List α) (i m n : Nat) :
    turns xs i (m + n) = turns xs i m ++ turns xs (i + m) n := by
  induction m generalizing i with
  | zero => rw [Nat.zero_add, Nat.add_zero]; rfl
  | succ m ih =>
      rw [Nat.add_right_comm, turns, turns, ih, List.append_assoc]
      -- both positions are the same up to the length
      rw [← turns_mod xs (i % xs.length + 1 + m), ← turns_mod xs (i + (m + 1)), Nat.add_assoc,
        Nat.mod_add_mod, Nat.add_comm 1 m]

theorem turns_of_le {xs : List α} {i m : Nat} (h : i + m ≤ xs.length) :
    turns xs i m = (xs.drop i).take m := by
  induction m generalizing i with
  | zero => rw [List.take_zero]; rfl
  | succ m ih =>
      have hlt : i < xs.length := by omega
      have hmod : i % xs.length = i := Nat.mod_eq_of_lt hlt
      rw [turns, hmod, ih (by omega), List.drop_eq_getElem_cons hlt, List.take_succ_cons,
        List.getElem?_eq_getElem hlt]
      rfl

/-- One pass is the list, from the position on and then from its start. -/
theorem turns_length (xs : List α) (i : Nat) : turns xs i xs.length = xs.rotate i := by
  rcases xs.eq_nil_or_concat with rfl | ⟨front, last, hconcat⟩
  · rfl
  · generalize xs = ys at hconcat ⊢
    have hlt : i % ys.length < ys.length := Nat.mod_lt _ (by simp [hconcat])
    rw [← turns_mod, ← List.rotate_mod, List.rotate_eq_drop_append_take hlt.le]
    generalize i % ys.length = p at hlt
    have hend : turns ys ys.length p = ys.take p := by
      rw [← turns_mod, Nat.mod_self, turns_of_le (by omega), List.drop_zero]
    calc turns ys p ys.length = turns ys p (ys.length - p + p) := by rw [Nat.sub_add_cancel hlt.le]
      _ = ys.drop p ++ turns ys (p + (ys.length - p)) p := by
          rw [turns_add, turns_of_le (by omega), List.take_of_length_le (by simp)]
      _ = ys.drop p ++ ys.take p := by rw [Nat.add_sub_cancel' hlt.le, hend]

/-- In some passes each entry has as many turns as there are passes. -/
theorem count_turns_mul [BEq α] [LawfulBEq α] (x : α) (xs : List α) (k i : Nat) :
    (turns xs i (k * xs.length)).count x = k * xs.count x := by
  induction k generalizing i with
  | zero => rw [Nat.zero_mul, Nat.zero_mul]; rfl
  | succ k ih =>
      rw [Nat.succ_mul, turns_add, List.count_append, ih, turns_length,
        (List.rotate_perm xs _).count_eq, Nat.succ_mul]

end RoundRobin
