import Mathlib.Data.List.DropRight

/-!
# Rings

A list that keeps what came last, up to a capacity, and what came last of a list that grows.
-/

namespace Ring

variable {α β : Type*}

/-- What a selection has last, behind one more entry. -/
theorem getLast?_filterMap_concat (f : α → Option β) (xs : List α) (x : α) :
    ((xs ++ [x]).filterMap f).getLast? = (f x).or (xs.filterMap f).getLast? := by
  rw [List.filterMap_append, List.filterMap_cons, List.filterMap_nil]
  cases f x with
  | none => rw [List.append_nil]; rfl
  | some b => exact List.getLast?_concat

/-- Add at the end, and let what is oldest go when the ring is full. -/
def push (capacity : Nat) (xs : List α) (x : α) : List α :=
  (if xs.length = capacity then xs.tail else xs) ++ [x]

theorem length_rtake (xs : List α) (n : Nat) : (xs.rtake n).length = min n xs.length := by
  rw [List.rtake, List.length_drop]
  omega

theorem rtake_of_length_le {xs : List α} {n : Nat} (h : xs.length ≤ n) : xs.rtake n = xs := by
  rw [List.rtake, Nat.sub_eq_zero_of_le h, List.drop_zero]

/-- The last of the last. -/
theorem rtake_rtake (xs : List α) (m n : Nat) : (xs.rtake n).rtake m = xs.rtake (min m n) := by
  rw [List.rtake, length_rtake, List.rtake, List.rtake, List.drop_drop]
  congr 1
  omega

theorem rtake_min_length (xs : List α) (n : Nat) : xs.rtake (min n xs.length) = xs.rtake n := by
  rw [List.rtake, List.rtake]
  congr 1
  omega

/-- The ring has what came last. -/
theorem push_rtake {capacity : Nat} (hpos : 0 < capacity) (xs : List α) (x : α) :
    push capacity (xs.rtake capacity) x = (xs ++ [x]).rtake capacity := by
  obtain ⟨k, rfl⟩ : ∃ k, capacity = k + 1 := ⟨capacity - 1, by omega⟩
  rw [List.rtake_concat_succ, push, length_rtake]
  congr 1
  split
  · rename_i hfull
    rw [List.rtake, List.rtake, List.tail_drop]
    congr 1
    omega
  · rename_i hfits
    rw [rtake_of_length_le (by omega), rtake_of_length_le (by omega)]

end Ring
