import Mathlib.Data.Int.Range
import Mathlib.Data.List.Chain
import Mathlib.Tactic.Common

/-!
# Windows of integers that are open on the left

`upTo a b` lists the integers of the window from `a`, exclusive, to `b` in
increasing order.  Windows that follow each other join without a gap and
without an overlap (`upTo_append`).  So along a list of readings that never go
back, the windows between neighbours join to the window from the first reading
to the last (`flatMap_upTo`).
-/

namespace Windows

/-- The integers above `a` and at most `b`. -/
def upTo (a b : Int) : List Int := Int.range (a + 1) (b + 1)

@[simp] theorem mem_upTo {a b m : Int} : m ∈ upTo a b ↔ a < m ∧ m ≤ b := by
  rw [upTo, Int.mem_range_iff]
  omega

theorem upTo_of_le {a b : Int} (h : b ≤ a) : upTo a b = [] := by
  rw [List.eq_nil_iff_forall_not_mem]
  intro m hm
  have hmem := mem_upTo.mp hm
  omega

theorem upTo_cons {a b : Int} (h : a < b) : upTo a b = (a + 1) :: upTo (a + 1) b := by
  obtain ⟨n, hn⟩ : ∃ n : Nat, b - a = n + 1 := ⟨(b - a - 1).toNat, by omega⟩
  have hfirst : (b + 1 - (a + 1)).toNat = n + 1 := by omega
  have hrest : (b + 1 - (a + 1 + 1)).toNat = n := by omega
  rw [upTo, upTo, Int.range, Int.range, hfirst, hrest, List.range_succ_eq_map, List.map_cons,
    List.map_map]
  congr 1
  · simp
  · refine List.map_congr_left fun k _ => ?_
    simp only [Function.comp_apply, Nat.succ_eq_add_one]
    omega

/-- Windows that follow each other join. -/
theorem upTo_append {a b c : Int} (hab : a ≤ b) (hbc : b ≤ c) :
    upTo a b ++ upTo b c = upTo a c := by
  obtain ⟨n, hn⟩ : ∃ n : Nat, b - a = n := ⟨(b - a).toNat, by omega⟩
  induction n generalizing a with
  | zero =>
      have heq : a = b := by omega
      rw [heq, upTo_of_le (Int.le_refl b), List.nil_append]
  | succ n ih =>
      rw [upTo_cons (show a < b by omega), upTo_cons (show a < c by omega), List.cons_append,
        ih (by omega) (by omega)]

theorem pairwise_upTo (a b : Int) : (upTo a b).Pairwise (· < ·) := by
  rw [upTo, Int.range, List.pairwise_map]
  refine List.pairwise_lt_range.imp fun h => ?_
  omega

/-- Neighbours in a chain are related. -/
theorem rel_of_mem_zip {α : Type*} {R : α → α → Prop} {a : α} {as : List α}
    (h : List.IsChain R (a :: as)) {w : α × α} (hw : w ∈ (a :: as).zip as) : R w.1 w.2 := by
  induction as generalizing a with
  | nil => cases hw
  | cons b bs ih =>
      obtain ⟨hab, hbs⟩ := List.isChain_cons_cons.mp h
      rcases List.mem_cons.mp hw with rfl | hrest
      · exact hab
      · exact ih hbs hrest

/-- Along readings that never go back, the windows between neighbours join. -/
theorem flatMap_upTo {α : Type*} (read : α → Int) {a : α} {as : List α}
    (h : List.IsChain (fun x y => read x ≤ read y) (a :: as)) :
    read a ≤ read (as.getLastD a) ∧
      ((a :: as).zip as).flatMap (fun w => upTo (read w.1) (read w.2)) =
        upTo (read a) (read (as.getLastD a)) := by
  induction as generalizing a with
  | nil => exact ⟨Int.le_refl _, (upTo_of_le (Int.le_refl _)).symm⟩
  | cons b bs ih =>
      obtain ⟨hab, hbs⟩ := List.isChain_cons_cons.mp h
      obtain ⟨hle, hjoin⟩ := ih hbs
      rw [List.getLastD_cons]
      refine ⟨Int.le_trans hab hle, ?_⟩
      rw [List.zip_cons_cons, List.flatMap_cons, hjoin]
      exact upTo_append hab hle

end Windows
