import Mathlib.Data.List.Infix

/-!
# Streaks

A watch counts the failures that come one after another, and stops at a number of them.  It
goes on through exactly the lists without a streak of that length (`watch_isSome_iff`).
-/

namespace Streak

/-- Count the failures since the last success, and stop at the limit. -/
def watch (limit : Nat) (fails : Nat) : List Bool → Option Nat
  | [] => some fails
  | true :: results => watch limit 0 results
  | false :: results => if fails + 1 < limit then watch limit (fails + 1) results else none

/-- A streak at the head is no longer than the failures there. -/
theorem le_of_prefix_replicate {k m : Nat} {results : List Bool}
    (h : List.replicate k false <+: List.replicate m false ++ true :: results) : k ≤ m := by
  induction m generalizing k with
  | zero =>
      cases k with
      | zero => exact Nat.le_refl 0
      | succ k =>
          rw [List.replicate_succ, List.replicate_zero, List.nil_append,
            List.cons_prefix_cons] at h
          exact absurd h.1 Bool.false_ne_true
  | succ m ih =>
      cases k with
      | zero => exact Nat.zero_le _
      | succ k =>
          rw [List.replicate_succ, List.replicate_succ, List.cons_append,
            List.cons_prefix_cons] at h
          exact Nat.succ_le_succ (ih h.2)

/-- A success ends a streak that was too short. -/
theorem replicate_infix_iff {k m : Nat} (h : m < k) (results : List Bool) :
    List.replicate k false <:+: List.replicate m false ++ true :: results ↔
      List.replicate k false <:+: results := by
  have hhead : ¬ List.replicate k false <+: List.replicate m false ++ true :: results :=
    fun hprefix => absurd (le_of_prefix_replicate hprefix) (Nat.not_le.mpr h)
  induction m with
  | zero =>
      rw [List.replicate_zero, List.nil_append] at hhead ⊢
      rw [List.infix_cons_iff, or_iff_right hhead]
  | succ m ih =>
      rw [List.replicate_succ, List.cons_append] at hhead ⊢
      rw [List.infix_cons_iff, or_iff_right hhead]
      refine ih (by omega) fun hprefix => ?_
      exact absurd (le_of_prefix_replicate hprefix) (by omega)

/-- The same behind failures that were counted already. -/
theorem watch_isSome_iff_of_lt {limit fails : Nat} (h : fails < limit) (results : List Bool) :
    (watch limit fails results).isSome ↔
      ¬ List.replicate limit false <:+: List.replicate fails false ++ results := by
  induction results generalizing fails with
  | nil =>
      rw [List.append_nil]
      refine iff_of_true rfl fun hinfix => ?_
      have hle := hinfix.length_le
      rw [List.length_replicate, List.length_replicate] at hle
      omega
  | cons alive results ih =>
      cases alive with
      | true =>
          rw [watch, ih (Nat.zero_lt_of_lt h), replicate_infix_iff h]
          rfl
      | false =>
          have hmove : List.replicate fails false ++ false :: results =
              List.replicate (fails + 1) false ++ results := by
            rw [List.replicate_succ', List.append_assoc, List.singleton_append]
          rw [watch, hmove]
          split
          · rename_i hmore
            exact ih hmore
          · rename_i hlast
            refine iff_of_false Bool.false_ne_true (not_not_intro ?_)
            rw [show limit = fails + 1 by omega]
            exact (List.prefix_append _ _).isInfix

/-- A watch goes on through exactly the lists without a streak of its limit. -/
theorem watch_isSome_iff {limit : Nat} (h : 0 < limit) (results : List Bool) :
    (watch limit 0 results).isSome ↔ ¬ List.replicate limit false <:+: results :=
  watch_isSome_iff_of_lt h results

end Streak
