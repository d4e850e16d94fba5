import Mathlib.Algebra.Order.Ring.Nat
import Mathlib.Data.List.Chain
import Mathlib.Order.Monotone.Basic
import Mathlib.Tactic.Common

/-!
# Exponential back-off

The wait in front of an attempt doubles with every failure up to a cap, and a success takes it
back to its start.

Attempts that keep to it are spread.  A list of attempts, each with the failures in front of it,
takes at least the sum of their waits (`Paced.add_total_le`), and that sum is short of one cap
for each attempt by no more than what the first few of them leave out (`mul_cap_le`).
-/

/-- A first wait, and the wait that is never exceeded. -/
structure Backoff where
  initial : Nat
  cap : Nat
  initial_le : initial ≤ cap

namespace Backoff

variable (b : Backoff)

/-- The wait behind one more failure. -/
def double (wait : Nat) : Nat := min (wait * 2) b.cap

/-- The wait behind a number of failures in a row. -/
def wait : Nat → Nat
  | 0 => b.initial
  | k + 1 => b.double (wait k)

@[simp] theorem wait_zero : b.wait 0 = b.initial := rfl

theorem wait_succ (k : Nat) : b.wait (k + 1) = b.double (b.wait k) := rfl

theorem wait_le_cap (k : Nat) : b.wait k ≤ b.cap := by
  cases k with
  | zero => exact b.initial_le
  | succ k => exact Nat.min_le_right _ _

theorem wait_mono : Monotone b.wait := by
  refine monotone_nat_of_le_succ fun k => ?_
  rw [wait_succ, double]
  have hle : b.wait k ≤ b.cap := b.wait_le_cap k
  omega

theorem initial_le_wait (k : Nat) : b.initial ≤ b.wait k := b.wait_mono (Nat.zero_le k)

/-- The doubling, all at once. -/
theorem wait_eq (k : Nat) : b.wait k = min (b.initial * 2 ^ k) b.cap := by
  induction k with
  | zero => rw [wait_zero, Nat.pow_zero, Nat.mul_one, Nat.min_eq_left b.initial_le]
  | succ k ih =>
      rw [wait_succ, double, ih, Nat.pow_succ, ← Nat.mul_assoc]
      omega

/-- Once at the cap the wait stays there. -/
theorem wait_eq_cap {k m : Nat} (hcap : b.wait k = b.cap) (hle : k ≤ m) : b.wait m = b.cap :=
  Nat.le_antisymm (b.wait_le_cap m) (hcap.symm.trans_le (b.wait_mono hle))

/-! ## Attempts in a row -/

/-- The waits of `n` attempts, the first behind `k` failures and each of the others behind one
more. -/
def total (k : Nat) : Nat → Nat
  | 0 => 0
  | n + 1 => b.wait k + total (k + 1) n

theorem total_mono {j k : Nat} (hle : j ≤ k) (n : Nat) : b.total j n ≤ b.total k n := by
  induction n generalizing j k with
  | zero => exact Nat.le_refl 0
  | succ n ih => exact Nat.add_le_add (b.wait_mono hle) (ih (Nat.succ_le_succ hle))

/-- What `m` waits leave out up to the cap. -/
def slack (k : Nat) : Nat → Nat
  | 0 => 0
  | m + 1 => (b.cap - b.wait k) + slack (k + 1) m

theorem total_of_cap {k : Nat} (hcap : b.wait k = b.cap) (n : Nat) : b.total k n = n * b.cap := by
  induction n generalizing k with
  | zero => exact (Nat.zero_mul _).symm
  | succ n ih =>
      have hnext : b.wait (k + 1) = b.cap := b.wait_eq_cap hcap (Nat.le_succ k)
      rw [total, ih hnext, hcap, Nat.succ_mul, Nat.add_comm]

/-- When the cap is reached behind `m` waits, no number of waits leaves out more than those. -/
theorem mul_cap_le {k m : Nat} (hcap : b.wait (k + m) = b.cap) (n : Nat) :
    n * b.cap ≤ b.total k n + b.slack k m := by
  induction m generalizing k n with
  | zero =>
      have hnow : b.wait k = b.cap := hcap
      rw [b.total_of_cap hnow]
      exact Nat.le_add_right _ _
  | succ m ih =>
      cases n with
      | zero => exact (Nat.zero_mul _).trans_le (Nat.zero_le _)
      | succ n =>
          have hrest := @ih (k + 1) (by rw [Nat.add_right_comm]; exact hcap) n
          have hle : b.wait k ≤ b.cap := b.wait_le_cap k
          rw [total, slack, Nat.succ_mul]
          omega

/-- Attempts by their time and the failures in front of them.  Each waits for its turn behind
the one before, and behind more failures. -/
def Paced (attempts : List (Nat × Nat)) : Prop :=
  attempts.IsChain fun x y => x.2 < y.2 ∧ x.1 + b.wait y.2 ≤ y.1

variable {b}

/-- Attempts that keep to the back-off take the sum of their waits. -/
theorem Paced.add_total_le {x y : Nat × Nat} {attempts : List (Nat × Nat)}
    (h : b.Paced (x :: attempts)) (hlast : (x :: attempts).getLast? = some y) :
    x.1 + b.total (x.2 + 1) attempts.length ≤ y.1 := by
  induction attempts generalizing x with
  | nil =>
      cases hlast
      exact Nat.le_refl _
  | cons z rest ih =>
      obtain ⟨⟨hmore, hturn⟩, hrest⟩ := List.isChain_cons_cons.mp h
      have hlater := ih hrest (by rw [← hlast, List.getLast?_cons_cons])
      have hwait : b.wait (x.2 + 1) ≤ b.wait z.2 := b.wait_mono hmore
      have htotal : b.total (x.2 + 1 + 1) rest.length ≤ b.total (z.2 + 1) rest.length :=
        b.total_mono (Nat.succ_le_succ hmore) rest.length
      rw [List.length_cons, total]
      omega

end Backoff
