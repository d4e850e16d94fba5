import Mathlib.Algebra.GroupWithZero.Nat
import Mathlib.Data.List.Basic
import Mathlib.Tactic.Common

/-!
# Readings of a clock and the units between them

A counter that is fed by the spacings of a clock, each rounded down to whole
units and reduced to the size of a word, loses what the rounding and the
reduction drop.  `counted` is what it gains over a list of readings, `dropped`
what it loses, and the two add up to the `span` (`counted_add_dropped`).
-/

namespace Spacing

/-! ## Spacings -/

/-- The spacing between a reading and the one before it, if there is one. -/
def gap (last : Option Nat) (now : Nat) : Nat :=
  match last with
  | some t => now - t
  | none => 0

/-- The spacings of a list of readings. -/
def gaps (last : Option Nat) : List Nat → List Nat
  | [] => []
  | t :: ts => gap last t :: gaps (some t) ts

/-- The last reading. -/
def latest (last : Option Nat) : List Nat → Option Nat
  | [] => last
  | t :: ts => latest (some t) ts

/-- The sum of the spacings. -/
def span (last : Option Nat) (times : List Nat) : Nat := (gaps last times).sum

theorem gaps_append (last : Option Nat) (times : List Nat) (now : Nat) :
    gaps last (times ++ [now]) = gaps last times ++ [gap (latest last times) now] := by
  induction times generalizing last with
  | nil => rfl
  | cons t ts ih =>
      rw [List.cons_append, gaps, gaps, ih, List.cons_append]
      rfl

@[simp] theorem latest_append (last : Option Nat) (times : List Nat) (now : Nat) :
    latest last (times ++ [now]) = some now := by
  induction times generalizing last with
  | nil => rfl
  | cons t ts ih => exact ih (some t)

/-- The spacings behind a reading add up to the last one. -/
theorem add_span {t now : Nat} {times : List Nat} (hsorted : (t :: times).Pairwise (· ≤ ·))
    (hlast : latest (some t) times = some now) : t + span (some t) times = now := by
  induction times generalizing t with
  | nil => exact Option.some.inj hlast
  | cons u us ih =>
      obtain ⟨hle, hrest⟩ := List.pairwise_cons.mp hsorted
      have htail := ih hrest hlast
      have htu : t ≤ u := hle u List.mem_cons_self
      simp only [span, gaps, List.sum_cons, gap] at htail ⊢
      omega

/-- The span of readings that never go back is the time between the first and the
last, and the spacing in front of the first. -/
theorem first_add_span (last : Option Nat) {times : List Nat} {first now : Nat}
    (hsorted : times.Pairwise (· ≤ ·)) (hfirst : times.head? = some first)
    (hlast : latest last times = some now) : first + span last times = now + gap last first := by
  cases times with
  | nil => cases hfirst
  | cons t ts =>
      cases hfirst
      have htail := add_span hsorted hlast
      simp only [span, gaps, List.sum_cons] at htail ⊢
      omega

/-! ## Whole units -/

section Units

variable (unit modulus : Nat)

/-- The whole units of a spacing, in a word. -/
def whole (d : Nat) : Nat := d / unit % modulus

/-- The whole units of all spacings. -/
def counted (last : Option Nat) (times : List Nat) : Nat :=
  ((gaps last times).map (whole unit modulus)).sum

/-- What the whole units of all spacings fall short of. -/
def dropped (last : Option Nat) (times : List Nat) : Nat :=
  ((gaps last times).map fun d => d - unit * whole unit modulus d).sum

theorem mul_whole_le (d : Nat) : unit * whole unit modulus d ≤ d :=
  Nat.le_trans (Nat.mul_le_mul_left unit (Nat.mod_le _ _)) (Nat.mul_div_le d unit)

theorem counted_append (last : Option Nat) (times : List Nat) (now : Nat) :
    counted unit modulus last (times ++ [now]) =
      counted unit modulus last times + whole unit modulus (gap (latest last times) now) := by
  simp [counted, gaps_append]

theorem counted_add_dropped (last : Option Nat) (times : List Nat) :
    unit * counted unit modulus last times + dropped unit modulus last times =
      span last times := by
  unfold counted dropped span
  induction gaps last times with
  | nil => simp
  | cons d ds ih =>
      have hle := mul_whole_le unit modulus d
      simp only [List.map_cons, List.sum_cons, Nat.mul_add]
      omega

/-- Spacings below the unit count nothing. -/
theorem counted_eq_zero {last : Option Nat} {times : List Nat}
    (h : ∀ d ∈ gaps last times, d < unit) : counted unit modulus last times = 0 := by
  induction times generalizing last with
  | nil => rfl
  | cons t ts ih =>
      have hhead : gap last t < unit := h _ List.mem_cons_self
      have htail := ih fun d hd => h d (List.mem_cons_of_mem _ hd)
      simp only [counted, gaps, List.map_cons, List.sum_cons] at htail ⊢
      rw [htail, whole, Nat.div_eq_of_lt hhead, Nat.zero_mod]

end Units

end Spacing
