import Mathlib.Data.List.Chain
import Mathlib.Tactic.Common

/-!
# Signals that are sampled and held

A signal is sampled at times that never go back, and between two samples its level
is the one of the first.  When the samples see a window, a level that is high from
`lo` on and low again from `hi` on, they see one block (`oneBlock_of_sees`).  When
they are dense besides, the level is held about as long as the window is
(`held_of_sees`).
-/

namespace Sampling

/-- A time with the level sampled there. -/
abbrev Sample := Nat × Bool

/-- The samples are taken at times that never go back, and no two neighbours are more
than `g` apart. -/
def Dense (g : Nat) (times : List Nat) : Prop := times.IsChain fun a b => a ≤ b ∧ b ≤ a + g

/-- How long the level is held high, up to the last sample. -/
def held : List Sample → Nat
  | [] | [_] => 0
  | x :: y :: rest => (if x.2 then y.1 - x.1 else 0) + held (y :: rest)

/-- The level is high in one block of samples, if at all. -/
def OneBlock (samples : List Sample) : Prop :=
  ∃ a b c, samples = a ++ b ++ c ∧ (∀ x ∈ a, x.2 = false) ∧ (∀ x ∈ b, x.2 = true) ∧
    ∀ x ∈ c, x.2 = false

/-- The samples see the window from `lo` to `hi`. -/
def Sees (lo hi : Nat) (samples : List Sample) : Prop :=
  ∀ x ∈ samples, x.2 = true ↔ lo ≤ x.1 ∧ x.1 < hi

variable {lo hi : Nat}

theorem Sees.tail {x : Sample} {samples : List Sample} (h : Sees lo hi (x :: samples)) :
    Sees lo hi samples := fun y hy => h y (List.mem_cons_of_mem _ hy)

/-- Dense times never go back. -/
theorem Dense.sorted {g : Nat} {times : List Nat} (h : Dense g times) :
    times.Pairwise (· ≤ ·) :=
  List.isChain_iff_pairwise.mp (h.imp fun _ _ hab => hab.1)

/-- A low sample in front holds nothing. -/
theorem held_cons_low (t : Nat) (samples : List Sample) :
    held ((t, false) :: samples) = held samples := by
  cases samples with
  | nil => rfl
  | cons y rest => exact Nat.zero_add _

/-! ## One block -/

/-- Times that never go back are split by a bound. -/
theorem exists_split (bound : Nat) {samples : List Sample}
    (hsorted : samples.Pairwise fun x y => x.1 ≤ y.1) :
    ∃ a b, samples = a ++ b ∧ (∀ x ∈ a, x.1 < bound) ∧ ∀ x ∈ b, bound ≤ x.1 := by
  induction samples with
  | nil => exact ⟨[], [], rfl, by simp, by simp⟩
  | cons x rest ih =>
      obtain ⟨hle, hrest⟩ := List.pairwise_cons.mp hsorted
      by_cases hx : x.1 < bound
      · obtain ⟨a, b, rfl, ha, hb⟩ := ih hrest
        exact ⟨x :: a, b, rfl, List.forall_mem_cons.mpr ⟨hx, ha⟩, hb⟩
      · refine ⟨[], x :: rest, rfl, by simp, List.forall_mem_cons.mpr ⟨Nat.le_of_not_lt hx, ?_⟩⟩
        exact fun y hy => Nat.le_trans (Nat.le_of_not_lt hx) (hle y hy)

/-- Samples that see a window see it in one block. -/
theorem oneBlock_of_sees {samples : List Sample} (hsees : Sees lo hi samples)
    (hsorted : samples.Pairwise fun x y => x.1 ≤ y.1) : OneBlock samples := by
  obtain ⟨a, rest, rfl, ha, hrest⟩ := exists_split lo hsorted
  obtain ⟨b, c, rfl, hb, hc⟩ := exists_split hi (List.pairwise_append.mp hsorted).2.1
  refine ⟨a, b, c, (List.append_assoc _ _ _).symm, ?_, ?_, ?_⟩
  · intro x hx
    have hlow : ¬ x.2 = true := fun h =>
      Nat.not_le.mpr (ha x hx) ((hsees x (by simp [hx])).mp h).1
    exact Bool.eq_false_iff.mpr hlow
  · intro x hx
    exact (hsees x (by simp [hx])).mpr ⟨hrest x (by simp [hx]), hb x hx⟩
  · intro x hx
    have hlow : ¬ x.2 = true := fun h =>
      Nat.not_le.mpr ((hsees x (by simp [hx])).mp h).2 (hc x hx)
    exact Bool.eq_false_iff.mpr hlow

/-! ## How long the level is held -/

section Held

variable {g last : Nat}

/-- Past the window nothing is held. -/
theorem held_of_le {x : Sample} {samples : List Sample}
    (hdense : Dense g ((x :: samples).map Prod.fst)) (hsees : Sees lo hi (x :: samples))
    (hx : hi ≤ x.1) : held (x :: samples) = 0 := by
  induction samples generalizing x with
  | nil => rfl
  | cons y rest ih =>
      obtain ⟨⟨hle, -⟩, hdense⟩ := List.isChain_cons_cons.mp hdense
      have hlow : x.2 = false := Bool.eq_false_iff.mpr fun h =>
        Nat.not_le.mpr ((hsees x List.mem_cons_self).mp h).2 hx
      rw [held, hlow, ih hdense hsees.tail (Nat.le_trans hx hle)]
      rfl

/-- From inside the window, what is left of it is held, and up to a spacing more. -/
theorem held_of_mem {x : Sample} {samples : List Sample}
    (hdense : Dense g ((x :: samples).map Prod.fst)) (hsees : Sees lo hi (x :: samples))
    (hlast : ((x :: samples).map Prod.fst).getLast? = some last) (hend : hi ≤ last)
    (hlo : lo ≤ x.1) (hhi : x.1 < hi) :
    hi ≤ x.1 + held (x :: samples) ∧ x.1 + held (x :: samples) < hi + g := by
  induction samples generalizing x with
  | nil =>
      have hsame : x.1 = last := Option.some.inj hlast
      omega
  | cons y rest ih =>
      obtain ⟨⟨hle, hgap⟩, hdense⟩ := List.isChain_cons_cons.mp hdense
      have hhigh : x.2 = true := (hsees x List.mem_cons_self).mpr ⟨hlo, hhi⟩
      rw [held, hhigh, if_pos rfl]
      by_cases hy : y.1 < hi
      · have hrest := ih hdense hsees.tail hlast (Nat.le_trans hlo hle) hy
        omega
      · have hpast := held_of_le hdense hsees.tail (Nat.le_of_not_lt hy)
        omega

/-- From before the window, all of it is held, but for a spacing. -/
theorem held_of_sees {x : Sample} {samples : List Sample}
    (hdense : Dense g ((x :: samples).map Prod.fst)) (hsees : Sees lo hi (x :: samples))
    (hlast : ((x :: samples).map Prod.fst).getLast? = some last) (hend : hi ≤ last)
    (hx : x.1 < lo) (hwide : lo + g < hi) :
    hi < lo + g + held (x :: samples) ∧ lo + held (x :: samples) < hi + g := by
  induction samples generalizing x with
  | nil =>
      have hsame : x.1 = last := Option.some.inj hlast
      omega
  | cons y rest ih =>
      obtain ⟨⟨hle, hgap⟩, hdense⟩ := List.isChain_cons_cons.mp hdense
      have hlow : x.2 = false := Bool.eq_false_iff.mpr fun h =>
        Nat.not_le.mpr hx ((hsees x List.mem_cons_self).mp h).1
      rw [held, hlow, if_neg Bool.false_ne_true]
      by_cases hy : y.1 < lo
      · have hrest := ih hdense hsees.tail hlast hy
        omega
      · have hrest := held_of_mem hdense hsees.tail hlast hend (Nat.le_of_not_lt hy) (by omega)
        omega

end Held

end Sampling
