import Mathlib.Data.Rat.Floor
import Mathlib.Topology.Instances.Rat
import WaterController.Calibration.Usable
import WaterController.Library.PiecewiseLinear

/-!
# Calibrations over the rationals

Read at rational numbers, a calibration computes the piecewise-linear function
through its points.  What the constructor accepts are the points that, sorted,
have raw values `epsilon` apart (`new_eq_some_iff`); so the order they are given
in does not matter.  `curve` is the function of a calibration, and `apply`
computes it (`Usable.apply_eq`).
-/

namespace WaterController

open PiecewiseLinear

instance : CalNum ℚ where
  abs x := |x|
  -- 2⁻²³, as in the floats
  epsilon := 1 / 8388608

theorem epsilon_pos : (0 : ℚ) < CalNum.epsilon := by
  show (0 : ℚ) < 1 / 8388608
  norm_num

namespace Calibration

/-! ## Construction -/

/-- The raw values increase by `epsilon` at least. -/
def Spaced (points : List (ℚ × ℚ)) : Prop :=
  points.Pairwise fun p q => p.1 + CalNum.epsilon ≤ q.1

theorem Spaced.increasing {points : List (ℚ × ℚ)} (h : Spaced points) : Increasing points :=
  h.imp fun hle => lt_of_lt_of_le (lt_add_of_pos_right _ epsilon_pos) hle

/-- Increasing points are determined by which they are. -/
theorem eq_of_perm {l l' : List (ℚ × ℚ)} (h : Increasing l) (h' : l'.Pairwise rawLe)
    (hperm : l'.Perm l) : l' = l := by
  refine hperm.eq_of_pairwise (fun p q hp hq hpq hqp => ?_) h' (h.imp fun hlt => hlt.not_gt)
  have heq : p.1 = q.1 := le_antisymm (not_lt.mp hpq) (not_lt.mp hqp)
  by_contra hne
  have hdiffer : l.Pairwise fun p q => p.1 ≠ q.1 := h.imp fun hlt => hlt.ne
  have : Std.Symm fun p q : ℚ × ℚ => p.1 ≠ q.1 := ⟨fun _ _ => Ne.symm⟩
  exact hdiffer.forall (hperm.mem_iff.mp hp) hq hne heq

theorem pairwise_sort (points : List (ℚ × ℚ)) : (points.insertionSort rawLe).Pairwise rawLe := by
  have : Std.Total (rawLe (F := ℚ)) := ⟨fun p q => (le_total p.1 q.1).imp not_lt.mpr not_lt.mpr⟩
  have : IsTrans (ℚ × ℚ) rawLe :=
    ⟨fun p q r hpq hqr => not_lt.mpr ((not_lt.mp hpq).trans (not_lt.mp hqr))⟩
  exact List.pairwise_insertionSort rawLe points

/-- Sorted points are spaced when no two neighbours are close. -/
theorem spaced_iff {points : List (ℚ × ℚ)} (hsorted : points.Pairwise rawLe) :
    Spaced points ↔
      ∀ w ∈ windows2 points, ¬ CalNum.abs (w.1.1 - w.2.1) < (CalNum.epsilon : ℚ) := by
  have hchain := isChain_iff_windows2.mp hsorted.isChain
  have : IsTrans (ℚ × ℚ) fun p q => p.1 + CalNum.epsilon ≤ q.1 :=
    ⟨fun p q r hpq hqr => by linarith [epsilon_pos]⟩
  rw [Spaced, ← List.isChain_iff_pairwise, isChain_iff_windows2]
  refine forall₂_congr fun w hw => ?_
  have hle : w.1.1 ≤ w.2.1 := not_lt.mp (hchain w hw)
  rw [show CalNum.abs (w.1.1 - w.2.1) = |w.1.1 - w.2.1| from rfl,
    abs_of_nonpos (sub_nonpos.mpr hle), not_lt, neg_sub, le_sub_iff_add_le, add_comm]

/-- What the constructor accepts, and what it makes of it. -/
theorem new_eq_some_iff {points : List (ℚ × ℚ)} {c : Calibration ℚ} :
    new points = some c ↔ 2 ≤ points.length ∧ c.points.Perm points ∧ Spaced c.points := by
  have hperm := List.perm_insertionSort rawLe points
  have hsorted := pairwise_sort points
  have hany : ((windows2 (points.insertionSort rawLe)).any fun w =>
      decide (CalNum.abs (w.1.1 - w.2.1) < CalNum.epsilon)) = false ↔
        Spaced (points.insertionSort rawLe) := by
    rw [spaced_iff hsorted, List.any_eq_false]
    simp only [decide_eq_true_eq]
  constructor
  · intro h
    unfold new at h
    split at h
    · cases h
    · rename_i hlen
      dsimp only at h
      split at h
      · cases h
      · rename_i hfar
        cases h
        exact ⟨Nat.le_of_not_lt hlen, hperm, hany.mp (Bool.eq_false_of_not_eq_true hfar)⟩
  · rintro ⟨hlen, hc, hspaced⟩
    have hsort : points.insertionSort rawLe = c.points :=
      eq_of_perm hspaced.increasing hsorted (hperm.trans hc.symm)
    rw [hsort] at hany
    have hfar := hany.mpr hspaced
    rw [new, if_neg (Nat.not_lt.mpr hlen)]
    simp only [hfar, Bool.false_eq_true, if_false, hsort]

theorem usable_of_new {points : List (ℚ × ℚ)} {c : Calibration ℚ} (h : new points = some c) :
    c.Usable := by
  obtain ⟨hlen, hperm, hspaced⟩ := new_eq_some_iff.mp h
  exact ⟨hperm.length_eq ▸ hlen, hspaced.increasing⟩

/-! ## Application -/

/-- The function through the points. -/
def curve (c : Calibration ℚ) : ℚ → ℚ :=
  match c.points with
  | p :: q :: rest => through p q rest
  | _ => fun _ => 0

theorem Usable.exists_points {c : Calibration ℚ} (h : c.Usable) :
    ∃ p q rest, c.points = p :: q :: rest ∧ c.curve = through p q rest ∧
      Increasing (p :: q :: rest) := by
  obtain ⟨hlen, hincreasing⟩ := h
  rcases hpoints : c.points with _ | ⟨p, _ | ⟨q, rest⟩⟩
  · simp [hpoints] at hlen
  · simp [hpoints] at hlen
  · exact ⟨p, q, rest, rfl, by simp only [curve, hpoints], hpoints ▸ hincreasing⟩

/-- The last two points. -/
def lastPair (p q : ℚ × ℚ) : List (ℚ × ℚ) → (ℚ × ℚ) × (ℚ × ℚ)
  | [] => (p, q)
  | r :: rest => lastPair q r rest

theorem index_lastPair (p q : ℚ × ℚ) (rest : List (ℚ × ℚ)) :
    index (p :: q :: rest) rest.length = .ok (lastPair p q rest).1 ∧
      index (p :: q :: rest) (rest.length + 1) = .ok (lastPair p q rest).2 := by
  induction rest generalizing p q with
  | nil => exact ⟨rfl, rfl⟩
  | cons r rest ih => exact ih q r

/-- From the first point on, the search finds the piece of the function. -/
theorem line_find {p q : ℚ × ℚ} {rest : List (ℚ × ℚ)} {raw : ℚ} (h : p.1 ≤ raw) :
    let w := ((windows2 (p :: q :: rest)).find? fun w =>
      decide (w.1.1 ≤ raw) && decide (raw ≤ w.2.1)).getD (lastPair p q rest)
    line w.1 w.2 raw = through p q rest raw := by
  induction rest generalizing p q with
  | nil =>
      simp only [windows2, List.tail_cons, List.zip_cons_cons, List.zip_nil_right, lastPair,
        List.find?_singleton]
      split <;> rfl
  | cons r rest ih =>
      rcases le_or_gt raw q.1 with hle | hgt
      · simp [windows2_cons_cons p q, h, hle, through_of_le]
      · have htail := ih (p := q) (q := r) hgt.le
        simpa [windows2_cons_cons p q, h, hgt.not_ge, through_cons, lastPair] using htail

/-- `apply` computes the function through the points. -/
theorem Usable.apply_eq {c : Calibration ℚ} (h : c.Usable) (raw : ℚ) :
    c.apply raw = .ok (c.curve raw) := by
  obtain ⟨p, q, rest, hpoints, hcurve, hincreasing⟩ := h.exists_points
  have hpq := hincreasing.lt
  have hfirst : index c.points 0 = .ok p := by rw [hpoints]; rfl
  have hsecond : index c.points 1 = .ok q := by rw [hpoints]; rfl
  obtain ⟨hpen, hult⟩ := index_lastPair p q rest
  rw [hcurve]
  rcases lt_or_ge raw p.1 with hlow | hge
  · have hseg : c.segment raw = .ok (p, q) := by
      simp only [Calibration.segment, hfirst, hsecond, bind, Except.bind, hlow, if_true]
      rfl
    simp only [apply, hseg, bind, Except.bind]
    rw [through_of_le _ (hlow.trans hpq).le]
    rfl
  · have hfind := @line_find p q rest raw hge
    have hseg : c.segment raw = .ok (((windows2 (p :: q :: rest)).find? fun w =>
        decide (w.1.1 ≤ raw) && decide (raw ≤ w.2.1)).getD (lastPair p q rest)) := by
      simp only [Calibration.segment, hfirst, bind, Except.bind, hge.not_gt, if_false]
      rw [hpoints]
      cases (windows2 (p :: q :: rest)).find? fun w =>
        decide (w.1.1 ≤ raw) && decide (raw ≤ w.2.1) with
      | some w => rfl
      | none => simp [lengthSub, hpen, hult, pure, Except.pure]
    simp only [apply, hseg, bind, Except.bind]
    rw [← hfind]
    rfl

/-! ## Interpolation -/

/-- Two points with none between them. -/
def Adjacent (points : List (ℚ × ℚ)) (p q : ℚ × ℚ) : Prop :=
  p ∈ points ∧ q ∈ points ∧ p.1 < q.1 ∧ ∀ r ∈ points, r.1 ≤ p.1 ∨ q.1 ≤ r.1

/-- The curve goes through the given points. -/
theorem exists_points_of_new {points : List (ℚ × ℚ)} {c : Calibration ℚ}
    (h : new points = some c) : ∃ p q rest, (∀ r, r ∈ p :: q :: rest ↔ r ∈ points) ∧
      c.curve = through p q rest ∧ Increasing (p :: q :: rest) := by
  obtain ⟨-, hperm, -⟩ := new_eq_some_iff.mp h
  obtain ⟨p, q, rest, hpoints, hcurve, hincreasing⟩ := (usable_of_new h).exists_points
  exact ⟨p, q, rest, fun r => hpoints ▸ hperm.mem_iff, hcurve, hincreasing⟩

/-- On one side of an end or between the two, the curve is the line of adjacent
points. -/
theorem curve_eq_line {points : List (ℚ × ℚ)} {c : Calibration ℚ} (h : new points = some c)
    {p q : ℚ × ℚ} (hadj : Adjacent points p q) {x : ℚ}
    (hlow : p.1 ≤ x ∨ ∀ r ∈ points, p.1 ≤ r.1) (hhigh : x ≤ q.1 ∨ ∀ r ∈ points, r.1 ≤ q.1) :
    c.curve x = line p q x := by
  obtain ⟨u, v, rest, hmem, hcurve, hincreasing⟩ := exists_points_of_new h
  obtain ⟨hp, hq, hlt, hnext⟩ := hadj
  rw [hcurve]
  exact through_eq_line hincreasing ((hmem p).mpr hp) ((hmem q).mpr hq) hlt
    (fun r hr => hnext r ((hmem r).mp hr))
    (hlow.imp id fun hall r hr => hall r ((hmem r).mp hr))
    (hhigh.imp id fun hall r hr => hall r ((hmem r).mp hr))

theorem curve_mem {points : List (ℚ × ℚ)} {c : Calibration ℚ} (h : new points = some c)
    {p : ℚ × ℚ} (hp : p ∈ points) : c.curve p.1 = p.2 := by
  obtain ⟨u, v, rest, hmem, hcurve, hincreasing⟩ := exists_points_of_new h
  rw [hcurve]
  exact through_mem hincreasing ((hmem p).mpr hp)

theorem Usable.continuous_curve {c : Calibration ℚ} (h : c.Usable) : Continuous c.curve := by
  obtain ⟨p, q, rest, -, hcurve, hincreasing⟩ := h.exists_points
  rw [hcurve]
  exact continuous_through hincreasing

/-- Calibrated values that do not decrease make a curve that does not. -/
theorem monotone_curve {points : List (ℚ × ℚ)} {c : Calibration ℚ} (h : new points = some c)
    (hval : ∀ p ∈ points, ∀ q ∈ points, p.1 ≤ q.1 → p.2 ≤ q.2) : Monotone c.curve := by
  obtain ⟨u, v, rest, hmem, hcurve, hincreasing⟩ := exists_points_of_new h
  rw [hcurve]
  refine monotone_through hincreasing (hincreasing.imp_of_mem fun hp hq hlt => ?_)
  exact hval _ ((hmem _).mp hp) _ ((hmem _).mp hq) hlt.le

/-- A calibration is the piecewise-linear function through its points, whatever
their order. -/
theorem interpolates {points : List (ℚ × ℚ)} {c : Calibration ℚ} (h : new points = some c) :
    (∀ points' : List (ℚ × ℚ), points'.Perm points → new points' = some c) ∧
    ∃ f : ℚ → ℚ, (∀ x, c.apply x = .ok (f x)) ∧
      (∀ p ∈ points, f p.1 = p.2) ∧
      (∀ p q, Adjacent points p q → ∀ x, p.1 ≤ x → x ≤ q.1 → f x = line p q x) ∧
      (∀ p q, Adjacent points p q → (∀ r ∈ points, p.1 ≤ r.1) → ∀ x, x ≤ p.1 →
        f x = line p q x) ∧
      (∀ p q, Adjacent points p q → (∀ r ∈ points, r.1 ≤ q.1) → ∀ x, q.1 ≤ x →
        f x = line p q x) ∧
      Continuous f ∧
      ((∀ p ∈ points, ∀ q ∈ points, p.1 ≤ q.1 → p.2 ≤ q.2) →
        ∀ x y, x ≤ y → f x ≤ f y) := by
  have husable := usable_of_new h
  refine ⟨?_, c.curve, husable.apply_eq, fun p hp => curve_mem h hp, ?_, ?_, ?_,
    husable.continuous_curve, fun hval x y hxy => monotone_curve h hval hxy⟩
  · intro points' hperm'
    obtain ⟨hlen, hperm, hspaced⟩ := new_eq_some_iff.mp h
    exact new_eq_some_iff.mpr ⟨hperm'.length_eq.symm ▸ hlen, hperm.trans hperm'.symm, hspaced⟩
  · intro p q hadj x hpx hxq
    exact curve_eq_line h hadj (.inl hpx) (.inl hxq)
  · intro p q hadj hleast x hxp
    exact curve_eq_line h hadj (.inr hleast) (.inl (hxp.trans hadj.2.2.1.le))
  · intro p q hadj hgreatest x hqx
    exact curve_eq_line h hadj (.inl (hadj.2.2.1.le.trans hqx)) (.inr hgreatest)

/-- Three points out of order, with a value beyond each end. -/
theorem interpolates_three :
    let points : List (ℚ × ℚ) := [(1, 10), (2, 12), (0, 0)]
    let c : Calibration ℚ := ⟨[(0, 0), (1, 10), (2, 12)]⟩
    new points = some c ∧ new [(2, 12), (1, 10), (0, 0)] = some c ∧
      ∃ f : ℚ → ℚ, (∀ x, c.apply x = .ok (f x)) ∧ Continuous f ∧ f (1 / 2) = 5 ∧ f (-1) = -10 ∧
        f 3 = 14 ∧ ∀ x y, x ≤ y → f x ≤ f y := by
  have hnew : new [(1, 10), (2, 12), (0, 0)] =
      some (⟨[(0, 0), (1, 10), (2, 12)]⟩ : Calibration ℚ) := by decide +kernel
  obtain ⟨hperm, f, happly, -, hbetween, hleft, hright, hcontinuous, hmono⟩ := interpolates hnew
  have hfirst : Adjacent [(1, 10), (2, 12), (0, 0)] (0, 0) (1, 10) := by
    simp [Adjacent]
  have hsecond : Adjacent [(1, 10), (2, 12), (0, 0)] (1, 10) (2, 12) := by
    simp [Adjacent]
  refine ⟨hnew, hperm _ (by decide), f, happly, hcontinuous, ?_, ?_, ?_, hmono ?_⟩
  · rw [hbetween _ _ hfirst (1 / 2) (by norm_num) (by norm_num)]
    norm_num [line]
  · rw [hleft _ _ hfirst (by simp) (-1) (by norm_num)]
    norm_num [line]
  · rw [hright _ _ hsecond (by simp) 3 (by norm_num)]
    norm_num [line]
  · simp
    norm_num

end Calibration

end WaterController
