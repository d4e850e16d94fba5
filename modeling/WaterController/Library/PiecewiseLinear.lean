import Mathlib.Algebra.Order.Field.Basic
import Mathlib.Data.List.Chain
import Mathlib.Data.Set.Function
import Mathlib.Order.Interval.Set.Basic
import Mathlib.Tactic.FieldSimp
import Mathlib.Tactic.Linarith
import Mathlib.Tactic.Ring
import Mathlib.Topology.Algebra.Order.Field

/-!
# Piecewise-linear functions

`through` is the function that follows the lines between neighbours of a list of
points and, outside the points, the first and the last line.

A function is straight on a set when one line gives its values there.  It has a
`Kink` where it is straight on no neighbourhood.  `BreaksIn f l` says that `f` is
straight between the places in `l`; a piecewise-linear function is one that has
such a list.  Places that are no kinks can be left out of it
(`BreaksIn.of_kinks`), which is where piecewise linearity is more than
straightness around every place.

So a piecewise-linear function is the one through given points on its graph if
and only if its kinks are among the inner ones (`through_graph_iff`).
-/

namespace PiecewiseLinear

section Lines

variable {K : Type*} [Field K]

/-- The line through two points. -/
def line (p q : K × K) (x : K) : K := p.2 + (x - p.1) / (q.1 - p.1) * (q.2 - p.2)

@[simp] theorem line_left (p q : K × K) : line p q p.1 = p.2 := by
  simp [line]

theorem line_right {p q : K × K} (h : p.1 ≠ q.1) : line p q q.1 = q.2 := by
  have hne : q.1 - p.1 ≠ 0 := sub_ne_zero.mpr h.symm
  rw [line, div_self hne]
  ring

/-- A line by its slope. -/
theorem line_eq (p q : K × K) (x : K) :
    line p q x = (q.2 - p.2) / (q.1 - p.1) * x +
      (p.2 - (q.2 - p.2) / (q.1 - p.1) * p.1) := by
  rw [line]
  ring

end Lines

section Straight

variable {K : Type*} [Field K]

/-- One line gives the values on a set. -/
def StraightOn (f : K → K) (s : Set K) : Prop := ∃ m k, ∀ t ∈ s, f t = m * t + k

theorem straightOn_line (p q : K × K) (s : Set K) : StraightOn (line p q) s :=
  ⟨_, _, fun t _ => line_eq p q t⟩

variable {f g : K → K} {s t : Set K}

theorem StraightOn.mono (h : StraightOn f t) (hst : s ⊆ t) : StraightOn f s := by
  obtain ⟨m, k, heq⟩ := h
  exact ⟨m, k, fun x hx => heq x (hst hx)⟩

theorem StraightOn.congr (h : StraightOn f s) (hfg : ∀ x ∈ s, g x = f x) : StraightOn g s := by
  obtain ⟨m, k, heq⟩ := h
  exact ⟨m, k, fun x hx => (hfg x hx).trans (heq x hx)⟩

/-- Two values give all others. -/
theorem StraightOn.eq_line (h : StraightOn f s) {x y z : K} (hx : x ∈ s) (hy : y ∈ s)
    (hxy : x ≠ y) (hz : z ∈ s) : f z = line (x, f x) (y, f y) z := by
  obtain ⟨m, k, heq⟩ := h
  have hne : y - x ≠ 0 := sub_ne_zero.mpr hxy.symm
  rw [line, heq x hx, heq y hy, heq z hz]
  field_simp
  ring

/-- Straight parts that share two places join. -/
theorem StraightOn.union (hs : StraightOn f s) (ht : StraightOn f t) {x y : K}
    (hx : x ∈ s ∩ t) (hy : y ∈ s ∩ t) (hxy : x ≠ y) : StraightOn f (s ∪ t) := by
  refine (straightOn_line (x, f x) (y, f y) (s ∪ t)).congr ?_
  rintro z (hz | hz)
  · exact hs.eq_line hx.1 hy.1 hxy hz
  · exact ht.eq_line hx.2 hy.2 hxy hz

/-- A line carries straight parts to straight parts. -/
theorem StraightOn.comp_affine {m k : K} (h : StraightOn f t)
    (hmaps : ∀ x ∈ s, m * x + k ∈ t) : StraightOn (fun x => f (m * x + k)) s := by
  obtain ⟨m', k', heq⟩ := h
  refine ⟨m' * m, m' * k + k', fun x hx => ?_⟩
  refine (heq _ (hmaps x hx)).trans ?_
  ring

end Straight

section Kinks

variable {K : Type*} [Field K] [LinearOrder K]

/-- The function is straight on no neighbourhood of the place. -/
def Kink (f : K → K) (x : K) : Prop := ¬ ∃ r > 0, StraightOn f (Set.Icc (x - r) (x + r))

/-- The function is straight between the places. -/
def BreaksIn (f : K → K) (l : List K) : Prop :=
  ∀ x z, (∀ b ∈ l, b ≤ x ∨ z ≤ b) → StraightOn f (Set.Icc x z)

variable {f g : K → K} {l l' : List K}

theorem BreaksIn.mono (h : BreaksIn f l) (hsub : l ⊆ l') : BreaksIn f l' :=
  fun x z hfree => h x z fun b hb => hfree b (hsub hb)

theorem breaksIn_line (p q : K × K) : BreaksIn (line p q) [] := fun _ _ _ => straightOn_line p q _

/-- Two functions that agree at a place join there. -/
theorem BreaksIn.ite (hf : BreaksIn f l) (hg : BreaksIn g l') {s : K} (hs : f s = g s) :
    BreaksIn (fun x => if x ≤ s then f x else g x) (s :: (l ++ l')) := by
  intro x z hfree
  rcases hfree s List.mem_cons_self with hsx | hzs
  · have hstraight := hg x z fun b hb =>
      hfree b (List.mem_cons_of_mem _ (List.mem_append_right l hb))
    refine hstraight.congr fun y hy => ?_
    rcases eq_or_lt_of_le (hsx.trans hy.1) with rfl | hlt
    · simp [hs]
    · simp [hlt.not_ge]
  · have hstraight := hf x z fun b hb =>
      hfree b (List.mem_cons_of_mem _ (List.mem_append_left l' hb))
    refine hstraight.congr fun y hy => ?_
    simp [hy.2.trans hzs]

variable [IsStrictOrderedRing K]

/-- A neighbourhood of a place not in a list avoids the list. -/
theorem exists_free {x : K} (h : x ∉ l) : ∃ r > 0, ∀ b ∈ l, b ≤ x - r ∨ x + r ≤ b := by
  induction l with
  | nil => exact ⟨1, zero_lt_one, by simp⟩
  | cons a as ih =>
      have hne : x ≠ a := List.ne_of_not_mem_cons h
      obtain ⟨r, hr, hfree⟩ := ih (List.not_mem_of_not_mem_cons h)
      have hdist : 0 < |x - a| := abs_pos.mpr (sub_ne_zero.mpr hne)
      refine ⟨min r |x - a|, lt_min hr hdist, ?_⟩
      intro b hb
      have hle : min r |x - a| ≤ r := min_le_left _ _
      have hle' : min r |x - a| ≤ |x - a| := min_le_right _ _
      rcases List.mem_cons.mp hb with rfl | hb
      · rcases lt_or_gt_of_ne hne with hlt | hgt
        · rw [abs_of_neg (sub_neg.mpr hlt)] at hle' ⊢
          exact .inr (by linarith)
        · rw [abs_of_pos (sub_pos.mpr hgt)] at hle' ⊢
          exact .inl (by linarith)
      · rcases hfree b hb with hleft | hright
        · exact .inl (by linarith)
        · exact .inr (by linarith)

theorem BreaksIn.mem_of_kink (h : BreaksIn f l) {x : K} (hx : Kink f x) : x ∈ l := by
  by_contra hmem
  obtain ⟨r, hr, hfree⟩ := exists_free hmem
  exact hx ⟨r, hr, h _ _ hfree⟩

/-- A place that is no kink can be left out. -/
theorem BreaksIn.of_cons {b : K} (h : BreaksIn f (b :: l)) (hb : ¬ Kink f b) : BreaksIn f l := by
  obtain ⟨r, hr, hnear⟩ := not_not.mp hb
  intro x z hfree
  have hpart : ∀ y w, x ≤ y → w ≤ z → b ≤ y ∨ w ≤ b → StraightOn f (Set.Icc y w) := by
    intro y w hy hw hbyw
    refine h y w fun c hc => ?_
    rcases List.mem_cons.mp hc with rfl | hc
    · exact hbyw
    · exact (hfree c hc).imp (fun hle => hle.trans hy) fun hle => hw.trans hle
  rcases le_or_gt b x with hbx | hxb
  · exact hpart x z le_rfl le_rfl (.inl hbx)
  rcases le_or_gt z b with hzb | hbz
  · exact hpart x z le_rfl le_rfl (.inr hzb)
  -- the parts on both sides of the place join the neighbourhood
  have hleft := hpart x b le_rfl hbz.le (.inr le_rfl)
  have hright := hpart b z hxb.le le_rfl (.inl le_rfl)
  have hlow : max x (b - r) < b := max_lt hxb (sub_lt_self b hr)
  have hhigh : b < min z (b + r) := lt_min hbz (lt_add_of_pos_right b hr)
  have hmid : StraightOn f (Set.Icc x b ∪ Set.Icc (b - r) (b + r)) :=
    hleft.union hnear ⟨⟨le_max_left _ _, hlow.le⟩, ⟨le_max_right _ _, by linarith⟩⟩
      ⟨⟨hxb.le, le_rfl⟩, ⟨by linarith, by linarith⟩⟩ hlow.ne
  have hall : StraightOn f (Set.Icc x b ∪ Set.Icc (b - r) (b + r) ∪ Set.Icc b z) :=
    hmid.union hright ⟨.inl ⟨hxb.le, le_rfl⟩, ⟨le_rfl, hbz.le⟩⟩
      ⟨.inr ⟨by linarith, min_le_right _ _⟩, ⟨hhigh.le, min_le_left _ _⟩⟩ hhigh.ne
  refine hall.mono fun y hy => ?_
  rcases le_total y b with hyb | hby
  · exact .inl (.inl ⟨hy.1, hyb⟩)
  · exact .inr ⟨hby, hy.2⟩

/-- The kinks are all the breaks a piecewise-linear function needs. -/
theorem BreaksIn.of_kinks (h : BreaksIn f l) (hkinks : ∀ b, Kink f b → b ∈ l') :
    BreaksIn f l' := by
  have hboth : BreaksIn f (l ++ l') := h.mono (List.subset_append_left l l')
  clear h
  induction l with
  | nil => exact hboth
  | cons a as ih =>
      by_cases ha : Kink f a
      · refine ih (hboth.mono ?_)
        intro b hb
        rcases List.mem_cons.mp hb with rfl | hb
        · exact List.mem_append_right _ (hkinks _ ha)
        · exact hb
      · exact ih (hboth.of_cons ha)

/-- The breaks behind a line are where the line reaches them. -/
theorem BreaksIn.comp_affine (h : BreaksIn f l) {m : K} (hm : m ≠ 0) (k : K) :
    BreaksIn (fun x => f (m * x + k)) (l.map fun b => (b - k) / m) := by
  intro x z hfree
  rcases lt_or_gt_of_ne hm with hneg | hpos
  · have hstraight : StraightOn f (Set.Icc (m * z + k) (m * x + k)) := by
      refine h _ _ fun b hb => ?_
      rcases hfree _ (List.mem_map_of_mem hb) with hle | hge
      · rw [div_le_iff_of_neg hneg] at hle
        exact .inr (by linarith)
      · rw [le_div_iff_of_neg hneg] at hge
        exact .inl (by linarith)
    refine hstraight.comp_affine fun y hy => ⟨?_, ?_⟩
    · have hmul := mul_le_mul_of_nonpos_left hy.2 hneg.le
      linarith
    · have hmul := mul_le_mul_of_nonpos_left hy.1 hneg.le
      linarith
  · have hstraight : StraightOn f (Set.Icc (m * x + k) (m * z + k)) := by
      refine h _ _ fun b hb => ?_
      rcases hfree _ (List.mem_map_of_mem hb) with hle | hge
      · rw [div_le_iff₀ hpos] at hle
        exact .inl (by linarith)
      · rw [le_div_iff₀ hpos] at hge
        exact .inr (by linarith)
    refine hstraight.comp_affine fun y hy => ⟨?_, ?_⟩
    · have hmul := mul_le_mul_of_nonneg_left hy.1 hpos.le
      linarith
    · have hmul := mul_le_mul_of_nonneg_left hy.2 hpos.le
      linarith

/-- A function behind a line has finitely many breaks if the function has. -/
theorem BreaksIn.comp_line (h : BreaksIn f l) (p q : K × K) :
    ∃ l', BreaksIn (fun x => f (line p q x)) l' := by
  have heq : (fun x => f (line p q x)) = fun x =>
      f ((q.2 - p.2) / (q.1 - p.1) * x + (p.2 - (q.2 - p.2) / (q.1 - p.1) * p.1)) :=
    funext fun x => congrArg f (line_eq p q x)
  rw [heq]
  rcases eq_or_ne ((q.2 - p.2) / (q.1 - p.1)) 0 with hzero | hne
  · rw [hzero]
    exact ⟨[], fun x z _ => ⟨0, f p.2, fun t _ => by simp⟩⟩
  · exact ⟨_, h.comp_affine hne _⟩

end Kinks

/-! ## The function through a list of points -/

section Through

variable {K : Type*} [Field K] [LinearOrder K]

/-- The function through two points or more. -/
def through (p q : K × K) : List (K × K) → K → K
  | [], x => line p q x
  | r :: rest, x => if x ≤ q.1 then line p q x else through q r rest x

theorem through_nil (p q : K × K) : through p q [] = line p q := rfl

theorem through_cons (p q r : K × K) (rest : List (K × K)) :
    through p q (r :: rest) = fun x => if x ≤ q.1 then line p q x else through q r rest x := rfl

/-- Up to the second point the function is the first line. -/
theorem through_of_le {p q : K × K} (rest : List (K × K)) {x : K} (h : x ≤ q.1) :
    through p q rest x = line p q x := by
  cases rest with
  | nil => rfl
  | cons r rest => simp [through_cons, h]

/-- From the second point on the first line is out of the way. -/
theorem through_of_ge {p q r : K × K} {rest : List (K × K)} (hpq : p.1 ≠ q.1) (hqr : q.1 ≤ r.1)
    {x : K} (h : q.1 ≤ x) : through p q (r :: rest) x = through q r rest x := by
  rcases eq_or_lt_of_le h with rfl | hlt
  · rw [through_of_le _ le_rfl, through_of_le _ hqr, line_right hpq, line_left]
  · simp [through_cons, hlt.not_ge]

/-- The abscissas increase. -/
abbrev Increasing (points : List (K × K)) : Prop := points.Pairwise fun p q => p.1 < q.1

omit [Field K] in
theorem Increasing.lt {p q : K × K} {rest : List (K × K)} (h : Increasing (p :: q :: rest)) :
    p.1 < q.1 :=
  List.rel_of_pairwise_cons h List.mem_cons_self

omit [Field K] in
theorem Increasing.tail {p : K × K} {rest : List (K × K)} (h : Increasing (p :: rest)) :
    Increasing rest :=
  List.Pairwise.of_cons h

/-- The function takes each point's value. -/
theorem through_mem {p q : K × K} {rest : List (K × K)} (h : Increasing (p :: q :: rest))
    {r : K × K} (hr : r ∈ p :: q :: rest) : through p q rest r.1 = r.2 := by
  induction rest generalizing p q with
  | nil =>
      have hpq := h.lt
      rcases List.mem_pair.mp hr with rfl | rfl
      · exact line_left _ _
      · exact line_right hpq.ne
  | cons u us ih =>
      have hpq := h.lt
      have hqu := h.tail.lt
      rcases List.mem_cons.mp hr with rfl | hr
      · rw [through_of_le _ hpq.le, line_left]
      · have hge : q.1 ≤ r.1 := by
          rcases List.mem_cons.mp hr with rfl | hr
          · exact le_rfl
          · exact (List.rel_of_pairwise_cons h.tail hr).le
        rw [through_of_ge hpq.ne hqu.le hge, ih h.tail hr]

/-- The breaks are the abscissas of the inner points. -/
theorem breaksIn_through {p q : K × K} {rest : List (K × K)} (h : Increasing (p :: q :: rest)) :
    BreaksIn (through p q rest) (((q :: rest).dropLast).map Prod.fst) := by
  induction rest generalizing p q with
  | nil => exact breaksIn_line p q
  | cons r rest ih =>
      have hpq := h.lt
      have hqr := h.tail.lt
      refine (breaksIn_line p q).ite (ih h.tail) ?_
      rw [line_right hpq.ne, through_of_le _ hqr.le, line_left]

omit [Field K] in
/-- The inner ones of increasing values have one of them on each side. -/
theorem mem_inner_iff {a b : K} {rest : List K} (h : (a :: b :: rest).Pairwise (· < ·)) {x : K} :
    x ∈ (b :: rest).dropLast ↔
      x ∈ a :: b :: rest ∧ (∃ z ∈ a :: b :: rest, z < x) ∧ ∃ z ∈ a :: b :: rest, x < z := by
  have hsplit : (b :: rest).dropLast ++ [(b :: rest).getLast (List.cons_ne_nil b rest)] =
      b :: rest := List.dropLast_append_getLast _
  have hlast : ∀ y ∈ (b :: rest).dropLast, y < (b :: rest).getLast (List.cons_ne_nil b rest) := by
    have hrest := List.Pairwise.of_cons h
    rw [← hsplit] at hrest
    intro y hy
    exact (List.pairwise_append.mp hrest).2.2 y hy _ (List.mem_singleton_self _)
  constructor
  · intro hx
    have hmem : x ∈ b :: rest := List.dropLast_subset _ hx
    exact ⟨List.mem_cons_of_mem _ hmem, ⟨a, List.mem_cons_self, List.rel_of_pairwise_cons h hmem⟩,
      ⟨_, List.mem_cons_of_mem _ (List.getLast_mem _), hlast x hx⟩⟩
  · rintro ⟨hx, ⟨z, hz, hzx⟩, ⟨y, hy, hxy⟩⟩
    have hle : ∀ y ∈ a :: b :: rest, a ≤ y := by
      intro y hy
      rcases List.mem_cons.mp hy with rfl | hy
      · exact le_rfl
      · exact (List.rel_of_pairwise_cons h hy).le
    have hge : ∀ y ∈ a :: b :: rest, y ≤ (b :: rest).getLast (List.cons_ne_nil b rest) := by
      intro y hy
      rcases List.mem_cons.mp hy with rfl | hy
      · exact (List.rel_of_pairwise_cons h (List.getLast_mem _)).le
      · rw [← hsplit] at hy
        rcases List.mem_append.mp hy with hy | hy
        · exact (hlast y hy).le
        · exact (List.mem_singleton.mp hy).le
    have hne : x ≠ a := ((hle z hz).trans_lt hzx).ne'
    have hmem := List.mem_of_ne_of_mem hne hx
    rw [← hsplit] at hmem
    rcases List.mem_append.mp hmem with hinner | hend
    · exact hinner
    · exact absurd (List.mem_singleton.mp hend) (hxy.trans_le (hge y hy)).ne

/-- Between neighbours the function is their line, and outside the points the
line of the two at that end. -/
theorem through_eq_line {p q : K × K} {rest : List (K × K)} (h : Increasing (p :: q :: rest))
    {u v : K × K} (hu : u ∈ p :: q :: rest) (hv : v ∈ p :: q :: rest) (huv : u.1 < v.1)
    (hnext : ∀ r ∈ p :: q :: rest, r.1 ≤ u.1 ∨ v.1 ≤ r.1) {x : K}
    (hlow : u.1 ≤ x ∨ ∀ r ∈ p :: q :: rest, u.1 ≤ r.1)
    (hhigh : x ≤ v.1 ∨ ∀ r ∈ p :: q :: rest, r.1 ≤ v.1) :
    through p q rest x = line u v x := by
  have hsorted : (p.1 :: q.1 :: rest.map Prod.fst).Pairwise (· < ·) := List.pairwise_map.mpr h
  have hpoint : ∀ z ∈ p.1 :: q.1 :: rest.map Prod.fst, ∃ r ∈ p :: q :: rest, r.1 = z :=
    fun z hz => List.mem_map.mp hz
  have hstraight : StraightOn (through p q rest) (Set.Icc (min x u.1) (max x v.1)) := by
    refine breaksIn_through h _ _ fun b hb => ?_
    rw [List.map_dropLast, List.map_cons, mem_inner_iff hsorted] at hb
    obtain ⟨hb, ⟨y, hy, hyb⟩, ⟨z, hz, hbz⟩⟩ := hb
    obtain ⟨r, hr, rfl⟩ := hpoint b hb
    obtain ⟨s, hs, rfl⟩ := hpoint y hy
    obtain ⟨t, ht, rfl⟩ := hpoint z hz
    rcases hnext r hr with hru | hvr
    · left
      rcases hlow with hux | hleast
      · exact le_min (hru.trans hux) hru
      · exact absurd (hyb.trans_le hru) (hleast s hs).not_gt
    · right
      rcases hhigh with hxv | hgreatest
      · exact max_le (hxv.trans hvr) hvr
      · exact absurd (hvr.trans_lt hbz) (hgreatest t ht).not_gt
  have hline := hstraight.eq_line ⟨min_le_right _ _, huv.le.trans (le_max_right _ _)⟩
    ⟨(min_le_right _ _).trans huv.le, le_max_right _ _⟩ huv.ne ⟨min_le_left _ _, le_max_left _ _⟩
  rwa [through_mem h hu, through_mem h hv] at hline

/-- A piecewise-linear function behind the one through points is piecewise
linear. -/
theorem BreaksIn.comp_through [IsStrictOrderedRing K] {g : K → K} {l : List K}
    (hg : BreaksIn g l) {p q : K × K}
    {rest : List (K × K)} (h : Increasing (p :: q :: rest)) :
    ∃ l', BreaksIn (fun x => g (through p q rest x)) l' := by
  induction rest generalizing p q with
  | nil => exact hg.comp_line p q
  | cons r rest ih =>
      have hpq := h.lt
      have hqr := h.tail.lt
      obtain ⟨l₁, h₁⟩ := hg.comp_line p q
      obtain ⟨l₂, h₂⟩ := ih h.tail
      have hjoin : g (line p q q.1) = g (through q r rest q.1) := by
        rw [line_right hpq.ne, through_of_le _ hqr.le, line_left]
      have heq : (fun x => g (through p q (r :: rest) x)) =
          fun x => if x ≤ q.1 then g (line p q x) else g (through q r rest x) := by
        funext x
        rw [through_cons, apply_ite g]
      exact ⟨_, heq ▸ h₁.ite h₂ hjoin⟩

/-! ## Order and continuity -/

section Order

variable [IsStrictOrderedRing K]

theorem monotone_line {p q : K × K} (hpq : p.1 < q.1) (hval : p.2 ≤ q.2) :
    Monotone (line p q) := by
  intro x y hxy
  have hslope : 0 ≤ (q.2 - p.2) / (q.1 - p.1) :=
    div_nonneg (sub_nonneg.mpr hval) (sub_nonneg.mpr hpq.le)
  rw [line_eq, line_eq]
  have hmul := mul_le_mul_of_nonneg_left hxy hslope
  linarith

/-- The function through points whose values do not decrease does not decrease. -/
theorem monotone_through {p q : K × K} {rest : List (K × K)} (h : Increasing (p :: q :: rest))
    (hval : (p :: q :: rest).Pairwise fun p q => p.2 ≤ q.2) : Monotone (through p q rest) := by
  induction rest generalizing p q with
  | nil =>
      exact monotone_line h.lt (List.rel_of_pairwise_cons hval List.mem_cons_self)
  | cons r rest ih =>
      have hpq := h.lt
      have hqr := h.tail.lt
      have hline : Monotone (line p q) :=
        monotone_line hpq (List.rel_of_pairwise_cons hval List.mem_cons_self)
      have htail : Monotone (through q r rest) := ih h.tail (List.Pairwise.of_cons hval)
      intro x y hxy
      rcases le_total y q.1 with hy | hy
      · rw [through_of_le _ (hxy.trans hy), through_of_le _ hy]
        exact hline hxy
      · rw [through_of_ge hpq.ne hqr.le hy]
        rcases le_total x q.1 with hx | hx
        · -- the two sides meet at the second point
          rw [through_of_le _ hx]
          calc line p q x ≤ line p q q.1 := hline hx
            _ = through q r rest q.1 := by rw [line_right hpq.ne, through_of_le _ hqr.le, line_left]
            _ ≤ through q r rest y := htail hy
        · rw [through_of_ge hpq.ne hqr.le hx]
          exact htail hxy

variable [TopologicalSpace K] [OrderTopology K]

theorem continuous_line (p q : K × K) : Continuous (line p q) := by
  have heq : line p q = fun x => (q.2 - p.2) / (q.1 - p.1) * x +
      (p.2 - (q.2 - p.2) / (q.1 - p.1) * p.1) := funext (line_eq p q)
  rw [heq]
  exact (continuous_const.mul continuous_id).add continuous_const

theorem continuous_through {p q : K × K} {rest : List (K × K)} (h : Increasing (p :: q :: rest)) :
    Continuous (through p q rest) := by
  induction rest generalizing p q with
  | nil => exact continuous_line p q
  | cons r rest ih =>
      have hpq := h.lt
      have hqr := h.tail.lt
      refine (continuous_line p q).if_le (ih h.tail) continuous_id continuous_const ?_
      rintro x rfl
      rw [line_right hpq.ne, through_of_le _ hqr.le, line_left]

end Order

/-! ## Points on a graph -/

section Graph

variable {f : K → K}

/-- The point of the graph at a place. -/
abbrev graph (f : K → K) (x : K) : K × K := (x, f x)

/-- From a place on, a function with no break between neighbours of a list is the
one through the points at these. -/
theorem through_graph_eq {l : List K} (hf : BreaksIn f l) {a b w : K} {rest : List K}
    (h : (a :: b :: rest).Pairwise (· < ·)) (hw : w ≤ a)
    (hl : ∀ c ∈ l, c ≤ w ∨ c ∈ (b :: rest).dropLast) {x : K} (hx : w ≤ x) :
    through (graph f a) (graph f b) (rest.map (graph f)) x = f x := by
  induction rest generalizing a b w with
  | nil =>
      have hab : a < b := List.rel_of_pairwise_cons h List.mem_cons_self
      have hstraight : StraightOn f (Set.Icc w (max b x)) := by
        refine hf _ _ fun c hc => ?_
        rcases hl c hc with hcw | hnil
        · exact .inl hcw
        · cases hnil
      exact (hstraight.eq_line ⟨hw, hab.le.trans (le_max_left _ _)⟩
        ⟨hw.trans hab.le, le_max_left _ _⟩ hab.ne ⟨hx, le_max_right _ _⟩).symm
  | cons c rest ih =>
      have hab : a < b := List.rel_of_pairwise_cons h List.mem_cons_self
      have hrest := List.Pairwise.of_cons h
      have hbc : b < c := List.rel_of_pairwise_cons hrest List.mem_cons_self
      rcases le_total x b with hxb | hbx
      · have hstraight : StraightOn f (Set.Icc w b) := by
          refine hf _ _ fun d hd => ?_
          rcases hl d hd with hdw | hinner
          · exact .inl hdw
          · right
            rcases List.mem_cons.mp (List.dropLast_subset _ hinner) with rfl | hd
            · exact le_rfl
            · exact (List.rel_of_pairwise_cons hrest hd).le
        rw [List.map_cons, through_of_le _ (show x ≤ (graph f b).1 from hxb)]
        exact (hstraight.eq_line ⟨hw, hab.le⟩ ⟨hw.trans hab.le, le_rfl⟩ hab.ne ⟨hx, hxb⟩).symm
      · rw [List.map_cons, through_of_ge (show (graph f a).1 ≠ (graph f b).1 from hab.ne)
          (show (graph f b).1 ≤ (graph f c).1 from hbc.le) (show (graph f b).1 ≤ x from hbx)]
        refine ih hrest le_rfl (fun d hd => ?_) hbx
        rcases hl d hd with hdw | hinner
        · exact .inl (hdw.trans (hw.trans hab.le))
        · rw [List.dropLast_cons_cons] at hinner
          rcases List.mem_cons.mp hinner with rfl | hinner
          · exact .inl le_rfl
          · exact .inr hinner

/-- A piecewise-linear function is the one through given points of its graph if
and only if its kinks are at the inner ones. -/
theorem through_graph_iff [IsStrictOrderedRing K] {l : List K} (hf : BreaksIn f l) {a b : K}
    {rest : List K} (h : (a :: b :: rest).Pairwise (· < ·)) :
    (∀ x, through (graph f a) (graph f b) (rest.map (graph f)) x = f x) ↔
      ∀ x, Kink f x → x ∈ (b :: rest).dropLast := by
  constructor
  · intro heq x hx
    have hpoints : Increasing ((a :: b :: rest).map (graph f)) := List.pairwise_map.mpr h
    rw [← funext heq] at hx
    have hmem := (breaksIn_through hpoints).mem_of_kink hx
    rwa [← List.map_cons, ← List.map_dropLast, List.map_map,
      show Prod.fst ∘ graph f = id from rfl, List.map_id] at hmem
  · intro hkinks x
    refine through_graph_eq (hf.of_kinks hkinks) h (min_le_left a x) (fun c hc => .inr hc)
      (min_le_right a x)

end Graph

end Through

end PiecewiseLinear
