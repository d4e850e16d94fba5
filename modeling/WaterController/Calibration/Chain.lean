import Mathlib.Data.List.MinMax
import Mathlib.Logic.Relation
import WaterController.Calibration.Interpolation

/-!
# Chained calibrations

`then` replaces two calibrations in a row by one.  It takes points at the raw
values of the first and where the first reaches a raw value of the second
(`Candidate`), sorts them and thins them from the left: a value is `Kept` when it
is `epsilon` behind the one kept before.

The function it is meant to compute is piecewise linear, and so is the one it
computes.  The two are equal if and only if every place at which the first bends
is kept and inner, that is neither the first nor the last of the kept ones
(`then_composes_iff`).
-/

namespace WaterController

open PiecewiseLinear

namespace Calibration

/-! ## Thinning -/

section Thinning

/-- The least candidate that is `epsilon` behind the last one. -/
def NextKept (C : ℚ → Prop) (kept x : ℚ) : Prop :=
  C x ∧ kept + CalNum.epsilon ≤ x ∧ ∀ y, C y → kept + CalNum.epsilon ≤ y → x ≤ y

/-- The values kept of the candidates, from the least one on. -/
def Kept (C : ℚ → Prop) (x : ℚ) : Prop :=
  ∃ first, C first ∧ (∀ y, C y → first ≤ y) ∧ Relation.ReflTransGen (NextKept C) first x

/-- Kept, with others on both sides. -/
def Inner (C : ℚ → Prop) (x : ℚ) : Prop :=
  Kept C x ∧ (∃ z, Kept C z ∧ z < x) ∧ ∃ z, Kept C z ∧ x < z

/-- What `dedup_by` asks of the values it keeps. -/
abbrev Apart (kept x : ℚ) : Prop := ¬ CalNum.abs (x - kept) < (CalNum.epsilon : ℚ)

theorem apart_iff {kept x : ℚ} (h : kept ≤ x) : Apart kept x ↔ kept + CalNum.epsilon ≤ x := by
  rw [Apart, show CalNum.abs (x - kept) = |x - kept| from rfl, abs_of_nonneg (sub_nonneg.mpr h),
    not_lt, le_sub_iff_add_le, add_comm]

theorem NextKept.unique {C : ℚ → Prop} {kept x y : ℚ} (hx : NextKept C kept x)
    (hy : NextKept C kept y) : x = y :=
  le_antisymm (hx.2.2 y hy.1 hy.2.1) (hy.2.2 x hx.1 hx.2.1)

/-- From a kept value on, the list keeps what follows it. -/
theorem mem_destutter'_iff {C : ℚ → Prop} {kept : ℚ} {l : List ℚ}
    (hsorted : (kept :: l).Pairwise (· ≤ ·)) (hl : ∀ y ∈ l, C y)
    (hall : ∀ y, C y → kept + CalNum.epsilon ≤ y → y ∈ l) {x : ℚ} :
    x ∈ l.destutter' Apart kept ↔ Relation.ReflTransGen (NextKept C) kept x := by
  induction l generalizing kept with
  | nil =>
      rw [List.destutter'_nil, List.mem_singleton]
      constructor
      · rintro rfl
        exact .refl
      · intro h
        rcases Relation.ReflTransGen.cases_head h with rfl | ⟨y, ⟨hy, hfar, -⟩, -⟩
        · rfl
        · cases hall y hy hfar
  | cons h t ih =>
      have hle : kept ≤ h := List.rel_of_pairwise_cons hsorted List.mem_cons_self
      have htail : (h :: t).Pairwise (· ≤ ·) := List.Pairwise.of_cons hsorted
      have ht : ∀ y ∈ t, C y := fun y hy => hl y (List.mem_cons_of_mem h hy)
      by_cases hapart : Apart kept h
      · have hfar := (apart_iff hle).mp hapart
        have hnext : NextKept C kept h := by
          refine ⟨hl h List.mem_cons_self, hfar, fun y hy hfar' => ?_⟩
          rcases List.mem_cons.mp (hall y hy hfar') with rfl | hmem
          · exact le_rfl
          · exact List.rel_of_pairwise_cons htail hmem
        have hrest : x ∈ t.destutter' Apart h ↔ Relation.ReflTransGen (NextKept C) h x := by
          refine ih htail ht fun y hy hfar' => ?_
          have hlt : h < y := lt_of_lt_of_le (lt_add_of_pos_right h epsilon_pos) hfar'
          exact List.mem_of_ne_of_mem hlt.ne' (hall y hy (hfar.trans hlt.le))
        rw [List.destutter'_cons_pos t hapart, List.mem_cons, hrest]
        constructor
        · rintro (rfl | htrans)
          · exact .refl
          · exact .head hnext htrans
        · intro htrans
          rcases Relation.ReflTransGen.cases_head htrans with rfl | ⟨y, hy, hyx⟩
          · exact .inl rfl
          · exact .inr (hy.unique hnext ▸ hyx)
      · -- too close to the last one
        rw [List.destutter'_cons_neg t hapart]
        refine ih (hsorted.sublist (List.sublist_cons_self h t |>.cons_cons kept)) ht ?_
        intro y hy hfar
        refine List.mem_of_ne_of_mem ?_ (hall y hy hfar)
        rintro rfl
        exact hapart ((apart_iff hle).mpr hfar)

/-- A dropped value is close to one that is kept. -/
theorem exists_close_of_mem {kept y : ℚ} {l : List ℚ} (hy : y ∈ kept :: l) :
    ∃ z ∈ l.destutter' Apart kept, z = y ∨ ¬ Apart z y := by
  induction l generalizing kept with
  | nil =>
      rw [List.mem_singleton] at hy
      exact ⟨kept, List.mem_singleton_self kept, .inl hy.symm⟩
  | cons h t ih =>
      by_cases hapart : Apart kept h
      · rw [List.destutter'_cons_pos t hapart]
        rcases List.mem_cons.mp hy with rfl | hy
        · exact ⟨y, List.mem_cons_self, .inl rfl⟩
        · obtain ⟨z, hz, hclose⟩ := ih hy
          exact ⟨z, List.mem_cons_of_mem kept hz, hclose⟩
      · rw [List.destutter'_cons_neg t hapart]
        rcases List.mem_cons.mp hy with rfl | hy
        · exact ⟨y, List.mem_destutter' t Apart y, .inl rfl⟩
        rcases List.mem_cons.mp hy with rfl | hy
        · exact ⟨kept, List.mem_destutter' t Apart kept, .inr hapart⟩
        · exact ih (List.mem_cons_of_mem kept hy)

end Thinning

/-! ## Candidates -/

/-- The first place along the segments at which a calibrated value is taken.  A
segment whose calibrated values are close counts as level. -/
inductive FirstSolution (y : ℚ) : List (ℚ × ℚ) → ℚ → Prop
  | level {p q : ℚ × ℚ} {rest : List (ℚ × ℚ)} : min p.2 q.2 ≤ y → y ≤ max p.2 q.2 →
      |q.2 - p.2| < CalNum.epsilon → FirstSolution y (p :: q :: rest) p.1
  | sloped {p q : ℚ × ℚ} {rest : List (ℚ × ℚ)} : min p.2 q.2 ≤ y → y ≤ max p.2 q.2 →
      CalNum.epsilon ≤ |q.2 - p.2| →
      FirstSolution y (p :: q :: rest) (line (p.2, p.1) (q.2, q.1) y)
  | later {p q : ℚ × ℚ} {rest : List (ℚ × ℚ)} {x : ℚ} :
      ¬ (min p.2 q.2 ≤ y ∧ y ≤ max p.2 q.2) → FirstSolution y (q :: rest) x →
      FirstSolution y (p :: q :: rest) x

/-- A raw value of the first calibration, or the first place where it takes a raw
value of the second. -/
def Candidate (a b : Calibration ℚ) (x : ℚ) : Prop :=
  (∃ p ∈ a.points, p.1 = x) ∨ ∃ r ∈ b.points, FirstSolution r.1 a.points x

section Segments

variable {p q : ℚ × ℚ} {rest : List (ℚ × ℚ)} {x y : ℚ}

theorem firstSolution_of_hit (hit : min p.2 q.2 ≤ y ∧ y ≤ max p.2 q.2) :
    FirstSolution y (p :: q :: rest) x ↔
      (if |q.2 - p.2| < CalNum.epsilon then p.1 else line (p.2, p.1) (q.2, q.1) y) = x := by
  constructor
  · intro h
    cases h with
    | level _ _ hlevel => exact if_pos hlevel
    | sloped _ _ hsloped => exact if_neg (not_lt.mpr hsloped)
    | later hmiss _ => exact absurd hit hmiss
  · rintro rfl
    split
    · rename_i hlevel
      exact .level hit.1 hit.2 hlevel
    · rename_i hsloped
      exact .sloped hit.1 hit.2 (not_lt.mp hsloped)

theorem firstSolution_of_miss (miss : ¬ (min p.2 q.2 ≤ y ∧ y ≤ max p.2 q.2)) :
    FirstSolution y (p :: q :: rest) x ↔ FirstSolution y (q :: rest) x := by
  constructor
  · intro h
    cases h with
    | level hlow hhigh _ => exact absurd ⟨hlow, hhigh⟩ miss
    | sloped hlow hhigh _ => exact absurd ⟨hlow, hhigh⟩ miss
    | later _ hrest => exact hrest
  · exact .later miss

theorem invertSelf_of_hit (hit : min p.2 q.2 ≤ y ∧ y ≤ max p.2 q.2) :
    invertSelf ⟨p :: q :: rest⟩ y =
      some (if |q.2 - p.2| < CalNum.epsilon then p.1 else line (p.2, p.1) (q.2, q.1) y) := by
  simp only [invertSelf, windows2_cons_cons, List.find?_cons, hit.1, hit.2, decide_true,
    Bool.and_self, Option.map_some]
  rfl

theorem invertSelf_of_miss (miss : ¬ (min p.2 q.2 ≤ y ∧ y ≤ max p.2 q.2)) :
    invertSelf ⟨p :: q :: rest⟩ y = invertSelf ⟨q :: rest⟩ y := by
  have hfalse : (decide (min p.2 q.2 ≤ y) && decide (y ≤ max p.2 q.2)) = false := by
    rw [← Bool.decide_and]
    exact decide_eq_false miss
  simp only [invertSelf, windows2_cons_cons, List.find?_cons, hfalse]

end Segments

/-- `invert_self` finds the first solution. -/
theorem invertSelf_eq_some_iff {a : Calibration ℚ} {x y : ℚ} :
    invertSelf a y = some x ↔ FirstSolution y a.points x := by
  obtain ⟨points⟩ := a
  induction points with
  | nil =>
      constructor
      · intro h
        cases h
      · intro h
        cases h
  | cons p points ih =>
      cases points with
      | nil =>
          constructor
          · intro h
            cases h
          · intro h
            cases h
      | cons q rest =>
          by_cases hit : min p.2 q.2 ≤ y ∧ y ≤ max p.2 q.2
          · rw [invertSelf_of_hit hit, Option.some.injEq, firstSolution_of_hit hit]
          · rw [invertSelf_of_miss hit, ih, firstSolution_of_miss hit]

/-- A value that is taken lies between two calibrated values. -/
theorem FirstSolution.exists_between {y x : ℚ} {points : List (ℚ × ℚ)}
    (h : FirstSolution y points x) :
    ∃ p ∈ points, ∃ q ∈ points, min p.2 q.2 ≤ y ∧ y ≤ max p.2 q.2 := by
  induction h with
  | level hlow hhigh _ =>
      exact ⟨_, List.mem_cons_self, _, List.mem_cons_of_mem _ List.mem_cons_self, hlow, hhigh⟩
  | sloped hlow hhigh _ =>
      exact ⟨_, List.mem_cons_self, _, List.mem_cons_of_mem _ List.mem_cons_self, hlow, hhigh⟩
  | later _ _ ih =>
      obtain ⟨p, hp, q, hq, hbetween⟩ := ih
      exact ⟨p, List.mem_cons_of_mem _ hp, q, List.mem_cons_of_mem _ hq, hbetween⟩

/-- The check of the output range refuses nothing that has a solution. -/
theorem mem_pulledBack_iff {a b : Calibration ℚ} {x : ℚ} :
    x ∈ pulledBack a b ↔ ∃ r ∈ b.points, FirstSolution r.1 a.points x := by
  rw [pulledBack, List.mem_filterMap]
  refine exists_congr fun r => and_congr_right fun hr => ?_
  rw [← invertSelf_eq_some_iff]
  constructor
  · intro h
    dsimp only at h
    split at h
    · split at h
      · exact h
      · cases h
    · cases h
  · intro h
    obtain ⟨p, hp, q, hq, hlow, hhigh⟩ := (invertSelf_eq_some_iff.mp h).exists_between
    have hp' := List.mem_map_of_mem (f := Prod.snd) hp
    have hq' := List.mem_map_of_mem (f := Prod.snd) hq
    cases hmin : (a.points.map Prod.snd).min? with
    | none => simp [List.min?_eq_none_iff.mp hmin] at hp'
    | some lo =>
        cases hmax : (a.points.map Prod.snd).max? with
        | none => simp [List.max?_eq_none_iff.mp hmax] at hp'
        | some hi =>
            have hlo := (List.min?_eq_some_iff.mp hmin).2
            have hhi := (List.max?_eq_some_iff.mp hmax).2
            have hrange : lo ≤ r.1 ∧ r.1 ≤ hi :=
              ⟨(le_min (hlo _ hp') (hlo _ hq')).trans hlow,
                hhigh.trans (max_le (hhi _ hp') (hhi _ hq'))⟩
            simp only [hrange, and_self, if_true, h]

/-- The candidates in order. -/
theorem exists_sorted {a : Calibration ℚ} (ha : a.Usable) (b : Calibration ℚ) :
    ∃ first l, thenBreakpoints a b = l.destutter' Apart first ∧
      (first :: l).Pairwise (· ≤ ·) ∧ ∀ y, y ∈ first :: l ↔ Candidate a b y := by
  have : Std.Total fun x y : ℚ => ¬ y < x :=
    ⟨fun x y => (le_total x y).imp not_lt.mpr not_lt.mpr⟩
  have : IsTrans ℚ fun x y => ¬ y < x :=
    ⟨fun x y z hxy hyz => not_lt.mpr ((not_lt.mp hxy).trans (not_lt.mp hyz))⟩
  have hsorted := List.pairwise_insertionSort (fun x y : ℚ => ¬ y < x)
    (a.points.map Prod.fst ++ pulledBack a b)
  have hmem : ∀ y, y ∈ (a.points.map Prod.fst ++ pulledBack a b).insertionSort
      (fun x y : ℚ => ¬ y < x) ↔ Candidate a b y := by
    intro y
    rw [List.mem_insertionSort, List.mem_append, List.mem_map, mem_pulledBack_iff]
    rfl
  obtain ⟨p, q, rest, hpoints, -, -⟩ := ha.exists_points
  rcases hsort : (a.points.map Prod.fst ++ pulledBack a b).insertionSort
      (fun x y : ℚ => ¬ y < x) with _ | ⟨first, l⟩
  · have hp : Candidate a b p.1 := .inl ⟨p, by simp [hpoints], rfl⟩
    rw [← hmem, hsort] at hp
    cases hp
  · rw [hsort] at hsorted hmem
    refine ⟨first, l, ?_, hsorted.imp not_lt.mp, hmem⟩
    rw [thenBreakpoints, hsort, List.destutter_cons']

/-- `then` takes its points at the kept candidates. -/
theorem mem_thenBreakpoints_iff {a : Calibration ℚ} (ha : a.Usable) (b : Calibration ℚ) {x : ℚ} :
    x ∈ thenBreakpoints a b ↔ Kept (Candidate a b) x := by
  obtain ⟨first, l, hbreaks, hsorted, hmem⟩ := exists_sorted ha b
  have hfirst : ∀ y, Candidate a b y → first ≤ y := by
    intro y hy
    rcases List.mem_cons.mp ((hmem y).mpr hy) with rfl | hy
    · exact le_rfl
    · exact List.rel_of_pairwise_cons hsorted hy
  have hcandidate : Candidate a b first := (hmem first).mp List.mem_cons_self
  have hiff : x ∈ l.destutter' Apart first ↔
      Relation.ReflTransGen (NextKept (Candidate a b)) first x := by
    refine mem_destutter'_iff hsorted (fun y hy => (hmem y).mp (List.mem_cons_of_mem _ hy)) ?_
    intro y hy hfar
    have hlt : first < y := lt_of_lt_of_le (lt_add_of_pos_right first epsilon_pos) hfar
    exact List.mem_of_ne_of_mem hlt.ne' ((hmem y).mpr hy)
  rw [hbreaks, hiff]
  constructor
  · intro h
    exact ⟨first, hcandidate, hfirst, h⟩
  · rintro ⟨z, hz, hleast, htrans⟩
    have heq : z = first := le_antisymm (hleast first hcandidate) (hfirst z hz)
    exact heq ▸ htrans

/-- The points of `then` are `epsilon` apart. -/
theorem pairwise_thenBreakpoints {a : Calibration ℚ} (ha : a.Usable) (b : Calibration ℚ) :
    (thenBreakpoints a b).Pairwise fun x y => x + CalNum.epsilon ≤ y := by
  obtain ⟨first, l, hbreaks, hsorted, -⟩ := exists_sorted ha b
  have hle := isChain_iff_windows2.mp
    (hsorted.sublist (List.destutter'_sublist l Apart first)).isChain
  have hapart := isChain_iff_windows2.mp (List.isChain_destutter' Apart l first)
  have : IsTrans ℚ fun x y => x + CalNum.epsilon ≤ y :=
    ⟨fun x y z hxy hyz => by linarith [epsilon_pos]⟩
  rw [hbreaks, ← List.isChain_iff_pairwise, isChain_iff_windows2]
  intro w hw
  exact (apart_iff (hle w hw)).mp (hapart w hw)

/-- There are two points at least. -/
theorem exists_thenBreakpoints {as : List (ℚ × ℚ)} {a : Calibration ℚ} (ha : new as = some a)
    (b : Calibration ℚ) : ∃ x y rest, thenBreakpoints a b = x :: y :: rest := by
  have husable := usable_of_new ha
  obtain ⟨-, -, hspaced⟩ := new_eq_some_iff.mp ha
  obtain ⟨p, q, rest, hpoints, -, -⟩ := husable.exists_points
  obtain ⟨first, l, hbreaks, hsorted, hmem⟩ := exists_sorted husable b
  rw [hbreaks]
  rcases hkept : l.destutter' Apart first with _ | ⟨x, _ | ⟨y, others⟩⟩
  · exact absurd hkept (List.destutter'_ne_nil l Apart)
  · -- two points of the first calibration are not both close to a single one
    rw [Spaced, hpoints] at hspaced
    have hpq := List.rel_of_pairwise_cons hspaced List.mem_cons_self
    have hle : ∀ r ∈ a.points, first ≤ r.1 := by
      intro r hr
      rcases List.mem_cons.mp ((hmem r.1).mpr (.inl ⟨r, hr, rfl⟩)) with heq | hr
      · exact heq.ge
      · exact List.rel_of_pairwise_cons hsorted hr
    have hfirst : first = x := by
      have hself := List.mem_destutter' l Apart first
      rw [hkept] at hself
      exact List.mem_singleton.mp hself
    have hp : first ≤ p.1 := hle p (by simp [hpoints])
    have hq : q.1 ∈ first :: l := (hmem q.1).mpr (.inl ⟨q, by simp [hpoints], rfl⟩)
    obtain ⟨z, hz, hclose⟩ := exists_close_of_mem hq
    rw [hkept, List.mem_singleton, ← hfirst] at hz
    subst hz
    have hfar : z + CalNum.epsilon ≤ q.1 := by linarith
    rcases hclose with rfl | hclose
    · exact absurd hfar (not_le.mpr (lt_add_of_pos_right _ epsilon_pos))
    · exact absurd ((apart_iff (hle q (by simp [hpoints]))).mpr hfar) hclose
  · exact ⟨x, y, others, rfl⟩

/-! ## The composition -/

/-- The function that one calibration after the other computes. -/
def composite (a b : Calibration ℚ) (x : ℚ) : ℚ := b.curve (a.curve x)

theorem bind_apply {a b : Calibration ℚ} (ha : a.Usable) (hb : b.Usable) (x : ℚ) :
    (a.apply x >>= b.apply) = .ok (composite a b x) := by
  rw [ha.apply_eq]
  exact hb.apply_eq _

/-- The composition is piecewise linear. -/
theorem exists_breaksIn {a b : Calibration ℚ} (ha : a.Usable) (hb : b.Usable) :
    ∃ l, BreaksIn (composite a b) l := by
  obtain ⟨p, q, rest, -, hcurve, hincreasing⟩ := ha.exists_points
  obtain ⟨u, v, rest', -, hcurve', hincreasing'⟩ := hb.exists_points
  have heq : composite a b = fun x => through u v rest' (through p q rest x) := by
    funext x
    rw [composite, hcurve, hcurve']
  rw [heq]
  exact (breaksIn_through hincreasing').comp_through hincreasing

/-- The points of the composition at the breakpoints. -/
def chained (a b : Calibration ℚ) : Calibration ℚ :=
  ⟨(thenBreakpoints a b).map (graph (composite a b))⟩

/-- The constructor accepts them. -/
theorem new_chained {as : List (ℚ × ℚ)} {a : Calibration ℚ} (ha : new as = some a)
    (b : Calibration ℚ) : new (chained a b).points = some (chained a b) := by
  refine new_eq_some_iff.mpr ⟨?_, List.Perm.refl _, ?_⟩
  · obtain ⟨x, y, rest, heq⟩ := exists_thenBreakpoints ha b
    simp [chained, heq]
  · exact List.pairwise_map.mpr (pairwise_thenBreakpoints (usable_of_new ha) b)

theorem then_eq {as bs : List (ℚ × ℚ)} {a b : Calibration ℚ} (ha : new as = some a)
    (hb : new bs = some b) : then' a b = .ok (chained a b) := by
  have hpairs : ((thenBreakpoints a b).mapM fun x =>
      (.ok (x, composite a b x) : Except ThenPanic (ℚ × ℚ))) = .ok (chained a b).points :=
    List.mapM_pure
  simp only [then', bind_apply (usable_of_new ha) (usable_of_new hb), hpairs]
  simp only [bind, Except.bind, new_chained ha b]
  rfl

/-- The curve of the chain is the composition if and only if the composition bends
at inner kept candidates only. -/
theorem curve_chained_iff {as bs : List (ℚ × ℚ)} {a b : Calibration ℚ} (ha : new as = some a)
    (hb : new bs = some b) : (∀ x, (chained a b).curve x = composite a b x) ↔
      ∀ x, Kink (composite a b) x → Inner (Candidate a b) x := by
  have husable := usable_of_new ha
  obtain ⟨x₀, x₁, rest, heq⟩ := exists_thenBreakpoints ha b
  obtain ⟨l, hbreaks⟩ := exists_breaksIn husable (usable_of_new hb)
  have hincreasing : (x₀ :: x₁ :: rest).Pairwise (· < ·) := by
    have hspaced := pairwise_thenBreakpoints husable b
    rw [heq] at hspaced
    exact hspaced.imp fun hle => lt_of_lt_of_le (lt_add_of_pos_right _ epsilon_pos) hle
  have hcurve : (chained a b).curve = through (graph (composite a b) x₀)
      (graph (composite a b) x₁) (rest.map (graph (composite a b))) := by
    rw [chained, heq]
    rfl
  have hinner : ∀ x, Inner (Candidate a b) x ↔ x ∈ (x₁ :: rest).dropLast := by
    intro x
    rw [mem_inner_iff hincreasing, ← heq]
    simp only [Inner, mem_thenBreakpoints_iff husable b]
  simp only [hinner, hcurve]
  exact through_graph_iff hbreaks hincreasing

/-- `then` returns, and what it returns is the composition if and only if the
composition bends at inner kept candidates only. -/
theorem then_composes_iff {as bs : List (ℚ × ℚ)} {a b : Calibration ℚ} (ha : new as = some a)
    (hb : new bs = some b) :
    ∃ c, then' a b = .ok c ∧ ∃ f : ℚ → ℚ, (∀ x, (a.apply x >>= b.apply) = .ok (f x)) ∧
      ((∀ x, c.apply x = (a.apply x >>= b.apply)) ↔
        ∀ x, Kink f x → Inner (Candidate a b) x) := by
  have hbind := bind_apply (usable_of_new ha) (usable_of_new hb)
  refine ⟨chained a b, then_eq ha hb, composite a b, hbind, ?_⟩
  rw [← curve_chained_iff ha hb]
  refine forall_congr' fun x => ?_
  rw [(usable_of_new (new_chained ha b)).apply_eq, hbind, Except.ok.injEq]

/-- A first calibration that reaches beyond the bend of the second: the chain is the
composition. -/
theorem then_composes_iff_reached :
    let a : Calibration ℚ := ⟨[(0, 0), (4, 4)]⟩
    let b : Calibration ℚ := ⟨[(1, 0), (2, 1), (3, 3)]⟩
    new [((0 : ℚ), (0 : ℚ)), (4, 4)] = some a ∧
      new [((1 : ℚ), (0 : ℚ)), (2, 1), (3, 3)] = some b ∧
      ∃ c, then' a b = .ok c ∧ ∀ x, c.apply x = (a.apply x >>= b.apply) := by
  intro a b
  have ha : new [((0 : ℚ), (0 : ℚ)), (4, 4)] = some a := by decide +kernel
  have hb : new [((1 : ℚ), (0 : ℚ)), (2, 1), (3, 3)] = some b := by decide +kernel
  obtain ⟨c, hc, f, hf, hiff⟩ := then_composes_iff ha hb
  refine ⟨ha, hb, c, hc, hiff.mpr fun x hx => ?_⟩
  -- the first calibration changes nothing, so the composition bends where the second does
  have hcurve : f = through (1, 0) (2, 1) [(3, 3)] := by
    funext t
    have hline : a.curve t = t := by
      show line (0, 0) (4, 4) t = t
      rw [line]
      ring
    have hvalue : f t = composite a b t :=
      Except.ok.inj ((hf t).symm.trans (bind_apply (usable_of_new ha) (usable_of_new hb) t))
    rw [hvalue, composite, hline]
    rfl
  have hbend : x ∈ [2] := (breaksIn_through (usable_of_new hb).2).mem_of_kink (hcurve ▸ hx)
  have hkept (z : ℚ) (hz : z ∈ thenBreakpoints a b) : Kept (Candidate a b) z :=
    (mem_thenBreakpoints_iff (usable_of_new ha) b).mp hz
  rw [List.mem_singleton.mp hbend]
  exact ⟨hkept 2 (by decide +kernel), ⟨0, hkept 0 (by decide +kernel), by norm_num⟩,
    4, hkept 4 (by decide +kernel), by norm_num⟩

/-- A bend of the second calibration that the first reaches only beyond its last
point is lost. -/
theorem then_loses_bend :
    ¬ ∀ (as bs : List (ℚ × ℚ)) (a b : Calibration ℚ), new as = some a → new bs = some b →
      ∃ c, then' a b = .ok c ∧ ∀ x, c.apply x = (a.apply x >>= b.apply) := by
  intro h
  have ha : new [((0 : ℚ), (0 : ℚ)), (1, 1)] = some ⟨[(0, 0), (1, 1)]⟩ := by decide +kernel
  have hb : new [((0 : ℚ), (0 : ℚ)), (1, 1), (2, 3)] = some ⟨[(0, 0), (1, 1), (2, 3)]⟩ := by
    decide +kernel
  have hthen : then' (⟨[(0, 0), (1, 1)]⟩ : Calibration ℚ) ⟨[(0, 0), (1, 1), (2, 3)]⟩ =
      .ok ⟨[(0, 0), (1, 1)]⟩ := by decide +kernel
  have htwo : (⟨[(0, 0), (1, 1)]⟩ : Calibration ℚ).apply 2 = .ok 2 := by decide +kernel
  have hthree : (⟨[(0, 0), (1, 1), (2, 3)]⟩ : Calibration ℚ).apply 2 = .ok 3 := by decide +kernel
  obtain ⟨c, hc, heq⟩ := h _ _ _ _ ha hb
  have hchain : c = ⟨[(0, 0), (1, 1)]⟩ := Except.ok.inj (hc.symm.trans hthen)
  have hvalue := heq 2
  rw [hchain, htwo] at hvalue
  have hvalues := hvalue.trans hthree
  revert hvalues
  decide +kernel

/-- Two points make a line. -/
theorem exists_line_of_new {p q : ℚ × ℚ} {c : Calibration ℚ} (h : new [p, q] = some c) :
    ∃ u v, c.curve = line u v := by
  obtain ⟨-, hperm, -⟩ := new_eq_some_iff.mp h
  obtain ⟨u, v, hpoints⟩ := List.length_eq_two.mp hperm.length_eq
  refine ⟨u, v, ?_⟩
  funext x
  simp only [curve, hpoints, through_nil]

/-- Two straight calibrations are composed as they should. -/
theorem then_straight {p q r s : ℚ × ℚ} {a b : Calibration ℚ} (ha : new [p, q] = some a)
    (hb : new [r, s] = some b) :
    ∃ c, then' a b = .ok c ∧ ∀ x, c.apply x = (a.apply x >>= b.apply) := by
  obtain ⟨u, v, hcurve⟩ := exists_line_of_new ha
  obtain ⟨u', v', hcurve'⟩ := exists_line_of_new hb
  have hnone : ∀ x, ¬ Kink (composite a b) x := by
    intro x hx
    refine hx ⟨1, zero_lt_one, ?_⟩
    have heq : composite a b = fun x => line u' v' ((v.2 - u.2) / (v.1 - u.1) * x +
        (u.2 - (v.2 - u.2) / (v.1 - u.1) * u.1)) := by
      funext x
      rw [composite, hcurve, hcurve', line_eq u v]
    rw [heq]
    exact (straightOn_line u' v' Set.univ).comp_affine fun x _ => Set.mem_univ _
  refine ⟨chained a b, then_eq ha hb, fun x => ?_⟩
  rw [(usable_of_new (new_chained ha b)).apply_eq, bind_apply (usable_of_new ha) (usable_of_new hb),
    (curve_chained_iff ha hb).mpr fun y hy => absurd hy (hnone y)]

end Calibration

end WaterController
