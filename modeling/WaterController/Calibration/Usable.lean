import Mathlib.Data.List.Chain
import WaterController.Core.Calibration
import WaterController.Library.SingleFloat

/-!
# Calibrations that can be applied

A calibration is `Usable` when it has two points at least and its raw values
increase strictly.  On a usable one `apply` follows a line between two points of
different raw values at every reading (`Usable.applies`).

The constructor sorts and rejects neighbours that are too close, so what it
accepts is usable.  The exception are infinite raw values, for the difference of
one infinity with itself is not small but no number at all (`usable_new_iff`).
-/

namespace WaterController

/-! ## Neighbours -/

section Neighbours

variable {α : Type}

theorem windows2_cons_cons (a b : α) (l : List α) :
    windows2 (a :: b :: l) = (a, b) :: windows2 (b :: l) := rfl

/-- A list is a chain when its windows are related. -/
theorem isChain_iff_windows2 {R : α → α → Prop} {l : List α} :
    l.IsChain R ↔ ∀ w ∈ windows2 l, R w.1 w.2 := by
  induction l with
  | nil => simp [windows2]
  | cons a as ih =>
      cases as with
      | nil => simp [windows2]
      | cons b bs =>
          rw [List.isChain_cons_cons, ih]
          simp [windows2]

theorem windows2_subset {l : List α} {w : α × α} (h : w ∈ windows2 l) : w.1 ∈ l ∧ w.2 ∈ l :=
  ⟨(List.of_mem_zip h).1, List.mem_of_mem_tail (List.of_mem_zip h).2⟩

/-- Two neighbours form a window. -/
theorem getElem_mem_windows2 {l : List α} {i : Nat} (h : i + 1 < l.length) :
    (l[i], l[i + 1]) ∈ windows2 l := by
  have hlen : i < (l.zip l.tail).length := by simp; omega
  have hmem := List.getElem_mem hlen
  rwa [List.getElem_zip, List.getElem_tail] at hmem

theorem index_of_lt {l : List α} {i : Nat} (h : i < l.length) : index l i = .ok l[i] := by
  simp [index, h]

end Neighbours

namespace Calibration

/-! ## Segments -/

section Segments

variable {F : Type} [LT F] [LE F] [DecidableLT F] [DecidableLE F]

/-- The representation invariant. -/
def Usable (c : Calibration F) : Prop :=
  2 ≤ c.points.length ∧ c.points.Pairwise fun a b => a.1 < b.1

instance (c : Calibration F) : Decidable c.Usable := inferInstanceAs (Decidable (_ ∧ _))

/-- With two points at least, the segment of every reading is a window. -/
theorem segment_mem_windows2 {c : Calibration F} (h : 2 ≤ c.points.length) (raw : F) :
    ∃ w ∈ windows2 c.points, c.segment raw = .ok w := by
  have hfirst : index c.points 0 = .ok c.points[0] := index_of_lt (by omega)
  have hsecond : index c.points 1 = .ok c.points[1] := index_of_lt (by omega)
  by_cases hlow : raw < c.points[0].1
  · refine ⟨(c.points[0], c.points[1]), getElem_mem_windows2 (by omega), ?_⟩
    simp only [segment, hfirst, hsecond, bind, Except.bind, hlow, if_true]
    rfl
  · cases hfind : (windows2 c.points).find?
        fun w => decide (w.1.1 ≤ raw) && decide (raw ≤ w.2.1) with
    | some w =>
        refine ⟨w, List.mem_of_find?_eq_some hfind, ?_⟩
        simp only [segment, hfirst, bind, Except.bind, hlow, if_false, hfind]
        rfl
    | none =>
        -- above the last point the last segment is extrapolated
        have hn : c.points.length - 2 + 1 < c.points.length := by omega
        have hlast : c.points.length - 2 + 1 = c.points.length - 1 := by omega
        refine ⟨(c.points[c.points.length - 2], c.points[c.points.length - 2 + 1]),
          getElem_mem_windows2 hn, ?_⟩
        have hsub₂ : lengthSub c.points.length 2 = .ok (c.points.length - 2) := if_pos h
        have hsub₁ : lengthSub c.points.length 1 = .ok (c.points.length - 1) := if_pos (by omega)
        have hpen : index c.points (c.points.length - 2) = .ok c.points[c.points.length - 2] :=
          index_of_lt (by omega)
        have hult : index c.points (c.points.length - 1) =
            .ok c.points[c.points.length - 2 + 1] := by
          rw [index_of_lt (by omega)]
          simp only [hlast]
        simp only [segment, hfirst, bind, Except.bind, hlow, if_false, hfind, hsub₂, hsub₁, hpen,
          hult]
        rfl

/-- The segment of a usable calibration runs between increasing raw values. -/
theorem Usable.segment {c : Calibration F} (h : c.Usable) (raw : F) :
    ∃ a b, c.segment raw = .ok (a, b) ∧ a.1 < b.1 := by
  obtain ⟨w, hw, hseg⟩ := segment_mem_windows2 h.1 raw
  exact ⟨w.1, w.2, hseg, isChain_iff_windows2.mp h.2.isChain w hw⟩

end Segments

/-! ## Application -/

/-- At every reading `apply` takes two points and divides by a difference that is
not zero. -/
def Applies (c : Calibration Float32) : Prop :=
  ∀ raw, ∃ a b, c.segment raw = .ok (a, b) ∧ (b.1 - a.1 == 0) = false ∧
    c.apply raw = .ok (interp a b raw)

theorem Usable.applies {c : Calibration Float32} (h : c.Usable) : c.Applies := by
  intro raw
  obtain ⟨a, b, hseg, hlt⟩ := h.segment raw
  refine ⟨a, b, hseg, SingleFloat.sub_ne_zero hlt, ?_⟩
  simp only [apply, hseg, bind, Except.bind]
  rfl

/-! ## Construction -/

/-- Two raw values are finite, or else they differ. -/
def Separate (p q : Float32 × Float32) : Prop :=
  (p.1.isFinite = true ∧ q.1.isFinite = true) ∨ p.1 < q.1 ∨ q.1 < p.1

theorem Separate.symm {p q : Float32 × Float32} (h : Separate p q) : Separate q p := by
  rcases h with ⟨hp, hq⟩ | hlt | hgt
  · exact .inl ⟨hq, hp⟩
  · exact .inr (.inr hlt)
  · exact .inr (.inl hgt)

/-- No infinity is the raw value of two points, and all raw values are numbers. -/
def InfinitiesDiffer (points : List (Float32 × Float32)) : Prop := points.Pairwise Separate

theorem InfinitiesDiffer.perm {points points' : List (Float32 × Float32)}
    (h : InfinitiesDiffer points) (hperm : points.Perm points') : InfinitiesDiffer points' :=
  List.Pairwise.perm h hperm Separate.symm

/-- The rank of the raw value of a point. -/
private def key (p : Float32 × Float32) : ℤ ×ₗ ℤ ×ₗ ℤ :=
  (SingleFloat.rank p.1).getD (toLex (0, toLex (0, 0)))

/-- The raw value of a point is a number. -/
private def Ranked (p : Float32 × Float32) : Prop := SingleFloat.rank p.1 = some (key p)

private theorem ranked_of_exists {p : Float32 × Float32}
    (h : ∃ a, SingleFloat.rank p.1 = some a) : Ranked p := by
  obtain ⟨a, ha⟩ := h
  rw [Ranked, key, ha]
  rfl

private theorem Ranked.lt_iff {p q : Float32 × Float32} (hp : Ranked p) (hq : Ranked q) :
    p.1 < q.1 ↔ key p < key q := by
  rw [SingleFloat.lt_iff, show SingleFloat.rank p.1 = _ from hp,
    show SingleFloat.rank q.1 = _ from hq]
  simp

private theorem ranked_of_lt {p q : Float32 × Float32} (h : p.1 < q.1) : Ranked p ∧ Ranked q := by
  obtain ⟨a, ha, b, hb, -⟩ := SingleFloat.lt_iff.mp h
  exact ⟨ranked_of_exists ⟨a, ha⟩, ranked_of_exists ⟨b, hb⟩⟩

private theorem Separate.ranked {p q : Float32 × Float32} (h : Separate p q) :
    Ranked p ∧ Ranked q := by
  rcases h with ⟨hp, hq⟩ | hlt | hgt
  · exact ⟨ranked_of_exists (SingleFloat.exists_rank hp),
      ranked_of_exists (SingleFloat.exists_rank hq)⟩
  · exact ranked_of_lt hlt
  · exact (ranked_of_lt hgt).symm

/-- Every one of two points at least is separate from another, so it is a number. -/
private theorem InfinitiesDiffer.ranked {points : List (Float32 × Float32)}
    (h : InfinitiesDiffer points) (hlen : 2 ≤ points.length) : ∀ p ∈ points, Ranked p := by
  cases points with
  | nil => cases hlen
  | cons a as =>
      cases as with
      | nil => exact absurd hlen (Nat.not_le.mpr Nat.one_lt_two)
      | cons b bs =>
          have hhead := (List.pairwise_cons.mp h).1
          intro p hp
          rcases List.mem_cons.mp hp with rfl | hrest
          · exact (hhead b List.mem_cons_self).ranked.1
          · exact (hhead p hrest).ranked.2

/-- The sort of the constructor sorts numbers. -/
private theorem pairwise_sorted {points : List (Float32 × Float32)}
    (h : ∀ p ∈ points, Ranked p) :
    (points.insertionSort rawLe).Pairwise fun p q => key p ≤ key q := by
  have hmap : (points.insertionSort rawLe).map key = (points.map key).insertionSort (· ≤ ·) := by
    refine List.map_insertionSort _ _ key points fun p hp q hq => ?_
    rw [rawLe, (h q hq).lt_iff (h p hp), not_lt]
  rw [← List.pairwise_map, hmap]
  exact List.pairwise_insertionSort _ _

/-- Finite raw values of one rank are closer than the constructor allows. -/
private theorem close_of_key_eq {p q : Float32 × Float32} (hp : Ranked p) (hq : Ranked q)
    (hfinite : p.1.isFinite = true) (h : key p = key q) :
    CalNum.abs (p.1 - q.1) < CalNum.epsilon (F := Float32) := by
  have hrank : SingleFloat.rank p.1 = SingleFloat.rank q.1 := by
    rw [show SingleFloat.rank p.1 = _ from hp, show SingleFloat.rank q.1 = _ from hq, h]
  obtain ⟨s, hs⟩ := SingleFloat.sub_of_rank_eq hfinite hrank
  rw [hs]
  cases s <;> decide

/-- What the constructor accepts is usable if and only if the infinite raw values
differ. -/
theorem usable_new_iff {points : List (Float32 × Float32)} {c : Calibration Float32}
    (h : new points = some c) : c.Usable ↔ InfinitiesDiffer points := by
  have hperm := List.perm_insertionSort rawLe points
  unfold new at h
  split at h
  · cases h
  · rename_i hlen
    dsimp only at h
    split at h
    · cases h
    · rename_i hfar
      cases h
      have htwo : 2 ≤ points.length := Nat.le_of_not_lt hlen
      constructor
      · rintro ⟨-, hincreasing⟩
        have hsorted : InfinitiesDiffer (points.insertionSort rawLe) :=
          hincreasing.imp fun h => .inr (.inl h)
        exact hsorted.perm hperm
      · intro hdiffer
        have hranked : ∀ p ∈ points.insertionSort rawLe, Ranked p :=
          fun p hp => hdiffer.ranked htwo p (hperm.mem_iff.mp hp)
        have hsorted := isChain_iff_windows2.mp (pairwise_sorted (hdiffer.ranked htwo)).isChain
        have hseparate := isChain_iff_windows2.mp (hdiffer.perm hperm.symm).isChain
        -- neighbours of one rank are too close, or one infinity twice
        have hstrict : ∀ w ∈ windows2 (points.insertionSort rawLe), key w.1 < key w.2 := by
          intro w hw
          obtain ⟨hp, hq⟩ := windows2_subset hw
          refine lt_of_le_of_ne (hsorted w hw) fun heq => ?_
          rcases hseparate w hw with ⟨hfinite, -⟩ | hlt | hgt
          · refine hfar (List.any_eq_true.mpr ⟨w, hw, decide_eq_true ?_⟩)
            exact close_of_key_eq (hranked _ hp) (hranked _ hq) hfinite heq
          · exact absurd (((hranked _ hp).lt_iff (hranked _ hq)).mp hlt) heq.not_lt
          · exact absurd (((hranked _ hq).lt_iff (hranked _ hp)).mp hgt) heq.not_gt
        have hkeys : ((points.insertionSort rawLe).map key).Pairwise (· < ·) :=
          (List.isChain_map key).mpr (isChain_iff_windows2.mpr hstrict) |>.pairwise
        refine ⟨by rw [List.length_insertionSort]; exact htwo, ?_⟩
        refine (List.pairwise_map.mp hkeys).imp_of_mem fun hp hq hlt => ?_
        exact ((hranked _ hp).lt_iff (hranked _ hq)).mpr hlt

end Calibration

end WaterController
