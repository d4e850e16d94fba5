import WaterController.Schedule.Firings

/-!
# What a forward jump of the clock fires

The loop of a window starts at the minute after its last reading and stops at its
cap.  So over a jump that is longer than the cap it looks at the oldest minutes of
the gap, and the recent ones are the ones it leaves out.

A minute is *stale* at a reading when it lies more than 25 hours before it.  A
window fires no stale minute exactly when no rule is due at the stale minutes the
loop visits (`fires_recent_iff`).  There are none over a gap of at most 25 hours,
and over a gap of more than 50 hours there are no others.
-/

namespace WaterController

open NaiveDateTime (ofMinute)

namespace Schedule

/-- The minute lies more than 25 hours before the reading. -/
def Stale (now m : NaiveDateTime) : Prop := 25 * 3600 * 1000000000 < now.nanosFrom m

instance (now m : NaiveDateTime) : Decidable (Stale now m) := inferInstanceAs (Decidable (_ < _))

/-- The minute is one of the first whole minutes after a reading, up to the cap. -/
structure AfterReading (last m : NaiveDateTime) : Prop where
  whole : floorToMinute m = m
  after : floorToMinute last < m
  capped : m ≤ (floorToMinute last).addMinutes maxIters

theorem afterReading_iff {last m : NaiveDateTime} :
    AfterReading last m ↔
      ∃ k, m = ofMinute k ∧ last.minuteIndex < k ∧ k ≤ last.minuteIndex + maxIters := by
  constructor
  · rintro ⟨hwhole, hafter, hcapped⟩
    rw [NaiveDateTime.floorToMinute_eq] at hwhole
    rw [← hwhole, NaiveDateTime.floorToMinute_eq] at hafter hcapped
    rw [NaiveDateTime.addMinutes_ofMinute] at hcapped
    exact ⟨m.minuteIndex, hwhole.symm, NaiveDateTime.ofMinute_lt_iff.mp hafter,
      NaiveDateTime.ofMinute_le_iff.mp hcapped⟩
  · rintro ⟨k, rfl, hafter, hcapped⟩
    refine ⟨?_, ?_, ?_⟩
    · rw [NaiveDateTime.floorToMinute_eq, NaiveDateTime.minuteIndex_ofMinute]
    · rw [NaiveDateTime.floorToMinute_eq]
      exact NaiveDateTime.ofMinute_lt_iff.mpr hafter
    · rw [NaiveDateTime.floorToMinute_eq, NaiveDateTime.addMinutes_ofMinute]
      exact NaiveDateTime.ofMinute_le_iff.mpr hcapped

/-- A minute of a window is one of those after its last reading. -/
theorem afterReading_of_mem_window {last now : NaiveDateTime} {k : Int}
    (h : k ∈ window last now) : AfterReading last (ofMinute k) := by
  obtain ⟨hafter, hend⟩ := Windows.mem_upTo.mp h
  exact afterReading_iff.mpr ⟨k, rfl, hafter, Int.le_trans hend (Int.min_le_right _ _)⟩

/-- A stale minute does not lie behind the reading, so the loop visits it. -/
theorem mem_window_of_stale {last now : NaiveDateTime} {k : Int}
    (h : AfterReading last (ofMinute k)) (hstale : Stale now (ofMinute k)) :
    k ∈ window last now := by
  obtain ⟨k', hk, hafter, hcapped⟩ := afterReading_iff.mp h
  obtain rfl : k = k' := NaiveDateTime.ofMinute_injective hk
  have hnow : k ≤ now.minuteIndex := by
    have hnanos := now.nanos.isLt
    simp only [Stale, NaiveDateTime.nanosFrom, ofMinute] at hstale
    simp only [NaiveDateTime.minuteIndex]
    omega
  exact Windows.mem_upTo.mpr ⟨hafter, Int.le_min.mpr ⟨hnow, hcapped⟩⟩

/-- For every schedule and all readings, what a window fires lies within the 25
hours before its reading if and only if no rule is due at a stale minute among the
first ones after the last reading. -/
theorem fires_recent_iff (s : Schedule) (last now : NaiveDateTime) :
    (∀ f ∈ s.firings last now, ¬ Stale now f.1) ↔
      ∀ m, AfterReading last m → Stale now m → ∀ r ∈ s.rules, ¬ r.Due m := by
  constructor
  · intro hrecent m hm hstale r hr hdue
    obtain ⟨k, rfl, -⟩ := afterReading_iff.mp hm
    have hfired := mem_firings.mpr ⟨k, mem_window_of_stale hm hstale, rfl, hr, hdue⟩
    exact hrecent _ hfired hstale
  · rintro hnone ⟨m, r⟩ hf hstale
    obtain ⟨k, hk, rfl, hr, hdue⟩ := mem_firings.mp hf
    exact hnone _ (afterReading_of_mem_window hk) hstale r hr hdue

/-- Over a gap of at most 25 hours every firing is recent. -/
theorem fires_recent_of_gap (s : Schedule) {last now : NaiveDateTime}
    (h : now.nanosFrom last ≤ 25 * 3600 * 1000000000) :
    ∀ f ∈ s.firings last now, ¬ Stale now f.1 := by
  rintro ⟨m, r⟩ hf
  obtain ⟨k, hk, rfl, -⟩ := mem_firings.mp hf
  have hafter := (Windows.mem_upTo.mp hk).1
  have hnanos := last.nanos.isLt
  simp only [NaiveDateTime.minuteIndex] at hafter
  simp only [NaiveDateTime.nanosFrom] at h
  simp only [Stale, NaiveDateTime.nanosFrom, ofMinute, Fin.val_zero]
  omega

/-- Over a gap of more than 50 hours every firing is stale. -/
theorem fires_stale_of_gap (s : Schedule) {last now : NaiveDateTime}
    (h : 50 * 3600 * 1000000000 < now.nanosFrom last) :
    ∀ f ∈ s.firings last now, Stale now f.1 := by
  rintro ⟨m, r⟩ hf
  obtain ⟨k, hk, rfl, -⟩ := mem_firings.mp hf
  obtain ⟨-, hend⟩ := Windows.mem_upTo.mp hk
  have hcapped : k ≤ last.minuteIndex + maxIters := Int.le_trans hend (Int.min_le_right _ _)
  have hmax : (maxIters : Int) = 1500 := rfl
  simp only [NaiveDateTime.minuteIndex, hmax] at hcapped
  simp only [NaiveDateTime.nanosFrom] at h
  simp only [Stale, NaiveDateTime.nanosFrom, ofMinute, Fin.val_zero]
  omega

/-- The first reading after a power-on is at the epoch, and the clock is set in May
2026.  The task then fires the rule of ten o'clock on the first of January 1970. -/
theorem fires_stale_at_sync :
    ∃ f ∈ defaultSchedule.firings ⟨3600, 0⟩ ⟨1778407210, 0⟩, Stale ⟨1778407210, 0⟩ f.1 := by
  have hrule : ∃ r ∈ defaultSchedule.rules, r.Due (ofMinute 600) := by decide
  obtain ⟨r, hr, hdue⟩ := hrule
  refine ⟨(ofMinute 600, r), mem_firings.mpr ⟨600, Windows.mem_upTo.mpr ?_, rfl, hr, hdue⟩, ?_⟩
  · decide
  · show Stale _ (ofMinute 600)
    decide

end Schedule

end WaterController
