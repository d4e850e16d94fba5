import WaterController.Core.Schedule
import WaterController.Library.Window

/-!
# Schedule windows neither lose nor repeat a firing

The loop of `Schedule.evaluateRange` visits the whole minutes of a window that
is open on the left, up to its cap (`evaluateRange_eq`).  Windows that follow
each other join, so a list of readings that never go back, with gaps below the
cap, fires what is due at each minute once.

`Rule.Due` says when a rule is due, in the terms of the configuration.
-/

namespace WaterController

open Windows (upTo)

/-! ## Whole minutes -/

namespace NaiveDateTime

/-- The number of the minute a time lies in. -/
def minuteIndex (dt : NaiveDateTime) : Int := dt.secs / 60

/-- The start of a minute. -/
def ofMinute (m : Int) : NaiveDateTime := ⟨60 * m, 0⟩

@[simp] theorem minuteIndex_ofMinute (m : Int) : (ofMinute m).minuteIndex = m := by
  simp only [minuteIndex, ofMinute]
  omega

theorem floorToMinute_eq (dt : NaiveDateTime) : floorToMinute dt = ofMinute dt.minuteIndex := by
  have hsecs : dt.secs - dt.secs % 60 = 60 * (dt.secs / 60) := by omega
  simp only [floorToMinute, withSecondZero, withNanosecondZero, ofMinute, minuteIndex, hsecs]

theorem addMinutes_ofMinute (m : Int) (n : Int) : (ofMinute m).addMinutes n = ofMinute (m + n) := by
  simp only [addMinutes, ofMinute, Int.mul_add]

theorem ofMinute_le_iff {m n : Int} : ofMinute m ≤ ofMinute n ↔ m ≤ n := by
  show (60 * m < 60 * n ∨ 60 * m = 60 * n ∧ (0 : Fin 1000000000) ≤ 0) ↔ m ≤ n
  have hzero : (0 : Fin 1000000000) ≤ 0 := Nat.le_refl 0
  simp only [hzero, and_true]
  omega

theorem ofMinute_lt_iff {m n : Int} : ofMinute m < ofMinute n ↔ m < n := by
  show (60 * m < 60 * n ∨ 60 * m = 60 * n ∧ (0 : Fin 1000000000) < 0) ↔ m < n
  have hzero : ¬ (0 : Fin 1000000000) < 0 := Nat.lt_irrefl 0
  simp only [hzero, and_false, or_false]
  omega

/-- A time that is not later lies in a minute that is not later. -/
theorem minuteIndex_le {a b : NaiveDateTime} (h : a ≤ b) : a.minuteIndex ≤ b.minuteIndex := by
  have hsecs : a.secs ≤ b.secs := by
    rcases h with hlt | ⟨heq, -⟩
    · exact Int.le_of_lt hlt
    · exact Int.le_of_eq heq
  simp only [minuteIndex]
  omega

theorem le_of_lt {a b : NaiveDateTime} (h : a < b) : a ≤ b := by
  rcases h with hlt | ⟨heq, hn⟩
  · exact .inl hlt
  · exact .inr ⟨heq, Nat.le_of_lt hn⟩

/-- A gap of at most 25 hours spans at most as many minutes as the cap allows. -/
theorem minuteIndex_le_add {a b : NaiveDateTime}
    (h : b.nanosFrom a ≤ 25 * 3600 * 1000000000) :
    b.minuteIndex ≤ a.minuteIndex + Schedule.maxIters := by
  have ha := a.nanos.isLt
  have hb := b.nanos.isLt
  have hmax : (Schedule.maxIters : Int) = 1500 := rfl
  simp only [nanosFrom] at h
  simp only [minuteIndex, hmax]
  omega

theorem hour_lt (dt : NaiveDateTime) : dt.hour < 24 := by
  simp only [hour, secsOfDay]
  omega

theorem minute_lt (dt : NaiveDateTime) : dt.minute < 60 := by
  simp only [minute]
  omega

theorem numDaysFromMonday_lt (dt : NaiveDateTime) : dt.numDaysFromMonday < 7 := by
  simp only [numDaysFromMonday]
  omega

end NaiveDateTime

open NaiveDateTime (ofMinute)

/-! ## Rules that are due -/

/-- An enabled rule is due at a time whose hour and minute it lists, on one of
its days. -/
def Rule.Due (r : Rule) (dt : NaiveDateTime) : Prop :=
  r.enabled = true ∧ (∃ h ∈ r.hours, h.toNat = dt.hour) ∧ (∃ m ∈ r.minutes, m.toNat = dt.minute) ∧
    (r.daysOfWeek = [] ∨ ∃ d ∈ r.daysOfWeek, d.toNat = dt.numDaysFromMonday)

/-- A small number is in a list of bytes when the byte of it is. -/
private theorem contains_ofNat {xs : List UInt8} {n : Nat} (h : n < 256) :
    xs.contains (UInt8.ofNat n) = true ↔ ∃ x ∈ xs, x.toNat = n := by
  rw [List.contains_iff_mem]
  constructor
  · intro hmem
    exact ⟨_, hmem, UInt8.toNat_ofNat_of_lt' h⟩
  · rintro ⟨x, hx, rfl⟩
    rwa [UInt8.ofNat_toNat]

theorem Rule.matchesDow_iff (r : Rule) {w : Nat} (h : w < 256) :
    r.matchesDow w = true ↔ r.daysOfWeek = [] ∨ ∃ d ∈ r.daysOfWeek, d.toNat = w := by
  rw [Rule.matchesDow]
  split
  · rename_i hempty
    simp [List.isEmpty_iff.mp hempty]
  · rename_i hne
    rw [contains_ofNat h]
    simp only [List.isEmpty_iff] at hne
    simp [hne]

/-- The code fires exactly the rules that are due. -/
theorem Rule.matchesMinute_iff (r : Rule) (dt : NaiveDateTime) :
    r.matchesMinute dt = true ↔ r.Due dt := by
  have hh : dt.hour < 256 := Nat.lt_trans dt.hour_lt (by decide)
  have hm : dt.minute < 256 := Nat.lt_trans dt.minute_lt (by decide)
  have hd : dt.numDaysFromMonday < 256 := Nat.lt_trans dt.numDaysFromMonday_lt (by decide)
  unfold Rule.matchesMinute Rule.Due
  rw [← contains_ofNat hh, ← contains_ofNat hm, ← r.matchesDow_iff hd]
  cases r.enabled <;> cases r.hours.contains (UInt8.ofNat dt.hour) <;>
    cases r.minutes.contains (UInt8.ofNat dt.minute) <;> simp

instance (r : Rule) (dt : NaiveDateTime) : Decidable (r.Due dt) :=
  decidable_of_iff _ (r.matchesMinute_iff dt)

namespace Schedule

/-- The rules that are due at a time, in list order. -/
def dueAt (s : Schedule) (dt : NaiveDateTime) : List Rule :=
  s.rules.filter fun r => decide (r.Due dt)

theorem filter_matchesMinute (s : Schedule) (dt : NaiveDateTime) :
    (s.rules.filter fun r => r.matchesMinute dt) = s.dueAt dt := by
  refine List.filter_congr fun r _ => ?_
  rw [Bool.eq_iff_iff, decide_eq_true_iff, r.matchesMinute_iff]

/-! ## One window -/

/-- The loop visits the minutes up to its end or its cap. -/
theorem minuteLoop_eq {α : Type} (visit : NaiveDateTime → List α) (n m : Int) (iters : Nat) :
    minuteLoop visit (ofMinute n) iters (ofMinute (m + 1)) =
      (upTo m (min n (m + iters))).flatMap fun k => visit (ofMinute k) := by
  induction iters generalizing m with
  | zero =>
      rw [Windows.upTo_of_le (by omega)]
      rfl
  | succ iters ih =>
      rw [minuteLoop]
      by_cases hle : m + 1 ≤ n
      · rw [if_pos (NaiveDateTime.ofMinute_le_iff.mpr hle), NaiveDateTime.addMinutes_ofMinute, ih,
          Windows.upTo_cons (show m < min n (m + (iters + 1 : Nat)) by omega),
          List.flatMap_cons, show min n (m + 1 + iters) = min n (m + (iters + 1 : Nat)) by omega]
      · rw [if_neg (mt NaiveDateTime.ofMinute_le_iff.mp hle), Windows.upTo_of_le (by omega)]
        rfl

/-- The last minute a window looks at. -/
def windowEnd (last now : NaiveDateTime) : Int :=
  min now.minuteIndex (last.minuteIndex + maxIters)

/-- The minutes a window looks at. -/
def window (last now : NaiveDateTime) : List Int := upTo last.minuteIndex (windowEnd last now)

theorem visitRange_eq {α : Type} (visit : NaiveDateTime → List α) (last now : NaiveDateTime) :
    visitRange visit last now = (window last now).flatMap fun k => visit (ofMinute k) := by
  unfold visitRange window
  split
  · rename_i hle
    have hmin := NaiveDateTime.minuteIndex_le hle
    rw [Windows.upTo_of_le (by simp only [windowEnd]; omega)]
    rfl
  · rw [NaiveDateTime.floorToMinute_eq, NaiveDateTime.floorToMinute_eq,
      NaiveDateTime.addMinutes_ofMinute, minuteLoop_eq]
    rfl

/-- A window fires what is due at each of its minutes. -/
theorem evaluateRange_eq (s : Schedule) (last now : NaiveDateTime) :
    s.evaluateRange last now = (window last now).flatMap fun k => s.dueAt (ofMinute k) := by
  rw [evaluateRange]
  rw [visitRange_eq]
  exact List.flatMap_congr fun k _ => s.filter_matchesMinute (ofMinute k)

/-- Below the cap a window ends in the minute of its reading. -/
theorem windowEnd_eq {last now : NaiveDateTime}
    (h : now.nanosFrom last ≤ 25 * 3600 * 1000000000) : windowEnd last now = now.minuteIndex := by
  have hcap := NaiveDateTime.minuteIndex_le_add h
  simp only [windowEnd]
  omega

/-! ## Consecutive windows -/

/-- Readings that move on by at most 25 hours at a time. -/
def Steady (a b : NaiveDateTime) : Prop := a < b ∧ b.nanosFrom a ≤ 25 * 3600 * 1000000000

instance (a b : NaiveDateTime) : Decidable (Steady a b) := inferInstanceAs (Decidable (_ ∧ _))

/-- **Windows.**  Along readings that move on by at most 25 hours at a time, the
windows together fire what is due at each whole minute after that of the first
reading and up to that of the last, minute by minute and in list order. -/
theorem evaluate_range_windows (s : Schedule) (t₀ : NaiveDateTime) (ts : List NaiveDateTime)
    (h : List.IsChain Steady (t₀ :: ts)) :
    ∃ minutes : List NaiveDateTime, minutes.Pairwise (· < ·) ∧
      (∀ m, m ∈ minutes ↔
        floorToMinute m = m ∧ floorToMinute t₀ < m ∧ m ≤ floorToMinute (ts.getLastD t₀)) ∧
      ((t₀ :: ts).zip ts).flatMap (fun w => s.evaluateRange w.1 w.2) =
        minutes.flatMap fun m => s.rules.filter fun r => decide (r.Due m) := by
  refine ⟨(upTo t₀.minuteIndex (ts.getLastD t₀).minuteIndex).map ofMinute, ?_, ?_, ?_⟩
  · rw [List.pairwise_map]
    exact (Windows.pairwise_upTo _ _).imp NaiveDateTime.ofMinute_lt_iff.mpr
  · intro m
    simp only [List.mem_map, Windows.mem_upTo, NaiveDateTime.floorToMinute_eq]
    constructor
    · rintro ⟨k, ⟨hlt, hle⟩, rfl⟩
      exact ⟨by rw [NaiveDateTime.minuteIndex_ofMinute], NaiveDateTime.ofMinute_lt_iff.mpr hlt,
        NaiveDateTime.ofMinute_le_iff.mpr hle⟩
    · rintro ⟨hwhole, hlt, hle⟩
      rw [← hwhole] at hlt hle
      exact ⟨m.minuteIndex, ⟨NaiveDateTime.ofMinute_lt_iff.mp hlt,
        NaiveDateTime.ofMinute_le_iff.mp hle⟩, hwhole⟩
  · have hjoin := (Windows.flatMap_upTo NaiveDateTime.minuteIndex
      (h.imp fun _ _ hs => NaiveDateTime.minuteIndex_le (NaiveDateTime.le_of_lt hs.1))).2
    rw [← hjoin, List.flatMap_map, List.flatMap_assoc]
    -- the windows of the readings are those of their minutes, below the cap
    refine List.flatMap_congr fun w hw => ?_
    have hsteady : Steady w.1 w.2 := Windows.rel_of_mem_zip h hw
    rw [evaluateRange_eq, window, windowEnd_eq hsteady.2]
    rfl

/-- Three readings around two default rules: the first window holds ten o'clock
and the second half past ten. -/
theorem evaluate_range_windows_default :
    ∃ minutes : List NaiveDateTime, minutes.Pairwise (· < ·) ∧
      (∀ m, m ∈ minutes ↔ floorToMinute m = m ∧
        floorToMinute ⟨1778407180, 0⟩ < m ∧ m ≤ floorToMinute ⟨1778409005, 500⟩) ∧
      defaultSchedule.evaluateRange ⟨1778407180, 0⟩ ⟨1778407210, 7⟩ ++
        defaultSchedule.evaluateRange ⟨1778407210, 7⟩ ⟨1778409005, 500⟩ =
        minutes.flatMap fun m => defaultSchedule.rules.filter fun r => decide (r.Due m) := by
  have h := evaluate_range_windows defaultSchedule ⟨1778407180, 0⟩
    [⟨1778407210, 7⟩, ⟨1778409005, 500⟩] (by decide)
  simpa using h

end Schedule

end WaterController
