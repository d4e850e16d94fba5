import Mathlib.Data.List.Count
import WaterController.Firmware.ScheduleTask
import WaterController.Schedule.Windows

/-!
# How often the schedule task fires

The task overwrites its last reading with every reading, also with one that went
back.  So a minute can lie in the windows of two rounds, and a rule that is due
at it fires twice.  This is the only way it happens: the task fires every rule
once for each minute exactly when no rule is due at a minute that the windows of
two rounds share (`fires_once_iff`).  Readings that never go back share none
(`fires_once_of_monotone`).
-/

namespace WaterController

open Machines (Machine Transition)
open Windows (upTo)
open NaiveDateTime (ofMinute)

namespace NaiveDateTime

theorem ofMinute_injective {m n : Int} (h : ofMinute m = ofMinute n) : m = n := by
  have hidx := congrArg minuteIndex h
  rwa [minuteIndex_ofMinute, minuteIndex_ofMinute] at hidx

end NaiveDateTime

/-! ## The log of a window -/

namespace Schedule

theorem firings_eq (s : Schedule) (last now : NaiveDateTime) :
    s.firings last now =
      (window last now).flatMap fun k => (s.dueAt (ofMinute k)).map fun r => (ofMinute k, r) := by
  rw [firings]
  rw [visitRange_eq]
  refine List.flatMap_congr fun k _ => ?_
  rw [filter_matchesMinute]

theorem mem_firings {s : Schedule} {last now : NaiveDateTime} {m : NaiveDateTime} {r : Rule} :
    (m, r) ∈ s.firings last now ↔
      ∃ k ∈ window last now, m = ofMinute k ∧ r ∈ s.rules ∧ r.Due (ofMinute k) := by
  simp only [firings_eq, List.mem_flatMap, List.mem_map, dueAt, List.mem_filter,
    decide_eq_true_eq, Prod.mk.injEq]
  constructor
  · rintro ⟨k, hk, r', ⟨hr, hdue⟩, rfl, rfl⟩
    exact ⟨k, hk, rfl, hr, hdue⟩
  · rintro ⟨k, hk, rfl, hr, hdue⟩
    exact ⟨k, hk, r, ⟨hr, hdue⟩, rfl, rfl⟩

/-- Along different minutes, a pair is logged at its own minute only. -/
private theorem count_flatMap_le (s : Schedule) (m : NaiveDateTime) (r : Rule) {ks : List Int}
    (h : ks.Pairwise (· < ·)) :
    (ks.flatMap fun k => (s.dueAt (ofMinute k)).map fun r => (ofMinute k, r)).count (m, r) ≤
      s.rules.count r := by
  induction ks with
  | nil => exact Nat.zero_le _
  | cons k ks ih =>
      obtain ⟨hk, hks⟩ := List.pairwise_cons.mp h
      rw [List.flatMap_cons, List.count_append]
      by_cases hm : m = ofMinute k
      · have hrest : (m, r) ∉
            ks.flatMap fun k => (s.dueAt (ofMinute k)).map fun r => (ofMinute k, r) := by
          intro hmem
          obtain ⟨k', hk', hpair⟩ := List.mem_flatMap.mp hmem
          obtain ⟨r', -, heq⟩ := List.mem_map.mp hpair
          have hkk : k' = k := NaiveDateTime.ofMinute_injective ((congrArg Prod.fst heq).trans hm)
          have hlt : k < k' := hk k' hk'
          omega
        have hfirst : ((s.dueAt (ofMinute k)).map fun r => (ofMinute k, r)).count (m, r) =
            (s.dueAt (ofMinute k)).count r := by
          rw [hm]
          exact List.count_map_of_injective _ _ (fun a b hab => congrArg Prod.snd hab) r
        rw [List.count_eq_zero_of_not_mem hrest, hfirst]
        exact List.Sublist.count_le r List.filter_sublist
      · have hfirst : (m, r) ∉ (s.dueAt (ofMinute k)).map fun r => (ofMinute k, r) := by
          intro hmem
          obtain ⟨r', -, heq⟩ := List.mem_map.mp hmem
          exact hm (congrArg Prod.fst heq).symm
        rw [List.count_eq_zero_of_not_mem hfirst, Nat.zero_add]
        exact ih hks

/-- Within one window every entry of the schedule fires at most once for each
minute. -/
theorem count_firings_le (s : Schedule) (last now m : NaiveDateTime) (r : Rule) :
    (s.firings last now).count (m, r) ≤ s.rules.count r := by
  rw [firings_eq]
  exact s.count_flatMap_le m r (Windows.pairwise_upTo _ _)

end Schedule

/-! ## Runs of the task -/

/-- A round that was made. -/
abbrev RoundMade := Transition NaiveDateTime Round (List Rule)

namespace RoundMade

/-- What a round fired, with the minute of each firing. -/
def fired (t : RoundMade) : List (NaiveDateTime × Rule) :=
  t.input.schedule.firings t.before t.input.nowLocal

/-- The minutes in the window of a round. -/
def window (t : RoundMade) : List Int := Schedule.window t.before t.input.nowLocal

end RoundMade

/-- In each round an entry of the schedule fires at most once for a minute, and
no rule fires for the same minute in two rounds. -/
def FiresOnce (rounds : List RoundMade) : Prop :=
  (∀ t ∈ rounds, ∀ m r, t.fired.count (m, r) ≤ t.input.schedule.rules.count r) ∧
    rounds.Pairwise fun t u => ∀ f ∈ t.fired, f ∉ u.fired

/-- No rule of two rounds is due at a minute in the windows of both. -/
def NothingDueTwice (rounds : List RoundMade) : Prop :=
  rounds.Pairwise fun t u => ∀ k ∈ t.window, k ∈ u.window →
    ∀ r ∈ t.input.schedule.rules, r ∈ u.input.schedule.rules → ¬ r.Due (ofMinute k)

/-- **Firings.**  Over every run of the task, whatever the clock does, each rule
fires at most once for each minute if and only if no rule is due at a minute that
the windows of two rounds share. -/
theorem fires_once_iff (last : NaiveDateTime) (rounds : List Round) :
    FiresOnce (scheduleTask.trace last rounds) ↔
      NothingDueTwice (scheduleTask.trace last rounds) := by
  constructor
  · rintro ⟨-, honce⟩
    refine honce.imp fun {t u} h k hkt hku r hrt hru hdue => ?_
    exact h (ofMinute k, r) (Schedule.mem_firings.mpr ⟨k, hkt, rfl, hrt, hdue⟩)
      (Schedule.mem_firings.mpr ⟨k, hku, rfl, hru, hdue⟩)
  · intro hnone
    refine ⟨fun t _ m r => t.input.schedule.count_firings_le _ _ m r, ?_⟩
    refine hnone.imp fun {t u} h f hft hfu => ?_
    obtain ⟨k, hkt, hm, hrt, hdue⟩ := Schedule.mem_firings.mp hft
    obtain ⟨k', hku, hm', hru, -⟩ := Schedule.mem_firings.mp hfu
    have hk : k = k' := NaiveDateTime.ofMinute_injective (hm.symm.trans hm')
    exact h k hkt (hk ▸ hku) f.2 hrt hru hdue

/-- The clock goes back by twenty seconds over ten o'clock, and the rule of ten
o'clock fires in the first round and in the third. -/
theorem fires_twice_after_step_back :
    ¬ FiresOnce (scheduleTask.trace ⟨1778407180, 0⟩ [
      ⟨defaultSchedule, ⟨1778407210, 0⟩⟩, ⟨defaultSchedule, ⟨1778407190, 0⟩⟩,
      ⟨defaultSchedule, ⟨1778407220, 0⟩⟩]) := by
  rintro ⟨-, honce⟩
  revert honce
  decide

/-! ## Clocks that never go back -/

/-- Under readings that never go back, no round starts before the first. -/
private theorem minuteIndex_le_before {last : NaiveDateTime} {rounds : List Round}
    (h : (last :: rounds.map Round.nowLocal).Pairwise (· ≤ ·)) :
    ∀ t ∈ scheduleTask.trace last rounds, last.minuteIndex ≤ t.before.minuteIndex := by
  induction rounds generalizing last with
  | nil =>
      intro t ht
      cases ht
  | cons r rounds ih =>
      obtain ⟨hlast, hrest⟩ := List.pairwise_cons.mp h
      intro t ht
      rcases List.mem_cons.mp ht with rfl | ht
      · exact Int.le_refl _
      · have hr : last ≤ r.nowLocal := hlast _ List.mem_cons_self
        exact Int.le_trans (NaiveDateTime.minuteIndex_le hr) (ih hrest t ht)

/-- Readings that never go back share no minute, so nothing fires twice. -/
theorem fires_once_of_monotone {last : NaiveDateTime} {rounds : List Round}
    (h : (last :: rounds.map Round.nowLocal).Pairwise (· ≤ ·)) :
    FiresOnce (scheduleTask.trace last rounds) := by
  rw [fires_once_iff]
  rw [NothingDueTwice]
  induction rounds generalizing last with
  | nil => exact List.Pairwise.nil
  | cons r rounds ih =>
      obtain ⟨-, hrest⟩ := List.pairwise_cons.mp h
      refine List.pairwise_cons.mpr ⟨fun u hu k hkt hku => ?_, ih hrest⟩
      -- the window of `r` ends where the later ones have not yet begun
      have hend : k ≤ r.nowLocal.minuteIndex :=
        Int.le_trans (Windows.mem_upTo.mp hkt).2 (Int.min_le_left _ _)
      have hbegin : u.before.minuteIndex < k := (Windows.mem_upTo.mp hku).1
      have hle := minuteIndex_le_before hrest u hu
      omega

end WaterController
